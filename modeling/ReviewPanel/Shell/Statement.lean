import ReviewPanel.Shell.Token

/-!
# Statements of a shell script

A script is a list of commands, each joined to the next by `;`, `&&` or `||`.  A command is a list of
words with redirections, a choice `if … then … else … fi`, or one of these after `!`.

## Main definitions

* `Statement` : what a script does.
* `Statement.ofTokens?` : the statement of the words and operators of a script.
-/

namespace ReviewPanel.Shell

/-- Where a stream goes. -/
inductive Redirection where
  /-- To the place that a word names. -/
  | toPlace (stream : Nat) (place : Word)
  /-- Where another stream goes. -/
  | toStream (stream target : Nat)
deriving DecidableEq, Repr

/-- What a script does. -/
inductive Statement where
  | skip
  | command (words : List Word) (redirections : List Redirection)
  /-- One after the other. -/
  | andThen (first second : Statement)
  /-- The second only after success. -/
  | both (first second : Statement)
  /-- The second only after failure. -/
  | either (first second : Statement)
  | choice (condition yes no : Statement)
  | negation (s : Statement)
deriving Repr

namespace Statement

/-- The characters of a piece that is not protected. -/
def bare? : Piece → Option (List Char)
  | .literal cs false => some cs
  | .literal _ true | .parameter .. => none

/-- The reserved word that a token may be. -/
def reserved? : Token → Option String
  | .word w => (w.mapM bare?).map fun parts => String.ofList parts.flatten
  | _ => none

/-- The tokens begin with a reserved word. -/
def startsWith (ts : List Token) (words : List String) : Bool :=
  match ts with
  | t :: _ => (reserved? t).any words.contains
  | [] => false

/-- The words that end a list of commands. -/
def closers : List String := ["then", "elif", "else", "fi"]

/-- The words and redirections of a command, and what follows it. -/
def simple : List Token → Option (List Word × List Redirection × List Token)
  | .word w :: ts => (simple ts).map fun (ws, rs, rest) => (w :: ws, rs, rest)
  | .redirect n :: .word w :: ts =>
    (simple ts).map fun (ws, rs, rest) => (ws, .toPlace n w :: rs, rest)
  | .redirect _ :: _ => none
  | .duplicate n m :: ts =>
    (simple ts).map fun (ws, rs, rest) => (ws, .toStream n m :: rs, rest)
  | ts => some ([], [], ts)

/-- Drops the ends of commands. -/
def skipStops (ts : List Token) : List Token := ts.dropWhile (· == .stop)

/-- What is read. -/
inductive Goal where
  /-- Commands up to a word that ends them. -/
  | commands
  /-- Commands joined to what was read by `&&` and `||`. -/
  | chain (before : Statement)
  | one
  /-- What follows the condition of a choice. -/
  | branches (condition : Statement)

/-- Takes a reserved word off. -/
def expect (word : String) (ts : List Token) : Option (List Token) :=
  if startsWith ts [word] then some ts.tail else none

/-- Reads a statement in at most so many steps. -/
def read : Nat → Goal → List Token → Option (Statement × List Token)
  | 0, _, _ => none
  | fuel + 1, .commands, ts =>
    let ts := skipStops ts
    if ts.isEmpty || startsWith ts closers then some (.skip, ts)
    else do
      let (first, ts) ← read fuel .one ts
      let (first, ts) ← read fuel (.chain first) ts
      match ts with
      | .stop :: ts =>
        let (rest, ts) ← read fuel .commands ts
        return (.andThen first rest, ts)
      | ts => return (first, ts)
  | fuel + 1, .chain before, ts =>
    match ts with
    | .both :: ts => do
      let (next, ts) ← read fuel .one (skipStops ts)
      read fuel (.chain (.both before next)) ts
    | .either :: ts => do
      let (next, ts) ← read fuel .one (skipStops ts)
      read fuel (.chain (.either before next)) ts
    | ts => some (before, ts)
  | fuel + 1, .one, ts =>
    if startsWith ts ["!"] then do
      let (s, ts) ← read fuel .one ts.tail
      return (.negation s, ts)
    else if startsWith ts ["if"] then do
      let (condition, ts) ← read fuel .commands ts.tail
      read fuel (.branches condition) ts
    else if startsWith ts closers then none
    else
      match simple ts with
      | some ([], [], _) | none => none
      | some (words, redirections, ts) => some (.command words redirections, ts)
  | fuel + 1, .branches condition, ts => do
    let (yes, ts) ← read fuel .commands (← expect "then" ts)
    if startsWith ts ["elif"] then
      let (other, ts) ← read fuel .commands ts.tail
      let (no, ts) ← read fuel (.branches other) ts
      return (.choice condition yes no, ts)
    else if startsWith ts ["else"] then
      let (no, ts) ← read fuel .commands ts.tail
      return (.choice condition yes no, ← expect "fi" ts)
    else return (.choice condition yes .skip, ← expect "fi" ts)

/-- The statement of the words and operators of a script.  Between two tokens that are taken off, the
reader takes fewer than four steps. -/
def ofTokens? (ts : List Token) : Option Statement :=
  match read (4 * ts.length + 4) .commands ts with
  | some (s, []) => some s
  | _ => none

end Statement

end ReviewPanel.Shell
