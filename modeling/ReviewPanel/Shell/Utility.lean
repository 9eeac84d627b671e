import ReviewPanel.Invocation

/-!
# Small programs

The programs that scripts are made of: they write texts, show files, wait, and test conditions.  What
one does depends on its arguments and on the disk alone.  Like the shell, they stand in for those of a
system.

## Main definitions

* `Utility` : a program that looks at its arguments and the disk.
* `cat`, `echo`, `printf`, `sleep`, `test` : the programs.
-/

namespace ReviewPanel.Shell

/-- A program that looks at its arguments and the disk. -/
abbrev Utility := List String → Disk → Ran

/-- A program that only says how it ended. -/
def ending (code : Nat) : Ran := ⟨.code code, [], [], 0⟩

/-- A program that wrote a text. -/
def wrote (text : String) : Ran := ⟨.code 0, Utf8.ofString text, [], 0⟩

/-- A program that complained. -/
def complained (code : Nat) (text : String) : Ran := ⟨.code code, [], Utf8.ofString (text ++ "\n"), 0⟩

/-! ### Showing files -/

/-- Shows one file; a single hyphen is the input, which is empty. -/
def catOne (d : Disk) (path : String) : Ran :=
  if path = "-" then ending 0
  else
    match d.fileContent (d.locate path) with
    | .ok content => ⟨.code 0, content, [], 0⟩
    | .error e => complained 1 ("cat: " ++ path ++ ": " ++ e.reason)

/-- Two endings as one: the last failure counts. -/
def joinRan (a b : Ran) : Ran :=
  ⟨if b.exit.isSuccess then a.exit else b.exit, a.stdout ++ b.stdout, a.stderr ++ b.stderr,
    a.time + b.time⟩

/-- Shows files one after the other. -/
def cat : Utility := fun args d => (args.map (catOne d)).foldl joinRan (ending 0)

/-! ### Writing texts -/

/-- The character that a letter after a backslash means. -/
def escapes : List (Char × Char) :=
  [('a', Char.ofNat 7), ('b', Char.ofNat 8), ('f', Char.ofNat 12), ('n', '\n'), ('r', '\r'),
    ('t', '\t'), ('v', Char.ofNat 11), ('\\', '\\')]

/-- A text with its escapes replaced, and whether it goes on; `\c` ends it. -/
def unescape : List Char → List Char × Bool
  | '\\' :: 'c' :: _ => ([], false)
  | '\\' :: c :: cs =>
    let (rest, more) := unescape cs
    match escapes.lookup c with
    | some e => (e :: rest, more)
    | none => ('\\' :: c :: rest, more)
  | c :: cs =>
    let (rest, more) := unescape cs
    (c :: rest, more)
  | [] => ([], true)

/-- The settings of `echo`. -/
structure EchoStyle where
  newline : Bool
  escapes : Bool

/-- The settings that the first arguments make, and the arguments that are left. -/
def echoOptions (style : EchoStyle) : List String → EchoStyle × List String
  | [] => (style, [])
  | arg :: args =>
    match arg.toList with
    | '-' :: c :: cs =>
      if (c :: cs).all fun o => o == 'n' || o == 'e' || o == 'E' then
        echoOptions ((c :: cs).foldl
          (fun s o =>
            if o = 'n' then { s with newline := false } else { s with escapes := o = 'e' }) style) args
      else (style, arg :: args)
    | _ => (style, arg :: args)

/-- What `echo` writes. -/
def echoText (style : EchoStyle) (args : List String) : String :=
  let text := String.intercalate " " args
  let ending := if style.newline then "\n" else ""
  if style.escapes then
    match unescape text.toList with
    | (cs, true) => String.ofList cs ++ ending
    | (cs, false) => String.ofList cs
  else text ++ ending

/-- Writes its arguments; escapes are replaced on demand. -/
def echo : Utility := fun args _ =>
  let (style, args) := echoOptions ⟨true, false⟩ args
  wrote (echoText style args)

/-- Writes its arguments; escapes are always replaced. -/
def echoEscaped : Utility := fun args _ =>
  match args with
  | "-n" :: args => wrote (echoText ⟨false, true⟩ args)
  | args => wrote (echoText ⟨true, true⟩ args)

/-- Fills a format with arguments: what is written, the arguments left over, and whether one was
wanted. -/
def fillFormat : List Char → List String → List Char × List String × Bool
  | '%' :: '%' :: cs, args =>
    let (out, args, wanted) := fillFormat cs args
    ('%' :: out, args, wanted)
  | '%' :: c :: cs, args =>
    if c = 's' ∨ c = 'd' ∨ c = 'i' ∨ c = 'b' then
      let value := args.headD (if c = 'd' ∨ c = 'i' then "0" else "")
      let shown := if c = 'b' then (unescape value.toList).1 else value.toList
      let (out, args, _) := fillFormat cs args.tail
      (shown ++ out, args, true)
    else
      let (out, args, wanted) := fillFormat cs args
      ('%' :: c :: out, args, wanted)
  | '\\' :: c :: cs, args =>
    let (out, args, wanted) := fillFormat cs args
    match escapes.lookup c with
    | some e => (e :: out, args, wanted)
    | none => ('\\' :: c :: out, args, wanted)
  | c :: cs, args =>
    let (out, args, wanted) := fillFormat cs args
    (c :: out, args, wanted)
  | [], args => ([], args, false)

/-- Fills a format again and again until no argument is left over, at most so many times. -/
def fillAgain (format : List Char) : Nat → List String → List Char
  | 0, _ => []
  | n + 1, args =>
    let (out, rest, wanted) := fillFormat format args
    if wanted ∧ rest ≠ [] then out ++ fillAgain format n rest else out

/-- Writes its arguments in a format. -/
def printf : Utility := fun args _ =>
  match args with
  | [] => complained 2 "sh: 1: printf: usage: printf format [arg ...]"
  | format :: args => wrote (String.ofList (fillAgain format.toList (args.length + 1) args))

/-! ### Waiting -/

/-- The natural number that some digits write. -/
def number? (cs : List Char) : Option Nat :=
  if cs ≠ [] ∧ cs.all Char.isDigit then
    some (cs.foldl (fun n c => 10 * n + (c.toNat - '0'.toNat)) 0)
  else none

/-- A time in milliseconds, from seconds with a fraction. -/
def millis? (cs : List Char) : Option Nat :=
  let whole := cs.takeWhile (· ≠ '.')
  match cs.dropWhile (· ≠ '.') with
  | [] => (number? whole).map (1000 * ·)
  | _ :: fraction => do
    let n ← if whole.isEmpty then some 0 else number? whole
    let f ← number? fraction
    return 1000 * n + 1000 * f / Nat.pow 10 fraction.length

/-- A time in milliseconds, with a unit. -/
def interval? (text : String) : Option Nat :=
  let cs := text.toList
  match cs.getLast? with
  | some 's' => millis? cs.dropLast
  | some 'm' => (millis? cs.dropLast).map (60 * ·)
  | some 'h' => (millis? cs.dropLast).map (3600 * ·)
  | _ => millis? cs

/-- Waits for the sum of some times. -/
def sleep : Utility := fun args _ =>
  let advice := "\nTry 'sleep --help' for more information."
  if args.isEmpty then complained 1 ("sleep: missing operand" ++ advice)
  else
    match args.find? fun a => (interval? a).isNone with
    | some bad => complained 1 ("sleep: invalid time interval ‘" ++ bad ++ "’" ++ advice)
    | none => ⟨.code 0, [], [], (args.filterMap interval?).foldl (· + ·) 0⟩

/-! ### Conditions -/

/-- An integer with a sign. -/
def integer? (s : String) : Option Int :=
  match s.toList with
  | '-' :: cs => (number? cs).map fun n => -(n : Int)
  | '+' :: cs => (number? cs).map Int.ofNat
  | cs => (number? cs).map Int.ofNat

/-- A condition on one text. -/
def unary? (d : Disk) (operator operand : String) : Option Bool :=
  let loc := d.locate operand
  match operator with
  | "-n" => some (operand != "")
  | "-z" => some (operand == "")
  | "-e" => some (d.contains loc)
  | "-r" => some (d.contains loc)
  | "-d" => some (d.isDirectory loc)
  | "-f" => some (d.contains loc && !d.isDirectory loc)
  | "-s" => some (match d.fileContent loc with
      | .ok content => !content.isEmpty
      | .error _ => d.isDirectory loc)
  | _ => none

/-- A condition on two texts. -/
def binary? (left operator right : String) : Option Bool := do
  let compare := fun (f : Int → Int → Bool) => do return f (← integer? left) (← integer? right)
  match operator with
  | "=" | "==" => some (left == right)
  | "!=" => some (left != right)
  | "-eq" => compare (· == ·)
  | "-ne" => compare (· != ·)
  | "-lt" => compare (· < ·)
  | "-le" => compare (· ≤ ·)
  | "-gt" => compare (· > ·)
  | "-ge" => compare (· ≥ ·)
  | _ => none

/-- The value of a condition. -/
def condition? (d : Disk) : List String → Option Bool
  | [] => some false
  | [a] => some (a != "")
  | ["!", a] => some (a == "")
  | [operator, operand] => unary? d operator operand
  | [left, operator, right] =>
    match binary? left operator right with
    | some b => some b
    | none => if left = "!" then (condition? d [operator, right]).map (!·) else none
  | "!" :: rest => (condition? d rest).map (!·)
  | _ => none

/-- Ends well if a condition holds. -/
def test : Utility := fun args d =>
  match condition? d args with
  | some true => ending 0
  | some false => ending 1
  | none => complained 2 "sh: 1: test: unexpected operator"

/-- The same in brackets. -/
def bracket : Utility := fun args d =>
  if args.getLast? = some "]" then test args.dropLast d
  else complained 2 "sh: 1: [: missing ]"

end ReviewPanel.Shell
