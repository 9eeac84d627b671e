import ReviewPanel.Disk

/-!
# Words of a shell script

A script is cut into words and operators.  Inside a word single quotes keep everything, double quotes
keep everything but `$` and the backslash, and a backslash keeps the next character.  A parameter is
named by `$NAME` or `${NAME}`; its value is put in when the word is used.

The scanner is a fold over the characters: `Scanner.step` takes one, and `Scanner.finish` closes what
is open at the end.

## Main definitions

* `Piece`, `Token` : what a word, and a script, is made of.
* `tokens?` : the words and operators of a script, if every quote is closed.
-/

namespace ReviewPanel.Shell

/-- A part of a word. -/
inductive Piece where
  /-- Characters that stand for themselves; `quoted` if one of them was protected. -/
  | literal (cs : List Char) (quoted : Bool)
  /-- The value of a parameter. -/
  | parameter (name : List Char) (quoted : Bool)
deriving DecidableEq, Repr

/-- A word of a script. -/
abbrev Word := List Piece

/-- A word or an operator. -/
inductive Token where
  | word (w : Word)
  /-- The end of a command: `;` or the end of a line. -/
  | stop
  /-- `&&` -/
  | both
  /-- `||` -/
  | either
  /-- `n>`: the next word says where stream `n` goes. -/
  | redirect (stream : Nat)
  /-- `n>&m`: stream `n` goes where stream `m` goes. -/
  | duplicate (stream target : Nat)
deriving DecidableEq, Repr

/-- Where the scanner is. -/
inductive Mode where
  | plain
  | single
  | double
  /-- After a backslash. -/
  | escape (quoted : Bool)
  /-- After a dollar sign. -/
  | dollar (quoted : Bool)
  /-- In the name of a parameter. -/
  | name (cs : List Char) (quoted : Bool)
  /-- In the name of a parameter in braces. -/
  | braced (cs : List Char) (quoted : Bool)
  /-- After one `&`. -/
  | ampersand
  /-- After one `|`. -/
  | bar
  /-- After `n>`. -/
  | greater (stream : Nat)
  /-- After `n>&`. -/
  | target (stream : Nat)
  | comment
deriving DecidableEq, Repr

/-- The scanner: where it is, the word that it is in, and what it has found, the last first. -/
structure Scanner where
  mode : Mode
  word : Option Word
  found : List Token

namespace Scanner

/-- At the beginning of a script. -/
def start : Scanner := ⟨.plain, none, []⟩

/-- Puts a piece at the end of the word. -/
def add (s : Scanner) (p : Piece) : Scanner :=
  { s with word := some (s.word.getD [] ++ [p]) }

/-- Puts a character at the end of the word. -/
def addChar (s : Scanner) (c : Char) (quoted : Bool) : Scanner := s.add (.literal [c] quoted)

/-- Ends the word, if it is in one. -/
def endWord (s : Scanner) : Scanner :=
  match s.word with
  | none => s
  | some w => { s with word := none, found := .word w :: s.found }

/-- Ends the word and adds a token. -/
def emit (s : Scanner) (t : Token) : Scanner :=
  let s := s.endWord
  { s with found := t :: s.found }

/-- Goes on in another mode. -/
def goto (s : Scanner) (mode : Mode) : Scanner := { s with mode }

/-- The stream of a `>` that follows the word, and the scanner without that word. -/
def takeStream (s : Scanner) : Scanner × Nat :=
  match s.word with
  | some [.literal ['1'] false] => ({ s with word := none }, 1)
  | some [.literal ['2'] false] => ({ s with word := none }, 2)
  | _ => (s.endWord, 1)

/-- A character outside quotes. -/
def plainOrder (s : Scanner) (c : Char) : Option Scanner :=
  let s := s.goto .plain
  if c = ' ' ∨ c = '\t' then some s.endWord
  else if c = ';' ∨ c = '\n' then some (s.emit .stop)
  else if c = '&' then some (s.endWord.goto .ampersand)
  else if c = '|' then some (s.endWord.goto .bar)
  else if c = '>' then
    let (s, stream) := s.takeStream
    some (s.goto (.greater stream))
  else if c = '\'' then some ((s.add (.literal [] true)).goto .single)
  else if c = '"' then some ((s.add (.literal [] true)).goto .double)
  else if c = '\\' then some (s.goto (.escape false))
  else if c = '$' then some (s.goto (.dollar false))
  else if c = '#' ∧ s.word.isNone then some (s.goto .comment)
  else if c = '(' ∨ c = ')' ∨ c = '<' ∨ c = '`' then none
  else some (s.addChar c false)

/-- A character inside double quotes. -/
def doubleStep (s : Scanner) (c : Char) : Option Scanner :=
  let s := s.goto .double
  if c = '"' then some (s.goto .plain)
  else if c = '\\' then some (s.goto (.escape true))
  else if c = '$' then some (s.goto (.dollar true))
  else if c = '`' then none
  else some (s.addChar c true)

/-- A character outside single quotes. -/
def openStep (s : Scanner) (quoted : Bool) (c : Char) : Option Scanner :=
  if quoted then s.doubleStep c else s.plainOrder c

/-- The mode outside single quotes. -/
def openMode (quoted : Bool) : Mode := if quoted then .double else .plain

/-- The character begins a name. -/
def isNameStart (c : Char) : Bool := c.isAlpha || c == '_'

/-- The character continues a name. -/
def isNamePart (c : Char) : Bool := c.isAlphanum || c == '_'

/-- The character alone names a parameter. -/
def isSpecial (c : Char) : Bool := c.isDigit || c == '?' || c == '$' || c == '#'

/-- Takes one character. -/
def step (s : Scanner) (c : Char) : Option Scanner :=
  match s.mode with
  | .plain => s.plainOrder c
  | .single => some (if c = '\'' then s.goto .plain else s.addChar c true)
  | .double => s.doubleStep c
  | .escape false => some (if c = '\n' then s.goto .plain else (s.addChar c true).goto .plain)
  | .escape true =>
    if c = '"' ∨ c = '\\' ∨ c = '$' ∨ c = '`' then some ((s.addChar c true).goto .double)
    else some (((s.addChar '\\' true).addChar c true).goto .double)
  | .dollar quoted =>
    if isNameStart c then some (s.goto (.name [c] quoted))
    else if c = Char.ofNat 0x7b then some (s.goto (.braced [] quoted))
    else if isSpecial c then some ((s.add (.parameter [c] quoted)).goto (openMode quoted))
    else if c = '(' then none
    else (s.addChar '$' true).openStep quoted c
  | .name cs quoted =>
    if isNamePart c then some (s.goto (.name (cs ++ [c]) quoted))
    else (s.add (.parameter cs quoted)).openStep quoted c
  | .braced cs quoted =>
    if c = Char.ofNat 0x7d then
      if cs.isEmpty then none else some ((s.add (.parameter cs quoted)).goto (openMode quoted))
    else if isNamePart c ∨ isSpecial c then some (s.goto (.braced (cs ++ [c]) quoted))
    else none
  | .ampersand => if c = '&' then some ((s.emit .both).goto .plain) else none
  | .bar => if c = '|' then some ((s.emit .either).goto .plain) else none
  | .greater stream =>
    if c = '&' then some (s.goto (.target stream))
    else if c = '>' then some (s.emit (.redirect stream) |>.goto .plain)
    else (s.emit (.redirect stream)).plainOrder c
  | .target stream =>
    if c = '1' then some ((s.emit (.duplicate stream 1)).goto .plain)
    else if c = '2' then some ((s.emit (.duplicate stream 2)).goto .plain)
    else none
  | .comment => some (if c = '\n' then (s.emit .stop).goto .plain else s)

/-- Closes what is open at the end of the script. -/
def finish (s : Scanner) : Option (List Token) :=
  match s.mode with
  | .plain | .comment => some s.endWord.found.reverse
  | .escape false | .dollar false =>
    let c := if s.mode = .dollar false then '$' else '\\'
    some (s.addChar c true).endWord.found.reverse
  | .name cs false => some (s.add (.parameter cs false)).endWord.found.reverse
  | _ => none

end Scanner

/-- The words and operators of a script, if every quote is closed. -/
def tokens? (script : List Char) : Option (List Token) :=
  (script.foldlM Scanner.step Scanner.start).bind Scanner.finish

end ReviewPanel.Shell
