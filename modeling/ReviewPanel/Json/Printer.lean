import ReviewPanel.Json.Value
import ReviewPanel.Number.Shortest

/-!
# Writing JSON

Two layouts of one value.  The compact one has no blanks; the pretty one puts every item and
member on a line of its own, indented by two spaces a level, with `": "` behind a name, and writes
empty containers as `[]` and `{}`.  Neither ends in a line break.

In a string only the quote, the backslash and the characters below U+0020 are escaped, the latter
by their short escape if they have one and as `\u00xx` in lower case otherwise.
-/

namespace ReviewPanel.Json

/-- One lower-case digit of base sixteen. -/
def hexDigit (n : Nat) : Char := (Nat.toDigits 16 n).headD '0'

/-- How one character is written inside a string. -/
def escapeChar (c : Char) : List Char :=
  if c = '"' then ['\\', '"']
  else if c = '\\' then ['\\', '\\']
  else if c.toNat = 0x08 then ['\\', 'b']
  else if c.toNat = 0x09 then ['\\', 't']
  else if c.toNat = 0x0A then ['\\', 'n']
  else if c.toNat = 0x0C then ['\\', 'f']
  else if c.toNat = 0x0D then ['\\', 'r']
  else if c.toNat < 0x20 then
    ['\\', 'u', '0', '0', hexDigit (c.toNat / 16), hexDigit (c.toNat % 16)]
  else [c]

/-- A string between quotes. -/
def stringText (s : String) : List Char := '"' :: s.toList.flatMap escapeChar ++ ['"']

/-- The text of a number. -/
def Number.text : Number → List Char
  | .int i => if i < 0 then '-' :: Nat.toDigits 10 i.natAbs else Nat.toDigits 10 i.natAbs
  | .float d => d.text

/-- The text of a truth value. -/
def boolText (b : Bool) : List Char := if b then "true".toList else "false".toList

namespace Value

mutual

/-- The text without blanks. -/
def compact : Value → List Char
  | .null => "null".toList
  | .bool b => boolText b
  | .num n => n.text
  | .str s => stringText s
  | .arr items => '[' :: compactItems items ++ [']']
  | .obj members => '\x7b' :: compactMembers members ++ ['\x7d']

/-- Items with commas between them. -/
def compactItems : List Value → List Char
  | [] => []
  | [v] => compact v
  | v :: w :: vs => compact v ++ ',' :: compactItems (w :: vs)

/-- Members with commas between them. -/
def compactMembers : List (String × Value) → List Char
  | [] => []
  | [(k, v)] => stringText k ++ ':' :: compact v
  | (k, v) :: m :: ms => stringText k ++ ':' :: compact v ++ ',' :: compactMembers (m :: ms)

end

/-- A line break and the indentation of a level. -/
def lineBreak (level : Nat) : List Char := '\n' :: List.replicate (2 * level) ' '

mutual

/-- The indented text at a level. -/
def prettyAt (level : Nat) : Value → List Char
  | .null => "null".toList
  | .bool b => boolText b
  | .num n => n.text
  | .str s => stringText s
  | .arr [] => ['[', ']']
  | .arr (v :: vs) => '[' :: prettyItems (level + 1) (v :: vs) ++ lineBreak level ++ [']']
  | .obj [] => ['\x7b', '\x7d']
  | .obj (m :: ms) =>
    '\x7b' :: prettyMembers (level + 1) (m :: ms) ++ lineBreak level ++ ['\x7d']

/-- Items on lines of their own. -/
def prettyItems (level : Nat) : List Value → List Char
  | [] => []
  | [v] => lineBreak level ++ prettyAt level v
  | v :: w :: vs => lineBreak level ++ prettyAt level v ++ ',' :: prettyItems level (w :: vs)

/-- Members on lines of their own. -/
def prettyMembers (level : Nat) : List (String × Value) → List Char
  | [] => []
  | [(k, v)] => lineBreak level ++ stringText k ++ ':' :: ' ' :: prettyAt level v
  | (k, v) :: m :: ms =>
    lineBreak level ++ stringText k ++ ':' :: ' ' :: prettyAt level v ++
      ',' :: prettyMembers level (m :: ms)

end

/-- The indented text. -/
def pretty (v : Value) : List Char := prettyAt 0 v

/-- The compact text. -/
def compactText (v : Value) : String := String.ofList v.compact

/-- The indented text. -/
def prettyText (v : Value) : String := String.ofList v.pretty

end Value

end ReviewPanel.Json
