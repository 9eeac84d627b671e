/-!
# Log filters

A log filter is a list of directives between commas.  A directive is a level, or names a target, a
span between brackets, or both, with or without a level behind an equals sign.
-/

namespace ReviewPanel.CommandLine

/-- The names of levels; their case does not matter. -/
def levelNames : List String := ["trace", "debug", "info", "warn", "error", "off"]

/-- The name or number of a level. -/
def isLevel (cs : List Char) : Bool :=
  levelNames.contains (String.ofList (cs.map Char.toLower)) ||
    match cs with
    | [c] => '0'.val ≤ c.val && c.val ≤ '5'.val
    | _ => false

/-- A character of a target: a letter, a digit, or one of three signs.  Characters outside ASCII count
as letters. -/
def isTargetChar (c : Char) : Bool :=
  c.isAlphanum || c == '_' || c == ':' || c == '-' || 128 ≤ c.toNat

/-- What follows a target or a span at the front. -/
def part? (cs : List Char) : Option (List Char) :=
  match cs with
  | '[' :: rest =>
    match rest.dropWhile (· ≠ ']') with
    | _ :: rest => some rest
    | [] => none
  | cs => if cs.takeWhile isTargetChar = [] then none else some (cs.dropWhile isTargetChar)

/-- The end of a directive: nothing, or an equals sign with or without a level. -/
def isTail (cs : List Char) : Bool :=
  match cs with
  | [] | ['='] => true
  | '=' :: level => isLevel level
  | _ => false

/-- A directive. -/
def isDirective (cs : List Char) : Bool :=
  isLevel cs ||
    match part? cs with
    | none => false
    | some rest =>
      isTail rest ||
        match part? rest with
        | some rest => isTail rest
        | none => false

/-- The parts of a text between commas. -/
def splitCommas : List Char → List (List Char)
  | [] => [[]]
  | c :: cs =>
    match splitCommas cs with
    | [] => [[c]]
    | part :: parts => if c = ',' then [] :: part :: parts else (c :: part) :: parts

/-- A filter: directives, of which some may be empty. -/
def isLogFilter (s : String) : Bool :=
  (splitCommas s.toList).all fun cs => cs.isEmpty || isDirective cs

end ReviewPanel.CommandLine
