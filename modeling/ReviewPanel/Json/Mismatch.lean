import ReviewPanel.Json.Document
import ReviewPanel.Json.Printer
import ReviewPanel.Text.Quoted

/-!
# Documents of the wrong shape

A document can be perfect JSON and still not describe what a reader wants.  `Mismatch` lists the
causes, and `Mismatch.message` words them.  `DecodeError` joins them with the faults of grammar.
-/

namespace ReviewPanel.Json

/-- What a reader found in place of what it wanted. -/
inductive Found where
  | null
  | bool (b : Bool)
  | number (n : Number)
  | text (s : String)
  | sequence
  | map
deriving DecidableEq, Repr

/-- The words for what was found. -/
def Found.describe : Found → String
  | .null => "null"
  | .bool b => s!"boolean `{b}`"
  | .number n =>
    let kind := match n with
      | .int _ => "integer"
      | .float _ => "floating point"
    let text := String.ofList n.text
    s!"{kind} `{text}`"
  | .text s => "string " ++ Text.quoted s
  | .sequence => "sequence"
  | .map => "map"

/-- Why a document is not what a reader wants. -/
inductive Mismatch where
  /-- A value of another kind. -/
  | wrongType (found : Found) (want : String)
  /-- A value of the right kind that is not allowed. -/
  | wrongValue (found : Found) (want : String)
  /-- Too few or too many items. -/
  | wrongLength (length : Nat) (want : String)
  /-- A word outside the vocabulary. -/
  | unknownVariant (word : String) (known : List String)
  /-- A member that has to be there is not. -/
  | missingField (name : String)
  /-- A member is there twice. -/
  | duplicateField (name : String)
  /-- A string that does not read as what it stands for. -/
  | unreadable (reason : String)
deriving DecidableEq, Repr

/-- A word between backquotes. -/
def backquoted (s : String) : String := "`" ++ s ++ "`"

/-- The words for a vocabulary. -/
def choices : List String → String
  | [] => "there are no variants"
  | [a] => "expected " ++ backquoted a
  | [a, b] => "expected " ++ backquoted a ++ " or " ++ backquoted b
  | words => "expected one of " ++ String.intercalate ", " (words.map backquoted)

/-- The wording of a mismatch. -/
def Mismatch.message : Mismatch → String
  | .wrongType found want =>
    let got := found.describe
    s!"invalid type: {got}, expected {want}"
  | .wrongValue found want =>
    let got := found.describe
    s!"invalid value: {got}, expected {want}"
  | .wrongLength length want => s!"invalid length {length}, expected {want}"
  | .unknownVariant word known =>
    let expected := choices known
    s!"unknown variant `{word}`, {expected}"
  | .missingField name => s!"missing field `{name}`"
  | .duplicateField name => s!"duplicate field `{name}`"
  | .unreadable reason => reason

/-- Why a text does not decode. -/
inductive DecodeError where
  /-- The text is not JSON. -/
  | fault (f : Fault)
  /-- The text is JSON of the wrong shape. -/
  | mismatch (m : Mismatch)
deriving DecidableEq, Repr

end ReviewPanel.Json
