import ReviewPanel.Json.Record
import ReviewPanel.Role

/-!
# Findings

A finding is what one reviewer has to say about one place: how severe it is, what the reviewer
concluded, and why.  Its identifier, location and rationale may not be blank (`Finding.validate`).

Findings of several roles are listed by role and then by identifier, in the byte order of the
identifiers; findings of one role with one identifier keep their order (`byRoleAndId`).
-/

namespace ReviewPanel

open Json (Value Reader)

/-- How urgent a finding is, most urgent first. -/
inductive Severity where
  | blocker
  | warning
  | advisory
deriving DecidableEq, Repr

namespace Severity

/-- The name of the severity. -/
def name : Severity → String
  | .blocker => "blocker"
  | .warning => "warning"
  | .advisory => "advisory"

instance : Named Severity where
  all := [.blocker, .warning, .advisory]
  mem_all := by intro s; cases s <;> decide
  nodup_all := by decide
  name := name
  name_inj := by intro a b; cases a <;> cases b <;> simp [name]

end Severity

/-- What the reviewer concluded. -/
inductive Classification where
  /-- A real violation. -/
  | violation
  /-- It looks like one and is deliberate. -/
  | intentionalPattern
  /-- The detector was wrong. -/
  | falseAlarm
deriving DecidableEq, Repr

namespace Classification

/-- The name of the classification. -/
def name : Classification → String
  | .violation => "violation"
  | .intentionalPattern => "intentional_pattern"
  | .falseAlarm => "false_alarm"

instance : Named Classification where
  all := [.violation, .intentionalPattern, .falseAlarm]
  mem_all := by intro c; cases c <;> decide
  nodup_all := by decide
  name := name
  name_inj := by intro a b; cases a <;> cases b <;> simp [name]

end Classification

/-- One finding. -/
structure Finding where
  /-- Identifier within the role, for example `SEC-004`. -/
  id : String
  severity : Severity
  /-- Where it is, in the reviewer's words. -/
  location : String
  classification : Classification
  /-- Why the reviewer came to this conclusion. -/
  rationale : String
  /-- How to mend it. -/
  remediation : Option String
  /-- The rule that it cites. -/
  reference : Option String
deriving DecidableEq, Repr

namespace Finding

/-- A violation. -/
def isViolation (f : Finding) : Bool := f.classification == .violation

/-- A violation that blocks the task. -/
def isBlocking (f : Finding) : Bool := f.isViolation && f.severity == .blocker

/-- A finding with a blank field. -/
structure Malformed where
  /-- Identifier of the finding, which may be the blank field itself. -/
  id : String
  /-- What is wrong. -/
  detail : String
deriving DecidableEq, Repr

/-- The wording of a malformed finding. -/
def Malformed.message (m : Malformed) : String :=
  let id := Text.quoted m.id
  let detail := m.detail
  s!"malformed finding {id}: {detail}"

/-- The fields that may not be blank, in the order in which they are checked. -/
def requiredText (f : Finding) : List (String × String) :=
  [("id", f.id), ("location", f.location), ("rationale", f.rationale)]

/-- Names the first blank field. -/
def validate (f : Finding) : Except Malformed Unit :=
  match f.requiredText.find? fun field => Text.isBlank field.2 with
  | none => .ok ()
  | some (name, _) => .error ⟨f.id, s!"required field `{name}` is empty"⟩

/-- The document of a finding. -/
def toValue (f : Finding) : Value :=
  .obj ([("id", .str f.id), ("severity", .word f.severity), ("location", .str f.location),
      ("classification", .word f.classification), ("rationale", .str f.rationale)] ++
    Value.optional "remediation" .str f.remediation ++ Value.optional "reference" .str f.reference)

/-- The document of several findings. -/
def listValue (fs : List Finding) : Value := .arr (fs.map toValue)

/-- The fields of a finding. -/
def fields : Json.Fields Finding :=
  ((((((Json.Fields.build Finding.mk
    |>.required "id" Reader.string)
    |>.required "severity" Reader.word)
    |>.required "location" Reader.string)
    |>.required "classification" Reader.word)
    |>.required "rationale" Reader.string)
    |>.defaulted "remediation" (Reader.optional Reader.string) none)
    |>.defaulted "reference" (Reader.optional Reader.string) none

/-- Reads a finding. -/
def reader : Reader Finding := Reader.record "FindingRecord" fields

end Finding

/-- Order by role and then by identifier. -/
def roleIdLe (a b : Role × String) : Bool :=
  a.1.rank < b.1.rank || (a.1 == b.1 && decide (a.2 ≤ b.2))

/-- Sorted by role and then by identifier; equal ones keep their order. -/
def byRoleAndId {α : Type} (key : α → Role × String) (xs : List α) : List α :=
  xs.mergeSort fun a b => roleIdLe (key a) (key b)

end ReviewPanel
