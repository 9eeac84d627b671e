import ReviewPanel.Finding
import ReviewPanel.Sha256

/-!
# Verdicts

The outcome of a run: a recommendation, counts of the findings behind it, the blocking findings, and
which perspectives were heard and which were not.  A verdict carries no times, so the same findings
give the same document and the same digest.
-/

namespace ReviewPanel

open Json (Value Reader)

/-- Identifies a run. -/
abbrev RunId := String

/-- What to do with the task, in increasing strictness. -/
inductive Recommendation where
  /-- No warnings and no blockers. -/
  | go
  /-- Warnings, but no blockers. -/
  | conditionalGo
  /-- At least one blocker. -/
  | blocked
deriving DecidableEq, Repr

namespace Recommendation

/-- The name of the recommendation. -/
def name : Recommendation → String
  | .go => "Go"
  | .conditionalGo => "ConditionalGo"
  | .blocked => "Blocked"

instance : Named Recommendation where
  all := [.go, .conditionalGo, .blocked]
  mem_all := by intro r; cases r <;> decide
  nodup_all := by decide
  name := name
  name_inj := by intro a b; cases a <;> cases b <;> simp [name]

/-- Position in the order of strictness; also the exit code of a run. -/
def exitCode : Recommendation → Nat
  | .go => 0
  | .conditionalGo => 1
  | .blocked => 2

end Recommendation

/-- The outcome of a run. -/
structure Verdict where
  runId : RunId
  recommendation : Recommendation
  /-- Violations by severity. -/
  countsBySeverity : Table Severity Nat
  /-- All findings by classification. -/
  countsByClassification : Table Classification Nat
  /-- All findings by classification and severity. -/
  tally : Table Classification (Table Severity Nat)
  totalFindings : Nat
  /-- Blocking violations, by role and identifier. -/
  blockers : List Finding
  /-- Roles whose findings count. -/
  consulted : List Role
  /-- Roles whose findings are missing. -/
  missingPerspectives : List Role
deriving DecidableEq

/-- What a run remembers of its verdict. -/
structure VerdictRef where
  recommendation : Recommendation
  blockerCount : Nat
  missingPerspectives : List Role
  /-- Fingerprint of the whole verdict. -/
  digest : String
deriving DecidableEq, Repr

namespace Verdict

/-- The document of a verdict. -/
def toValue (v : Verdict) : Value :=
  .obj [("runId", .str v.runId), ("recommendation", .word v.recommendation),
    ("countsBySeverity", .table .nat v.countsBySeverity),
    ("countsByClassification", .table .nat v.countsByClassification),
    ("tally", .table (.table .nat) v.tally), ("totalFindings", .nat v.totalFindings),
    ("blockers", Finding.listValue v.blockers), ("consulted", .words v.consulted),
    ("missingPerspectives", .words v.missingPerspectives)]

/-- The fields of a verdict. -/
def fields : Json.Fields Verdict :=
  ((((((((Json.Fields.build Verdict.mk
    |>.required "runId" Reader.string)
    |>.required "recommendation" Reader.word)
    |>.required "countsBySeverity" (Reader.table Reader.count))
    |>.required "countsByClassification" (Reader.table Reader.count))
    |>.required "tally" (Reader.table (Reader.table Reader.count)))
    |>.required "totalFindings" Reader.count)
    |>.required "blockers" (Reader.list Finding.reader))
    |>.required "consulted" (Reader.list Reader.word))
    |>.required "missingPerspectives" (Reader.list Reader.word)

/-- Reads a verdict. -/
def reader : Reader Verdict := Reader.record "Verdict" fields

/-- Some perspective is missing. -/
def isDegraded (v : Verdict) : Bool := !v.missingPerspectives.isEmpty

/-- The hash of the compact document. -/
def digest (v : Verdict) : String := Sha256.ofText v.toValue.compactText

/-- What a run remembers of the verdict. -/
def toRef (v : Verdict) : VerdictRef :=
  ⟨v.recommendation, v.blockers.length, v.missingPerspectives, v.digest⟩

end Verdict

namespace VerdictRef

/-- The document of a reference. -/
def toValue (r : VerdictRef) : Value :=
  .obj [("recommendation", .word r.recommendation), ("blockerCount", .nat r.blockerCount),
    ("missingPerspectives", .words r.missingPerspectives), ("digest", .str r.digest)]

/-- The fields of a reference. -/
def fields : Json.Fields VerdictRef :=
  (((Json.Fields.build VerdictRef.mk
    |>.required "recommendation" Reader.word)
    |>.required "blockerCount" Reader.count)
    |>.required "missingPerspectives" (Reader.list Reader.word))
    |>.required "digest" Reader.string

/-- Reads a reference. -/
def reader : Reader VerdictRef := Reader.record "VerdictRef" fields

end VerdictRef

end ReviewPanel
