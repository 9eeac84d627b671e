import ReviewPanel.RunState

/-!
# From a run to its verdict

A run is reduced in one pass over its roles, in canonical order.  A role is heard if it finished and
its findings are at hand; all others are missing perspectives.  Every finding of a role that is heard
is counted, and the blocking violations are kept.

## Main definitions

* `Tally` with `Tally.add` : running counts.
* `Reduction` with `Reduction.visit` : the state of the pass.
* `Verdict.reduce` : the verdict.
-/

namespace ReviewPanel

/-- Counts of the findings met so far. -/
structure Tally where
  /-- Violations by severity. -/
  bySeverity : Severity → Nat
  /-- Findings by classification. -/
  byClassification : Classification → Nat
  /-- Findings by classification and severity. -/
  cell : Classification → Severity → Nat
  /-- All findings. -/
  total : Nat
  /-- Blocking violations with their roles, in the order in which they were met. -/
  blocking : List (Role × Finding)

namespace Tally

/-- Nothing has been met. -/
def zero : Tally := ⟨fun _ => 0, fun _ => 0, fun _ _ => 0, 0, []⟩

/-- One more finding. -/
def add (t : Tally) (role : Role) (f : Finding) : Tally where
  bySeverity s := t.bySeverity s + if f.isViolation ∧ f.severity = s then 1 else 0
  byClassification c := t.byClassification c + if f.classification = c then 1 else 0
  cell c s := t.cell c s + if f.classification = c ∧ f.severity = s then 1 else 0
  total := t.total + 1
  blocking := if f.isBlocking then t.blocking ++ [(role, f)] else t.blocking

/-- The strictest recommendation that a violation calls for. -/
def recommend (t : Tally) : Recommendation :=
  if 0 < t.bySeverity .blocker then .blocked
  else if 0 < t.bySeverity .warning then .conditionalGo
  else .go

end Tally

/-- The state of the pass over the roles of a run. -/
structure Reduction where
  /-- Roles that were heard. -/
  consulted : List Role
  /-- Roles that were not. -/
  missing : List Role
  tally : Tally

namespace Reduction

/-- Before the first role. -/
def start : Reduction := ⟨[], [], .zero⟩

/-- One more role, with its findings if they are at hand. -/
def visit (lookup : Role → Option (List Finding)) (r : Reduction) (role : Role) (s : Status) :
    Reduction :=
  match s.phase, lookup role with
  | .complete, some fs =>
    { r with consulted := r.consulted ++ [role], tally := fs.foldl (·.add role ·) r.tally }
  | _, _ => { r with missing := r.missing ++ [role] }

/-- The pass over all roles. -/
def run (lookup : Role → Option (List Finding)) (roles : Table Role Status) : Reduction :=
  roles.entries.foldl (fun r e => r.visit lookup e.1 e.2) start

end Reduction

namespace Verdict

/-- The verdict of a run whose findings `lookup` provides. -/
def reduce (s : RunState) (lookup : Role → Option (List Finding)) : Verdict :=
  let r := Reduction.run lookup s.roles
  { runId := s.runId
    recommendation := r.tally.recommend
    countsBySeverity := .ofFn r.tally.bySeverity
    countsByClassification := .ofFn r.tally.byClassification
    tally := .ofFn fun c => .ofFn (r.tally.cell c)
    totalFindings := r.tally.total
    blockers := (byRoleAndId (fun b => (b.1, b.2.id)) r.tally.blocking).map Prod.snd
    consulted := r.consulted
    missingPerspectives := r.missing }

end Verdict

end ReviewPanel
