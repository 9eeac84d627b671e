import ReviewPanel.Reviewer

/-!
# Scripted reviewers

A script fixes what a reviewer does once its delay is over, which makes a rehearsal of a panel
repeatable.
-/

namespace ReviewPanel

/-- What a scripted reviewer does. -/
inductive Act where
  /-- It comes back with findings. -/
  | succeed (fs : List Finding)
  /-- It comes back with an error. -/
  | fail (e : WorkerError)
  /-- It never comes back. -/
  | hang
  /-- It comes back with one finding that shows what it was given. -/
  | echo
deriving DecidableEq, Repr

/-- A reviewer whose conduct is fixed. -/
structure Script where
  /-- Milliseconds before it acts. -/
  delay : Nat
  act : Act
deriving DecidableEq, Repr

namespace Script

/-- The finding of a reviewer that shows what it was given. -/
def echoFinding (role : Role) (item : WorkItem) : Finding where
  id := role.tag ++ "-1"
  severity := .advisory
  location := item.reference
  classification := .violation
  rationale := (Labels.toValue item.labels).compactText
  remediation := none
  reference := none

/-- The reviewer that follows the script. -/
def reviewer (s : Script) : Reviewer := fun role item _ =>
  match s.act with
  | .succeed fs => ⟨some s.delay, .ok fs⟩
  | .fail e => ⟨some s.delay, .error e⟩
  | .hang => ⟨none, .ok []⟩
  | .echo => ⟨some s.delay, .ok [echoFinding role item]⟩

end Script

end ReviewPanel
