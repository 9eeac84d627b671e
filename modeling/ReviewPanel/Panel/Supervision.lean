import ReviewPanel.Panel.Basic

/-!
# The steps of a supervisor

A supervisor waits for the reviewer of its role, decides about the output slot, and then tells the
ledger.  The slot comes first, so that a role never ends with an open slot and a late reviewer finds
the slot closed.  If somebody else has ended the role meanwhile, the supervisor reports what it finds.

Each step is a function on the panel that does nothing where it is not due.

## Main definitions

* `Panel.reviewerReturns` : the reviewer comes back.
* `Panel.observe`, `Panel.decide`, `Panel.settle` : the three steps of a supervisor.
* `Panel.stopReviewer` : somebody stops the reviewer.
-/

namespace ReviewPanel

namespace Supervisor

/-- What a waiting supervisor can learn at a given time. -/
def news? (s : Supervisor) (clock : Nat) : Option Report :=
  if s.returned then some (.replied s.reply)
  else if s.stopped then some .cancelled
  else if s.dueAt ≤ clock then some .overdue
  else none

/-- The supervisor has told the ledger. -/
def isSettled (s : Supervisor) : Bool :=
  match s.stage with
  | .settled _ => true
  | .waiting | .informed _ | .decided _ _ => false

end Supervisor

namespace Panel

/-- The cause of a role whose reviewer was stopped. -/
def cancelledCause : String := (WorkerError.failed "worker task cancelled").message

/-- The cause of a role whose time is over. -/
def overdueCause (roleTimeout : Nat) : String := s!"no completion within {roleTimeout}ms"

/-- The reviewer comes back if it is time, unless it was stopped. -/
def reviewerReturns (p : Panel) (i : Nat) : Panel :=
  p.modifySupervisor i fun s =>
    match s.backAt with
    | some t => if t ≤ p.clock ∧ !s.stopped then { s with returned := true } else s
    | none => s

/-- The reviewer is stopped, unless it has come back. -/
def stopReviewer (p : Panel) (i : Nat) : Panel :=
  p.modifySupervisor i fun s => if s.returned then s else { s with stopped := true }

/-- The supervisor learns how the review went. -/
def observe (p : Panel) (i : Nat) : Panel :=
  match p.supervisors[i]? with
  | some s =>
    match s.stage, s.news? p.clock with
    | .waiting, some r => p.setStage i (.informed r)
    | _, _ => p
  | none => p

/-- The supervisor decides about the slot: findings are published, in all other cases it is
withheld. -/
def decide (p : Panel) (i : Nat) : Panel :=
  match p.supervisors[i]? with
  | some s =>
    match s.stage with
    | .informed (.replied (.ok fs)) =>
      match p.publish s.incarnation s.role fs with
      | (p, .ok ()) => p.setStage i (.decided .complete none)
      | (p, .error e) => p.setStage i (.decided .failed (some e.message))
    | .informed (.replied (.error e)) =>
      (p.withhold s.incarnation s.role).1.setStage i (.decided .failed (some e.message))
    | .informed .cancelled =>
      (p.withhold s.incarnation s.role).1.setStage i (.decided .failed (some cancelledCause))
    | .informed .overdue =>
      (p.withhold s.incarnation s.role).1.setStage i
        (.decided .timedOut (some (overdueCause p.config.roleTimeout)))
    | _ => p
  | none => p

/-- The phase of a role on the ledger; a role that is not there counts as failed. -/
def phaseOf (p : Panel) (id : RunId) (role : Role) : Phase :=
  match p.ledger.read id with
  | .ok s => ((s.roles.get? role).map Status.phase).getD .failed
  | .error _ => .failed

/-- The supervisor tells the ledger, under the identifier of its run. -/
def settle (p : Panel) (i : Nat) : Panel :=
  match p.supervisors[i]? with
  | some s =>
    match s.stage with
    | .decided phase cause =>
      match p.transition s.runId s.role phase cause with
      | (p, .ok status) => p.setStage i (.settled status.phase)
      -- Somebody else was faster, or the run is gone.
      | (p, .error _) => p.setStage i (.settled (p.phaseOf s.runId s.role))
    | _ => p
  | none => p

end Panel

end ReviewPanel
