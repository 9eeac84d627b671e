import ReviewPanel.Panel.Supervision

/-!
# The steps of a waiter

A client that waits for a run looks at the ledger again and again.  When every role has ended it waits
for the supervisors and returns a snapshot.  When the time of the run is over first, it takes a snapshot
and ends the roles that are late, one after the other: close the slot, start the role if it was
pending, end it.  A role that its supervisor ends in between is left as it is.  The supervisors of late
roles are not waited for; they stay with the incarnation.

## Main definitions

* `Panel.enterWait` : a client begins to wait.
* `Panel.canStep`, `Panel.stepWaiter` : the steps of a waiter.
-/

namespace ReviewPanel.Panel

/-- The cause of a role that is late when the time of the run is over. -/
def deadlineCause (limit : Nat) : String := s!"run deadline of {limit}ms elapsed"

/-- A client begins to wait for a run.  Its looks at the ledger are at least one unit of time apart; a
longer time that they have to be apart can be made part of `poll`. -/
def enterWait (p : Panel) (id : RunId) (poll limit : Nat) : Panel × Except PanelError Nat :=
  match p.active id with
  | .error e => (p, .error e)
  | .ok (i, _) =>
    let w : Waiter :=
      { incarnation := i, runId := id, poll := max poll 1, limit, stage := .polling p.clock }
    ({ p with waiters := p.waiters ++ [w] }, .ok p.waiters.length)

/-- The time at which a run has to be over for a waiter. -/
def deadline (p : Panel) (w : Waiter) : Nat :=
  ((p.incarnations[w.incarnation]?).map Incarnation.startedAt).getD 0 + w.limit

/-- A supervisor has told the ledger. -/
def isSettled (p : Panel) (i : Nat) : Bool :=
  match p.supervisors[i]? with
  | some s => s.isSettled
  | none => true

/-- The role of a supervisor is not among those that are late. -/
def isPunctual (p : Panel) (late : List Role) (i : Nat) : Bool :=
  match p.supervisors[i]? with
  | some s => !late.contains s.role
  | none => true

/-- A waiter turns to the supervisors of the roles that were not late. -/
def beginJoin (p : Panel) (i : Nat) (w : Waiter) (late : List Role) : Panel :=
  match p.incarnations[w.incarnation]? with
  | none => p.setWait i (.joining [])
  | some inc =>
    let (punctual, others) := inc.handles.partition (p.isPunctual late)
    (p.modifyIncarnation w.incarnation fun inc => { inc with handles := others }).setWait i
      (.joining punctual)

/-- Stops the reviewer of a late role, if the configuration says so. -/
def stopLate (p : Panel) (w : Waiter) (role : Role) : Panel :=
  match p.config.onTimeout, p.incarnations[w.incarnation]? with
  | .abort, some inc =>
    match inc.handles.find? fun h => !p.isPunctual [role] h with
    | some h => p.stopReviewer h
    | none => p
  | _, _ => p

/-- A lost race is no error. -/
def unlessRaced {α : Type} : Except LedgerError α → Except LedgerError Unit
  | .ok _ => .ok ()
  | .error (.invalidTransition ..) => .ok ()
  | .error e => .error e

/-- The next look at the ledger. -/
def poll (p : Panel) (i : Nat) (w : Waiter) : Panel :=
  match p.ledger.isComplete w.runId with
  | .error e => p.setWait i (.done (.error (.ofLedger e)))
  | .ok true => p.beginJoin i w []
  | .ok false =>
    let deadline := p.deadline w
    if deadline ≤ p.clock then
      match p.ledger.read w.runId with
      | .error e => p.setWait i (.done (.error (.ofLedger e)))
      | .ok s => p.setWait i (.forcing s s.outstanding s.outstanding .withhold)
    else p.setWait i (.polling (p.clock + min w.poll (deadline - p.clock)))

/-- The next step towards ending the roles that are late. -/
def force (p : Panel) (i : Nat) (w : Waiter) (snapshot : RunState) (late todo : List Role)
    (next : ForceStep) : Panel :=
  match todo with
  | [] => p.beginJoin i w late
  | role :: rest =>
    match next with
    -- A slot that is closed already stays as it is.
    | .withhold => (p.withhold w.incarnation role).1.setWait i (.forcing snapshot late todo .start)
    | .start =>
      if (snapshot.roles.get? role).map Status.phase = some .pending then
        let (p, r) := p.transition w.runId role .running none
        match unlessRaced r with
        | .ok () => p.setWait i (.forcing snapshot late todo .expire)
        | .error e => p.setWait i (.done (.error (.ofLedger e)))
      else p.setWait i (.forcing snapshot late todo .expire)
    | .expire =>
      let (p, r) := p.transition w.runId role .timedOut (some (deadlineCause w.limit))
      match unlessRaced r with
      | .ok () => (p.stopLate w role).setWait i (.forcing snapshot late rest .withhold)
      | .error e => p.setWait i (.done (.error (.ofLedger e)))

/-- The waiter has something to do now. -/
def canStep (p : Panel) (i : Nat) : Bool :=
  match p.waiters[i]? with
  | none => false
  | some w =>
    match w.stage with
    | .polling wakeAt => wakeAt ≤ p.clock
    | .forcing .. => true
    | .joining handles => handles.all p.isSettled
    | .done _ => false

/-- The next step of a waiter that has something to do. -/
def stepWaiter (p : Panel) (i : Nat) : Panel :=
  match p.waiters[i]? with
  | none => p
  | some w =>
    match w.stage with
    | .polling wakeAt => if wakeAt ≤ p.clock then p.poll i w else p
    | .forcing snapshot late todo next => p.force i w snapshot late todo next
    | .joining handles =>
      if handles.all p.isSettled then
        p.setWait i (.done ((p.ledger.read w.runId).mapError .ofLedger))
      else p
    | .done _ => p

/-- The answer to a waiter that is done. -/
def answer? (p : Panel) (i : Nat) : Option (Except PanelError RunState) :=
  match p.waiters[i]? with
  | some w =>
    match w.stage with
    | .done a => some a
    | .polling _ | .forcing .. | .joining _ => none
  | none => none

end ReviewPanel.Panel
