import ReviewPanel.Panel.Lifecycle
import ReviewPanel.Panel.Waiting

/-!
# A schedule

With one client, time passes only while that client waits.  While it does, everybody else acts as soon
as there is something to do, and when nobody has anything to do the clock goes to the next event.

The order at one instant is fixed: the client comes first, then supervisors in the order in which they
were started, each with its reviewer before its own time limit, then the snapshots that are on their way,
as they set out, then writers.  That is a choice among the orders that parties which are due at the same
instant can take.  Among other things it decides what happens if a reviewer comes back, the time of its
role ends or that of the run ends at one and the same instant, so what is proved of such ties is proved
for this order only.

## Main definitions

* `Panel.others` : everybody but the client acts at this instant.
* `Panel.nextEvent?` : when a supervisor has something to do next.
* `Panel.sleep`, `Panel.await`, `Panel.review` : the calls in which time passes.
-/

namespace ReviewPanel.Panel

/-- A supervisor and its reviewer do all that they can. -/
def supervise (p : Panel) (i : Nat) : Panel :=
  (((p.reviewerReturns i).observe i).decide i).settle i

/-- All snapshots that are on their way reach the scribe, in the order in which they set out. -/
def hear (p : Panel) : Panel := (List.replicate p.inFlight.length 0).foldl deliver p

/-- The writer of a registration does all that it can. -/
def writeBehind (p : Panel) (i : Nat) : Panel :=
  let (scribe, disk) := (p.scribe.take i).persist p.disk i
  { p with scribe, disk }

/-- Everybody but the client acts at this instant. -/
def others (p : Panel) : Panel :=
  let p := ((List.range p.supervisors.length).foldl supervise p).hear
  (List.range p.scribe.registrations.length).foldl writeBehind p

/-- The times at which a supervisor may have something to do. -/
def eventTimes (s : Supervisor) : List Nat :=
  match s.stage with
  | .waiting =>
    s.dueAt :: match s.backAt with
      | some t => if s.returned || s.stopped then [] else [t]
      | none => []
  | .informed _ | .decided _ _ | .settled _ => []

/-- When a supervisor has something to do next. -/
def nextEvent? (p : Panel) : Option Nat :=
  ((p.supervisors.flatMap eventTimes).filter (p.clock < ·)).min?

/-- Lets time pass until `target`, with at most `fuel` events. -/
def sleepUntil (target : Nat) : Nat → Panel → Panel
  | 0, p => { p with clock := target }
  | fuel + 1, p =>
    let p := p.others
    match p.nextEvent? with
    | some t => if t < target then sleepUntil target fuel { p with clock := t }
      else { p with clock := target }
    | none => { p with clock := target }

/-- The client sleeps. -/
def sleep (p : Panel) (ms : Nat) : Panel :=
  -- Every event moves the clock, so there are fewer than `ms` of them.
  if ms = 0 then p else sleepUntil (p.clock + ms) ms p

/-- A waiter does all that it can, in at most `fuel` steps. -/
def drive (i : Nat) : Nat → Panel → Panel
  | 0, p => p
  | fuel + 1, p => if p.canStep i then drive i fuel (p.stepWaiter i) else p

/-- A waiter takes no more steps than this at one instant. -/
def maxSteps : Nat := 3 * Role.all.length + 4

/-- When a waiter looks at the ledger next. -/
def wakeTime? (p : Panel) (i : Nat) : Option Nat :=
  match p.waiters[i]? with
  | some w =>
    match w.stage with
    | .polling wakeAt => some wakeAt
    | .forcing .. | .joining _ | .done _ => none
  | none => none

/-- The next time at which a supervisor or the waiter has something to do. -/
def nextTime (p : Panel) (i : Nat) : Nat :=
  match p.nextEvent?, p.wakeTime? i with
  | some t, some u => min t u
  | some t, none => t
  | none, some u => u
  | none, none => p.clock

/-- Lets time pass until a waiter is done, at most `fuel` times. -/
def waitUntil (i : Nat) : Nat → Panel → Panel
  | 0, p => p
  | fuel + 1, p =>
    let p := (drive i maxSteps p).hear
    if (p.answer? i).isSome then p
    else
      let p := p.others
      if p.canStep i then waitUntil i fuel p
      else waitUntil i fuel { p with clock := p.nextTime i }

/-- A time by which a waiter is done: the run is over, and so is the time of every role. -/
def horizon (p : Panel) (w : Waiter) : Nat :=
  p.supervisors.foldl (fun t s => max t s.dueAt) (max p.clock (p.deadline w))

/-- Waits for a run. -/
def await (p : Panel) (id : RunId) (poll limit : Nat) : Panel × Except PanelError RunState :=
  match p.enterWait id poll limit with
  | (p, .error e) => (p, .error e)
  | (p, .ok i) =>
    -- Each round moves the clock or ends the wait, but for the rounds at the last instant.
    let fuel := match p.waiters[i]? with
      | some w => p.horizon w - p.clock + 4
      | none => 0
    let p := waitUntil i fuel p
    (p, (p.answer? i).getD (.error (.unknownRun id)))

/-- Starts a run under a new identifier, waits for it as configured, and finalizes it. -/
def review (p : Panel) (item : WorkItem) (roles : List Role) :
    Panel × Except PanelError (RunState × Verdict) :=
  match p.startFresh item roles with
  | (p, .error e) => (p, .error e)
  | (p, .ok id) =>
    match p.await id p.config.pollInterval p.config.globalTimeout with
    | (p, .error e) => (p, .error e)
    | (p, .ok _) =>
      match p.finalize id with
      | (p, .error e) => (p, .error e)
      | (p, .ok v) =>
        match p.ledger.read id with
        | .error e => (p, .error (.ofLedger e))
        | .ok s => (p, .ok (s, v))

end ReviewPanel.Panel
