import ReviewPanel.Config
import ReviewPanel.Ledger
import ReviewPanel.Scribe
import ReviewPanel.Reduction
import ReviewPanel.Reviewer
import ReviewPanel.Slots

/-!
# The state of a panel

A panel runs reviews.  Many parties act on it at once: clients that start, await, finalize and forget
runs, one supervisor for each role of each run, and the writers of the scribe.  The state here is
what all of them share, together with what each of them has to remember between two of its steps, so
that their steps can be taken in any order.

Every start makes a new *incarnation*.  Incarnations and supervisors are never removed, because they
may still act after their run has ended; the table says which incarnation an identifier means now.

Whoever changes a run on the ledger hands a snapshot of it on to the scribe, but not in the same breath:
others may act in between.  The snapshots that are on their way are part of the state, and reach the
scribe late and in any order (`Panel.deliver`).  A call of a client hands its own ones on before it
returns.  A snapshot is taken here together with its change.  One that is taken later shows later changes
too, so it is the snapshot of the last of them; in an order in which those two change places, the scribe
hears the same.

Times are numbers without a unit; only the wording of causes speaks of milliseconds.

## Main definitions

* `Report`, `Stage`, `Supervisor` : one role of one incarnation.
* `Waiter` : a client that waits for a run.
* `Incarnation` : one start of a run.
* `Panel` : all of it, with the ledger, the scribe, the disk and the clock.
-/

namespace ReviewPanel

/-- Why a panel refuses a call. -/
inductive PanelError where
  /-- The identifier is taken. -/
  | duplicateRun (id : RunId)
  /-- There is no such run. -/
  | unknownRun (id : RunId)
  /-- Some role has not ended. -/
  | runNotComplete (id : RunId)
  /-- Supervisors cannot be started here. -/
  | noRuntime
  /-- The ledger refuses. -/
  | ledger (e : LedgerError)
  /-- The configuration is out of range. -/
  | config (e : ConfigError)
  /-- The workspace fails. -/
  | workspace (e : WorkspaceError)
deriving DecidableEq, Repr

namespace PanelError

/-- The wording of a refusal. -/
def message : PanelError → String
  | .duplicateRun id => "run " ++ id ++ " already exists"
  | .unknownRun id => "run " ++ id ++ " not found"
  | .runNotComplete id => "run " ++ id ++ " still has outstanding roles"
  | .noRuntime => "no Tokio runtime available to spawn workers"
  | .ledger e => "ledger error: " ++ e.message
  | .config e => "configuration error: " ++ e.message
  | .workspace e => "workspace error: " ++ e.message

/-- Another identifier would do. -/
def isDuplicateRun : PanelError → Bool
  | .duplicateRun _ => true
  | _ => false

/-- A refusal of the ledger, in the words of the panel. -/
def ofLedger : LedgerError → PanelError
  | .duplicateRun id => .duplicateRun id
  | .unknownRun id => .unknownRun id
  | .runNotComplete id => .runNotComplete id
  | e => .ledger e

end PanelError

/-- What a supervisor learns about a review. -/
inductive Report where
  /-- The reviewer came back. -/
  | replied (r : Reply)
  /-- The reviewer was stopped. -/
  | cancelled
  /-- The time of the role is over. -/
  | overdue

/-- How far a supervisor has come. -/
inductive Stage where
  /-- It waits for the reviewer. -/
  | waiting
  /-- It knows how the review went. -/
  | informed (r : Report)
  /-- It has decided about the slot, and knows what to tell the ledger. -/
  | decided (phase : Phase) (cause : Option String)
  /-- It has told the ledger, and knows the phase of the role. -/
  | settled (phase : Phase)

/-- Looks after one role of one incarnation. -/
structure Supervisor where
  /-- Position of the incarnation. -/
  incarnation : Nat
  runId : RunId
  role : Role
  /-- When the reviewer comes back, if it ever does. -/
  backAt : Option Nat
  /-- What the reviewer comes back with. -/
  reply : Reply
  /-- When the time of the role is over. -/
  dueAt : Nat
  /-- The reviewer has come back. -/
  returned : Bool
  /-- The reviewer was stopped before it came back. -/
  stopped : Bool
  stage : Stage

/-- What a waiter does next to a role that is late. -/
inductive ForceStep where
  /-- Close its slot. -/
  | withhold
  /-- Start it, if it was pending. -/
  | start
  /-- End it. -/
  | expire
deriving DecidableEq, Repr

/-- How far a waiter has come. -/
inductive WaitStage where
  /-- It looks at the ledger next at a given time. -/
  | polling (wakeAt : Nat)
  /-- The time of the run is over: it ends the roles that a snapshot shows to be late. -/
  | forcing (snapshot : RunState) (late todo : List Role) (next : ForceStep)
  /-- It waits for supervisors. -/
  | joining (handles : List Nat)
  /-- It is done. -/
  | done (answer : Except PanelError RunState)

/-- A client that waits for a run. -/
structure Waiter where
  incarnation : Nat
  runId : RunId
  /-- The time between two looks at the ledger, at least one. -/
  poll : Nat
  /-- The time that the run may take. -/
  limit : Nat
  stage : WaitStage

/-- One start of a run. -/
structure Incarnation where
  runId : RunId
  slots : Slots
  /-- Supervisors that nobody has joined yet, by position. -/
  handles : List Nat
  startedAt : Nat
  verdict : Option Verdict

/-- The shared state of all parties. -/
structure Panel where
  config : Config
  crew : Crew
  /-- Supervisors and writers can be started. -/
  canSpawn : Bool
  ledger : Ledger
  scribe : Scribe
  disk : Disk
  incarnations : List Incarnation
  /-- The incarnation that an identifier means. -/
  table : Dictionary Nat
  supervisors : List Supervisor
  waiters : List Waiter
  /-- Snapshots of accepted changes that have not reached the scribe yet. -/
  inFlight : List RunState
  /-- Those of them, by position, that reach it while a verdict is on its way to the documents. -/
  arrivals : List Nat
  /-- The time since the panel was set up. -/
  clock : Nat
  /-- What the calendar shows. -/
  now : Timestamp
  /-- The number of the next unique stamp. -/
  nextStamp : Nat

/-- The digits of a stamp. -/
def stampDigits : List Char := "0123456789ABCDEFGHJKMNPQRSTVWXYZ".toList

/-- The last `width` digits of a number, in base 32. -/
def stampText : Nat → Nat → List Char
  | 0, _ => []
  | width + 1, n => stampText width (n / 32) ++ [stampDigits.getD (n % 32) '0']

/-- A unique stamp has 26 digits. -/
def stamp (n : Nat) : String := String.ofList (stampText 26 n)

namespace Panel

/-- A panel without runs, if the configuration is in range. -/
def ofConfig (config : Config) (crew : Crew) (disk : Disk) (now : Timestamp) (canSpawn : Bool)
    (nextStamp : Nat) : Except PanelError Panel :=
  match config.validate with
  | .error e => .error (.config e)
  | .ok () => .ok {
      config, crew, canSpawn, disk, now, nextStamp
      ledger := .empty
      scribe := .empty
      incarnations := []
      table := .empty
      supervisors := []
      waiters := []
      inFlight := []
      arrivals := []
      clock := 0 }

/-- Takes an accepted change of the ledger over; its snapshot is on its way to the scribe. -/
def post {α : Type} (p : Panel) (u : Ledger.Update α) : Panel :=
  { p with ledger := u.ledger, inFlight := p.inFlight ++ [u.published] }

/-- A snapshot reaches the scribe. -/
def deliver (p : Panel) (k : Nat) : Panel :=
  match p.inFlight[k]? with
  | none => p
  | some s =>
    let (scribe, disk) := p.scribe.receive p.disk s
    { p with scribe, disk, inFlight := p.inFlight.eraseIdx k }

/-- Takes an accepted change of the ledger over and hands its snapshot on at once. -/
def accept {α : Type} (p : Panel) (u : Ledger.Update α) : Panel :=
  (p.post u).deliver p.inFlight.length

/-- Moves one role on the ledger. -/
def transition (p : Panel) (id : RunId) (role : Role) (phase : Phase) (cause : Option String) :
    Panel × Except LedgerError Status :=
  match p.ledger.transition id role phase cause p.now with
  | .error e => (p, .error e)
  | .ok u => (p.post u, .ok u.answer)

/-- The incarnation that an identifier means. -/
def active (p : Panel) (id : RunId) : Except PanelError (Nat × Incarnation) :=
  match (p.table.get? id).bind fun i => (p.incarnations[i]?).map fun inc => (i, inc) with
  | some r => .ok r
  | none => .error (.unknownRun id)

/-- Changes one incarnation. -/
def modifyIncarnation (p : Panel) (i : Nat) (f : Incarnation → Incarnation) : Panel :=
  { p with incarnations := p.incarnations.modify i f }

/-- Changes one supervisor. -/
def modifySupervisor (p : Panel) (i : Nat) (f : Supervisor → Supervisor) : Panel :=
  { p with supervisors := p.supervisors.modify i f }

/-- Changes the stage of one supervisor. -/
def setStage (p : Panel) (i : Nat) (stage : Stage) : Panel :=
  p.modifySupervisor i fun s => { s with stage }

/-- Changes the stage of one waiter. -/
def setWait (p : Panel) (i : Nat) (stage : WaitStage) : Panel :=
  { p with waiters := p.waiters.modify i fun w => { w with stage } }

/-- Publishes findings in the slots of an incarnation. -/
def publish (p : Panel) (i : Nat) (role : Role) (fs : List Finding) :
    Panel × Except SlotError Unit :=
  match p.incarnations[i]? with
  | none => (p, .error (.unknownRole role))
  | some inc =>
    let (slots, disk, r) := inc.slots.publish p.disk role fs
    ({ p.modifyIncarnation i (fun inc => { inc with slots }) with disk }, r)

/-- Withholds a slot of an incarnation. -/
def withhold (p : Panel) (i : Nat) (role : Role) : Panel × Except SlotError Bool :=
  match p.incarnations[i]? with
  | none => (p, .error (.unknownRole role))
  | some inc =>
    let (slots, r) := inc.slots.withhold role
    (p.modifyIncarnation i fun inc => { inc with slots }, r)

/-- The panel as a description. -/
def describe (p : Panel) : String :=
  let config := p.config.describe
  let crew := p.crew.describe
  let runs := p.table.size
  s!"Orchestrator \x7b config: {config}, workers: {crew}, runs: {runs} \x7d"

end Panel

end ReviewPanel
