import ReviewPanel.RunState

/-!
# The status ledger

The ledger is the one place that knows how far every run has come.  A run is entered with all its
roles pending; after that single roles move along the phases, and once all of them have ended a
verdict can be attached, which seals the run.  Each accepted change raises the revision of the run by
one and publishes a snapshot; a refused one changes nothing and publishes none.

## Main definitions

* `LedgerEntry` : what the ledger holds about a run; `LedgerEntry.snapshot` is its public face.
* `Ledger.create`, `Ledger.transition`, `Ledger.attach`, `Ledger.retire` : the changes.
* `Ledger.read`, `Ledger.isComplete`, `Ledger.runs` : the queries.
* `LedgerError` : why a call is refused.
-/

namespace ReviewPanel

/-- Why the ledger refuses a call. -/
inductive LedgerError where
  /-- The identifier is taken. -/
  | duplicateRun (id : RunId)
  /-- There is no such run. -/
  | unknownRun (id : RunId)
  /-- The role is not part of the run. -/
  | unknownRole (id : RunId) (role : Role)
  /-- The phase may not follow the present one. -/
  | invalidTransition (role : Role) (source target : Phase)
  /-- A verdict is attached. -/
  | runSealed (id : RunId)
  /-- Some role has not ended. -/
  | runNotComplete (id : RunId)
  /-- A run without roles. -/
  | noRoles
  /-- A role is listed twice. -/
  | duplicateRole (role : Role)
deriving DecidableEq, Repr

namespace LedgerError

/-- The wording of a refusal. -/
def message : LedgerError → String
  | .duplicateRun id => "run " ++ id ++ " already exists"
  | .unknownRun id => "run " ++ id ++ " not found"
  | .unknownRole id role => "role " ++ role.name ++ " is not part of run " ++ id
  | .invalidTransition role source target =>
    "invalid transition for role " ++ role.name ++ ": " ++ source.name ++ " -> " ++ target.name
  | .runSealed id => "run " ++ id ++ " is sealed"
  | .runNotComplete id => "run " ++ id ++ " still has outstanding roles"
  | .noRoles => "a run needs at least one role"
  | .duplicateRole role => "role " ++ role.name ++ " listed more than once"

/-- Another identifier would do. -/
def isDuplicateRun : LedgerError → Bool
  | .duplicateRun _ => true
  | _ => false

/-- The phases forbid it. -/
def isInvalidTransition : LedgerError → Bool
  | .invalidTransition .. => true
  | _ => false

end LedgerError

/-- What the ledger holds about a run. -/
structure LedgerEntry where
  item : WorkItem
  createdAt : Timestamp
  roles : Table Role Status
  verdict : Option VerdictRef
  /-- Number of accepted changes. -/
  revision : Nat
deriving DecidableEq

namespace LedgerEntry

/-- Every role has ended. -/
def isComplete (e : LedgerEntry) : Bool := e.roles.values.all Status.isTerminal

/-- The public face of the entry. -/
def snapshot (e : LedgerEntry) (id : RunId) : RunState :=
  { runId := id, item := e.item, createdAt := e.createdAt, roles := e.roles,
    allComplete := e.isComplete, revision := e.revision, verdict := e.verdict }

end LedgerEntry

namespace Status

/-- The status in a new phase.  Running sets the start, an end sets the end and the cause. -/
def advance (s : Status) (phase : Phase) (cause : Option String) (time : Timestamp) : Status where
  phase := phase
  startedAt := if phase = .running then some time else s.startedAt
  completedAt := if phase.isTerminal then some time else s.completedAt
  cause := if phase.isTerminal then cause else s.cause

end Status

/-- How far every run has come, by identifier. -/
structure Ledger where
  entries : Dictionary LedgerEntry
deriving DecidableEq

/-- The first role that occurs a second time. -/
def firstRepeated? : List Role → List Role → Option Role
  | _, [] => none
  | seen, r :: rs => if r ∈ seen then some r else firstRepeated? (r :: seen) rs

namespace Ledger

/-- An accepted change: the new ledger, the answer to the caller, and the snapshot for observers. -/
structure Update (α : Type) where
  ledger : Ledger
  answer : α
  published : RunState

/-- No runs. -/
def empty : Ledger := ⟨.empty⟩

/-- The entry of a run. -/
def entry (l : Ledger) (id : RunId) : Except LedgerError LedgerEntry :=
  match l.entries.get? id with
  | some e => .ok e
  | none => .error (.unknownRun id)

/-- The ledger with one entry replaced. -/
def put (l : Ledger) (id : RunId) (e : LedgerEntry) : Ledger := ⟨l.entries.insert id e⟩

/-- Enters a run with every role pending. -/
def create (l : Ledger) (id : RunId) (item : WorkItem) (roles : List Role) (time : Timestamp) :
    Except LedgerError (Update RunState) :=
  if roles.isEmpty then .error .noRoles
  else match firstRepeated? [] roles with
    | some r => .error (.duplicateRole r)
    | none =>
      if l.entries.contains id then .error (.duplicateRun id)
      else
        let e : LedgerEntry :=
          { item, createdAt := time, roles := .ofKeys roles .pending, verdict := none, revision := 0 }
        .ok ⟨l.put id e, e.snapshot id, e.snapshot id⟩

/-- Moves one role to a phase that may follow its present one. -/
def transition (l : Ledger) (id : RunId) (role : Role) (phase : Phase) (cause : Option String)
    (time : Timestamp) : Except LedgerError (Update Status) :=
  match l.entries.get? id with
  | none => .error (.unknownRun id)
  | some e =>
    if e.verdict.isSome then .error (.runSealed id)
    else match e.roles.get? role with
      | none => .error (.unknownRole id role)
      | some s =>
        if s.phase.allows phase then
          let s' := s.advance phase cause time
          let e' := { e with roles := e.roles.set role s', revision := e.revision + 1 }
          .ok ⟨l.put id e', s', e'.snapshot id⟩
        else .error (.invalidTransition role s.phase phase)

/-- Attaches the verdict, which seals the run. -/
def attach (l : Ledger) (id : RunId) (verdict : VerdictRef) :
    Except LedgerError (Update RunState) :=
  match l.entries.get? id with
  | none => .error (.unknownRun id)
  | some e =>
    if !e.isComplete then .error (.runNotComplete id)
    else if e.verdict.isSome then .error (.runSealed id)
    else
      let e' := { e with verdict := some verdict, revision := e.revision + 1 }
      .ok ⟨l.put id e', e'.snapshot id, e'.snapshot id⟩

/-- Removes a run that has ended and returns its last snapshot. -/
def retire (l : Ledger) (id : RunId) : Except LedgerError (Ledger × RunState) :=
  match l.entries.get? id with
  | none => .error (.unknownRun id)
  | some e =>
    if e.isComplete then .ok (⟨l.entries.erase id⟩, e.snapshot id)
    else .error (.runNotComplete id)

/-- A snapshot of a run. -/
def read (l : Ledger) (id : RunId) : Except LedgerError RunState :=
  (l.entry id).map fun e => e.snapshot id

/-- Every role of the run has ended. -/
def isComplete (l : Ledger) (id : RunId) : Except LedgerError Bool :=
  (l.entry id).map LedgerEntry.isComplete

/-- The identifiers of all runs, in order. -/
def runs (l : Ledger) : List RunId := l.entries.keys

/-- A short description, with whether somebody observes the ledger. -/
def describe (l : Ledger) (observed : Bool) : String :=
  let count := l.entries.size
  s!"StatusLedger \x7b runs: {count}, observed: {observed} \x7d"

end Ledger

end ReviewPanel
