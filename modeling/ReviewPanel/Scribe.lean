import ReviewPanel.Workspace

/-!
# The scribe of the ledger

A scribe keeps the state documents of registered runs in step with the ledger.  Ledger snapshots
arrive in any order; a registration remembers the newest one.  What happens next depends on the
surroundings:

* with background writers, the writer of the registration takes the newest snapshot when it gets to it
  (`Scribe.take`) and writes it later (`Scribe.persist`);
* without them the snapshot is written on the spot.

`Scribe.flush` writes the newest snapshot at once.  No registration writes a snapshot unless its
revision is higher than that of the last one that it wrote.

Registrations are never removed from the list, because the writer of one that has been replaced or
ended may still hold a snapshot.
-/

namespace ReviewPanel

/-- A run whose state document is kept in step with the ledger. -/
structure Registration where
  workspace : Workspace
  /-- A background writer looks after it. -/
  background : Bool
  /-- The newest snapshot. -/
  latest : Option RunState
  /-- The writer has not taken the newest snapshot yet. -/
  unseen : Bool
  /-- A snapshot that the writer has taken and not yet written. -/
  carried : Option RunState
  /-- The revision that was written last. -/
  written : Option Nat
deriving DecidableEq

namespace Registration

/-- A new registration. -/
def ofWorkspace (w : Workspace) (background : Bool) : Registration :=
  ⟨w, background, none, false, none, none⟩

/-- The snapshot is no newer than what was written. -/
def isStale (r : Registration) (s : RunState) : Bool :=
  match r.written with
  | some revision => decide (s.revision ≤ revision)
  | none => false

/-- Writes a snapshot unless it is stale; a failed write changes nothing. -/
def persist (r : Registration) (d : Disk) (s : RunState) : Registration × Disk :=
  if r.isStale s then (r, d)
  else match r.workspace.writeStatus d s with
    | .ok d => ({ r with written := some s.revision }, d)
    | .error _ => (r, d)

/-- The snapshot is newer than the newest one. -/
def isNews (r : Registration) (s : RunState) : Bool :=
  match r.latest with
  | some l => decide (l.revision < s.revision)
  | none => true

/-- A snapshot arrives. -/
def receive (r : Registration) (d : Disk) (s : RunState) : Registration × Disk :=
  if r.isNews s then
    let r := { r with latest := some s, unseen := true }
    -- With a writer in the background, writing is its business.
    if r.background then (r, d) else r.persist d s
  else (r, d)

/-- The writer takes the newest snapshot. -/
def take (r : Registration) : Registration :=
  if r.background ∧ r.unseen ∧ r.carried.isNone then
    { r with carried := r.latest, unseen := false }
  else r

/-- The writer writes what it took. -/
def writeCarried (r : Registration) (d : Disk) : Registration × Disk :=
  match r.carried with
  | none => (r, d)
  | some s => { r with carried := none }.persist d s

/-- The newest snapshot is written at once. -/
def flush (r : Registration) (d : Disk) : Registration × Disk :=
  match r.latest with
  | none => (r, d)
  | some s => r.persist d s

end Registration

/-- All registrations, and which one a run has at present. -/
structure Scribe where
  /-- Every registration ever made. -/
  registrations : List Registration
  /-- The position of a run's present registration. -/
  current : Dictionary Nat
deriving DecidableEq

namespace Scribe

/-- Nothing is registered. -/
def empty : Scribe := ⟨[], .empty⟩

/-- Takes a run on. -/
def register (s : Scribe) (w : Workspace) (background : Bool) : Scribe :=
  ⟨s.registrations ++ [.ofWorkspace w background],
    s.current.insert w.runId s.registrations.length⟩

/-- Lets a run go. -/
def unregister (s : Scribe) (id : RunId) : Scribe := { s with current := s.current.erase id }

/-- The present registration of a run. -/
def registration? (s : Scribe) (id : RunId) : Option Registration :=
  (s.current.get? id).bind fun i => s.registrations[i]?

/-- The workspace of a run that is registered. -/
def workspace? (s : Scribe) (id : RunId) : Option Workspace :=
  (s.registration? id).map Registration.workspace

/-- Changes one registration, and the disk with it. -/
def update (s : Scribe) (d : Disk) (i : Nat) (f : Registration → Disk → Registration × Disk) :
    Scribe × Disk :=
  match s.registrations[i]? with
  | none => (s, d)
  | some r =>
    let (r, d) := f r d
    ({ s with registrations := s.registrations.set i r }, d)

/-- Changes the present registration of a run. -/
def updateRun (s : Scribe) (d : Disk) (id : RunId)
    (f : Registration → Disk → Registration × Disk) : Scribe × Disk :=
  match s.current.get? id with
  | none => (s, d)
  | some i => s.update d i f

/-- A snapshot of the ledger arrives. -/
def receive (s : Scribe) (d : Disk) (state : RunState) : Scribe × Disk :=
  s.updateRun d state.runId fun r d => r.receive d state

/-- The newest snapshot of a run is written at once. -/
def flush (s : Scribe) (d : Disk) (id : RunId) : Scribe × Disk :=
  s.updateRun d id Registration.flush

/-- The writer of a registration takes the newest snapshot. -/
def take (s : Scribe) (i : Nat) : Scribe :=
  { s with registrations := s.registrations.modify i Registration.take }

/-- The writer of a registration writes what it took. -/
def persist (s : Scribe) (d : Disk) (i : Nat) : Scribe × Disk :=
  s.update d i Registration.writeCarried

end Scribe

end ReviewPanel
