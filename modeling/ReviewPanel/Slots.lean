import ReviewPanel.Workspace

/-!
# Output slots

Each role of a run has a slot for its findings.  A slot is open until it is published, with the
findings, or withheld, without; whichever comes first decides for good.  The slots of a run with a
workspace also go to disk when they are published.
-/

namespace ReviewPanel

/-- The content of a slot. -/
inductive Cell where
  | vacant
  | published (fs : List Finding)
  | withheld
deriving DecidableEq, Repr

namespace Cell

/-- Somebody has decided. -/
def isClosed : Cell → Bool
  | .vacant => false
  | .published _ | .withheld => true

/-- The findings of a published slot. -/
def findings? : Cell → Option (List Finding)
  | .published fs => some fs
  | .vacant | .withheld => none

end Cell

/-- Why a slot does not take findings. -/
inductive SlotError where
  /-- It is closed. -/
  | closed (role : Role)
  /-- The role has none. -/
  | unknownRole (role : Role)
  /-- It took them, but they did not get to disk. -/
  | persist (e : WorkspaceError)
deriving DecidableEq, Repr

/-- The wording of a refusal. -/
def SlotError.message : SlotError → String
  | .closed role => "output slot for " ++ role.name ++ " is already closed"
  | .unknownRole role => "no output slot for " ++ role.name
  | .persist e => "failed to persist slot: " ++ e.message

/-- The slots of a run. -/
structure Slots where
  cells : Table Role Cell
  /-- Where published findings go to disk. -/
  workspace : Option Workspace
deriving DecidableEq

namespace Slots

/-- Open slots for some roles. -/
def ofRoles (roles : List Role) (workspace : Option Workspace) : Slots :=
  ⟨.ofKeys roles .vacant, workspace⟩

/-- Decides about an open slot. -/
def close (s : Slots) (role : Role) (c : Cell) : Except SlotError Slots :=
  match s.cells.get? role with
  | none => .error (.unknownRole role)
  | some .vacant => .ok { s with cells := s.cells.set role c }
  | some (.published _) | some .withheld => .error (.closed role)

/-- Publishes findings: in memory first, then on disk.  If the disk fails the slot stays
published. -/
def publish (s : Slots) (d : Disk) (role : Role) (fs : List Finding) :
    Slots × Disk × Except SlotError Unit :=
  match s.close role (.published fs) with
  | .error e => (s, d, .error e)
  | .ok s =>
    match s.workspace with
    | none => (s, d, .ok ())
    | some w =>
      match w.writeSlot d role fs with
      | .ok d => (s, d, .ok ())
      | .error e => (s, d, .error (.persist e))

/-- Closes a slot without findings, and says whether it was open. -/
def withhold (s : Slots) (role : Role) : Slots × Except SlotError Bool :=
  match s.close role .withheld with
  | .ok s => (s, .ok true)
  | .error (.closed _) => (s, .ok false)
  | .error e => (s, .error e)

/-- The findings of a role, if its slot is published. -/
def findings (s : Slots) (role : Role) : Option (List Finding) :=
  (s.cells.get? role).bind Cell.findings?

/-- Somebody has decided about the slot of a role. -/
def isClosed (s : Slots) (role : Role) : Bool :=
  match s.cells.get? role with
  | some c => c.isClosed
  | none => false

/-- All published findings with their roles, by role and identifier. -/
def collect (s : Slots) : List (Role × Finding) :=
  byRoleAndId (fun p => (p.1, p.2.id))
    (s.cells.keys.flatMap fun role => ((s.findings role).getD []).map fun f => (role, f))

end Slots

end ReviewPanel
