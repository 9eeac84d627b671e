import ReviewPanel.Labels
import ReviewPanel.Phase
import ReviewPanel.Timestamp
import ReviewPanel.Verdict

/-!
# The state of a run

A `RunState` is a snapshot of one run: what is reviewed, how far each role has come, how many changes
the snapshot reflects, and the reference to the verdict once there is one.  It is also the document
that outside observers read.
-/

namespace ReviewPanel

open Json (Value Reader)

/-- The unit of work under review. -/
structure WorkItem where
  /-- Names the unit; nothing but the reviewers looks into it. -/
  reference : String
  labels : Labels
deriving DecidableEq

namespace WorkItem

/-- A unit of work without labels. -/
def ofReference (reference : String) : WorkItem := ⟨reference, Dictionary.empty⟩

/-- The document of a unit of work; no labels are left out. -/
def toValue (w : WorkItem) : Value :=
  .obj (("reference", .str w.reference) ::
    if w.labels.entries.isEmpty then [] else [("labels", Labels.toValue w.labels)])

/-- The fields of a unit of work. -/
def fields : Json.Fields WorkItem :=
  (Json.Fields.build WorkItem.mk
    |>.required "reference" Reader.string)
    |>.defaulted "labels" Labels.reader Dictionary.empty

/-- Reads a unit of work. -/
def reader : Reader WorkItem := Reader.record "TaskDescriptor" fields

end WorkItem

/-- How far one role has come. -/
structure Status where
  phase : Phase
  /-- When it started to run. -/
  startedAt : Option Timestamp
  /-- When it ended. -/
  completedAt : Option Timestamp
  /-- Why it ended, if somebody said so. -/
  cause : Option String
deriving DecidableEq, Repr

namespace Status

/-- Nothing has happened yet. -/
def pending : Status := ⟨.pending, none, none, none⟩

/-- The role has ended. -/
def isTerminal (s : Status) : Bool := s.phase.isTerminal

/-- The document of a status. -/
def toValue (s : Status) : Value :=
  .obj [("status", .word s.phase), ("startedAt", .ofOption Timestamp.toValue s.startedAt),
    ("completedAt", .ofOption Timestamp.toValue s.completedAt),
    ("errorCause", .ofOption .str s.cause)]

/-- The fields of a status. -/
def fields : Json.Fields Status :=
  (((Json.Fields.build Status.mk
    |>.required "status" Reader.word)
    |>.optional "startedAt" Timestamp.reader)
    |>.optional "completedAt" Timestamp.reader)
    |>.optional "errorCause" Reader.string

/-- Reads a status. -/
def reader : Reader Status := Reader.record "WorkerStatus" fields

end Status

/-- A snapshot of a run. -/
structure RunState where
  runId : RunId
  item : WorkItem
  createdAt : Timestamp
  /-- The roles of the run; they never change. -/
  roles : Table Role Status
  /-- Every role has ended. -/
  allComplete : Bool
  /-- Number of changes that the snapshot reflects. -/
  revision : Nat
  verdict : Option VerdictRef
deriving DecidableEq

namespace RunState

/-- Roles in a phase that satisfies `p`, in canonical order. -/
def rolesWhere (s : RunState) (p : Phase → Bool) : List Role :=
  (s.roles.entries.filter fun e => p e.2.phase).map Prod.fst

/-- Roles that finished. -/
def completed (s : RunState) : List Role := s.rolesWhere (· == .complete)

/-- Roles that failed or ran out of time. -/
def missing (s : RunState) : List Role := s.rolesWhere fun p => p == .failed || p == .timedOut

/-- Roles that have not ended. -/
def outstanding (s : RunState) : List Role := s.rolesWhere fun p => !p.isTerminal

/-- A verdict is attached. -/
def isSealed (s : RunState) : Bool := s.verdict.isSome

/-- The document of a run. -/
def toValue (s : RunState) : Value :=
  .obj ([("runId", .str s.runId), ("task", s.item.toValue), ("createdAt", s.createdAt.toValue),
      ("roles", .table Status.toValue s.roles), ("allComplete", .bool s.allComplete),
      ("revision", .nat s.revision)] ++
    Value.optional "verdict" VerdictRef.toValue s.verdict)

/-- The fields of a run. -/
def fields : Json.Fields RunState :=
  ((((((Json.Fields.build RunState.mk
    |>.required "runId" Reader.string)
    |>.required "task" WorkItem.reader)
    |>.required "createdAt" Timestamp.reader)
    |>.required "roles" (Reader.table Status.reader))
    |>.required "allComplete" Reader.boolean)
    |>.defaulted "revision" Reader.natural 0)
    |>.defaulted "verdict" (Reader.optional VerdictRef.reader) none

/-- Reads a run. -/
def reader : Reader RunState := Reader.record "RunState" fields

end RunState

end ReviewPanel
