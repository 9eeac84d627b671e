import ReviewPanel.Category
import ReviewPanel.Verdict

/-!
# Reports of generated tests

A report lists one test for each violation that a run established and one entry for each finding
that gave no test, with the reason.  Both lists are ordered by role and identifier.
-/

namespace ReviewPanel

open Json (Value Reader Document Origin DecodeError)

/-- What a test does on the task as it is. -/
inductive Polarity where
  | pass
  /-- It fails until the finding is mended. -/
  | fail
deriving DecidableEq, Repr

namespace Polarity

/-- The name of the polarity. -/
def name : Polarity → String
  | .pass => "Pass"
  | .fail => "Fail"

instance : Named Polarity where
  all := [.pass, .fail]
  mem_all := by intro p; cases p <;> decide
  nodup_all := by decide
  name := name
  name_inj := by intro a b; cases a <;> cases b <;> simp [name]

end Polarity

/-- A test that detects one finding. -/
structure GeneratedTest where
  /-- Identifier of the finding. -/
  sourceId : String
  /-- The role that reported it. -/
  role : Role
  category : Category
  suite : String
  testName : String
  /-- What the test looks for. -/
  description : String
  polarity : Polarity
  /-- The finding and the rule that it cites. -/
  citation : String
  /-- What a failing test says. -/
  failureMessage : String
  severity : Severity
deriving DecidableEq, Repr

namespace GeneratedTest

/-- The document of a test. -/
def toValue (t : GeneratedTest) : Value :=
  .obj [("sourceFindingId", .str t.sourceId), ("role", .word t.role), ("category", .word t.category),
    ("suite", .str t.suite), ("testName", .str t.testName),
    ("detectionDescription", .str t.description), ("expectedPolarity", .word t.polarity),
    ("citation", .str t.citation), ("failureMessage", .str t.failureMessage),
    ("severity", .word t.severity)]

/-- The fields of a test. -/
def fields : Json.Fields GeneratedTest :=
  (((((((((Json.Fields.build GeneratedTest.mk
    |>.required "sourceFindingId" Reader.string)
    |>.required "role" Reader.word)
    |>.required "category" Reader.word)
    |>.required "suite" Reader.string)
    |>.required "testName" Reader.string)
    |>.required "detectionDescription" Reader.string)
    |>.required "expectedPolarity" Reader.word)
    |>.required "citation" Reader.string)
    |>.required "failureMessage" Reader.string)
    |>.required "severity" Reader.word

/-- Reads a test. -/
def reader : Reader GeneratedTest := Reader.record "GeneratedTest" fields

end GeneratedTest

/-- Kinds of reasons for a finding to give no test. -/
inductive SkipKind where
  | intentionalPattern
  | falseAlarm
  | malformed
  | missingPerspective
deriving DecidableEq, Repr

namespace SkipKind

/-- The name of the kind. -/
def name : SkipKind → String
  | .intentionalPattern => "IntentionalPattern"
  | .falseAlarm => "FalseAlarm"
  | .malformed => "Malformed"
  | .missingPerspective => "MissingPerspective"

instance : Named SkipKind where
  all := [.intentionalPattern, .falseAlarm, .malformed, .missingPerspective]
  mem_all := by intro k; cases k <;> decide
  nodup_all := by decide
  name := name
  name_inj := by intro a b; cases a <;> cases b <;> simp [name]

end SkipKind

/-- Why a finding gave no test. -/
inductive SkipReason where
  /-- It is deliberate. -/
  | intentionalPattern
  /-- The detector was wrong. -/
  | falseAlarm
  /-- It cannot be used. -/
  | malformed (detail : String)
  /-- The verdict did not hear its role. -/
  | missingPerspective
deriving DecidableEq, Repr

namespace SkipReason

/-- The kind of a reason. -/
def kind : SkipReason → SkipKind
  | .intentionalPattern => .intentionalPattern
  | .falseAlarm => .falseAlarm
  | .malformed _ => .malformed
  | .missingPerspective => .missingPerspective

/-- The document of a reason: its kind, and the detail if it has one. -/
def toValue (r : SkipReason) : Value :=
  .obj (("kind", .word r.kind) :: match r with
    | .malformed detail => [("detail", .str detail)]
    | _ => [])

/-- Reads nothing, for a kind without detail. -/
def noDetail (kind : SkipKind) (r : SkipReason) : Reader SkipReason := fun _ d =>
  match d with
  | .null => .ok r
  | d => d.reject ("unit variant SkipReason::" ++ kind.name)

/-- Reads the detail of a reason whose kind is known. -/
def detailReader : SkipKind → Reader SkipReason
  | .malformed => fun o d => (Reader.string o d).map .malformed
  | .intentionalPattern => noDetail .intentionalPattern .intentionalPattern
  | .falseAlarm => noDetail .falseAlarm .falseAlarm
  | .missingPerspective => noDetail .missingPerspective .missingPerspective

/-- A reason while its members are read. -/
inductive Draft where
  /-- Nothing has been read. -/
  | blank
  /-- The kind has been read. -/
  | kindOnly (kind : SkipKind)
  /-- The detail has been read, and makes sense only once the kind is known. -/
  | detailOnly (detail : Value)
  /-- Both have been read. -/
  | both (r : SkipReason)

/-- A reason stands inside four other containers of a report. -/
def nesting : Nat := 4

/-- Reads the member that gives the kind. -/
def putKind (o : Origin) (draft : Draft) (d : Document) : Except DecodeError Draft :=
  match draft with
  | .blank => do return .kindOnly (← Reader.word o d)
  | .detailOnly v => do
    let kind ← Reader.word o d
    return .both (← detailReader kind .value (.ofValue v))
  | .kindOnly _ | .both _ => Document.failMismatch (.duplicateField "kind")

/-- Reads the member that gives the detail. -/
def putDetail (o : Origin) (draft : Draft) (d : Document) : Except DecodeError Draft :=
  match draft with
  | .blank => do return .detailOnly (← Reader.anythingInside nesting o d)
  | .kindOnly kind => do return .both (← detailReader kind o d)
  | .detailOnly _ | .both _ => Document.failMismatch (.duplicateField "detail")

/-- Reads the members of a reason in the order of the document. -/
def putAll (o : Origin) (draft : Draft) :
    List (Option String × Document) → Except DecodeError Draft
  | [] => .ok draft
  | (name, d) :: ms => do
    let name ← Document.need name
    if name = "kind" then putAll o (← putKind o draft d) ms
    else if name = "detail" then putAll o (← putDetail o draft d) ms
    else do
      Reader.ignore d
      putAll o draft ms

/-- The reason, once all members have been read. -/
def finish : Draft → Except DecodeError SkipReason
  | .both r => .ok r
  | .kindOnly .intentionalPattern => .ok .intentionalPattern
  | .kindOnly .falseAlarm => .ok .falseAlarm
  | .kindOnly .missingPerspective => .ok .missingPerspective
  | .kindOnly .malformed => Document.failMismatch (.missingField "detail")
  | .blank | .detailOnly _ => Document.failMismatch (.missingField "kind")

/-- Reads a reason: an object with its kind and detail, or an array of the two. -/
def reader : Reader SkipReason := fun o d =>
  let want := "adjacently tagged enum SkipReason"
  match d with
  | .object ms close => do
    let draft ← putAll o .blank ms
    Document.checkClose close
    finish draft
  | .array [] close => Reader.tooShort 0 want close
  | .array [x] close => do
    let _ ← (Reader.word o x : Except DecodeError SkipKind)
    Reader.tooShort 1 want close
  | .array (x :: y :: rest) close => do
    let kind ← Reader.word o x
    let r ← detailReader kind o y
    Reader.noMore o 2 rest close
    return r
  | d => d.reject want

end SkipReason

/-- A finding that gave no test. -/
structure SkipEntry where
  /-- Identifier of the finding, empty if it has none. -/
  recordId : String
  /-- The role that reported it. -/
  role : Role
  reason : SkipReason
deriving DecidableEq, Repr

namespace SkipEntry

/-- The document of an entry. -/
def toValue (e : SkipEntry) : Value :=
  .obj [("recordId", .str e.recordId), ("role", .word e.role), ("reason", e.reason.toValue)]

/-- The fields of an entry. -/
def fields : Json.Fields SkipEntry :=
  ((Json.Fields.build SkipEntry.mk
    |>.required "recordId" Reader.string)
    |>.required "role" Reader.word)
    |>.required "reason" SkipReason.reader

/-- Reads an entry. -/
def reader : Reader SkipEntry := Reader.record "SkipEntry" fields

end SkipEntry

/-- The tests of a run, and what gave none. -/
structure SynthesisReport where
  runId : RunId
  recommendation : Recommendation
  tests : List GeneratedTest
  skipped : List SkipEntry
  missingPerspectives : List Role
deriving DecidableEq, Repr

namespace SynthesisReport

/-- The document of a report. -/
def toValue (r : SynthesisReport) : Value :=
  .obj [("runId", .str r.runId), ("recommendation", .word r.recommendation),
    ("tests", .arr (r.tests.map GeneratedTest.toValue)),
    ("skipped", .arr (r.skipped.map SkipEntry.toValue)),
    ("missingPerspectives", .words r.missingPerspectives)]

/-- The fields of a report. -/
def fields : Json.Fields SynthesisReport :=
  ((((Json.Fields.build SynthesisReport.mk
    |>.required "runId" Reader.string)
    |>.required "recommendation" Reader.word)
    |>.required "tests" (Reader.list GeneratedTest.reader))
    |>.required "skipped" (Reader.list SkipEntry.reader))
    |>.required "missingPerspectives" (Reader.list Reader.word)

/-- Reads a report. -/
def reader : Reader SynthesisReport := Reader.record "SynthesisReport" fields

/-- Number of tests of each category that has any. -/
def byCategory (r : SynthesisReport) : Table Category Nat :=
  ⟨fun c =>
    let n := r.tests.countP fun t => t.category == c
    if n = 0 then none else some n⟩

end SynthesisReport

end ReviewPanel
