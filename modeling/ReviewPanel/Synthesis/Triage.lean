import ReviewPanel.Synthesis.Report
import ReviewPanel.TestName

/-!
# From findings to tests

Every finding of a run is accounted for once: it becomes a test, or an entry that says why not.  A
role that the verdict did not hear comes first, then a finding that cannot be used, then what the
reviewer concluded.

## Main definitions

* `GeneratedTest.ofFinding` : the test of a violation.
* `triage` : what becomes of one finding.
* `SynthesisReport.ofFindings`, `SynthesisReport.ofDocuments` : the report of a run, from findings in
  memory or from the documents that hold them.
-/

namespace ReviewPanel

open Json (Value DecodeError)

/-- Why a finding cannot be used. -/
inductive SynthesisError where
  /-- A field is blank. -/
  | malformed (m : Finding.Malformed)
  /-- An item of a document is no finding. -/
  | undecodable (role : Role) (index : Nat) (recordId detail : String)
deriving DecidableEq, Repr

namespace SynthesisError

/-- The wording of an error. -/
def message : SynthesisError → String
  | .malformed m => "finding " ++ Text.quoted m.id ++ " is malformed: " ++ m.detail
  | .undecodable role index recordId detail =>
    let name := role.name
    let id := Text.quoted recordId
    s!"entry {index} of the {name} slot is not a finding ({id}): {detail}"

/-- Identifier of the finding. -/
def recordId : SynthesisError → String
  | .malformed m => m.id
  | .undecodable _ _ recordId _ => recordId

end SynthesisError

/-- The finding and the rule that it cites. -/
def Finding.citation (f : Finding) : String :=
  match f.reference with
  | some reference => "FINDING: " ++ f.id ++ "; LAW: " ++ reference
  | none => "FINDING: " ++ f.id

/-- What a failing test for the finding says. -/
def Finding.failureMessage (f : Finding) : String :=
  f.id ++ " at " ++ f.location ++ ": " ++ f.rationale ++ "\n" ++ f.citation ++
    match f.remediation with
    | some fix => "\nFIX: " ++ fix
    | none => ""

/-- The test of a finding without blank fields. -/
def GeneratedTest.ofFinding (role : Role) (f : Finding) :
    Except Finding.Malformed GeneratedTest := do
  f.validate
  let category := Category.classify f.id role
  return {
    sourceId := f.id
    role
    category
    suite := category.suite
    testName := ReviewPanel.testName f.id f.location
    description := "detects at `" ++ f.location ++ "`: " ++ f.rationale
    polarity := .fail
    citation := f.citation
    failureMessage := f.failureMessage
    severity := f.severity }

/-- What becomes of a finding. -/
inductive Outcome where
  | test (t : GeneratedTest)
  | skip (e : SkipEntry)
deriving DecidableEq, Repr

/-- What becomes of a finding of a role that was heard. -/
def triageFinding (role : Role) (f : Finding) : Except Finding.Malformed Outcome :=
  match f.classification with
  | .violation => (GeneratedTest.ofFinding role f).map .test
  | .intentionalPattern => f.validate.map fun _ => .skip ⟨f.id, role, .intentionalPattern⟩
  | .falseAlarm => f.validate.map fun _ => .skip ⟨f.id, role, .falseAlarm⟩

/-- The entry of a finding that cannot be used. -/
def SynthesisError.entry (role : Role) (e : SynthesisError) : SkipEntry :=
  ⟨e.recordId, role, .malformed e.message⟩

/-- What becomes of a finding, or of something that is none. -/
def triage (missing : List Role) (role : Role) (input : Except SynthesisError Finding) : Outcome :=
  -- The verdict did not see this finding, so nothing else about it counts.
  if role ∈ missing then
    let id := match input with
      | .ok f => f.id
      | .error e => e.recordId
    .skip ⟨id, role, .missingPerspective⟩
  else
    match input with
    | .error e => .skip (e.entry role)
    | .ok f =>
      match triageFinding role f with
      | .ok outcome => outcome
      | .error m => .skip ((SynthesisError.malformed m).entry role)

namespace SynthesisReport

/-- The report on a list of inputs. -/
def build (verdict : Verdict) (inputs : List (Role × Except SynthesisError Finding)) :
    SynthesisReport :=
  let outcomes := inputs.map fun i => triage verdict.missingPerspectives i.1 i.2
  let tests := outcomes.filterMap fun
    | .test t => some t
    | .skip _ => none
  let skipped := outcomes.filterMap fun
    | .test _ => none
    | .skip e => some e
  { runId := verdict.runId
    recommendation := verdict.recommendation
    tests := byRoleAndId (fun t => (t.role, t.sourceId)) tests
    skipped := byRoleAndId (fun e => (e.role, e.recordId)) skipped
    missingPerspectives := verdict.missingPerspectives }

/-- The report on findings with their roles. -/
def ofFindings (verdict : Verdict) (findings : List (Role × Finding)) : SynthesisReport :=
  build verdict (findings.map fun p => (p.1, .ok p.2))

/-- An item of a document as a finding. -/
def readEntry (role : Role) (index : Nat) (entry : Value) : Except SynthesisError Finding :=
  match Finding.reader.runValue entry with
  | .ok f => .ok f
  | .error e =>
    let detail := match e with
      | .mismatch m => m.message
      | .fault _ => ""
    .error (.undecodable role index (((entry.member? "id").bind Value.string?).getD "") detail)

/-- The inputs of one document: its items, or one input that says that it has none. -/
def documentInputs (role : Role) (document : Value) :
    List (Role × Except SynthesisError Finding) :=
  match document with
  | .arr items => items.mapIdx fun index entry => (role, readEntry role index entry)
  | _ => [(role, .error (.undecodable role 0 "" "slot document is not an array"))]

/-- The report on the documents of some roles. -/
def ofDocuments (verdict : Verdict) (documents : Table Role Value) : SynthesisReport :=
  build verdict (documents.entries.flatMap fun d => documentInputs d.1 d.2)

end SynthesisReport

end ReviewPanel
