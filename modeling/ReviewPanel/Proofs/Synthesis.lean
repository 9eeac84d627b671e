import Mathlib.Data.List.Forall2
import ReviewPanel.Proofs.Listing
import ReviewPanel.Synthesis.Triage

/-!
# A report accounts for every finding once

A report is made from findings in memory or from documents, whose items may be no findings at all.  Either
way it is made from a list of submissions, and each of them gives one test or one entry that says why
there is none.  Which of the two it is, and why, depends on four things in this order: whether the role
was heard, whether the submission can be read, whether a field is blank, and what the reviewer concluded.

## Main definitions

* `Submission` : something that a report has to account for, with `Submission.ofFinding` and
  `Submission.ofDocument`.
* `Submission.violation?` : the finding of a submission that calls for a test.
* `SkippedAs` : the entry of a submission that gives no test.
* `SynthesisReport.Accounts` : a report accounts for a list of submissions.

## Main statements

* `triage_cases` : what becomes of one submission.
* `SynthesisReport.build_accounts` : what becomes of a list of them.
* `SynthesisReport.accounts_for_all` : **every finding is accounted for once**, whether it comes from
  memory or from a document.
-/

namespace ReviewPanel

open Json (Value)

/-- One of the fields that may not be blank is blank. -/
def Finding.HasBlank (f : Finding) : Prop :=
  Text.isBlank f.id = true ∨ Text.isBlank f.location = true ∨ Text.isBlank f.rationale = true

instance (f : Finding) : Decidable f.HasBlank := inferInstanceAs (Decidable (_ ∨ _))

/-- Something that a report has to account for. -/
structure Submission where
  role : Role
  /-- The identifier under which it is listed if it gives no test. -/
  id : String
  /-- What it says, unless it cannot be read. -/
  finding? : Option Finding

namespace Submission

/-- A finding in memory. -/
def ofFinding (role : Role) (f : Finding) : Submission := ⟨role, f.id, some f⟩

/-- An item of a document.  One that is no finding is known by its identifier, if that is a text. -/
def ofEntry (role : Role) (entry : Value) : Submission :=
  match Finding.reader.runValue entry with
  | .ok f => ofFinding role f
  | .error _ => ⟨role, ((entry.member? "id").bind Value.string?).getD "", none⟩

/-- The items of a document, or the document itself if it is no list. -/
def ofDocument (role : Role) : Value → List Submission
  | .arr items => items.map (ofEntry role)
  | _ => [⟨role, "", none⟩]

/-- The finding of a submission that calls for a test: a violation without blank fields, of a role that
was heard. -/
def violation? (missing : List Role) (s : Submission) : Option Finding :=
  s.finding?.filter fun f => s.role ∉ missing ∧ f.classification = .violation ∧ ¬ f.HasBlank

/-- An input of a report as a submission. -/
def ofInput (i : Role × Except SynthesisError Finding) : Submission where
  role := i.1
  id := match i.2 with
    | .ok f => f.id
    | .error e => e.recordId
  finding? := i.2.toOption

end Submission

/-- The entry of a submission that gives no test, with the reason. -/
structure SkippedAs (missing : List Role) (s : Submission) (e : SkipEntry) : Prop where
  recordId_eq : e.recordId = s.id
  role_eq : e.role = s.role
  /-- The role was not heard, whatever the submission says. -/
  unheard : e.reason = .missingPerspective ↔ s.role ∈ missing
  /-- It cannot be read or has a blank field, whatever the reviewer concluded. -/
  malformed : (∃ detail, e.reason = .malformed detail) ↔
    s.role ∉ missing ∧ ∀ f, s.finding? = some f → f.HasBlank
  intentional : e.reason = .intentionalPattern ↔ s.role ∉ missing ∧
    ∃ f, s.finding? = some f ∧ ¬ f.HasBlank ∧ f.classification = .intentionalPattern
  falseAlarm : e.reason = .falseAlarm ↔ s.role ∉ missing ∧
    ∃ f, s.finding? = some f ∧ ¬ f.HasBlank ∧ f.classification = .falseAlarm

/-- A report accounts for a list of submissions. -/
structure SynthesisReport.Accounts (missing : List Role) (inputs : List Submission)
    (r : SynthesisReport) : Prop where
  /-- The tests are those of the violations, none of which fails to give one. -/
  tests : (r.tests.map .ok).Perm
    (inputs.filterMap fun s => (s.violation? missing).map (GeneratedTest.ofFinding s.role))
  /-- All other submissions have one entry each. -/
  skipped : ∃ es, r.skipped.Perm es ∧
    List.Forall₂ (SkippedAs missing) (inputs.filter fun s => (s.violation? missing).isNone) es
  count : r.tests.length + r.skipped.length = inputs.length
  tests_sorted : r.tests.Pairwise fun a b => Precedes (a.role, a.sourceId) (b.role, b.sourceId)
  skipped_sorted : r.skipped.Pairwise fun a b => Precedes (a.role, a.recordId) (b.role, b.recordId)

/-! ### Blank fields -/

theorem Finding.validate_cases (f : Finding) :
    ¬ f.HasBlank ∧ f.validate = .ok () ∨
      f.HasBlank ∧ ∃ m : Finding.Malformed, m.id = f.id ∧ f.validate = .error m := by
  simp only [HasBlank, validate, requiredText, List.find?_cons, List.find?_nil]
  cases Text.isBlank f.id <;> cases Text.isBlank f.location <;> cases Text.isBlank f.rationale <;>
    simp

/-- **A test is generated exactly if no field is blank.** -/
theorem GeneratedTest.ofFinding_cases (role : Role) (f : Finding) :
    ¬ f.HasBlank ∧ (∃ t, ofFinding role f = .ok t) ∨
      f.HasBlank ∧ ∃ m : Finding.Malformed, m.id = f.id ∧ ofFinding role f = .error m := by
  unfold ofFinding
  rcases f.validate_cases with ⟨hb, hv⟩ | ⟨hb, m, hid, hv⟩
  · exact .inl ⟨hb, _, by rw [hv]; rfl⟩
  · exact .inr ⟨hb, m, hid, by rw [hv]; rfl⟩

theorem GeneratedTest.of_ofFinding {role : Role} {f : Finding} {t : GeneratedTest}
    (h : ofFinding role f = .ok t) :
    t.role = role ∧ t.sourceId = f.id ∧ t.severity = f.severity ∧
      t.testName = ReviewPanel.testName f.id f.location := by
  unfold ofFinding at h
  cases hf : f.validate with
  | error m => rw [hf] at h; cases h
  | ok _ =>
    rw [hf] at h
    obtain rfl := Except.ok.inj h
    exact ⟨rfl, rfl, rfl, rfl⟩

theorem triageFinding_cases (role : Role) (f : Finding) :
    (f.HasBlank ∧ ∃ m : Finding.Malformed, m.id = f.id ∧ triageFinding role f = .error m) ∨
      ¬ f.HasBlank ∧
        (f.classification = .violation ∧ (∃ t, GeneratedTest.ofFinding role f = .ok t ∧
            triageFinding role f = .ok (.test t)) ∨
          f.classification = .intentionalPattern ∧
            triageFinding role f = .ok (.skip ⟨f.id, role, .intentionalPattern⟩) ∨
          f.classification = .falseAlarm ∧
            triageFinding role f = .ok (.skip ⟨f.id, role, .falseAlarm⟩)) := by
  unfold triageFinding
  cases hc : f.classification with
  | violation =>
    rcases GeneratedTest.ofFinding_cases role f with ⟨hb, t, ht⟩ | ⟨hb, m, hid, hm⟩
    · exact .inr ⟨hb, .inl ⟨rfl, t, ht, by simp only [ht]; rfl⟩⟩
    · exact .inl ⟨hb, m, hid, by simp only [hm]; rfl⟩
  | intentionalPattern =>
    rcases f.validate_cases with ⟨hb, hv⟩ | ⟨hb, m, hid, hv⟩
    · exact .inr ⟨hb, .inr (.inl ⟨rfl, by simp only [hv]; rfl⟩)⟩
    · exact .inl ⟨hb, m, hid, by simp only [hv]; rfl⟩
  | falseAlarm =>
    rcases f.validate_cases with ⟨hb, hv⟩ | ⟨hb, m, hid, hv⟩
    · exact .inr ⟨hb, .inr (.inr ⟨rfl, by simp only [hv]; rfl⟩)⟩
    · exact .inl ⟨hb, m, hid, by simp only [hv]; rfl⟩

/-! ### One submission -/

variable {missing : List Role}

theorem skippedAs_missing {s : Submission} (h : s.role ∈ missing) :
    s.violation? missing = none ∧ SkippedAs missing s ⟨s.id, s.role, .missingPerspective⟩ := by
  refine ⟨?_, by constructor <;> simp [h]⟩
  unfold Submission.violation?
  cases s.finding? <;> simp [h]

theorem skippedAs_malformed {s : Submission} (h : s.role ∉ missing)
    (hb : ∀ f, s.finding? = some f → f.HasBlank) (detail : String) :
    s.violation? missing = none ∧ SkippedAs missing s ⟨s.id, s.role, .malformed detail⟩ := by
  constructor
  · unfold Submission.violation?
    cases hf : s.finding? with
    | none => rfl
    | some f => simp [hb f hf]
  · constructor <;> grind

/-- **What becomes of a submission**: a test if it calls for one, else an entry with the reason. -/
theorem triage_cases (missing : List Role) (i : Role × Except SynthesisError Finding) :
    (∃ f t, (Submission.ofInput i).violation? missing = some f ∧
        GeneratedTest.ofFinding i.1 f = .ok t ∧ triage missing i.1 i.2 = .test t) ∨
      (Submission.ofInput i).violation? missing = none ∧
        ∃ e, triage missing i.1 i.2 = .skip e ∧ SkippedAs missing (.ofInput i) e := by
  obtain ⟨role, input⟩ := i
  by_cases hrole : role ∈ missing
  · obtain ⟨hnone, hskip⟩ := skippedAs_missing (s := .ofInput (role, input)) hrole
    exact .inr ⟨hnone, _, if_pos hrole, hskip⟩
  · simp only [triage, if_neg hrole]
    cases input with
    | error e =>
      obtain ⟨hnone, hskip⟩ := skippedAs_malformed (s := .ofInput (role, .error e)) hrole
        (fun f hf => by cases hf) e.message
      exact .inr ⟨hnone, _, rfl, hskip⟩
    | ok f =>
      rcases triageFinding_cases role f with
        ⟨hb, m, hid, hm⟩ | ⟨hb, ⟨hc, t, ht, h⟩ | ⟨hc, h⟩ | ⟨hc, h⟩⟩
      · obtain ⟨hnone, hskip⟩ := skippedAs_malformed (s := .ofInput (role, .ok f)) hrole
          (fun f' hf' => by cases hf'; exact hb) (SynthesisError.malformed m).message
        refine .inr ⟨hnone, (SynthesisError.malformed m).entry role, by simp only [hm], ?_⟩
        simp only [SynthesisError.entry, SynthesisError.recordId, hid]
        exact hskip
      · refine .inl ⟨f, t, ?_, ht, by simp only [h]⟩
        simp [Submission.violation?, Submission.ofInput, Except.toOption, hrole, hc, hb]
      · refine .inr ⟨?_, ⟨f.id, role, .intentionalPattern⟩, by simp only [h], ?_⟩
        · simp [Submission.violation?, Submission.ofInput, Except.toOption, hc]
        · constructor <;> simp [Submission.ofInput, Except.toOption, hrole, hb, hc]
      · refine .inr ⟨?_, ⟨f.id, role, .falseAlarm⟩, by simp only [h], ?_⟩
        · simp [Submission.violation?, Submission.ofInput, Except.toOption, hc]
        · constructor <;> simp [Submission.ofInput, Except.toOption, hrole, hb, hc]

/-! ### A list of submissions -/

/-- The test of an outcome. -/
def Outcome.test? : Outcome → Option GeneratedTest
  | .test t => some t
  | .skip _ => none

/-- The entry of an outcome. -/
def Outcome.skip? : Outcome → Option SkipEntry
  | .test _ => none
  | .skip e => some e

namespace SynthesisReport

theorem outcomes_account (missing : List Role) (inputs : List (Role × Except SynthesisError Finding)) :
    ((inputs.map fun i => triage missing i.1 i.2).filterMap Outcome.test?).map .ok =
        (inputs.map Submission.ofInput).filterMap (fun s =>
          (s.violation? missing).map (GeneratedTest.ofFinding s.role)) ∧
      List.Forall₂ (SkippedAs missing)
        ((inputs.map Submission.ofInput).filter fun s => (s.violation? missing).isNone)
        ((inputs.map fun i => triage missing i.1 i.2).filterMap Outcome.skip?) ∧
      ((inputs.map fun i => triage missing i.1 i.2).filterMap Outcome.test?).length +
        ((inputs.map fun i => triage missing i.1 i.2).filterMap Outcome.skip?).length =
          inputs.length := by
  induction inputs with
  | nil => exact ⟨rfl, .nil, rfl⟩
  | cons i inputs ih =>
    obtain ⟨htests, hskips, hcount⟩ := ih
    simp only [List.map_cons, List.filterMap_cons, List.filter_cons, List.length_cons]
    rcases triage_cases missing i with ⟨f, t, hviol, ht, h⟩ | ⟨hviol, e, h, hskip⟩
    · have ht' : GeneratedTest.ofFinding (Submission.ofInput i).role f = .ok t := ht
      simp only [h, hviol, ht', htests, Outcome.test?, Outcome.skip?, Option.map_some,
        Option.isNone_some, List.map_cons, List.length_cons, Bool.false_eq_true, if_false]
      exact ⟨trivial, hskips, by omega⟩
    · simp only [h, hviol, htests, Outcome.test?, Outcome.skip?, Option.map_none,
        Option.isNone_none, List.length_cons, if_true]
      exact ⟨trivial, .cons hskip hskips, by omega⟩

/-- **A report accounts for its inputs.** -/
theorem build_accounts (verdict : Verdict) (inputs : List (Role × Except SynthesisError Finding)) :
    Accounts verdict.missingPerspectives (inputs.map .ofInput) (build verdict inputs) := by
  obtain ⟨htests, hskips, hcount⟩ := outcomes_account verdict.missingPerspectives inputs
  have ht := arranged_byRoleAndId (fun t : GeneratedTest => (t.role, t.sourceId))
    ((inputs.map fun i => triage verdict.missingPerspectives i.1 i.2).filterMap Outcome.test?)
  have hs := arranged_byRoleAndId (fun e : SkipEntry => (e.role, e.recordId))
    ((inputs.map fun i => triage verdict.missingPerspectives i.1 i.2).filterMap Outcome.skip?)
  refine ⟨htests ▸ ht.perm.map _, ⟨_, hs.perm, hskips⟩, ?_, ht.sorted, hs.sorted⟩
  rw [List.length_map, ← hcount, ← ht.perm.length_eq, ← hs.perm.length_eq]
  rfl

theorem ofInput_readEntry (role : Role) (index : Nat) (entry : Value) :
    Submission.ofInput (role, readEntry role index entry) = .ofEntry role entry := by
  unfold readEntry Submission.ofEntry
  cases Finding.reader.runValue entry with
  | ok f => rfl
  | error e => rfl

theorem ofInput_documentInputs (role : Role) (document : Value) :
    (documentInputs role document).map Submission.ofInput = Submission.ofDocument role document := by
  cases document with
  | arr items =>
    simp only [documentInputs, Submission.ofDocument]
    refine List.ext_getElem? fun index => ?_
    simp only [List.getElem?_map, List.getElem?_mapIdx, Option.map_map]
    exact congrArg (Option.map · items[index]?) (funext fun entry => ofInput_readEntry role index entry)
  | _ => rfl

/-- **Every finding is accounted for once.**  Findings in memory are one submission each; a document is
one for each of its items, or a single one if it is no list. -/
theorem accounts_for_all (verdict : Verdict) :
    (∀ findings : List (Role × Finding), Accounts verdict.missingPerspectives
      (findings.map fun p => Submission.ofFinding p.1 p.2) (ofFindings verdict findings)) ∧
    ∀ documents : Table Role Value, Accounts verdict.missingPerspectives
      (documents.entries.flatMap fun d => Submission.ofDocument d.1 d.2) (ofDocuments verdict documents) := by
  constructor
  · intro findings
    have h := build_accounts verdict (findings.map fun p => (p.1, .ok p.2))
    rwa [List.map_map] at h
  · intro documents
    have h := build_accounts verdict (documents.entries.flatMap fun d => documentInputs d.1 d.2)
    simp only [List.map_flatMap, ofInput_documentInputs] at h
    exact h

end SynthesisReport

end ReviewPanel
