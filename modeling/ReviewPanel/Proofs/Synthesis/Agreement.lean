import ReviewPanel.Panel.Lifecycle
import ReviewPanel.Proofs.Reduction.Balance
import ReviewPanel.Proofs.Synthesis

/-!
# The report agrees with the verdict

The slots of a run are gone through twice.  The verdict goes by the roles of the run and takes the findings
of those that finished; the report takes all findings that were published and leaves out those of roles that
the verdict calls missing.  A slot can be published although its role did not finish, and a role can have
finished without findings, so it is not obvious that both look at the same findings.  They do, as long as
there is a slot for a role of the run and for no other.

## Main definitions

* `SynthesisReport.Matches` : the numbers and lists of a report are those of a verdict.

## Main statements

* `Slots.collect_heard` : **what was published by roles that are not missing is what the verdict counts.**
* `SynthesisReport.tests_perm` : the tests of a report are those of the violations among its findings.
* `SynthesisReport.report_matches_verdict` : **the report on the slots of a run matches its verdict.**
-/

namespace ReviewPanel

section Counting

variable {α β : Type}

theorem countP_add_countP_not (P Q : α → Prop) [DecidablePred P] [DecidablePred Q]
    (as : List α) : as.countP (fun a => P a) =
      as.countP (fun a => P a ∧ Q a) + as.countP fun a => P a ∧ ¬ Q a := by
  have hlen := List.length_eq_countP_add_countP (fun a => decide (Q a)) (l := as.filter fun a => P a)
  rw [← List.countP_eq_length_filter, List.countP_filter, List.countP_filter] at hlen
  rw [hlen]
  congr 1 <;> refine List.countP_congr fun a _ => ?_ <;> simp [and_comm]

theorem countP_of_forall₂ {R : α → β → Prop} {P : α → Bool} {Q : β → Bool} {as : List α}
    {bs : List β} (h : List.Forall₂ R as bs) (hPQ : ∀ a b, R a b → P a = Q b) :
    as.countP P = bs.countP Q := by
  induction h with
  | nil => rfl
  | cons hab _ ih => rw [List.countP_cons, List.countP_cons, ih, hPQ _ _ hab]

end Counting

/-! ### The findings behind both -/

theorem Verdict.mem_missing_reduce {s : RunState} {lookup : Role → Option (List Finding)}
    {role : Role} {status : Status} (h : s.roles.get? role = some status) :
    role ∈ (reduce s lookup).missingPerspectives ↔
      (Reduction.heard lookup (role, status)).isNone = true := by
  rw [reduce_eq_ofRecords]
  refine (Reduction.mem_map_filter s.roles _ role).trans ?_
  simp [h]

theorem Verdict.counted_reduce (s : RunState) (lookup : Role → Option (List Finding)) :
    (reduce s lookup).counted lookup = Reduction.records lookup s.roles.entries := by
  rw [Reduction.records_eq_counted, reduce_eq_ofRecords]
  rfl

namespace Slots

/-- All published findings with their roles, in the order of the slots. -/
def listed (slots : Slots) : List (Role × Finding) :=
  slots.cells.keys.flatMap fun role => ((slots.findings role).getD []).map fun f => (role, f)

theorem collect_perm_listed (slots : Slots) : slots.collect.Perm slots.listed :=
  (arranged_byRoleAndId _ _).perm

theorem mem_collect {slots : Slots} {role : Role} {f : Finding} :
    (role, f) ∈ slots.collect ↔ ∃ fs, slots.cells.get? role = some (.published fs) ∧ f ∈ fs := by
  rw [slots.collect_perm_listed.mem_iff, listed]
  simp only [List.mem_flatMap, List.mem_map, Prod.mk.injEq, Table.mem_keys]
  constructor
  · rintro ⟨role', -, f', hf', rfl, rfl⟩
    unfold findings at hf'
    cases hcell : slots.cells.get? role' with
    | none => simp [hcell] at hf'
    | some c =>
      cases c with
      | published fs => exact ⟨fs, rfl, by simpa [hcell, Cell.findings?] using hf'⟩
      | vacant | withheld => simp [hcell, Cell.findings?] at hf'
  · rintro ⟨fs, hcell, hf⟩
    exact ⟨role, by rw [hcell]; rfl, f, by simpa [findings, hcell, Cell.findings?] using hf, rfl, rfl⟩

/-- **What was published by roles that are not missing is what the verdict counts.** -/
theorem collect_heard {s : RunState} {slots : Slots} (hroles : slots.cells.keys = s.roles.keys)
    {v : Verdict} (hv : v = Verdict.reduce s slots.findings) :
    (slots.collect.filter fun x => x.1 ∉ v.missingPerspectives).Perm (v.counted slots.findings) := by
  refine (slots.collect_perm_listed.filter _).trans (.of_eq ?_)
  have hheard : ∀ e ∈ s.roles.entries, decide (e.1 ∉ v.missingPerspectives) =
      (Reduction.heard slots.findings e).isSome := by
    intro e he
    have hmissing : e.1 ∈ v.missingPerspectives ↔
        (Reduction.heard slots.findings e).isNone = true := by
      rw [hv]
      exact Verdict.mem_missing_reduce (Table.mem_entries.1 he)
    rw [← Option.not_isNone, decide_not, Bool.eq_iff_iff.2 (decide_eq_true_iff.trans hmissing)]
  calc slots.listed.filter (fun x => x.1 ∉ v.missingPerspectives)
      = (slots.cells.keys.filter fun role => role ∉ v.missingPerspectives).flatMap
          fun role => ((slots.findings role).getD []).map fun f => (role, f) := by
        rw [listed]
        induction slots.cells.keys with
        | nil => rfl
        | cons role roles ih =>
          rw [List.flatMap_cons, List.filter_append, ih, List.filter_cons]
          by_cases hrole : role ∈ v.missingPerspectives
          · simp [hrole, List.filter_map, Function.comp_def]
          · simp [hrole, List.filter_map, Function.comp_def]
    _ = ((s.roles.entries.filter fun e => (Reduction.heard slots.findings e).isSome).map
          Prod.fst).flatMap fun role => ((slots.findings role).getD []).map fun f => (role, f) := by
        rw [hroles, Table.keys_eq_map_entries, List.filter_map]
        congr 2
        exact List.filter_congr hheard
    _ = v.counted slots.findings := by
        rw [hv, Verdict.counted_reduce, Reduction.records_eq_counted]

end Slots

/-! ### The tests of a report -/

/-- A finding with its role that calls for a test. -/
def CallsForTest (missing : List Role) (x : Role × Finding) : Prop :=
  x.1 ∉ missing ∧ x.2.classification = .violation ∧ ¬ x.2.HasBlank

instance (missing : List Role) (x : Role × Finding) : Decidable (CallsForTest missing x) :=
  inferInstanceAs (Decidable (_ ∧ _))

theorem Submission.violation?_ofFinding (missing : List Role) (x : Role × Finding) :
    (ofFinding x.1 x.2).violation? missing = if CallsForTest missing x then some x.2 else none := by
  by_cases h : CallsForTest missing x
  · rw [if_pos h]
    exact Option.filter_eq_some_iff.2 ⟨rfl, decide_eq_true h⟩
  · rw [if_neg h]
    exact Option.filter_eq_none_iff.2 fun f hf => by
      obtain rfl := Option.some.inj hf
      exact fun hcalls => h (of_decide_eq_true hcalls)

namespace SynthesisReport

variable (v : Verdict) (xs : List (Role × Finding))

theorem ofFindings_accounts : Accounts v.missingPerspectives
    (xs.map fun x => Submission.ofFinding x.1 x.2) (ofFindings v xs) := by
  have h := build_accounts v (xs.map fun x => (x.1, .ok x.2))
  rwa [List.map_map] at h

/-- **The tests of a report are those of the violations among its findings.** -/
theorem tests_perm : ((ofFindings v xs).tests.map .ok).Perm
    ((xs.filter fun x => CallsForTest v.missingPerspectives x).map
      fun x => GeneratedTest.ofFinding x.1 x.2) := by
  refine (ofFindings_accounts v xs).tests.trans (.of_eq ?_)
  induction xs with
  | nil => rfl
  | cons x xs ih =>
    rw [List.map_cons, List.filterMap_cons, ih, List.filter_cons, Submission.violation?_ofFinding]
    by_cases hx : CallsForTest v.missingPerspectives x
    · simp only [if_pos hx, decide_eq_true hx, Option.map_some, if_true, List.map_cons]
      rfl
    · simp [hx]

theorem mem_tests {t : GeneratedTest} : t ∈ (ofFindings v xs).tests ↔
    ∃ x ∈ xs, CallsForTest v.missingPerspectives x ∧ GeneratedTest.ofFinding x.1 x.2 = .ok t := by
  have hmem : t ∈ (ofFindings v xs).tests ↔
      (.ok t : Except Finding.Malformed GeneratedTest) ∈ (ofFindings v xs).tests.map .ok := by
    simp
  rw [hmem, (tests_perm v xs).mem_iff]
  simp [and_assoc]

/-- A violation without blank fields has a test of its severity. -/
theorem countP_tests (sev : Severity) :
    (ofFindings v xs).tests.countP (fun t => t.severity = sev) =
      xs.countP fun x => CallsForTest v.missingPerspectives x ∧ x.2.severity = sev := by
  let ofSeverity : Except Finding.Malformed GeneratedTest → Bool
    | .ok t => t.severity = sev
    | .error _ => false
  have htests : (ofFindings v xs).tests.countP (fun t => t.severity = sev) =
      ((ofFindings v xs).tests.map .ok).countP ofSeverity := by
    rw [List.countP_map]
    rfl
  rw [htests, (tests_perm v xs).countP_eq, List.countP_map, List.countP_filter]
  refine List.countP_congr fun x _ => ?_
  by_cases hx : CallsForTest v.missingPerspectives x
  · rcases GeneratedTest.ofFinding_cases x.1 x.2 with ⟨-, t, ht⟩ | ⟨hblank, -⟩
    · simp [hx, ht, ofSeverity, (GeneratedTest.of_ofFinding ht).2.2.1]
    · exact absurd hblank hx.2.2
  · simp [hx]

theorem length_tests : (ofFindings v xs).tests.length =
    xs.countP fun x => CallsForTest v.missingPerspectives x := by
  have hlen := (tests_perm v xs).length_eq
  rwa [List.length_map, List.length_map, ← List.countP_eq_length_filter] at hlen

/-! ### The entries of a report -/

/-- The entries for another reason than a missing role are those of the other findings of roles that
were heard. -/
theorem countP_skipped :
    (ofFindings v xs).skipped.countP (fun e => e.reason ≠ .missingPerspective) =
      xs.countP fun x => x.1 ∉ v.missingPerspectives ∧ ¬ CallsForTest v.missingPerspectives x := by
  obtain ⟨es, hperm, hall⟩ := (ofFindings_accounts v xs).skipped
  have hcount : ((xs.map fun x => Submission.ofFinding x.1 x.2).filter fun s =>
      (s.violation? v.missingPerspectives).isNone).countP (fun s => s.role ∉ v.missingPerspectives) =
        es.countP fun e => e.reason ≠ .missingPerspective :=
    countP_of_forall₂ hall fun s e h => by simp [h.unheard]
  rw [hperm.countP_eq, ← hcount, List.countP_filter, List.countP_map]
  refine List.countP_congr fun x _ => ?_
  rw [Function.comp_apply, Submission.violation?_ofFinding]
  by_cases hx : CallsForTest v.missingPerspectives x
  · simp [hx]
  · simp only [hx, if_false, Option.isNone_none, Bool.and_true, not_false_eq_true, and_true]
    rfl

/-- An entry for a missing role is about one of its findings. -/
theorem mem_skipped_of_missing {e : SkipEntry} (he : e ∈ (ofFindings v xs).skipped)
    (hreason : e.reason = .missingPerspective) :
    e.role ∈ v.missingPerspectives ∧ ∃ f, (e.role, f) ∈ xs ∧ f.id = e.recordId := by
  obtain ⟨es, hperm, hall⟩ := (ofFindings_accounts v xs).skipped
  obtain ⟨n, hn, hget⟩ := List.getElem_of_mem (hperm.mem_iff.1 he)
  have hskip := (List.forall₂_iff_get.1 hall).2 n (hall.length_eq ▸ hn) hn
  obtain ⟨sub, hsub⟩ : ∃ sub, sub = ((xs.map fun x => Submission.ofFinding x.1 x.2).filter fun s =>
    (s.violation? v.missingPerspectives).isNone).get ⟨n, hall.length_eq ▸ hn⟩ := ⟨_, rfl⟩
  rw [← hsub, List.get_eq_getElem, hget] at hskip
  have hmem := (List.mem_filter.1 (hsub ▸ List.get_mem _ _)).1
  obtain ⟨⟨role, f⟩, hx, hf⟩ := List.mem_map.1 hmem
  have hrole : e.role = role := by rw [hskip.role_eq, ← hf]; rfl
  have hid : e.recordId = f.id := by rw [hskip.recordId_eq, ← hf]; rfl
  rw [hskip.unheard, ← hskip.role_eq] at hreason
  exact ⟨hreason, f, hrole ▸ hx, hid.symm⟩

end SynthesisReport

/-! ### Both together -/

namespace SynthesisReport

/-- The numbers and lists of the report on the slots of a run are those of its verdict. -/
structure Matches (s : RunState) (slots : Slots) (v : Verdict) (r : SynthesisReport) : Prop where
  /-- Tests are about roles that were heard. -/
  tests_heard : ∀ t ∈ r.tests, t.role ∈ v.consulted
  /-- Each violation that the verdict counts has a test, or a blank field. -/
  violations : ∀ sev, v.countsBySeverity.get? sev =
    some (r.tests.countP (fun t => t.severity = sev) + (v.counted slots.findings).countP fun x =>
      x.2.classification = .violation ∧ x.2.severity = sev ∧ x.2.HasBlank)
  /-- Each finding that the verdict counts has a test or an entry. -/
  total : v.totalFindings =
    r.tests.length + r.skipped.countP fun e => e.reason ≠ .missingPerspective
  /-- What is left out because of its role was published by a role that did not finish. -/
  unheard : ∀ e ∈ r.skipped, e.reason = .missingPerspective →
    (∃ fs, slots.cells.get? e.role = some (.published fs) ∧ ∃ f ∈ fs, f.id = e.recordId) ∧
      (s.roles.get? e.role).map Status.phase ≠ some .complete
  /-- A blocker without blank fields has a test that says so. -/
  blockers : ∀ f ∈ v.blockers, ¬ f.HasBlank →
    ∃ t ∈ r.tests, t.sourceId = f.id ∧ t.severity = .blocker

/-- **The report on the slots of a run matches its verdict**, which it has once all roles have ended. -/
theorem report_matches_verdict {s : RunState} (hended : s.allComplete = true) {slots : Slots}
    (hroles : slots.cells.keys = s.roles.keys) :
    ∃ v, Panel.aggregate s slots = .ok v ∧ Matches s slots v (ofFindings v slots.collect) := by
  refine ⟨Verdict.reduce s slots.findings, if_pos hended, ?_⟩
  obtain ⟨v, hv⟩ : ∃ v, v = Verdict.reduce s slots.findings := ⟨_, rfl⟩
  rw [← hv]
  have hheard := Slots.collect_heard hroles hv
  have hof := hv.trans (Verdict.reduce_eq_ofRecords s slots.findings)
  have hcounted : v.counted slots.findings = Reduction.records slots.findings s.roles.entries := by
    rw [hv, Verdict.counted_reduce]
  -- a published finding of a role that is not missing is one of a role that was consulted
  have hmem : ∀ {x}, x ∈ v.counted slots.findings ↔
      x ∈ slots.collect ∧ x.1 ∉ v.missingPerspectives := by
    intro x
    rw [← hheard.mem_iff, List.mem_filter, decide_eq_true_eq]
  have hrole : ∀ {x}, x ∈ v.counted slots.findings → x.1 ∈ v.consulted := by
    intro x hx
    obtain ⟨role, hrole, hx⟩ := List.mem_flatMap.1 hx
    obtain ⟨f, -, rfl⟩ := List.mem_map.1 hx
    exact hrole
  constructor
  case tests_heard =>
    intro t ht
    obtain ⟨x, hx, hcalls, htest⟩ := (mem_tests v slots.collect).1 ht
    rw [(GeneratedTest.of_ofFinding htest).1]
    exact hrole (hmem.2 ⟨hx, hcalls.1⟩)
  case violations =>
    intro sev
    have hsev : v.countsBySeverity.get? sev = some ((v.counted slots.findings).countP fun x =>
        x.2.classification = .violation ∧ x.2.severity = sev) := by
      rw [hcounted, hof]
      exact congrArg some (Verdict.countP_isViolation _ sev)
    rw [hsev, countP_add_countP_not _ (fun x => ¬ x.2.HasBlank), countP_tests, ← hheard.countP_eq,
      ← hheard.countP_eq, ← hheard.countP_eq, List.countP_filter, List.countP_filter,
      List.countP_filter]
    congr 2 <;> refine List.countP_congr fun x _ => ?_ <;>
      simp only [Bool.and_eq_true, decide_eq_true_eq, not_not]
    · unfold CallsForTest
      tauto
    · tauto
  case total =>
    have htotal : v.totalFindings = (v.counted slots.findings).length := by rw [hcounted, hof]; rfl
    rw [htotal, ← hheard.length_eq, ← List.countP_eq_length_filter, length_tests, countP_skipped,
      countP_add_countP_not _ (CallsForTest v.missingPerspectives)]
    congr 1
    refine List.countP_congr fun x _ => ?_
    simpa using fun hcalls : CallsForTest _ x => hcalls.1
  case unheard =>
    intro e he hreason
    obtain ⟨hmissing, f, hf, hid⟩ := mem_skipped_of_missing v slots.collect he hreason
    obtain ⟨fs, hcell, hf⟩ := Slots.mem_collect.1 hf
    refine ⟨⟨fs, hcell, f, hf, hid⟩, fun hphase => ?_⟩
    obtain ⟨status, hstatus, hcomplete⟩ := Option.map_eq_some_iff.1 hphase
    rw [hv, Verdict.mem_missing_reduce hstatus] at hmissing
    simp [Reduction.heard, hcomplete, Slots.findings, hcell, Cell.findings?] at hmissing
  case blockers =>
    intro f hf hblank
    rw [hof, Verdict.mem_blockers, ← hcounted] at hf
    obtain ⟨hblocking, role, hx⟩ := hf
    obtain ⟨hclass, hsev⟩ := Verdict.isBlocking_iff.1 hblocking
    obtain ⟨hcollect, hnot⟩ := hmem.1 hx
    rcases GeneratedTest.ofFinding_cases role f with ⟨-, t, ht⟩ | ⟨hb, -⟩
    · obtain ⟨-, hid, hsev', -⟩ := GeneratedTest.of_ofFinding ht
      refine ⟨t, (mem_tests v slots.collect).2 ⟨(role, f), hcollect, ⟨hnot, hclass, hblank⟩, ht⟩, hid, ?_⟩
      rw [hsev', hsev]
    · exact absurd hb hblank

/-- A run of which one role finished, one finished without findings at hand, and one ran out of time. -/
def mixedRun : RunState where
  runId := "r"
  item := .ofReference "task"
  createdAt := ⟨2024, 5, 1, 12, 0, 0, 0⟩
  roles := .ofList [(.security, ⟨.complete, none, none, none⟩), (.build, ⟨.complete, none, none, none⟩),
    (.coverage, ⟨.timedOut, none, none, none⟩)]
  allComplete := true
  revision := 6
  verdict := none

/-- Its slots.  The role that ran out of time has published findings all the same, and so has the one that
finished; one of the latter has a blank field. -/
def mixedSlots : Slots where
  cells := .ofList [
    (.security, .published [
      ⟨"SEC-2", .blocker, "net", .violation, "open port", none, none⟩,
      ⟨"SEC-1", .blocker, " ", .violation, "no password", none, none⟩]),
    (.build, .withheld),
    (.coverage, .published [⟨"TEST-1", .warning, "core", .violation, "no tests", none, none⟩])]
  workspace := none

theorem report_matches_verdict_mixed :
    mixedRun.allComplete = true ∧ mixedSlots.cells.keys = mixedRun.roles.keys ∧
      ∃ v, Panel.aggregate mixedRun mixedSlots = .ok v ∧
        Matches mixedRun mixedSlots v (ofFindings v mixedSlots.collect) :=
  ⟨rfl, by decide, report_matches_verdict rfl (by decide)⟩

end SynthesisReport

end ReviewPanel
