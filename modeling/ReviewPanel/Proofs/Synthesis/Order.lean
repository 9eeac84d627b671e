import ReviewPanel.Proofs.RoundTrip
import ReviewPanel.Proofs.Synthesis.Agreement

/-!
# What the order of the findings does to a report

The lists of a report are sorted by role and identifier, and sorting leaves alone what agrees in both.
Nothing keeps a reviewer from using one identifier twice, and then the order in which its findings were
handed in shows in the report.  This is the only way in which it shows.

## Main definitions

* `Outcome.key` : the role and identifier under which something is listed.
* `SynthesisReport.testsUnder`, `SynthesisReport.entriesUnder` : what findings of one role and identifier
  give, in the order of the findings.
* `SynthesisReport.SameUpToTies` : reports that differ at most in the order of what has one role and
  identifier.

## Main statements

* `SynthesisReport.ofFindings_arranged` : a report does not depend on how its findings were sorted.
* `SynthesisReport.ofFindings_eq_iff` : two lists of findings have one report exactly if they give the
  same under each role and identifier.
* `SynthesisReport.same_report_iff_same_ties` : **what the order of the findings does to a report.**
-/

namespace ReviewPanel

/-- The role and identifier under which something is listed. -/
def Outcome.key : Outcome → Role × String
  | .test t => (t.role, t.sourceId)
  | .skip e => (e.role, e.recordId)

namespace SynthesisReport

theorem key_triage (missing : List Role) (p : Role × Finding) :
    (triage missing p.1 (.ok p.2)).key = (p.1, p.2.id) := by
  rcases triage_cases missing (p.1, .ok p.2) with ⟨f, t, hf, ht, htriage⟩ | ⟨-, e, htriage, he⟩
  · obtain ⟨hrole, hid, -⟩ := GeneratedTest.of_ofFinding ht
    have hsame : p.2 = f := Option.some.inj (Option.filter_eq_some_iff.1 hf).1
    rw [htriage, Outcome.key, hrole, hid, hsame]
  · rw [htriage, Outcome.key, he.role_eq, he.recordId_eq]
    rfl

/-- The test that comes of a finding. -/
def testOf (missing : List Role) (p : Role × Finding) : Option GeneratedTest :=
  (triage missing p.1 (.ok p.2)).test?

/-- The entry that comes of a finding. -/
def entryOf (missing : List Role) (p : Role × Finding) : Option SkipEntry :=
  (triage missing p.1 (.ok p.2)).skip?

variable {missing : List Role}

theorem key_of_mem_testOf (p : Role × Finding) :
    ∀ t ∈ testOf missing p, (t.role, t.sourceId) = (p.1, p.2.id) := by
  intro t ht
  rw [← key_triage missing p]
  cases hp : triage missing p.1 (.ok p.2) with
  | test t' =>
    rw [testOf, hp, Outcome.test?, Option.mem_some_iff] at ht
    rw [Outcome.key, ht]
  | skip e => simp [testOf, hp, Outcome.test?] at ht

theorem key_of_mem_entryOf (p : Role × Finding) :
    ∀ e ∈ entryOf missing p, (e.role, e.recordId) = (p.1, p.2.id) := by
  intro e he
  rw [← key_triage missing p]
  cases hp : triage missing p.1 (.ok p.2) with
  | test t => simp [entryOf, hp, Outcome.skip?] at he
  | skip e' =>
    rw [entryOf, hp, Outcome.skip?, Option.mem_some_iff] at he
    rw [Outcome.key, he]

theorem ofFindings_eq (v : Verdict) (xs : List (Role × Finding)) :
    ofFindings v xs =
      { runId := v.runId
        recommendation := v.recommendation
        tests := byRoleAndId (fun t => (t.role, t.sourceId))
          (xs.filterMap (testOf v.missingPerspectives))
        skipped := byRoleAndId (fun e => (e.role, e.recordId))
          (xs.filterMap (entryOf v.missingPerspectives))
        missingPerspectives := v.missingPerspectives } := by
  simp only [ofFindings, build, List.map_map, List.filterMap_map]
  rfl

/-- **A report does not depend on how its findings were sorted** by role and identifier. -/
theorem ofFindings_arranged (v : Verdict) {xs ys : List (Role × Finding)}
    (h : Arranged (fun p => (p.1, p.2.id)) xs ys) : ofFindings v ys = ofFindings v xs := by
  rw [ofFindings_eq, ofFindings_eq, h.byRoleAndId_filterMap key_of_mem_testOf,
    h.byRoleAndId_filterMap key_of_mem_entryOf]

/-! ### Findings that share a role and an identifier -/

/-- The tests that come of the findings of one role and identifier, in the order of the findings. -/
def testsUnder (v : Verdict) (k : Role × String) (xs : List (Role × Finding)) : List GeneratedTest :=
  (xs.filter fun p => (p.1, p.2.id) = k).filterMap (testOf v.missingPerspectives)

/-- The entries that come of the findings of one role and identifier, in the order of the findings. -/
def entriesUnder (v : Verdict) (k : Role × String) (xs : List (Role × Finding)) : List SkipEntry :=
  (xs.filter fun p => (p.1, p.2.id) = k).filterMap (entryOf v.missingPerspectives)

/-- **Two lists of findings have one report exactly if they give the same under each role and
identifier.** -/
theorem ofFindings_eq_iff {v : Verdict} {xs ys : List (Role × Finding)} :
    ofFindings v xs = ofFindings v ys ↔
      ∀ k, testsUnder v k xs = testsUnder v k ys ∧ entriesUnder v k xs = entriesUnder v k ys := by
  rw [ofFindings_eq, ofFindings_eq, mk.injEq]
  simp only [true_and, and_true, byRoleAndId_eq_iff, forall_and,
    filter_filterMap_of_key key_of_mem_testOf, filter_filterMap_of_key key_of_mem_entryOf]
  rfl

/-- Reports that differ at most in the order of what has one role and identifier: they have the same
tests and entries, and each place of either list has the same role and identifier in both. -/
structure SameUpToTies (r r' : SynthesisReport) : Prop where
  runId_eq : r.runId = r'.runId
  recommendation_eq : r.recommendation = r'.recommendation
  missing_eq : r.missingPerspectives = r'.missingPerspectives
  tests_perm : r.tests.Perm r'.tests
  tests_keys : r.tests.map (fun t => (t.role, t.sourceId)) = r'.tests.map fun t => (t.role, t.sourceId)
  skipped_perm : r.skipped.Perm r'.skipped
  skipped_keys :
    r.skipped.map (fun e => (e.role, e.recordId)) = r'.skipped.map fun e => (e.role, e.recordId)

variable {v : Verdict} {xs ys : List (Role × Finding)}

theorem sameUpToTies_of_perm (h : xs.Perm ys) : SameUpToTies (ofFindings v xs) (ofFindings v ys) := by
  have htests := h.filterMap (testOf v.missingPerspectives)
  have hskipped := h.filterMap (entryOf v.missingPerspectives)
  have hsorted {α : Type} {key : α → Role × String} {as bs : List α} (hperm : as.Perm bs) :
      (byRoleAndId key as).Perm (byRoleAndId key bs) :=
    ((arranged_byRoleAndId key as).perm.trans hperm).trans (arranged_byRoleAndId key bs).perm.symm
  rw [ofFindings_eq, ofFindings_eq]
  exact ⟨rfl, rfl, rfl, hsorted htests, map_key_byRoleAndId_of_perm htests, hsorted hskipped,
    map_key_byRoleAndId_of_perm hskipped⟩

theorem filter_key_eq_of_perm (h : xs.Perm ys) (hdistinct : (xs.map fun p => (p.1, p.2.id)).Nodup)
    (k : Role × String) :
    (xs.filter fun p => (p.1, p.2.id) = k) = ys.filter fun p => (p.1, p.2.id) = k := by
  have hperm := h.filter fun p => (p.1, p.2.id) = k
  have hkeys : ((xs.filter fun p => (p.1, p.2.id) = k).map fun p => (p.1, p.2.id)).Nodup :=
    hdistinct.sublist (List.filter_sublist.map _)
  generalize hzs : (xs.filter fun p => (p.1, p.2.id) = k) = zs at hperm hkeys
  match zs with
  | [] => exact hperm.nil_eq
  | [z] => exact (List.perm_singleton.1 hperm.symm).symm
  | z :: z' :: zs =>
    have hkey : ∀ p ∈ z :: z' :: zs, (p.1, p.2.id) = k := fun p hp => by
      rw [← hzs] at hp
      exact of_decide_eq_true (List.mem_filter.1 hp).2
    rw [List.map_cons, List.map_cons, List.nodup_cons, hkey z (by simp), hkey z' (by simp)] at hkeys
    exact absurd List.mem_cons_self hkeys.1

/-- **What the order of the findings does to a report.**  Findings in another order give a report with
the same tests and entries, each place of whose lists has the same role and identifier.  It is the same
report if no two findings share both.  In general it is the same one exactly if under each role and
identifier the tests come in the same order, and so do the entries: findings that share both are listed
as they came, whatever else distinguishes them. -/
theorem same_report_iff_same_ties (v : Verdict) {xs ys : List (Role × Finding)} (h : xs.Perm ys) :
    SameUpToTies (ofFindings v xs) (ofFindings v ys) ∧
      ((xs.map fun p => (p.1, p.2.id)).Nodup → ofFindings v xs = ofFindings v ys) ∧
      (ofFindings v xs = ofFindings v ys ↔
        ∀ k, testsUnder v k xs = testsUnder v k ys ∧ entriesUnder v k xs = entriesUnder v k ys) := by
  refine ⟨sameUpToTies_of_perm h, fun hdistinct => ?_, ofFindings_eq_iff⟩
  refine ofFindings_eq_iff.2 fun k => ?_
  have hsame := filter_key_eq_of_perm h hdistinct k
  exact ⟨congrArg (List.filterMap _) hsame, congrArg (List.filterMap _) hsame⟩

/-- A reviewer that uses one identifier for two violations. -/
def twiceNamed : List (Role × Finding) :=
  [(.security, ⟨"SEC-1", .blocker, "net", .violation, "no password", none, none⟩),
    (.security, ⟨"SEC-1", .warning, "disk", .violation, "world readable", none, none⟩)]

theorem same_report_iff_same_ties_twice :
    twiceNamed.Perm twiceNamed.reverse ∧
      SameUpToTies (ofFindings quotedVerdict twiceNamed) (ofFindings quotedVerdict twiceNamed.reverse) ∧
      ofFindings quotedVerdict twiceNamed ≠ ofFindings quotedVerdict twiceNamed.reverse := by
  have hperm : twiceNamed.Perm twiceNamed.reverse := (List.reverse_perm _).symm
  have hties : testsUnder quotedVerdict (.security, "SEC-1") twiceNamed ≠
      testsUnder quotedVerdict (.security, "SEC-1") twiceNamed.reverse := by decide +kernel
  obtain ⟨hsame, -, hiff⟩ := same_report_iff_same_ties quotedVerdict hperm
  exact ⟨hperm, hsame, fun heq => hties (hiff.1 heq (.security, "SEC-1")).1⟩

end SynthesisReport

end ReviewPanel
