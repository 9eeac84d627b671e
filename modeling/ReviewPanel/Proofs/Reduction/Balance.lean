import Mathlib.Data.List.Pairwise
import ReviewPanel.Proofs.Listing
import ReviewPanel.Proofs.Reduction
import ReviewPanel.Proofs.Table

/-!
# The books of a verdict balance

A verdict gives the same findings in several ways: as a total, in a tally by classification and severity,
summed over severities, summed over nothing but violations, and as a list of blockers.  These are five
accumulators of one pass.  Here they are compared with each other and with the findings themselves: those
of the roles that were consulted, which are exactly the roles that finished and whose findings are at
hand.

## Main definitions

* `Verdict.counted` : the findings that a verdict counts.
* `Verdict.Balances` : the numbers and lists of a verdict agree with these findings, and with each other.

## Main statements

* `Reduction.records_eq_counted` : the findings of the pass are those of the roles that were consulted.
* `Verdict.countP_severities` : **a row of the tally adds up.**
* `Verdict.reduce_balances` : **every verdict balances.**
-/

namespace ReviewPanel

namespace Verdict

/-- The findings that a verdict counts: those of the roles that it consulted, in their order. -/
def counted (v : Verdict) (lookup : Role → Option (List Finding)) : List (Role × Finding) :=
  v.consulted.flatMap fun role => ((lookup role).getD []).map fun f => (role, f)

/-- One cell of the tally. -/
def cell? (v : Verdict) (c : Classification) (sev : Severity) : Option Nat :=
  (v.tally.get? c).bind fun row => row.get? sev

/-- The numbers and lists of a verdict agree with the findings that it counts, and with each other. -/
structure Balances (s : RunState) (lookup : Role → Option (List Finding)) (v : Verdict) : Prop where
  consulted_sorted : v.consulted.Pairwise fun a b => a.rank < b.rank
  missing_sorted : v.missingPerspectives.Pairwise fun a b => a.rank < b.rank
  disjoint : v.consulted.Disjoint v.missingPerspectives
  /-- Every role of the run is in one of the two lists, and no other is. -/
  covered : ∀ role, role ∈ v.consulted ∨ role ∈ v.missingPerspectives ↔ role ∈ s.roles.keys
  mem_consulted : ∀ role, role ∈ v.consulted ↔
    (s.roles.get? role).map Status.phase = some .complete ∧ (lookup role).isSome = true
  total : v.totalFindings = (v.consulted.map fun role => ((lookup role).getD []).length).sum
  cell : ∀ c sev, v.cell? c sev = some ((v.counted lookup).countP fun x =>
    x.2.classification = c ∧ x.2.severity = sev)
  /-- The findings of a classification are the sum of a row. -/
  row : ∀ c, v.countsByClassification.get? c = (v.tally.get? c).map fun row => row.values.sum
  /-- By severity, only violations are counted. -/
  violations : ∀ sev, v.countsBySeverity.get? sev = v.cell? .violation sev
  blockers : ∃ bs, v.blockers = bs.map Prod.snd ∧
    Arranged (fun x => (x.1, x.2.id)) ((v.counted lookup).filter fun x =>
      x.2.classification = .violation ∧ x.2.severity = .blocker) bs
  blockers_length : v.countsBySeverity.get? .blocker = some v.blockers.length
  blocked : v.recommendation = .blocked ↔ v.blockers ≠ []
  conditional : v.recommendation = .conditionalGo ↔ v.blockers = [] ∧
    ∃ x ∈ v.counted lookup, x.2.classification = .violation ∧ x.2.severity = .warning
  go : v.recommendation = .go ↔ v.blockers = [] ∧
    ¬ ∃ x ∈ v.counted lookup, x.2.classification = .violation ∧ x.2.severity = .warning

end Verdict

/-! ### The two lists of roles -/

namespace Reduction

variable (lookup : Role → Option (List Finding))

theorem isSome_heard (e : Role × Status) :
    (heard lookup e).isSome = true ↔ e.2.phase = .complete ∧ (lookup e.1).isSome = true := by
  unfold heard
  split_ifs with h <;> simp [h]

/-- Roles that are picked from the entries of a run stand in canonical order. -/
theorem pairwise_rank (roles : Table Role Status) (P : Role × Status → Bool) :
    ((roles.entries.filter P).map Prod.fst).Pairwise fun a b => a.rank < b.rank := by
  have hall : Role.all.Pairwise fun a b => a.rank < b.rank := by decide
  have hsub : ((roles.entries.filter P).map Prod.fst).Sublist roles.keys := by
    rw [Table.keys_eq_map_entries]
    exact List.filter_sublist.map Prod.fst
  exact hall.sublist (hsub.trans List.filter_sublist)

theorem mem_map_filter (roles : Table Role Status) (P : Role × Status → Bool) (role : Role) :
    role ∈ (roles.entries.filter P).map Prod.fst ↔
      ∃ status, roles.get? role = some status ∧ P (role, status) = true := by
  simp only [List.mem_map, List.mem_filter, Prod.exists, exists_and_right, exists_eq_right,
    Table.mem_entries]

theorem heard_or_not (roles : Table Role Status) (role : Role) :
    (role ∈ (roles.entries.filter fun e => (heard lookup e).isSome).map Prod.fst ∨
      role ∈ (roles.entries.filter fun e => (heard lookup e).isNone).map Prod.fst) ↔
      role ∈ roles.keys := by
  rw [mem_map_filter, mem_map_filter, Table.mem_keys]
  cases roles.get? role with
  | none => simp
  | some status =>
    simp only [Option.some.injEq, exists_eq_left', Option.isSome_some, iff_true]
    cases heard lookup (role, status) <;> simp

theorem heard_disjoint (roles : Table Role Status) :
    ((roles.entries.filter fun e => (heard lookup e).isSome).map Prod.fst).Disjoint
      ((roles.entries.filter fun e => (heard lookup e).isNone).map Prod.fst) := by
  intro role hsome hnone
  obtain ⟨status, hr, hsome⟩ := (mem_map_filter roles _ role).1 hsome
  obtain ⟨status', hr', hnone⟩ := (mem_map_filter roles _ role).1 hnone
  obtain rfl := Option.some.inj (hr.symm.trans hr')
  rw [Option.isNone_iff_eq_none.1 hnone] at hsome
  cases hsome

/-- The findings of the pass are those of the roles that were consulted. -/
theorem records_eq_counted (es : List (Role × Status)) :
    records lookup es = ((es.filter fun e => (heard lookup e).isSome).map Prod.fst).flatMap
      fun role => ((lookup role).getD []).map fun f => (role, f) := by
  induction es with
  | nil => rfl
  | cons e es ih =>
    rw [records] at ih ⊢
    rw [List.flatMap_cons, ih]
    by_cases h : (heard lookup e).isSome = true
    · have hheard : heard lookup e = lookup e.1 := if_pos ((isSome_heard lookup e).1 h).1
      rw [List.filter_cons_of_pos (p := fun e => (heard lookup e).isSome) h, List.map_cons,
        List.flatMap_cons, hheard]
    · rw [List.filter_cons_of_neg (p := fun e => (heard lookup e).isSome) h,
        Option.not_isSome_iff_eq_none.1 h]
      rfl

end Reduction

/-! ### The numbers -/

namespace Verdict

variable {id : RunId} {consulted missing : List Role} (xs : List (Role × Finding))

theorem values_ofFn (f : Severity → Nat) :
    (Table.ofFn f).values = [f .blocker, f .warning, f .advisory] := rfl

/-- **A row of the tally adds up**: every finding has one of the three severities. -/
theorem countP_severities (c : Classification) :
    xs.countP (fun x => x.2.classification = c) =
      (Table.ofFn fun sev => xs.countP fun x =>
        x.2.classification = c ∧ x.2.severity = sev).values.sum := by
  rw [values_ofFn]
  induction xs with
  | nil => rfl
  | cons x xs ih =>
    simp only [List.sum_cons, List.sum_nil, List.countP_cons] at ih ⊢
    rw [ih]
    by_cases hc : x.2.classification = c
    · cases hs : x.2.severity <;> simp [hc] <;> omega
    · simp [hc]

theorem isBlocking_iff {f : Finding} :
    f.isBlocking = true ↔ f.classification = .violation ∧ f.severity = .blocker := by
  simp [Finding.isBlocking, Finding.isViolation]

theorem filter_isBlocking :
    (xs.filter fun x => x.2.isBlocking) = xs.filter fun x =>
      x.2.classification = .violation ∧ x.2.severity = .blocker := by
  refine List.filter_congr fun x _ => ?_
  rw [Bool.eq_iff_iff, isBlocking_iff, decide_eq_true_eq]

theorem countP_isViolation (sev : Severity) :
    xs.countP (fun x => x.2.isViolation ∧ x.2.severity = sev) =
      xs.countP fun x => x.2.classification = .violation ∧ x.2.severity = sev := by
  refine List.countP_congr fun x _ => ?_
  simp [Finding.isViolation]

theorem length_blockers : (ofRecords id consulted missing xs).blockers.length =
    xs.countP fun x => x.2.classification = .violation ∧ x.2.severity = .blocker := by
  simp only [ofRecords, List.length_map]
  rw [(arranged_byRoleAndId _ _).perm.length_eq, filter_isBlocking, List.countP_eq_length_filter]

theorem blockers_eq_nil_iff : (ofRecords id consulted missing xs).blockers = [] ↔
    (xs.any fun x => x.2.isBlocking) = false := by
  rw [← List.length_eq_zero_iff, length_blockers, List.countP_eq_zero, List.any_eq_false]
  simp only [decide_eq_true_eq, isBlocking_iff]

theorem any_warning_iff : (xs.any fun x => x.2.isViolation && x.2.severity == .warning) = true ↔
    ∃ x ∈ xs, x.2.classification = .violation ∧ x.2.severity = .warning := by
  simp [List.any_eq_true, Finding.isViolation]

/-- **The recommendation is the strictest one that a violation calls for.** -/
theorem recommendation_cases (v : Verdict) (hv : v = ofRecords id consulted missing xs) :
    v.recommendation = .blocked ∧ v.blockers ≠ [] ∨
      v.recommendation = .conditionalGo ∧ v.blockers = [] ∧
        (∃ x ∈ xs, x.2.classification = .violation ∧ x.2.severity = .warning) ∨
      v.recommendation = .go ∧ v.blockers = [] ∧
        ¬ ∃ x ∈ xs, x.2.classification = .violation ∧ x.2.severity = .warning := by
  have hnil : v.blockers = [] ↔ (xs.any fun x => x.2.isBlocking) = false := by
    rw [hv, blockers_eq_nil_iff]
  rw [Ne, hnil, ← any_warning_iff]
  rw [hv]
  simp only [ofRecords]
  cases xs.any fun x => x.2.isBlocking
  · cases xs.any fun x => x.2.isViolation && x.2.severity == .warning <;> simp
  · simp

/-- **Every verdict balances.** -/
theorem reduce_balances (s : RunState) (lookup : Role → Option (List Finding)) :
    Balances s lookup (reduce s lookup) := by
  obtain ⟨xs, hxs⟩ : ∃ xs, xs = Reduction.records lookup s.roles.entries := ⟨_, rfl⟩
  have hv := reduce_eq_ofRecords s lookup
  rw [← hxs] at hv
  have hcounted : (reduce s lookup).counted lookup = xs := by
    rw [hxs, Reduction.records_eq_counted, hv]
    rfl
  have hrec := recommendation_cases xs _ hv
  constructor
  case consulted_sorted => exact hv ▸ Reduction.pairwise_rank s.roles _
  case missing_sorted => exact hv ▸ Reduction.pairwise_rank s.roles _
  case disjoint => exact hv ▸ Reduction.heard_disjoint lookup s.roles
  case covered => exact hv ▸ Reduction.heard_or_not lookup s.roles
  case mem_consulted =>
    intro role
    rw [hv]
    refine (Reduction.mem_map_filter s.roles _ role).trans ?_
    simp only [Reduction.isSome_heard, ← and_assoc, exists_and_right, Option.map_eq_some_iff]
  case total =>
    have hlen : (reduce s lookup).totalFindings = xs.length := by rw [hv]; rfl
    rw [hlen, ← hcounted, counted, List.length_flatMap]
    simp only [List.length_map]
  case cell =>
    intro c sev
    rw [hcounted, hv]
    rfl
  case row =>
    intro c
    rw [hv]
    exact congrArg some (countP_severities xs c)
  case violations =>
    intro sev
    rw [hv]
    exact congrArg some (countP_isViolation xs sev)
  case blockers =>
    rw [hcounted, ← filter_isBlocking, hv]
    exact ⟨_, rfl, arranged_byRoleAndId _ _⟩
  case blockers_length =>
    rw [hv, length_blockers, ← countP_isViolation]
    rfl
  case blocked => grind
  case conditional => grind
  case go => grind

end Verdict

end ReviewPanel
