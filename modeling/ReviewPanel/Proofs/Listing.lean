import ReviewPanel.Finding
import ReviewPanel.Proofs.Text.ByteOrder

/-!
# Lists by role and identifier

Reports list what they hold by role, and what belongs to one role by identifier.  Here is what this means
without saying how it is done: the list has the same members, each one precedes those behind it, and
members that agree in role and identifier stand in the order in which they came (`Arranged`).

## Main definitions

* `Precedes` : an earlier role, or the same role and an identifier whose bytes are no greater.
* `Arranged key xs ys` : `ys` is `xs`, sorted by role and identifier without changing the order of equals.

## Main statements

* `arranged_byRoleAndId` : **`byRoleAndId` lists by role and identifier.**
* `Arranged.unique` : there is one way to do so.
* `Arranged.byRoleAndId_filterMap` : what is made of the members can be listed before or after them.
* `byRoleAndId_eq_iff` : the order of the members shows only where they agree in role and identifier.
-/

namespace ReviewPanel

/-- An earlier role, or the same role and an identifier whose bytes are no greater. -/
def Precedes (a b : Role × String) : Prop :=
  a.1.rank < b.1.rank ∨ a.1 = b.1 ∧ Text.utf8 a.2 ≤ Text.utf8 b.2

theorem roleIdLe_iff {a b : Role × String} : roleIdLe a b = true ↔ Precedes a b := by
  simp only [roleIdLe, Precedes, Bool.or_eq_true, Bool.and_eq_true, decide_eq_true_eq, beq_iff_eq,
    Text.le_iff_utf8_le]

theorem roleIdLe_trans (a b c : Role × String) (hab : roleIdLe a b = true)
    (hbc : roleIdLe b c = true) : roleIdLe a c = true := by
  simp only [roleIdLe, Bool.or_eq_true, Bool.and_eq_true, decide_eq_true_eq, beq_iff_eq] at *
  rcases hab with hab | ⟨hab, hab'⟩
  · rcases hbc with hbc | ⟨hbc, -⟩
    · exact .inl (Nat.lt_trans hab hbc)
    · exact .inl (hbc ▸ hab)
  · rcases hbc with hbc | ⟨hbc, hbc'⟩
    · exact .inl (hab ▸ hbc)
    · exact .inr ⟨hab.trans hbc, le_trans hab' hbc'⟩

theorem roleIdLe_total (a b : Role × String) : (roleIdLe a b || roleIdLe b a) = true := by
  simp only [roleIdLe, Bool.or_eq_true, Bool.and_eq_true, decide_eq_true_eq, beq_iff_eq]
  rcases Nat.lt_trichotomy a.1.rank b.1.rank with h | h | h
  · exact .inl (.inl h)
  · have hrole := Role.rank_inj h
    rcases le_total a.2 b.2 with hle | hle
    · exact .inl (.inr ⟨hrole, hle⟩)
    · exact .inr (.inr ⟨hrole.symm, hle⟩)
  · exact .inr (.inl h)

variable {α : Type} {key : α → Role × String}

/-- `ys` is `xs`, sorted by role and identifier without changing the order of equals. -/
structure Arranged (key : α → Role × String) (xs ys : List α) : Prop where
  /-- The members are the same. -/
  perm : ys.Perm xs
  /-- Each one precedes those behind it. -/
  sorted : ys.Pairwise fun a b => Precedes (key a) (key b)
  /-- Those that agree in role and identifier stand as they came. -/
  stable : ∀ k, ys.filter (fun a => key a = k) = xs.filter fun a => key a = k

/-- **Sorting lists by role and identifier.** -/
theorem arranged_byRoleAndId (key : α → Role × String) (xs : List α) :
    Arranged key xs (byRoleAndId key xs) := by
  have htrans : ∀ a b c : α, roleIdLe (key a) (key b) = true → roleIdLe (key b) (key c) = true →
      roleIdLe (key a) (key c) = true := fun a b c => roleIdLe_trans _ _ _
  have htotal : ∀ a b : α, (roleIdLe (key a) (key b) || roleIdLe (key b) (key a)) = true :=
    fun a b => roleIdLe_total _ _
  have hperm : (byRoleAndId key xs).Perm xs := List.mergeSort_perm xs _
  refine ⟨hperm, ?_, fun k => ?_⟩
  · refine (List.pairwise_mergeSort htrans htotal xs).imp fun hab => ?_
    exact roleIdLe_iff.1 hab
  · -- equals are sorted where they are, so sorting keeps them as a sublist, and there are no more
    have heq : (xs.filter fun a => key a = k).Pairwise fun a b => roleIdLe (key a) (key b) = true := by
      refine List.pairwise_of_forall_mem_list fun a ha b hb => ?_
      rw [of_decide_eq_true (List.mem_filter.1 ha).2, of_decide_eq_true (List.mem_filter.1 hb).2]
      exact roleIdLe_iff.2 (.inr ⟨rfl, List.le_refl _⟩)
    have hsub : (xs.filter fun a => key a = k).Sublist (byRoleAndId key xs) :=
      List.sublist_mergeSort htrans htotal heq List.filter_sublist
    have hfilter := hsub.filter fun a => key a = k
    rw [List.filter_filter] at hfilter
    simp only [Bool.and_self] at hfilter
    refine (hfilter.eq_of_length ?_).symm
    exact (hperm.filter _).length_eq.symm

theorem Precedes.antisymm {a b : Role × String} (hab : Precedes a b) (hba : Precedes b a) : a = b := by
  simp only [Precedes, ← Text.le_iff_utf8_le] at hab hba
  rcases hab with hab | ⟨hrole, hab⟩
  · rcases hba with hba | ⟨hrole, -⟩
    · omega
    · exact absurd hab (hrole ▸ Nat.lt_irrefl _)
  · rcases hba with hba | ⟨-, hba⟩
    · exact absurd hba (hrole ▸ Nat.lt_irrefl _)
    · exact Prod.ext hrole (le_antisymm hab hba)

theorem eq_of_filter_eq : ∀ {ys zs : List α}, ys.Pairwise (fun a b => Precedes (key a) (key b)) →
    zs.Pairwise (fun a b => Precedes (key a) (key b)) →
    (∀ k, ys.filter (fun a => key a = k) = zs.filter fun a => key a = k) → ys = zs
  | [], [], _, _, _ => rfl
  | [], z :: zs, _, _, h => by simpa using h (key z)
  | y :: ys, [], _, _, h => by simpa using h (key y)
  | y :: ys, z :: zs, hys, hzs, h => by
    rw [List.pairwise_cons] at hys hzs
    have hself : ∀ a : α, Precedes (key a) (key a) := fun a => .inr ⟨rfl, List.le_refl _⟩
    -- the first of either list is also in the other, so neither precedes the other
    have hy : y ∈ z :: zs := by
      have hmem : y ∈ (z :: zs).filter fun a => key a = key y := h (key y) ▸ by simp
      exact (List.mem_filter.1 hmem).1
    have hz : z ∈ y :: ys := by
      have hmem : z ∈ (y :: ys).filter fun a => key a = key z := (h (key z)).symm ▸ by simp
      exact (List.mem_filter.1 hmem).1
    have hzy : Precedes (key z) (key y) :=
      (List.mem_cons.1 hy).elim (fun heq => heq ▸ hself y) (hzs.1 y)
    have hyz : Precedes (key y) (key z) :=
      (List.mem_cons.1 hz).elim (fun heq => heq ▸ hself z) (hys.1 z)
    have hkey : key y = key z := hyz.antisymm hzy
    have hhead : y = z := by
      have hk := h (key y)
      rw [List.filter_cons_of_pos (by simp), List.filter_cons_of_pos (by simp [hkey])] at hk
      exact (List.cons.inj hk).1
    subst hhead
    refine congrArg (y :: ·) (eq_of_filter_eq hys.2 hzs.2 fun k => ?_)
    have hk := h k
    simp only [List.filter_cons] at hk
    split_ifs at hk
    · exact (List.cons.inj hk).2
    · exact hk

/-- **There is one way to list by role and identifier.** -/
theorem Arranged.unique {xs ys zs : List α} (hy : Arranged key xs ys) (hz : Arranged key xs zs) :
    ys = zs :=
  eq_of_filter_eq hy.sorted hz.sorted fun k => (hy.stable k).trans (hz.stable k).symm

theorem filter_filterMap_of_key {β : Type} {key' : β → Role × String} {f : α → Option β}
    (hf : ∀ a, ∀ b ∈ f a, key' b = key a) (k : Role × String) (l : List α) :
    (l.filterMap f).filter (fun b => key' b = k) = (l.filter fun a => key a = k).filterMap f := by
  induction l with
  | nil => rfl
  | cons a l ih =>
    cases hfa : f a with
    | none => by_cases hk : key a = k <;> simp [hfa, hk, ih]
    | some b =>
      have hkey := hf a b hfa
      by_cases hk : key a = k <;> simp [hfa, hk, hkey, ih]

/-- **What is made of the members can be listed before or after them**, if it is listed under their role
and identifier. -/
theorem Arranged.byRoleAndId_filterMap {β : Type} {key' : β → Role × String} {xs ys : List α}
    (h : Arranged key xs ys) {f : α → Option β} (hf : ∀ a, ∀ b ∈ f a, key' b = key a) :
    byRoleAndId key' (ys.filterMap f) = byRoleAndId key' (xs.filterMap f) := by
  have hys := arranged_byRoleAndId key' (ys.filterMap f)
  have harranged : Arranged key' (xs.filterMap f) (byRoleAndId key' (ys.filterMap f)) := by
    refine ⟨hys.perm.trans (h.perm.filterMap f), hys.sorted, fun k => ?_⟩
    rw [hys.stable, filter_filterMap_of_key hf, filter_filterMap_of_key hf, h.stable]
  exact harranged.unique (arranged_byRoleAndId key' _)

/-! ### Lists in another order -/

/-- **Two lists are listed alike exactly if they agree under each role and identifier.** -/
theorem byRoleAndId_eq_iff {xs ys : List α} :
    byRoleAndId key xs = byRoleAndId key ys ↔
      ∀ k, xs.filter (fun a => key a = k) = ys.filter fun a => key a = k := by
  have hxs := arranged_byRoleAndId key xs
  have hys := arranged_byRoleAndId key ys
  constructor
  · intro heq k
    rw [← hxs.stable, ← hys.stable, heq]
  · intro hties
    exact eq_of_filter_eq hxs.sorted hys.sorted fun k => by rw [hxs.stable, hys.stable, hties]

theorem map_key_byRoleAndId_of_perm {xs ys : List α} (h : xs.Perm ys) :
    (byRoleAndId key xs).map key = (byRoleAndId key ys).map key := by
  have hxs := arranged_byRoleAndId key xs
  have hys := arranged_byRoleAndId key ys
  have hperm : ((byRoleAndId key xs).map key).Perm ((byRoleAndId key ys).map key) :=
    ((hxs.perm.trans h).trans hys.perm.symm).map key
  refine hperm.eq_of_pairwise (fun a b _ _ => Precedes.antisymm) ?_ ?_
  · exact List.pairwise_map.2 hxs.sorted
  · exact List.pairwise_map.2 hys.sorted

end ReviewPanel
