import Mathlib.Algebra.Order.Ring.Nat
import Mathlib.Data.List.Nodup
import ReviewPanel.Table

/-!
# Tables as finite maps

Facts about `Table` that speak of all its entries at once: how they come from `get?`, and how a sum
over the values changes when one of them is replaced.

## Main statements

* `Table.sum_values_set` : the sum over the values after one of them is replaced.
* `Table.sum_values_le` : a bound on each value bounds the sum.
-/

namespace ReviewPanel

namespace Table

variable {κ α : Type} [Enumerated κ]

theorem mem_values {t : Table κ α} {a : α} : a ∈ t.values ↔ ∃ k, t.get? k = some a := by
  simp only [values, List.mem_map, Prod.exists, exists_eq_right, mem_entries]

/-- The keys of a table are the first components of its entries. -/
theorem keys_eq_map_entries (t : Table κ α) : t.keys = t.entries.map Prod.fst := by
  simp only [keys, entries]
  induction (Enumerated.all (κ := κ)) with
  | nil => rfl
  | cons k ks ih =>
    cases h : t.get? k with
    | none => simp [h, ih]
    | some a => simp [h, ih]

theorem nodup_keys (t : Table κ α) : t.keys.Nodup := Enumerated.nodup_all.filter _

/-- The values that some members of the vocabulary have. -/
theorem values_eq_filterMap (t : Table κ α) : t.values = Enumerated.all.filterMap t.get? := by
  simp only [values, entries, List.map_filterMap, Option.map_map, Function.comp_def, Option.map_id']

theorem length_values (t : Table κ α) : t.values.length = t.keys.length := by
  rw [keys_eq_map_entries, values, List.length_map, List.length_map]

/-! ### Sums over the values -/

section Sum

variable [DecidableEq κ] (f : α → Nat)

omit [Enumerated κ] in
theorem sum_filterMap_set_of_notMem (t : Table κ α) {k : κ} (b : α) :
    ∀ ks : List κ, k ∉ ks →
      ((ks.filterMap (t.set k b).get?).map f).sum = ((ks.filterMap t.get?).map f).sum := by
  intro ks hk
  have hsame : ∀ k' ∈ ks, (t.set k b).get? k' = t.get? k' := by
    intro k' hk'
    rw [get?_set, if_neg]
    rintro rfl
    exact hk hk'
  rw [List.filterMap_congr hsame]

omit [Enumerated κ] in
theorem sum_filterMap_set {t : Table κ α} {k : κ} {a : α} (h : t.get? k = some a) (b : α) :
    ∀ ks : List κ, ks.Nodup → k ∈ ks →
      ((ks.filterMap (t.set k b).get?).map f).sum + f a =
        ((ks.filterMap t.get?).map f).sum + f b := by
  intro ks
  induction ks with
  | nil => intro _ hk; simp at hk
  | cons k' ks ih =>
    intro hnd hk
    obtain ⟨hk', hnd'⟩ := List.nodup_cons.1 hnd
    by_cases hkk : k = k'
    · subst hkk
      rw [List.filterMap_cons_some (get?_set_self t k b), List.filterMap_cons_some h]
      simp only [List.map_cons, List.sum_cons]
      rw [sum_filterMap_set_of_notMem f t b ks hk']
      omega
    · have hrest := ih hnd' ((List.mem_cons.1 hk).resolve_left hkk)
      have hget : (t.set k b).get? k' = t.get? k' := by rw [get?_set, if_neg (Ne.symm hkk)]
      cases ha : t.get? k' with
      | none =>
        rw [List.filterMap_cons_none (hget.trans ha), List.filterMap_cons_none ha]
        exact hrest
      | some a' =>
        rw [List.filterMap_cons_some (hget.trans ha), List.filterMap_cons_some ha]
        simp only [List.map_cons, List.sum_cons]
        omega

/-- **Replacing one value** changes the sum over the values by the difference of the two. -/
theorem sum_values_set {t : Table κ α} {k : κ} {a : α} (h : t.get? k = some a) (b : α) :
    ((t.set k b).values.map f).sum + f a = (t.values.map f).sum + f b := by
  rw [values_eq_filterMap, values_eq_filterMap]
  exact sum_filterMap_set f h b _ Enumerated.nodup_all (Enumerated.mem_all k)

omit [DecidableEq κ] in
theorem sum_values_le (t : Table κ α) {n : Nat} (h : ∀ a, f a ≤ n) :
    (t.values.map f).sum ≤ n * t.keys.length := by
  rw [← length_values]
  induction t.values with
  | nil => simp
  | cons a as ih =>
    have := h a
    simp only [List.map_cons, List.sum_cons, List.length_cons, Nat.mul_succ]
    omega

end Sum

end Table

end ReviewPanel
