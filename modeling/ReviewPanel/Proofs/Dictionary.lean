import ReviewPanel.Proofs.Json.Recovery

/-!
# Dictionaries as finite maps

A dictionary is determined by its view `Dictionary.get?`: its entries are the keys with the values that
the view gives them, and two dictionaries with the same view are equal.

## Main statements

* `Dictionary.mem_entries`, `Dictionary.mem_keys` : entries and keys in terms of the view.
* `Dictionary.keys_congr` : the keys of two dictionaries that give values to the same keys.
* `Dictionary.ext_get?` : **dictionaries with the same view are equal.**
-/

namespace ReviewPanel

namespace Dictionary

variable {α : Type}

theorem mem_of_findEntry {es : List (String × α)} {key : String} {a : α}
    (h : findEntry key es = some a) : (key, a) ∈ es := by
  induction es with
  | nil => cases h
  | cons e es ih =>
    rw [findEntry] at h
    split_ifs at h with hkey
    · obtain rfl := Option.some.inj h
      rw [hkey]
      exact List.mem_cons_self
    · exact List.mem_cons_of_mem _ (ih h)

theorem mem_entries {d : Dictionary α} {key : String} {a : α} :
    (key, a) ∈ d.entries ↔ d.get? key = some a :=
  ⟨fun h => findEntry_of_mem d.increasing.nodup_keys h, mem_of_findEntry⟩

theorem mem_keys {d : Dictionary α} {key : String} : key ∈ d.keys ↔ (d.get? key).isSome = true := by
  simp only [keys, List.mem_map, Prod.exists, exists_and_right, exists_eq_right, mem_entries,
    Option.isSome_iff_exists]

theorem nodup_keys (d : Dictionary α) : d.keys.Nodup := d.increasing.nodup_keys

/-- Dictionaries that give values to the same keys list them in the same order. -/
theorem keys_congr {β : Type} {d : Dictionary α} {d' : Dictionary β}
    (h : ∀ key, (d.get? key).isSome = (d'.get? key).isSome) : d.keys = d'.keys := by
  have hperm : d.keys.Perm d'.keys :=
    (List.perm_ext_iff_of_nodup d.nodup_keys d'.nodup_keys).2 fun key => by
      rw [mem_keys, mem_keys, h]
  have hasymm : ∀ a b : String, a < b → b < a → a = b := fun a b hab hba =>
    absurd (String.lt_trans hab hba) (String.lt_irrefl a)
  exact hperm.eq_of_pairwise (fun a b _ _ => hasymm a b) (List.pairwise_map.2 d.increasing)
    (List.pairwise_map.2 d'.increasing)

/-- **Dictionaries with the same view are equal.** -/
theorem ext_get? {d d' : Dictionary α} (h : ∀ key, d.get? key = d'.get? key) : d = d' := by
  have hperm : d.entries.Perm d'.entries :=
    (List.perm_ext_iff_of_nodup d.nodup_keys.of_map d'.nodup_keys.of_map).2
      fun e => by rw [mem_entries, mem_entries, h]
  -- both lists of entries are ordered by key, so they are in the same order
  have hasymm : ∀ a b : String × α, a.1 < b.1 → b.1 < a.1 → a = b := fun a b hab hba =>
    absurd (String.lt_trans hab hba) (String.lt_irrefl a.1)
  exact Dictionary.ext (hperm.eq_of_pairwise (fun a b _ _ => hasymm a b) d.increasing d'.increasing)

end Dictionary

end ReviewPanel
