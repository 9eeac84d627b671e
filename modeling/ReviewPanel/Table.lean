import ReviewPanel.Enumerated

/-!
# Tables over a finite vocabulary

A `Table κ α` gives some members of an enumerated type `κ` a value.  It is presented in the
canonical order of `κ`, whatever the order in which it was filled.

The view of a table is `Table.get?`; each operation has one equation about it.
-/

namespace ReviewPanel

/-- A partial assignment of values to the members of a vocabulary. -/
@[ext]
structure Table (κ α : Type) where
  /-- The value of a member, if it has one. -/
  get? : κ → Option α

namespace Table

variable {κ α β : Type}

/-- The table without entries. -/
def empty : Table κ α := ⟨fun _ => none⟩

/-- The table that gives every member of `ks` the value `a`. -/
def ofKeys [DecidableEq κ] (ks : List κ) (a : α) : Table κ α :=
  ⟨fun k => if k ∈ ks then some a else none⟩

/-- The table with a value for every member. -/
def ofFn (f : κ → α) : Table κ α := ⟨fun k => some (f k)⟩

/-- The table with the value of `k` replaced by `a`. -/
def set [DecidableEq κ] (t : Table κ α) (k : κ) (a : α) : Table κ α :=
  ⟨fun k' => if k' = k then some a else t.get? k'⟩

/-- The table with `f` applied to every value. -/
def map (f : α → β) (t : Table κ α) : Table κ β := ⟨fun k => (t.get? k).map f⟩

/-- The last of several entries for one member counts. -/
def ofList [DecidableEq κ] (es : List (κ × α)) : Table κ α :=
  es.foldl (fun t e => t.set e.1 e.2) empty

/-- Members with a value, in canonical order. -/
def keys [Enumerated κ] (t : Table κ α) : List κ :=
  Enumerated.all.filter fun k => (t.get? k).isSome

/-- Members with their values, in canonical order. -/
def entries [Enumerated κ] (t : Table κ α) : List (κ × α) :=
  Enumerated.all.filterMap fun k => (t.get? k).map fun a => (k, a)

/-- Values in the canonical order of their keys. -/
def values [Enumerated κ] (t : Table κ α) : List α := t.entries.map Prod.snd

@[simp] theorem get?_empty (k : κ) : (empty : Table κ α).get? k = none := rfl

@[simp] theorem get?_ofFn (f : κ → α) (k : κ) : (ofFn f).get? k = some (f k) := rfl

@[simp] theorem get?_map (f : α → β) (t : Table κ α) (k : κ) :
    (t.map f).get? k = (t.get? k).map f := rfl

theorem get?_ofKeys [DecidableEq κ] (ks : List κ) (a : α) (k : κ) :
    (ofKeys ks a).get? k = if k ∈ ks then some a else none := rfl

theorem get?_set [DecidableEq κ] (t : Table κ α) (k : κ) (a : α) (k' : κ) :
    (t.set k a).get? k' = if k' = k then some a else t.get? k' := rfl

@[simp] theorem get?_set_self [DecidableEq κ] (t : Table κ α) (k : κ) (a : α) :
    (t.set k a).get? k = some a := if_pos rfl

theorem mem_keys [Enumerated κ] {t : Table κ α} {k : κ} :
    k ∈ t.keys ↔ (t.get? k).isSome := by
  simp [keys, Enumerated.mem_all]

theorem mem_entries [Enumerated κ] {t : Table κ α} {k : κ} {a : α} :
    (k, a) ∈ t.entries ↔ t.get? k = some a := by
  constructor
  · intro h
    obtain ⟨k', _, hk'⟩ := List.mem_filterMap.1 h
    cases ha : t.get? k' with
    | none => simp [ha] at hk'
    | some a' =>
      rw [ha] at hk'
      obtain ⟨rfl, rfl⟩ := Prod.mk.inj (Option.some.inj hk')
      exact ha
  · intro h
    exact List.mem_filterMap.2 ⟨k, Enumerated.mem_all k, by simp [h]⟩

instance [Enumerated κ] [DecidableEq α] : DecidableEq (Table κ α) := fun s t =>
  decidable_of_iff (∀ k ∈ Enumerated.all, s.get? k = t.get? k)
    ⟨fun h => Table.ext (funext fun k => h k (Enumerated.mem_all k)), fun h _ _ => h ▸ rfl⟩

end Table

end ReviewPanel
