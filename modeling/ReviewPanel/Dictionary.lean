/-!
# Dictionaries

A dictionary gives a value to some texts, its keys.  Its entries stand in the order of their keys,
by code point, which is the order of the UTF-8 bytes; so two dictionaries with the same entries are
equal, whatever the order in which they were filled.

The view of a dictionary is `Dictionary.get?`; each operation has one equation about it.

## Main definitions

* `insertEntry`, `sortEntries` : entries in the order of their keys, the last of several with one
  key.
* `Dictionary` with `get?`, `insert`, `erase`, `keys`.
-/

namespace ReviewPanel

variable {α : Type}

/-- Puts an entry into a list that is ordered by key, in place of one with the same key. -/
def insertEntry (key : String) (a : α) : List (String × α) → List (String × α)
  | [] => [(key, a)]
  | e :: es =>
    if key < e.1 then (key, a) :: e :: es
    else if key = e.1 then (key, a) :: es
    else e :: insertEntry key a es

/-- Entries in the order of their keys, the last of several with one key. -/
def sortEntries (es : List (String × α)) : List (String × α) :=
  es.foldl (fun acc e => insertEntry e.1 e.2 acc) []

/-- The value of the first entry with a key. -/
def findEntry (key : String) : List (String × α) → Option α
  | [] => none
  | e :: es => if key = e.1 then some e.2 else findEntry key es

/-- The keys of a list of entries increase. -/
def Increasing (es : List (String × α)) : Prop := es.Pairwise fun a b => a.1 < b.1

theorem string_lt_of_not_lt_of_ne {a b : String} (h : ¬ a < b) (hne : a ≠ b) : b < a :=
  Std.lt_of_le_of_ne (String.not_lt.1 h) (Ne.symm hne)

theorem eq_or_mem_of_mem_insertEntry {key : String} {a : α} {es : List (String × α)}
    {e : String × α} (h : e ∈ insertEntry key a es) : e = (key, a) ∨ e ∈ es := by
  induction es with
  | nil => simpa [insertEntry] using h
  | cons x xs ih =>
    simp only [insertEntry] at h
    split at h
    · simpa using h
    · split at h
      · rcases List.mem_cons.1 h with h | h
        · exact .inl h
        · exact .inr (List.mem_cons_of_mem _ h)
      · rcases List.mem_cons.1 h with h | h
        · exact .inr (h ▸ List.mem_cons_self)
        · rcases ih h with h | h
          · exact .inl h
          · exact .inr (List.mem_cons_of_mem _ h)

theorem Increasing.insertEntry {es : List (String × α)} (h : Increasing es) (key : String)
    (a : α) : Increasing (insertEntry key a es) := by
  induction es with
  | nil => simp [ReviewPanel.insertEntry, Increasing]
  | cons x xs ih =>
    have hx := List.pairwise_cons.1 h
    simp only [ReviewPanel.insertEntry]
    split
    case isTrue hlt =>
      refine List.pairwise_cons.2 ⟨fun m hm => ?_, h⟩
      rcases List.mem_cons.1 hm with rfl | hm
      · exact hlt
      · exact String.lt_trans hlt (hx.1 m hm)
    case isFalse hnlt =>
      split
      case isTrue heq =>
        subst heq
        exact List.pairwise_cons.2 ⟨hx.1, hx.2⟩
      case isFalse hne =>
        refine List.pairwise_cons.2 ⟨fun m hm => ?_, ih hx.2⟩
        rcases eq_or_mem_of_mem_insertEntry hm with rfl | hm
        · exact string_lt_of_not_lt_of_ne hnlt hne
        · exact hx.1 m hm

theorem increasing_sortEntries (es : List (String × α)) : Increasing (sortEntries es) := by
  suffices h : ∀ acc : List (String × α), Increasing acc →
      Increasing (es.foldl (fun acc e => insertEntry e.1 e.2 acc) acc) from
    h [] List.Pairwise.nil
  induction es with
  | nil => intro acc h; exact h
  | cons e es ih => intro acc h; exact ih _ (h.insertEntry e.1 e.2)

/-- Values for some texts, in the order of the texts. -/
@[ext]
structure Dictionary (α : Type) where
  entries : List (String × α)
  increasing : Increasing entries

namespace Dictionary

instance [DecidableEq α] : DecidableEq (Dictionary α) := fun a b =>
  decidable_of_iff (a.entries = b.entries) Dictionary.ext_iff.symm

instance : Inhabited (Dictionary α) := ⟨⟨[], List.Pairwise.nil⟩⟩

/-- The dictionary without entries. -/
def empty : Dictionary α := ⟨[], List.Pairwise.nil⟩

/-- The value of a key. -/
def get? (d : Dictionary α) (key : String) : Option α := findEntry key d.entries

/-- The key has a value. -/
def contains (d : Dictionary α) (key : String) : Bool := (d.get? key).isSome

/-- The dictionary with the value of `key` replaced by `a`. -/
def insert (d : Dictionary α) (key : String) (a : α) : Dictionary α :=
  ⟨insertEntry key a d.entries, d.increasing.insertEntry key a⟩

/-- The dictionary without a value for `key`. -/
def erase (d : Dictionary α) (key : String) : Dictionary α :=
  ⟨d.entries.filter fun e => e.1 != key, d.increasing.filter _⟩

/-- The keys, in order. -/
def keys (d : Dictionary α) : List String := d.entries.map Prod.fst

/-- Number of entries. -/
def size (d : Dictionary α) : Nat := d.entries.length

/-- The dictionary of some entries, the last of several with one key. -/
def ofList (es : List (String × α)) : Dictionary α := ⟨sortEntries es, increasing_sortEntries es⟩

@[simp] theorem get?_empty (key : String) : (empty : Dictionary α).get? key = none := rfl

theorem findEntry_insertEntry (es : List (String × α)) (key : String) (a : α) (k : String) :
    findEntry k (insertEntry key a es) = if k = key then some a else findEntry k es := by
  induction es with
  | nil => simp [insertEntry, findEntry]
  | cons x xs ih =>
    simp only [insertEntry]
    split
    · simp [findEntry]
    · split
      case isTrue heq =>
        by_cases hk : k = key
        · simp [findEntry, hk]
        · have hkx : ¬ k = x.1 := fun h => hk (h.trans heq.symm)
          simp [findEntry, hk, hkx]
      case isFalse hne =>
        by_cases hkx : k = x.1
        · have hk : ¬ k = key := fun h => hne (h.symm.trans hkx)
          simp [findEntry, hkx, Ne.symm hne]
        · simp [findEntry, hkx, ih]

theorem get?_insert (d : Dictionary α) (key : String) (a : α) (k : String) :
    (d.insert key a).get? k = if k = key then some a else d.get? k :=
  findEntry_insertEntry d.entries key a k

@[simp] theorem get?_insert_self (d : Dictionary α) (key : String) (a : α) :
    (d.insert key a).get? key = some a := by simp [get?_insert]

theorem get?_erase (d : Dictionary α) (key k : String) :
    (d.erase key).get? k = if k = key then none else d.get? k := by
  simp only [get?, erase]
  induction d.entries with
  | nil => simp [findEntry]
  | cons x xs ih =>
    by_cases hx : x.1 = key
    · by_cases hk : k = key
      · simpa [List.filter_cons, hx, hk] using ih
      · have hkx : ¬ k = x.1 := fun h => hk (h.trans hx)
        simpa [List.filter_cons, hx, hk, findEntry] using ih
    · by_cases hkx : k = x.1
      · simp [hx, findEntry, hkx]
      · simpa [List.filter_cons, hx, findEntry, hkx] using ih

end Dictionary

end ReviewPanel
