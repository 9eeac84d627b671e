/-!
# Finite vocabularies

The words of a review panel (roles, phases, severities, …) come from small closed lists.  A
list has a canonical order, which every report follows, and each word has one spelling, which
every document uses.

## Main definitions

* `Enumerated κ` : the members of `κ`, each once, in canonical order.
* `Named κ` : an enumerated type whose members are told apart by their spelling.
* `Named.ofName?` : reads a spelling back (`Named.ofName?_name`).
-/

namespace ReviewPanel

/-- A type with finitely many members, listed once each in canonical order. -/
class Enumerated (κ : Type) where
  /-- Every member, in canonical order. -/
  all : List κ
  /-- The list is complete. -/
  mem_all : ∀ k : κ, k ∈ all
  /-- The list has no repetition. -/
  nodup_all : all.Nodup

/-- A vocabulary: members are told apart by their spelling. -/
class Named (κ : Type) extends Enumerated κ where
  /-- The spelling of a member in documents. -/
  name : κ → String
  /-- Two members never share a spelling. -/
  name_inj : ∀ a b : κ, name a = name b → a = b

namespace Named

variable {κ : Type} [Named κ]

/-- The member with a given spelling. -/
def ofName? (s : String) : Option κ :=
  (Enumerated.all (κ := κ)).find? fun k => name k == s

/-- Every spelling, in canonical order. -/
def names (κ : Type) [Named κ] : List String := (Enumerated.all (κ := κ)).map name

theorem ofName?_name (k : κ) : ofName? (name k) = some k := by
  unfold ofName?
  cases h : (Enumerated.all (κ := κ)).find? fun k' => name k' == name k with
  | none =>
    have := List.find?_eq_none.1 h k (Enumerated.mem_all k)
    simp at this
  | some k' =>
    have := List.find?_some h
    rw [name_inj k' k (by simpa using this)]

theorem name_of_ofName? {s : String} {k : κ} (h : ofName? s = some k) : name k = s := by
  simpa using List.find?_some h

end Named

end ReviewPanel
