import ReviewPanel.Dictionary
import ReviewPanel.Number.Double
import ReviewPanel.Table

/-!
# JSON values

A value as it is written: the members of an object stand in a given order.  `Value.canonical` is
the value as a reader who ignores that order sees it: members in the byte order of their names,
the last of several with one name.  (Strings are ordered by code point, which is the order of
their UTF-8 bytes.)
-/

namespace ReviewPanel.Json

/-- A number: an integer of at most 64 bits, or a double. -/
inductive Number where
  /-- An integer between `-2 ^ 63` and `2 ^ 64 - 1`. -/
  | int (i : Int)
  /-- Any other number. -/
  | float (d : Double)
deriving DecidableEq, Repr

/-- A JSON value. -/
inductive Value where
  | null
  | bool (b : Bool)
  | num (n : Number)
  | str (s : String)
  | arr (items : List Value)
  | obj (members : List (String × Value))
deriving Repr

namespace Value

instance : Inhabited Value := ⟨.null⟩

/-- A natural number. -/
def nat (n : Nat) : Value := .num (.int n)

/-- The value of an optional part; absence is written as `null`. -/
def ofOption {α : Type} (f : α → Value) : Option α → Value
  | none => .null
  | some a => f a

/-- A member that is left out when there is nothing to write. -/
def optional {α : Type} (name : String) (f : α → Value) : Option α → List (String × Value)
  | none => []
  | some a => [(name, f a)]

/-- A word of a vocabulary. -/
def word {κ : Type} [Named κ] (k : κ) : Value := .str (Named.name k)

/-- Words of a vocabulary. -/
def words {κ : Type} [Named κ] (ks : List κ) : Value := .arr (ks.map word)

/-- A table as an object, in canonical order. -/
def table {κ α : Type} [Named κ] (f : α → Value) (t : Table κ α) : Value :=
  .obj (t.entries.map fun e => (Named.name e.1, f e.2))

/-- The last member with a given name. -/
def member? (name : String) : Value → Option Value
  | .obj members => (members.reverse.find? fun m => m.1 == name).map Prod.snd
  | _ => none

/-- The text of a string value. -/
def string? : Value → Option String
  | .str s => some s
  | _ => none

/-- The items of an array value. -/
def items? : Value → Option (List Value)
  | .arr items => some items
  | _ => none

/-- The members of an object value. -/
def members? : Value → Option (List (String × Value))
  | .obj members => some members
  | _ => none

mutual

/-- The value with the members of every object in the order of their names. -/
def canonical : Value → Value
  | .null => .null
  | .bool b => .bool b
  | .num n => .num n
  | .str s => .str s
  | .arr items => .arr (canonicalItems items)
  | .obj members => .obj (sortEntries (canonicalMembers members))

/-- `canonical` on items. -/
def canonicalItems : List Value → List Value
  | [] => []
  | v :: vs => canonical v :: canonicalItems vs

/-- `canonical` on members. -/
def canonicalMembers : List (String × Value) → List (String × Value)
  | [] => []
  | (k, v) :: ms => (k, canonical v) :: canonicalMembers ms

end

end Value

end ReviewPanel.Json
