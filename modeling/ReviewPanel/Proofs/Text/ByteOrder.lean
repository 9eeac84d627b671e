import Mathlib.Data.String.Basic
import Mathlib.Tactic.SplitIfs

/-!
# Texts in the order of their bytes

Identifiers are listed in the byte order of their UTF-8 encodings.  Texts are compared character by
character, by code point.  The two orders are the same: the encoding of a smaller character is smaller at
the first byte in which the two differ, and no encoding is the beginning of another.

## Main statements

* `Text.encodeChar_lt` : the encoding of a smaller character is smaller, whatever follows.
* `Text.le_iff_utf8_le` : **the order of texts is the order of their bytes.**
-/

namespace ReviewPanel.Text

/-- The bytes of a text. -/
def utf8 (s : String) : List UInt8 := s.toUTF8.data.toList

theorem utf8_eq_flatMap (s : String) : utf8 s = s.toList.flatMap String.utf8EncodeChar := by
  rw [utf8, String.toUTF8, ← String.ofList_toList (s := s), String.toByteArray_ofList,
    String.toList_ofList, List.utf8Encode]
  simp

theorem toNat_lt (c : Char) : c.val.toNat < 0x110000 := by
  rcases c.valid with h | ⟨-, h⟩
  · exact Nat.lt_trans h (by decide)
  · exact h

theorem div_lt_or_mod_lt {m n : Nat} (h : m < n) :
    m / 64 < n / 64 ∨ m / 64 = n / 64 ∧ m % 64 < n % 64 := by
  omega

/-- Numbers are ordered like their digits in base 64. -/
theorem digits_lt {m n : Nat} (h : m < n) :
    m / 262144 < n / 262144 ∨ m / 262144 = n / 262144 ∧
      (m / 4096 % 64 < n / 4096 % 64 ∨ m / 4096 % 64 = n / 4096 % 64 ∧
        (m / 64 % 64 < n / 64 % 64 ∨ m / 64 % 64 = n / 64 % 64 ∧ m % 64 < n % 64)) := by
  have hdiv : ∀ k : Nat, k / 4096 = k / 64 / 64 ∧ k / 262144 = k / 64 / 64 / 64 := fun k => by
    omega
  rw [(hdiv m).1, (hdiv m).2, (hdiv n).1, (hdiv n).2]
  rcases div_lt_or_mod_lt h with h₁ | ⟨heq, hlt⟩
  · rcases div_lt_or_mod_lt h₁ with h₂ | ⟨heq, hlt⟩
    · rcases div_lt_or_mod_lt h₂ with h₃ | ⟨heq, hlt⟩
      · exact .inl h₃
      · exact .inr ⟨heq, .inl hlt⟩
    · rw [heq]
      exact .inr ⟨rfl, .inr ⟨rfl, .inl hlt⟩⟩
  · rw [heq]
    exact .inr ⟨rfl, .inr ⟨rfl, .inr ⟨rfl, hlt⟩⟩⟩

/-- **The encoding of a smaller character is smaller**, whatever follows the two. -/
theorem encodeChar_lt {c d : Char} (h : c < d) (xs ys : List UInt8) :
    String.utf8EncodeChar c ++ xs < String.utf8EncodeChar d ++ ys := by
  have hlt : c.val.toNat < d.val.toNat := h
  have hc := toNat_lt c
  have hd := toNat_lt d
  have hdigits := digits_lt hlt
  -- one case for each pair of lengths; unequal lengths already differ in the first byte
  simp only [String.utf8EncodeChar]
  split_ifs <;>
    simp only [List.cons_append, List.nil_append, List.cons_lt_cons_iff, UInt8.lt_iff_toNat_lt,
      ← UInt8.toNat_inj, UInt8.toNat_ofNat'] <;>
    simp (disch := omega) only [Nat.mod_eq_of_lt] <;>
    omega

theorem flatMap_encodeChar_lt {cs ds : List Char} (h : cs < ds) :
    cs.flatMap String.utf8EncodeChar < ds.flatMap String.utf8EncodeChar := by
  induction h with
  | @nil d ds =>
    obtain ⟨b, bs, hb⟩ : ∃ b bs, String.utf8EncodeChar d = b :: bs := by
      unfold String.utf8EncodeChar
      dsimp only
      split_ifs <;> exact ⟨_, _, rfl⟩
    rw [List.flatMap_nil, List.flatMap_cons, hb]
    exact List.Lex.nil
  | @rel c cs d ds h =>
    rw [List.flatMap_cons, List.flatMap_cons]
    exact encodeChar_lt h _ _
  | @cons c cs ds _ ih =>
    rw [List.flatMap_cons, List.flatMap_cons]
    exact List.append_left_lt ih

theorem utf8_lt {a b : String} (h : a < b) : utf8 a < utf8 b := by
  rw [utf8_eq_flatMap, utf8_eq_flatMap]
  exact flatMap_encodeChar_lt (String.lt_iff_toList_lt.1 h)

/-- **The order of texts is the order of their bytes.** -/
theorem le_iff_utf8_le {a b : String} : a ≤ b ↔ utf8 a ≤ utf8 b := by
  constructor
  · intro h
    rcases h.lt_or_eq with hlt | rfl
    · exact List.le_of_lt (utf8_lt hlt)
    · exact List.le_refl _
  · intro h
    exact not_lt.1 fun hlt => List.not_lt.2 h (utf8_lt hlt)

end ReviewPanel.Text
