import ReviewPanel.Json.Document
import ReviewPanel.Proofs.Json.Tokens

/-!
# The document of a printed value

Reading the text of a value, indented or not, gives the document of the value, complete and with nothing
behind it.  Only numbers may change on the way: one that is too large for 64 bits comes back as a double or
not at all (`Number.reread`).

## Main definitions

* `Document.ofText` : the document of a value, with its numbers as they are read back.
* `Number.Fits` : a whole number of 64 bits.

## Main statements

* `Document.parse_prettyText`, `Document.parse_compactText` : **what the text of a value is read as.**
* `Document.ofText_eq_ofValue` : it is the value's own document if all numbers fit.
-/

namespace ReviewPanel.Json

open Value

namespace Document

mutual

/-- The document of a value, with its numbers as they are read back. -/
def ofText : Value → Document
  | .null => .null
  | .bool b => .bool b
  | .num n => .number n.reread
  | .str s => .text (some s)
  | .arr items => .array (ofTextItems items) .closed
  | .obj members => .object (ofTextMembers members) .closed

/-- The documents of items. -/
def ofTextItems : List Value → List Document
  | [] => []
  | v :: vs => ofText v :: ofTextItems vs

/-- The documents of members. -/
def ofTextMembers : List (String × Value) → List (Option String × Document)
  | [] => []
  | (k, v) :: ms => (some k, ofText v) :: ofTextMembers ms

end

end Document

open Document (ofText ofTextItems ofTextMembers)

/-! ### Tokens to documents -/

/-- A value may stand here. -/
def Expect.TakesValue (e : Expect) : Prop := e = .value ∨ e = .firstItem ∨ e = .nextItem

namespace Builder

theorem step_value {e : Expect} (he : e.TakesValue) {t : Token} (ht : t ≠ .closeArray)
    (stack : List Frame) : step (.reading stack e) t = stepValue stack t := by
  rcases he with rfl | rfl | rfl
  · rfl
  · exact if_neg ht
  · exact if_neg ht

theorem run_reading (stack : List Frame) (e : Expect) (t : Token) (ts : List Token) :
    run (.reading stack e) (t :: ts) = run (step (.reading stack e) t) ts := rfl

theorem run_name {e : Expect} (he : e = .firstName ∨ e = .nextName) (k : String)
    (members : List (Option String × Document)) (name : Option String) (stack : List Frame)
    (ts : List Token) :
    run (.reading (.object members name :: stack) e) (.text (some k) :: .colon :: ts) =
      run (.reading (.object members (some k) :: stack) .value) ts := by
  rcases he with rfl | rfl <;> rfl

mutual

/-- **The tokens of a value deliver its document** to the innermost open container. -/
theorem run_tokens : ∀ (v : Value) {e : Expect}, e.TakesValue → ∀ (stack : List Frame)
    (ts : List Token),
      run (.reading stack e) (v.tokens ++ ts) = run (deliver (ofText v) stack) ts
  | .null, e, he, stack, ts => by
    rw [Value.tokens, List.singleton_append, run_reading, step_value he (by simp), ofText]
    rfl
  | .bool b, e, he, stack, ts => by
    rw [Value.tokens, List.singleton_append, run_reading, step_value he (by simp), ofText]
    rfl
  | .num n, e, he, stack, ts => by
    rw [Value.tokens, List.singleton_append, run_reading, step_value he (by simp), ofText]
    rfl
  | .str s, e, he, stack, ts => by
    rw [Value.tokens, List.singleton_append, run_reading, step_value he (by simp), ofText]
    rfl
  | .arr [], e, he, stack, ts => by
    rw [Value.tokens, itemTokens, List.nil_append, List.cons_append, run_reading,
      step_value he (by simp), ofText, ofTextItems]
    rfl
  | .arr (v :: vs), e, he, stack, ts => by
    rw [Value.tokens, List.cons_append, List.append_assoc, run_reading, step_value he (by simp)]
    exact (run_itemTokens (v :: vs) (by simp) (.inr (.inl rfl)) [] stack ts).trans (by rw [ofText]; rfl)
  | .obj [], e, he, stack, ts => by
    rw [Value.tokens, memberTokens, List.nil_append, List.cons_append, run_reading,
      step_value he (by simp), ofText, ofTextMembers]
    rfl
  | .obj (m :: ms), e, he, stack, ts => by
    rw [Value.tokens, List.cons_append, List.append_assoc, run_reading, step_value he (by simp)]
    exact (run_memberTokens (m :: ms) (by simp) (.inl rfl) [] none stack ts).trans (by rw [ofText]; rfl)

theorem run_itemTokens : ∀ (vs : List Value), vs ≠ [] → ∀ {e : Expect}, e.TakesValue →
    ∀ (items : List Document) (stack : List Frame) (ts : List Token),
      run (.reading (.array items :: stack) e) (itemTokens vs ++ .closeArray :: ts) =
        run (deliver (.array (items.reverse ++ ofTextItems vs) .closed) stack) ts
  | [], hne, _, _, _, _, _ => absurd rfl hne
  | [v], _, e, he, items, stack, ts => by
    have hclose : run (deliver (ofText v) (.array items :: stack)) (.closeArray :: ts) =
        run (deliver (.array (ofText v :: items).reverse .closed) stack) ts := rfl
    rw [itemTokens, run_tokens v he, hclose, ofTextItems, ofTextItems, List.reverse_cons]
  | v :: w :: vs, _, e, he, items, stack, ts => by
    have hcomma : ∀ ts, run (deliver (ofText v) (.array items :: stack)) (.comma :: ts) =
        run (.reading (.array (ofText v :: items) :: stack) .nextItem) ts := fun _ => rfl
    rw [itemTokens, List.append_assoc, List.cons_append, run_tokens v he, hcomma,
      run_itemTokens (w :: vs) (by simp) (.inr (.inr rfl)), ofTextItems, List.reverse_cons, List.append_assoc]
    rfl

theorem run_memberTokens : ∀ (ms : List (String × Value)), ms ≠ [] → ∀ {e : Expect},
    e = .firstName ∨ e = .nextName →
    ∀ (members : List (Option String × Document)) (name : Option String) (stack : List Frame)
      (ts : List Token),
      run (.reading (.object members name :: stack) e)
          (memberTokens ms ++ .closeObject :: ts) =
        run (deliver (.object (members.reverse ++ ofTextMembers ms) .closed) stack) ts
  | [], hne, _, _, _, _, _, _ => absurd rfl hne
  | [(k, v)], _, e, he, members, name, stack, ts => by
    have hclose : run (deliver (ofText v) (.object members (some k) :: stack)) (.closeObject :: ts) =
        run (deliver (.object ((some k, ofText v) :: members).reverse .closed) stack) ts := rfl
    rw [memberTokens, List.cons_append, List.cons_append, run_name he, run_tokens v (.inl rfl),
      hclose, ofTextMembers, ofTextMembers, List.reverse_cons]
  | (k, v) :: m :: ms, _, e, he, members, name, stack, ts => by
    have hcomma : ∀ ts, run (deliver (ofText v) (.object members (some k) :: stack)) (.comma :: ts) =
        run (.reading (.object ((some k, ofText v) :: members) none :: stack) .nextName) ts :=
      fun _ => rfl
    rw [memberTokens, List.cons_append, List.cons_append, run_name he, List.append_assoc,
      List.cons_append, run_tokens v (.inl rfl), hcomma, run_memberTokens (m :: ms) (by simp) (.inr rfl),
      ofTextMembers, List.reverse_cons, List.append_assoc]
    rfl

end

end Builder

namespace Document

/-- Symbols that give the tokens of a value are read as the value, and nothing is left over. -/
theorem parse_of_tokens {v : Value} {symbols : List Symbol} (h : Json.tokens symbols = v.tokens) :
    parse symbols = (ofText v, false) := by
  have hrun := Builder.run_tokens v (.inl rfl) [] []
  rw [List.append_nil] at hrun
  rw [parse, h, hrun]
  rfl

/-- **The text of a value is read as the value**, up to its numbers, and nothing is left over. -/
theorem parse_prettyText {v : Value} (hv : v.Numbers Number.IsWhole) :
    parse (Utf8.ofString v.prettyText) = (ofText v, false) := by
  have hend : Delimited [] := trivial
  have htokens := Lexer.run_prettyAt v 0 hv hend
  rw [List.append_nil, Lexer.run_nil] at htokens
  refine parse_of_tokens ?_
  rw [Utf8.ofString, prettyText, String.toList_ofList]
  exact htokens.trans (List.append_nil _)

theorem parse_compactText {v : Value} (hv : v.Numbers Number.IsWhole) :
    parse (Utf8.ofString v.compactText) = (ofText v, false) := by
  have hend : Delimited [] := trivial
  have htokens := Lexer.run_compact v hv hend
  rw [List.append_nil, Lexer.run_nil] at htokens
  refine parse_of_tokens ?_
  rw [Utf8.ofString, compactText, String.toList_ofList]
  exact htokens.trans (List.append_nil _)

end Document

/-! ### Numbers that fit -/

/-- A whole number of 64 bits. -/
def Number.Fits : Number → Prop
  | .int i => -9223372036854775808 ≤ i ∧ i ≤ maxWord
  | .float _ => False

theorem digitsValue_toDigits (n : Nat) : digitsValue (Nat.toDigits 10 n) = n := by
  have hfold : digitsValue (Nat.toDigits 10 n) = Nat.ofDigitChars 10 (Nat.toDigits 10 n) 0 := rfl
  rw [hfold, Nat.ofDigitChars_ten_toDigits]

namespace Number

theorem Fits.isWhole {n : Number} (h : n.Fits) : n.IsWhole := by
  cases n with
  | int => trivial
  | float => exact h

/-- A number of 64 bits is read back as it was written. -/
theorem Fits.reread_eq {n : Number} (h : n.Fits) : n.reread = some n := by
  cases n with
  | float => exact absurd h id
  | int i =>
    obtain ⟨hlow, hhigh⟩ := h
    simp only [maxWord] at hhigh
    simp only [reread, NumberDraft.value?, digitsValue_toDigits, maxWord]
    by_cases hi : i < 0
    · have hneg : -(i.natAbs : Int) = i := by omega
      rw [if_neg (by simp [hi]), if_pos ⟨trivial, by simpa using hi, by omega, by omega⟩, hneg]
    · have hpos : (i.natAbs : Int) = i := by omega
      rw [if_pos ⟨trivial, by simpa using hi, by omega⟩, hpos]

/-- What is read back as an integer was written as that one. -/
theorem eq_of_reread {i j : Int} (h : (Number.int i).reread = some (.int j)) : i = j := by
  simp only [reread, NumberDraft.value?, digitsValue_toDigits] at h
  split_ifs at h with hpos hneg
  · obtain ⟨-, hi, -⟩ := hpos
    simp only [decide_eq_true_eq] at hi
    injection h with h
    injection h with h
    omega
  · obtain ⟨-, hi, -⟩ := hneg
    simp only [decide_eq_true_eq] at hi
    injection h with h
    injection h with h
    omega
  · obtain ⟨x, -, hx⟩ := Option.map_eq_some_iff.1 h
    cases hx

end Number

namespace Document

mutual

theorem ofText_eq_ofValue : ∀ {v : Value}, v.Numbers Number.Fits → ofText v = ofValue v
  | .null, _ => by rw [ofText, ofValue]
  | .bool _, _ => by rw [ofText, ofValue]
  | .num n, hv => by
    rw [Numbers] at hv
    rw [ofText, ofValue, hv.reread_eq]
  | .str _, _ => by rw [ofText, ofValue]
  | .arr items, hv => by
    rw [Numbers] at hv
    rw [ofText, ofValue, ofTextItems_eq_ofItems hv]
  | .obj members, hv => by
    rw [Numbers] at hv
    rw [ofText, ofValue, ofTextMembers_eq_ofMembers hv]

theorem ofTextItems_eq_ofItems :
    ∀ {vs : List Value}, ItemNumbers Number.Fits vs → ofTextItems vs = ofItems vs
  | [], _ => by rw [ofTextItems, ofItems]
  | v :: vs, hvs => by
    rw [ItemNumbers] at hvs
    rw [ofTextItems, ofItems, ofText_eq_ofValue hvs.1, ofTextItems_eq_ofItems hvs.2]

theorem ofTextMembers_eq_ofMembers :
    ∀ {ms : List (String × Value)}, MemberNumbers Number.Fits ms → ofTextMembers ms = ofMembers ms
  | [], _ => by rw [ofTextMembers, ofMembers]
  | (k, v) :: ms, hms => by
    rw [MemberNumbers] at hms
    rw [ofTextMembers, ofMembers, ofText_eq_ofValue hms.1, ofTextMembers_eq_ofMembers hms.2]

end

end Document

end ReviewPanel.Json
