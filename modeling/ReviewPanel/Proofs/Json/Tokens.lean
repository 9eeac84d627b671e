import Mathlib.Tactic.SplitIfs
import ReviewPanel.Json.Printer
import ReviewPanel.Json.Token

/-!
# Printed texts, token by token

The automaton that cuts a text into tokens finds in a printed value exactly the tokens of the value:
blanks between tokens leave no trace, an escaped character is the character, and a number ends where
something follows that cannot belong to it.

A number is read back as a number only as far as it fits; `Number.reread` is what becomes of it.

## Main definitions

* `Value.tokens` : the tokens of a value.
* `Value.Numbers` : every number of a value has some property.
* `Delimited` : what may follow a printed value.

## Main statements

* `Lexer.run_stringText`, `Lexer.run_numberText` : strings and whole numbers.
* `Lexer.run_prettyAt`, `Lexer.run_compact` : **the tokens of a printed text are those of the value**,
  in either layout.
-/

namespace ReviewPanel.Json

/-- The symbols of a list of characters. -/
def chars (cs : List Char) : List Symbol := cs.map .char

@[simp] theorem chars_nil : chars [] = [] := rfl

@[simp] theorem chars_cons (c : Char) (cs : List Char) : chars (c :: cs) = .char c :: chars cs := rfl

@[simp] theorem chars_append (as bs : List Char) : chars (as ++ bs) = chars as ++ chars bs :=
  List.map_append

/-! ### Strings -/

/-- How an escaped character is read: by a short escape, by its number, or as itself. -/
def pieceOf (c : Char) : Piece :=
  if c.toNat < 0x20 ∧ c.toNat ∉ [0x08, 0x09, 0x0A, 0x0C, 0x0D] then .unit c.toNat else .char c

theorem hexValue?_hexDigit : ∀ {n : Nat}, n < 16 → hexValue? (hexDigit n) = some n := by
  decide

namespace Lexer

@[simp] theorem run_nil (st : Lexer) : run st [] = st.finish := rfl

theorem run_cons (st : Lexer) (s : Symbol) (ss : List Symbol) :
    run st (s :: ss) = (st.step s).2 ++ run (st.step s).1 ss := rfl

theorem run_escapeChar (ps : List Piece) (c : Char) (rest : List Symbol) :
    run (.text ps) (chars (escapeChar c) ++ rest) = run (.text (pieceOf c :: ps)) rest := by
  have hself : Char.ofNat c.toNat = c := Char.ofNat_toNat c
  unfold escapeChar
  split_ifs with hquote hslash hb ht hn hf hr hlow
  · subst hquote
    rfl
  · subst hslash
    rfl
  -- the short escapes
  · rw [hb] at hself
    subst hself
    rfl
  · rw [ht] at hself
    subst hself
    rfl
  · rw [hn] at hself
    subst hself
    rfl
  · rw [hf] at hself
    subst hself
    rfl
  · rw [hr] at hself
    subst hself
    rfl
  · have hpiece : pieceOf c = .unit c.toNat := by
      unfold pieceOf
      rw [if_pos]
      simp [hlow, hb, ht, hn, hf, hr]
    have hhigh := hexValue?_hexDigit (n := c.toNat / 16) (by omega)
    have hunit := hexValue?_hexDigit (n := c.toNat % 16) (by omega)
    have hvalue : 16 * (c.toNat / 16) + c.toNat % 16 = c.toNat := Nat.div_add_mod _ _
    have hzero : hexValue? '0' = some 0 := rfl
    simp [run_cons, step, hzero, hhigh, hunit, hvalue, hpiece]
  · have hpiece : pieceOf c = .char c := by
      unfold pieceOf
      rw [if_neg]
      exact fun h => hlow h.1
    simp [run_cons, step, hquote, hslash, hlow, hpiece]

theorem run_escaped (cs : List Char) :
    ∀ (ps : List Piece) (rest : List Symbol),
      run (.text ps) (chars (cs.flatMap escapeChar) ++ rest) =
        run (.text ((cs.map pieceOf).reverse ++ ps)) rest := by
  induction cs with
  | nil => intro ps rest; rfl
  | cons c cs ih =>
    intro ps rest
    rw [List.flatMap_cons, chars_append, List.append_assoc, run_escapeChar, ih]
    simp

end Lexer

theorem assemble_unit_cons {n : Nat} (hn : n < 0x20) (ps : List Piece) :
    assemble (.unit n :: ps) = (assemble ps).map (Char.ofNat n :: ·) := by
  have hlead : isLeadingSurrogate n = false := by
    simp only [isLeadingSurrogate, Bool.and_eq_false_iff, decide_eq_false_iff_not]
    omega
  have htrail : isTrailingSurrogate n = false := by
    simp only [isTrailingSurrogate, Bool.and_eq_false_iff, decide_eq_false_iff_not]
    omega
  cases ps with
  | nil => simp [assemble, hlead, htrail]
  | cons p ps =>
    cases p with
    | char => simp [assemble, hlead, htrail]
    | unit => simp [assemble, hlead, htrail]
    | invalid => simp [assemble, hlead, htrail]

/-- **The pieces of a printed string are its characters.** -/
theorem assemble_pieces (cs : List Char) : assemble (cs.map pieceOf) = some cs := by
  induction cs with
  | nil => rfl
  | cons c cs ih =>
    rw [List.map_cons, pieceOf]
    split_ifs with h
    · rw [assemble_unit_cons h.1, ih, Option.map_some, Char.ofNat_toNat]
    · rw [assemble, ih]
      rfl

theorem Lexer.run_stringText (s : String) (rest : List Symbol) :
    run .ready (chars (stringText s) ++ rest) = .text (some s) :: run .ready rest := by
  have hopen : run .ready (chars (stringText s) ++ rest) =
      run (.text []) (chars (s.toList.flatMap escapeChar) ++ .char '"' :: rest) := by
    simp only [stringText, List.cons_append, chars_cons, chars_append, chars_nil, List.append_assoc,
      List.nil_append, run_cons]
    rfl
  rw [hopen, run_escaped, run_cons]
  simp only [List.append_nil, step, if_pos, List.singleton_append, completeText,
    List.reverse_reverse, assemble_pieces, Option.map_some, String.ofList_toList]

/-! ### Numbers -/

/-- What is read where a number was written. -/
def Number.reread : Number → Option Number
  | .int i => NumberDraft.value? ⟨decide (i < 0), Nat.toDigits 10 i.natAbs, [], none, []⟩
  | .float d => some (.float d)

/-- The number is whole. -/
def Number.IsWhole : Number → Prop
  | .int _ => True
  | .float _ => False

/-- What may follow a printed value: the end, or something that cannot belong to a number. -/
def Delimited : List Symbol → Prop
  | [] => True
  | .invalid _ :: _ => False
  | .char c :: _ => c = ',' ∨ c = '\n' ∨ c = ']' ∨ c = '\x7d'

theorem isDigit_toDigits {n : Nat} {c : Char} (h : c ∈ Nat.toDigits 10 n) : isDigit c = true := by
  have hdigit := Nat.isDigit_of_mem_toDigits (by decide) (by decide) h
  simpa [isDigit, Char.isDigit, Char.le_def] using hdigit

/-- A number other than zero does not begin with a zero. -/
theorem toDigits_head {n : Nat} (hn : 0 < n) :
    ∃ c cs, Nat.toDigits 10 n = c :: cs ∧ c ≠ '0' := by
  induction n using Nat.strongRecOn with
  | ind n ih =>
    rcases Nat.lt_or_ge n 10 with hlt | hge
    · have hdigit : ∀ m < 10, 0 < m → m.digitChar ≠ '0' := by decide
      exact ⟨n.digitChar, [], Nat.toDigits_of_lt_base hlt, hdigit n hlt hn⟩
    · obtain ⟨c, cs, hcs, hc⟩ := ih (n / 10) (by omega) (by omega)
      refine ⟨c, cs ++ [(n % 10).digitChar], ?_, hc⟩
      rw [Nat.toDigits_of_base_le (by decide) hge, hcs]
      rfl

theorem mem_of_isDigit {c : Char} (h : isDigit c = true) :
    c ∈ ['0', '1', '2', '3', '4', '5', '6', '7', '8', '9'] := by
  have hself : Char.ofNat c.toNat = c := Char.ofNat_toNat c
  have hbounds : 48 ≤ c.toNat ∧ c.toNat ≤ 57 := by
    simpa [isDigit, Char.le_def, UInt32.le_iff_toNat_le] using h
  have hnumbers : ∀ n < 10, Char.ofNat (48 + n) ∈
      ['0', '1', '2', '3', '4', '5', '6', '7', '8', '9'] := by decide
  have hmem := hnumbers (c.toNat - 48) (by omega)
  rwa [Nat.add_sub_cancel' hbounds.1, hself] at hmem

namespace Lexer

theorem start_digit {c : Char} (h : isDigit c = true) (hc : c ≠ '0') :
    start (.char c) = (.number .whole ⟨false, [c], [], none, []⟩, []) := by
  have hmem := mem_of_isDigit h
  simp only [List.mem_cons, List.not_mem_nil, or_false] at hmem
  rcases hmem with rfl | rfl | rfl | rfl | rfl | rfl | rfl | rfl | rfl | rfl
  · exact absurd rfl hc
  all_goals rfl

/-- Digits extend a number that has begun. -/
theorem run_digits (ds : List Char) (hds : ∀ c ∈ ds, isDigit c = true) :
    ∀ (draft : NumberDraft) (rest : List Symbol),
      run (.number .whole draft) (chars ds ++ rest) =
        run (.number .whole { draft with whole := ds.reverse ++ draft.whole }) rest := by
  induction ds with
  | nil => intro draft rest; rfl
  | cons d ds ih =>
    intro draft rest
    have hd : isDigit d = true := hds d List.mem_cons_self
    rw [chars_cons, List.cons_append, run_cons]
    simp only [step, numberStep?, hd, if_pos, List.nil_append]
    rw [ih fun c hc => hds c (List.mem_cons_of_mem _ hc)]
    simp

/-- A number is complete where something follows that cannot belong to it. -/
theorem run_number_delimited {stage : NumberStage} (hstage : stage = .zero ∨ stage = .whole)
    (draft : NumberDraft) {rest : List Symbol} (hrest : Delimited rest) :
    run (.number stage draft) rest = completeNumber draft :: run .ready rest := by
  cases rest with
  | nil => rcases hstage with rfl | rfl <;> rfl
  | cons s ss =>
    cases s with
    | invalid => exact absurd hrest id
    | char c => rcases hstage with rfl | rfl <;> rcases hrest with rfl | rfl | rfl | rfl <;> rfl

theorem run_natText (n : Nat) {rest : List Symbol} (hrest : Delimited rest) :
    run .ready (chars (Nat.toDigits 10 n) ++ rest) =
      .number (NumberDraft.value? ⟨false, Nat.toDigits 10 n, [], none, []⟩) :: run .ready rest := by
  rcases Nat.eq_zero_or_pos n with rfl | hn
  · have hstart : run .ready (chars (Nat.toDigits 10 0) ++ rest) =
        run (.number .zero ⟨false, ['0'], [], none, []⟩) rest := rfl
    rw [hstart, run_number_delimited (.inl rfl) _ hrest]
    rfl
  · obtain ⟨c, cs, hcs, hc⟩ := toDigits_head hn
    have hdigits : ∀ d ∈ c :: cs, isDigit d = true := fun d hd => isDigit_toDigits (hcs ▸ hd)
    have hstart := start_digit (hdigits c List.mem_cons_self) hc
    rw [hcs, chars_cons, List.cons_append, run_cons]
    simp only [step, hstart, List.nil_append]
    rw [run_digits cs fun d hd => hdigits d (List.mem_cons_of_mem _ hd),
      run_number_delimited (.inr rfl) _ hrest]
    simp [completeNumber]

theorem run_numberText {n : Number} (hn : n.IsWhole) {rest : List Symbol} (hrest : Delimited rest) :
    run .ready (chars n.text ++ rest) = .number n.reread :: run .ready rest := by
  cases n with
  | float => exact absurd hn id
  | int i =>
    by_cases hi : i < 0
    · obtain ⟨c, cs, hcs, hc⟩ := toDigits_head (n := i.natAbs) (by omega)
      have hdigits : ∀ d ∈ c :: cs, isDigit d = true := fun d hd => isDigit_toDigits (hcs ▸ hd)
      have hfirst : isDigit c = true := hdigits c List.mem_cons_self
      -- the sign, then the first digit, then the others
      have hsign : run .ready (chars (Number.int i).text ++ rest) =
          run (.number .minus ⟨true, [], [], none, []⟩) (chars (c :: cs) ++ rest) := by
        rw [Number.text, if_pos hi, hcs]
        rfl
      rw [hsign, chars_cons, List.cons_append, run_cons]
      simp only [step, numberStep?, hfirst, hc, if_true, if_false, List.nil_append]
      rw [run_digits cs fun d hd => hdigits d (List.mem_cons_of_mem _ hd),
        run_number_delimited (.inr rfl) _ hrest]
      simp [completeNumber, Number.reread, hi, hcs]
    · rw [Number.text, if_neg hi, run_natText _ hrest]
      simp [Number.reread, hi]

/-! ### Whole values -/

theorem run_null (rest : List Symbol) :
    run .ready (chars "null".toList ++ rest) = .null :: run .ready rest := rfl

theorem run_boolText (b : Bool) (rest : List Symbol) :
    run .ready (chars (boolText b) ++ rest) = .bool b :: run .ready rest := by
  cases b <;> rfl

/-- Blanks leave no trace. -/
theorem run_lineBreak (level : Nat) (rest : List Symbol) :
    run .ready (chars (Value.lineBreak level) ++ rest) = run .ready rest := by
  have hspaces : ∀ n, run .ready (chars (List.replicate n ' ') ++ rest) = run .ready rest := by
    intro n
    induction n with
    | zero => rfl
    | succ n ih => exact ih
  exact hspaces (2 * level)

end Lexer

namespace Value

mutual

/-- The tokens of a value. -/
def tokens : Value → List Token
  | .null => [.null]
  | .bool b => [.bool b]
  | .num n => [.number n.reread]
  | .str s => [.text (some s)]
  | .arr items => .openArray :: (itemTokens items ++ [.closeArray])
  | .obj members => .openObject :: (memberTokens members ++ [.closeObject])

/-- The tokens of items, with commas between them. -/
def itemTokens : List Value → List Token
  | [] => []
  | [v] => tokens v
  | v :: w :: vs => tokens v ++ .comma :: itemTokens (w :: vs)

/-- The tokens of members, with commas between them. -/
def memberTokens : List (String × Value) → List Token
  | [] => []
  | [(k, v)] => .text (some k) :: .colon :: tokens v
  | (k, v) :: m :: ms => .text (some k) :: .colon :: (tokens v ++ .comma :: memberTokens (m :: ms))

end

mutual

/-- Every number of the value satisfies `p`. -/
def Numbers (p : Number → Prop) : Value → Prop
  | .null | .bool _ | .str _ => True
  | .num n => p n
  | .arr items => ItemNumbers p items
  | .obj members => MemberNumbers p members

/-- Every number of the items satisfies `p`. -/
def ItemNumbers (p : Number → Prop) : List Value → Prop
  | [] => True
  | v :: vs => Numbers p v ∧ ItemNumbers p vs

/-- Every number of the members satisfies `p`. -/
def MemberNumbers (p : Number → Prop) : List (String × Value) → Prop
  | [] => True
  | (_, v) :: ms => Numbers p v ∧ MemberNumbers p ms

end

mutual

theorem Numbers.mono {p q : Number → Prop} (h : ∀ n, p n → q n) :
    ∀ {v : Value}, v.Numbers p → v.Numbers q
  | .null, _ | .bool _, _ | .str _, _ => by rw [Numbers]; trivial
  | .num n, hv => by
    rw [Numbers] at hv ⊢
    exact h n hv
  | .arr items, hv => by
    rw [Numbers] at hv ⊢
    exact ItemNumbers.mono h hv
  | .obj members, hv => by
    rw [Numbers] at hv ⊢
    exact MemberNumbers.mono h hv

theorem ItemNumbers.mono {p q : Number → Prop} (h : ∀ n, p n → q n) :
    ∀ {vs : List Value}, ItemNumbers p vs → ItemNumbers q vs
  | [], _ => by rw [ItemNumbers]; trivial
  | v :: vs, hvs => by
    rw [ItemNumbers] at hvs ⊢
    exact ⟨Numbers.mono h hvs.1, ItemNumbers.mono h hvs.2⟩

theorem MemberNumbers.mono {p q : Number → Prop} (h : ∀ n, p n → q n) :
    ∀ {ms : List (String × Value)}, MemberNumbers p ms → MemberNumbers q ms
  | [], _ => by rw [MemberNumbers]; trivial
  | (k, v) :: ms, hms => by
    rw [MemberNumbers] at hms ⊢
    exact ⟨Numbers.mono h hms.1, MemberNumbers.mono h hms.2⟩

end

theorem itemNumbers_iff {p : Number → Prop} {vs : List Value} :
    ItemNumbers p vs ↔ ∀ v ∈ vs, v.Numbers p := by
  induction vs with
  | nil => simp [ItemNumbers]
  | cons v vs ih => simp [ItemNumbers, ih]

theorem memberNumbers_iff {p : Number → Prop} {ms : List (String × Value)} :
    MemberNumbers p ms ↔ ∀ m ∈ ms, m.2.Numbers p := by
  induction ms with
  | nil => simp [MemberNumbers]
  | cons m ms ih => simp [MemberNumbers, ih]

end Value

namespace Lexer

open Value

theorem delimited_lineBreak (level : Nat) (rest : List Symbol) :
    Delimited (chars (lineBreak level) ++ rest) := .inr (.inl rfl)

mutual

/-- **The tokens of an indented text are those of the value.** -/
theorem run_prettyAt : ∀ (v : Value) (level : Nat), v.Numbers Number.IsWhole →
    ∀ {rest : List Symbol}, Delimited rest →
      run .ready (chars (prettyAt level v) ++ rest) = v.tokens ++ run .ready rest
  | .null, level, _, rest, _ => by
    rw [prettyAt, run_null, Value.tokens]
    rfl
  | .bool b, level, _, rest, _ => by
    rw [prettyAt, run_boolText, Value.tokens]
    rfl
  | .num n, level, hv, rest, hrest => by
    rw [Numbers] at hv
    rw [prettyAt, run_numberText hv hrest, Value.tokens]
    rfl
  | .str s, level, _, rest, _ => by
    rw [prettyAt, run_stringText, Value.tokens]
    rfl
  | .arr [], level, _, rest, _ => by
    rw [prettyAt, Value.tokens, itemTokens]
    rfl
  | .arr (v :: vs), level, hv, rest, hrest => by
    rw [Numbers] at hv
    have hitems := run_prettyItems (v :: vs) (level + 1) hv
      (delimited_lineBreak level (.char ']' :: rest))
    rw [run_lineBreak] at hitems
    have hopen : run .ready (chars (prettyAt level (.arr (v :: vs))) ++ rest) =
        .openArray :: run .ready (chars (prettyItems (level + 1) (v :: vs)) ++
          (chars (lineBreak level) ++ .char ']' :: rest)) := by
      simp only [prettyAt, List.cons_append, chars_cons, chars_append, List.append_assoc]
      rfl
    rw [hopen, hitems, Value.tokens]
    simp only [List.cons_append, List.append_assoc, List.nil_append]
    rfl
  | .obj [], level, _, rest, _ => by
    rw [prettyAt, Value.tokens, memberTokens]
    rfl
  | .obj (m :: ms), level, hv, rest, hrest => by
    rw [Numbers] at hv
    have hmembers := run_prettyMembers (m :: ms) (level + 1) hv
      (delimited_lineBreak level (.char '\x7d' :: rest))
    rw [run_lineBreak] at hmembers
    have hopen : run .ready (chars (prettyAt level (.obj (m :: ms))) ++ rest) =
        .openObject :: run .ready (chars (prettyMembers (level + 1) (m :: ms)) ++
          (chars (lineBreak level) ++ .char '\x7d' :: rest)) := by
      simp only [prettyAt, List.cons_append, chars_cons, chars_append, List.append_assoc]
      rfl
    rw [hopen, hmembers, Value.tokens]
    simp only [List.cons_append, List.append_assoc, List.nil_append]
    rfl

theorem run_prettyItems : ∀ (vs : List Value) (level : Nat), ItemNumbers Number.IsWhole vs →
    ∀ {rest : List Symbol}, Delimited rest →
      run .ready (chars (prettyItems level vs) ++ rest) = itemTokens vs ++ run .ready rest
  | [], level, _, rest, _ => by
    rw [prettyItems, itemTokens]
    rfl
  | [v], level, hvs, rest, hrest => by
    rw [ItemNumbers] at hvs
    rw [prettyItems, chars_append, List.append_assoc, run_lineBreak, itemTokens,
      run_prettyAt v level hvs.1 hrest]
  | v :: w :: vs, level, hvs, rest, hrest => by
    rw [ItemNumbers] at hvs
    have hcomma : Delimited (.char ',' :: (chars (prettyItems level (w :: vs)) ++ rest)) := .inl rfl
    have hnext : run .ready (.char ',' :: (chars (prettyItems level (w :: vs)) ++ rest)) =
        .comma :: run .ready (chars (prettyItems level (w :: vs)) ++ rest) := rfl
    rw [prettyItems, itemTokens]
    simp only [chars_append, chars_cons, List.append_assoc, List.cons_append]
    rw [run_lineBreak, run_prettyAt v level hvs.1 hcomma, hnext,
      run_prettyItems (w :: vs) level hvs.2 hrest]

theorem run_prettyMembers : ∀ (ms : List (String × Value)) (level : Nat),
    MemberNumbers Number.IsWhole ms → ∀ {rest : List Symbol}, Delimited rest →
      run .ready (chars (prettyMembers level ms) ++ rest) = memberTokens ms ++ run .ready rest
  | [], level, _, rest, _ => by
    rw [prettyMembers, memberTokens]
    rfl
  | [(k, v)], level, hms, rest, hrest => by
    rw [MemberNumbers] at hms
    have hcolon : ∀ ss, run .ready (.char ':' :: .char ' ' :: ss) = .colon :: run .ready ss :=
      fun _ => rfl
    rw [prettyMembers, memberTokens]
    simp only [chars_append, chars_cons, List.append_assoc, List.cons_append]
    rw [run_lineBreak, run_stringText, hcolon, run_prettyAt v level hms.1 hrest]
  | (k, v) :: m :: ms, level, hms, rest, hrest => by
    rw [MemberNumbers] at hms
    have hcolon : ∀ ss, run .ready (.char ':' :: .char ' ' :: ss) = .colon :: run .ready ss :=
      fun _ => rfl
    have hcomma : Delimited (.char ',' :: (chars (prettyMembers level (m :: ms)) ++ rest)) :=
      .inl rfl
    have hnext : run .ready (.char ',' :: (chars (prettyMembers level (m :: ms)) ++ rest)) =
        .comma :: run .ready (chars (prettyMembers level (m :: ms)) ++ rest) := rfl
    rw [prettyMembers, memberTokens]
    simp only [chars_append, chars_cons, List.append_assoc, List.cons_append]
    rw [run_lineBreak, run_stringText, hcolon, run_prettyAt v level hms.1 hcomma, hnext,
      run_prettyMembers (m :: ms) level hms.2 hrest]

end

mutual

/-- **The tokens of a text without blanks are those of the value.** -/
theorem run_compact : ∀ (v : Value), v.Numbers Number.IsWhole → ∀ {rest : List Symbol},
    Delimited rest → run .ready (chars (compact v) ++ rest) = v.tokens ++ run .ready rest
  | .null, _, rest, _ => by
    rw [compact, run_null, Value.tokens]
    rfl
  | .bool b, _, rest, _ => by
    rw [compact, run_boolText, Value.tokens]
    rfl
  | .num n, hv, rest, hrest => by
    rw [Numbers] at hv
    rw [compact, run_numberText hv hrest, Value.tokens]
    rfl
  | .str s, _, rest, _ => by
    rw [compact, run_stringText, Value.tokens]
    rfl
  | .arr items, hv, rest, _ => by
    rw [Numbers] at hv
    have hclose : Delimited (.char ']' :: rest) := .inr (.inr (.inl rfl))
    have hopen : run .ready (chars (compact (.arr items)) ++ rest) =
        .openArray :: run .ready (chars (compactItems items) ++ .char ']' :: rest) := by
      simp only [compact, List.cons_append, chars_cons, chars_append, List.append_assoc]
      rfl
    rw [hopen, run_compactItems items hv hclose, Value.tokens]
    simp only [List.cons_append, List.append_assoc, List.nil_append]
    rfl
  | .obj members, hv, rest, _ => by
    rw [Numbers] at hv
    have hclose : Delimited (.char '\x7d' :: rest) := .inr (.inr (.inr rfl))
    have hopen : run .ready (chars (compact (.obj members)) ++ rest) =
        .openObject :: run .ready (chars (compactMembers members) ++ .char '\x7d' :: rest) := by
      simp only [compact, List.cons_append, chars_cons, chars_append, List.append_assoc]
      rfl
    rw [hopen, run_compactMembers members hv hclose, Value.tokens]
    simp only [List.cons_append, List.append_assoc, List.nil_append]
    rfl

theorem run_compactItems : ∀ (vs : List Value), ItemNumbers Number.IsWhole vs →
    ∀ {rest : List Symbol}, Delimited rest →
      run .ready (chars (compactItems vs) ++ rest) = itemTokens vs ++ run .ready rest
  | [], _, rest, _ => by
    rw [compactItems, itemTokens]
    rfl
  | [v], hvs, rest, hrest => by
    rw [ItemNumbers] at hvs
    rw [compactItems, itemTokens, run_compact v hvs.1 hrest]
  | v :: w :: vs, hvs, rest, hrest => by
    rw [ItemNumbers] at hvs
    have hcomma : Delimited (.char ',' :: (chars (compactItems (w :: vs)) ++ rest)) := .inl rfl
    have hnext : run .ready (.char ',' :: (chars (compactItems (w :: vs)) ++ rest)) =
        .comma :: run .ready (chars (compactItems (w :: vs)) ++ rest) := rfl
    rw [compactItems, itemTokens]
    simp only [chars_append, chars_cons, List.append_assoc, List.cons_append]
    rw [run_compact v hvs.1 hcomma, hnext, run_compactItems (w :: vs) hvs.2 hrest]

theorem run_compactMembers : ∀ (ms : List (String × Value)), MemberNumbers Number.IsWhole ms →
    ∀ {rest : List Symbol}, Delimited rest →
      run .ready (chars (compactMembers ms) ++ rest) = memberTokens ms ++ run .ready rest
  | [], _, rest, _ => by
    rw [compactMembers, memberTokens]
    rfl
  | [(k, v)], hms, rest, hrest => by
    rw [MemberNumbers] at hms
    have hcolon : ∀ ss, run .ready (.char ':' :: ss) = .colon :: run .ready ss := fun _ => rfl
    rw [compactMembers, memberTokens]
    simp only [chars_append, chars_cons, List.append_assoc, List.cons_append]
    rw [run_stringText, hcolon, run_compact v hms.1 hrest]
  | (k, v) :: m :: ms, hms, rest, hrest => by
    rw [MemberNumbers] at hms
    have hcolon : ∀ ss, run .ready (.char ':' :: ss) = .colon :: run .ready ss := fun _ => rfl
    have hcomma : Delimited (.char ',' :: (chars (compactMembers (m :: ms)) ++ rest)) := .inl rfl
    have hnext : run .ready (.char ',' :: (chars (compactMembers (m :: ms)) ++ rest)) =
        .comma :: run .ready (chars (compactMembers (m :: ms)) ++ rest) := rfl
    rw [compactMembers, memberTokens]
    simp only [chars_append, chars_cons, List.append_assoc, List.cons_append]
    rw [run_stringText, hcolon, run_compact v hms.1 hcomma, hnext,
      run_compactMembers (m :: ms) hms.2 hrest]

end

end Lexer

end ReviewPanel.Json
