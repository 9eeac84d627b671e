import ReviewPanel.Proofs.Json.Recovery
import ReviewPanel.Timestamp

/-!
# Timestamps read back

The written form of a timestamp in the calendar is read as the timestamp itself.  Each part of the
form is read by its own function, which takes the part and leaves the rest; a number ends where no digit
follows (`Timestamp.EndsDigits`).

## Main definitions

* `Timestamp.Valid` : the date is in the calendar and the time on the clock.

## Main statements

* `Timestamp.parse_text` : **reading the written form gives the timestamp.**
-/

namespace ReviewPanel.Timestamp

open Json (isDigit digitsValue)

/-- The date is in the calendar and the time is on the clock. -/
structure Valid (t : Timestamp) : Prop where
  year : minYear ≤ t.year ∧ t.year ≤ maxYear
  month : 1 ≤ t.month ∧ t.month ≤ 12
  day : 1 ≤ t.day ∧ t.day ≤ daysInMonth t.year t.month
  hour : t.hour ≤ 23
  minute : t.minute ≤ 59
  second : t.second ≤ 60
  nano : t.nano < 1000000000

instance (t : Timestamp) : Decidable t.Valid :=
  decidable_of_iff
    ((minYear ≤ t.year ∧ t.year ≤ maxYear) ∧ (1 ≤ t.month ∧ t.month ≤ 12) ∧
      (1 ≤ t.day ∧ t.day ≤ daysInMonth t.year t.month) ∧ t.hour ≤ 23 ∧ t.minute ≤ 59 ∧
      t.second ≤ 60 ∧ t.nano < 1000000000)
    ⟨fun ⟨hy, hm, hd, hh, hmin, hs, hn⟩ => ⟨hy, hm, hd, hh, hmin, hs, hn⟩,
      fun h => ⟨h.year, h.month, h.day, h.hour, h.minute, h.second, h.nano⟩⟩

/-! ### Padded numbers -/

theorem isDigit_padded {width n : Nat} {c : Char} (h : c ∈ padded width n) : isDigit c = true := by
  rcases List.mem_append.1 h with h | h
  · rw [List.eq_of_mem_replicate h]
    decide
  · exact Json.isDigit_toDigits h

theorem padded_ne_nil (width n : Nat) : padded width n ≠ [] := by
  simp [padded]

theorem digitsValue_padded (width n : Nat) : digitsValue (padded width n) = n := by
  have hzeros : ∀ (k : Nat) (ds : List Char),
      digitsValue (List.replicate k '0' ++ ds) = digitsValue ds := by
    intro k ds
    induction k with
    | zero => rfl
    | succ k ih => exact ih
  rw [padded, hzeros, Json.digitsValue_toDigits]

theorem length_padded {width n : Nat} (hwidth : 0 < width) (h : n < 10 ^ width) :
    (padded width n).length = width := by
  have hlen := (Nat.length_toDigits_le_iff (by decide) hwidth).2 h
  simp only [padded, List.length_append, List.length_replicate]
  omega

/-! ### Numbers -/

/-- No digit follows. -/
def EndsDigits (rest : List Char) : Prop := ∀ c ∈ rest.head?, isDigit c = false

theorem EndsDigits.takeWhile {rest : List Char} (h : EndsDigits rest) :
    rest.takeWhile isDigit = [] := by
  cases rest with
  | nil => rfl
  | cons c cs => rw [List.takeWhile_cons, h c rfl]; rfl

theorem EndsDigits.take {rest : List Char} (h : EndsDigits rest) (n : Nat) :
    EndsDigits (rest.take n) := by
  cases n with
  | zero => intro c hc; cases hc
  | succ n =>
    cases rest with
    | nil => exact h
    | cons c cs => exact h

/-- **A number takes its digits** and leaves the rest. -/
theorem number_digits {max : Option Nat} {ds rest : List Char} (hne : ds ≠ [])
    (hds : ∀ c ∈ ds, isDigit c = true) (hrest : EndsDigits rest)
    (hmax : ∀ n ∈ max, ds.length ≤ n) (hvalue : digitsValue ds ≤ maxNumber) :
    number max (ds ++ rest) = .ok (digitsValue ds, rest) := by
  obtain ⟨c, cs, rfl⟩ := List.exists_cons_of_ne_nil hne
  -- what is looked at begins with these digits and has no more of them
  have hall : ∀ rest', EndsDigits rest' → (c :: cs ++ rest').takeWhile isDigit = c :: cs := by
    intro rest' hrest'
    rw [List.takeWhile_append_of_pos hds, hrest'.takeWhile, List.append_nil]
  have hsmall : ¬ maxNumber < digitsValue (c :: cs) := Nat.not_lt.2 hvalue
  cases max with
  | none =>
    simp only [number]
    rw [hall rest hrest]
    simp only [List.cons_append, if_neg hsmall, List.length_cons, List.drop_succ_cons, List.drop_left]
  | some n =>
    simp only [number]
    rw [List.take_append, List.take_of_length_le (hmax n rfl), hall _ (hrest.take _)]
    simp only [List.cons_append, if_neg hsmall, List.length_cons, List.drop_succ_cons, List.drop_left]

theorem number_padded {max : Option Nat} (width : Nat) {n : Nat} {rest : List Char}
    (hrest : EndsDigits rest) (hmax : ∀ k ∈ max, (padded width n).length ≤ k)
    (hn : n < 1000000000) : number max (padded width n ++ rest) = .ok (n, rest) := by
  have hvalue := digitsValue_padded width n
  have hsmall : digitsValue (padded width n) ≤ maxNumber := by
    rw [hvalue, maxNumber]
    omega
  rw [number_digits (padded_ne_nil width n) (fun _ => isDigit_padded) hrest hmax hsmall, hvalue]

theorem isWhite_of_isDigit {c : Char} (h : isDigit c = true) : Text.isWhite c = false := by
  have hdigits : ∀ d ∈ ['0', '1', '2', '3', '4', '5', '6', '7', '8', '9'], Text.isWhite d = false := by
    simp [Text.isWhite]
  exact hdigits c (Json.mem_of_isDigit h)

theorem trimStart_padded (width n : Nat) (rest : List Char) :
    Text.trimStart (padded width n ++ rest) = padded width n ++ rest := by
  obtain ⟨c, cs, hcs⟩ := List.exists_cons_of_ne_nil (padded_ne_nil width n)
  have hc : isDigit c = true := isDigit_padded (hcs ▸ List.mem_cons_self)
  rw [hcs, List.cons_append, Text.trimStart, List.dropWhile_cons, isWhite_of_isDigit hc]
  rfl

theorem numberIn_padded {low high n : Nat} (hlow : low ≤ n) (hhigh : n ≤ high) (hn : high < 100)
    {rest : List Char} (hrest : EndsDigits rest) :
    numberIn low high (padded 2 n ++ rest) = .ok (n, rest) := by
  have hlength : (padded 2 n).length = 2 := length_padded (by decide) (hhigh.trans_lt hn)
  have hnumber : number (some 2) (padded 2 n ++ rest) = .ok (n, rest) :=
    number_padded 2 hrest (fun k hk => by rw [hlength, Option.mem_some.1 hk]) (by omega)
  rw [numberIn, trimStart_padded, hnumber]
  simp only [bind, Except.bind, hlow, hhigh, and_self, if_true]
  rfl

theorem yearNumber_yearText {y : Int} (hlow : minYear ≤ y) (hhigh : y ≤ maxYear) {rest : List Char}
    (hrest : EndsDigits rest) : yearNumber (yearText y ++ rest) = .ok (y, rest) := by
  rw [minYear] at hlow
  rw [maxYear] at hhigh
  have hrange : -2147483648 ≤ y ∧ y ≤ 2147483647 := by omega
  by_cases hplain : 0 ≤ y ∧ y ≤ 9999
  · have hlength : (padded 4 y.toNat).length = 4 := length_padded (by decide) (by omega)
    have hnumber : number (some 4) (padded 4 y.toNat ++ rest) = .ok (y.toNat, rest) :=
      number_padded 4 hrest (fun k hk => by rw [hlength, Option.mem_some.1 hk]) (by omega)
    have hhead : ∀ {c cs}, padded 4 y.toNat ++ rest = c :: cs → isDigit c = true := by
      intro c cs hcs
      obtain ⟨d, ds, hds⟩ := List.exists_cons_of_ne_nil (padded_ne_nil 4 y.toNat)
      rw [hds, List.cons_append, List.cons.injEq] at hcs
      exact hcs.1 ▸ isDigit_padded (hds ▸ List.mem_cons_self)
    rw [yearText, if_pos hplain, yearNumber, trimStart_padded]
    split
    · rename_i hcs
      exact absurd (hhead hcs) (by decide)
    · rename_i hcs
      exact absurd (hhead hcs) (by decide)
    · have hy : ((y.toNat : Nat) : Int) = y := by omega
      rw [hnumber]
      simp only [bind, Except.bind, pure, Except.pure, hy, if_pos hrange]
  · have hnumber : number none (padded 4 y.natAbs ++ rest) = .ok (y.natAbs, rest) :=
      number_padded 4 hrest (fun k hk => by cases hk) (by omega)
    rw [yearText, if_neg hplain, List.cons_append]
    by_cases hneg : y < 0
    · have hy : -(y.natAbs : Int) = y := by omega
      have htrim : ∀ cs, Text.trimStart ('-' :: cs) = '-' :: cs := fun _ => rfl
      rw [if_pos hneg, yearNumber, htrim]
      simp only [hnumber, bind, Except.bind, pure, Except.pure, hy, if_pos hrange]
    · have hy : (y.natAbs : Int) = y := by omega
      have htrim : ∀ cs, Text.trimStart ('+' :: cs) = '+' :: cs := fun _ => rfl
      rw [if_neg hneg, yearNumber, htrim]
      simp only [hnumber, bind, Except.bind, pure, Except.pure, hy, if_pos hrange]

theorem nanos_fractionText {nano : Nat} (h : nano < 1000000000) (rest : List Char) :
    nanos (fractionText nano ++ 'Z' :: rest) = .ok (nano, 'Z' :: rest) := by
  have hrest : EndsDigits ('Z' :: rest) := by
    rintro c ⟨rfl⟩
    decide
  -- a fraction of `width` digits counts in units of its own
  have hdigits : ∀ {width n : Nat}, 0 < width → width ≤ 9 → n < 10 ^ width →
      n * 10 ^ (9 - width) = nano →
      nanos ('.' :: padded width n ++ 'Z' :: rest) = .ok (nano, 'Z' :: rest) := by
    intro width n hpos hwidth hn hnano
    have hlength : (padded width n).length = width := length_padded hpos hn
    have hsmall : n < 1000000000 := hn.trans_le (Nat.pow_le_pow_right (by decide) hwidth)
    have hnumber : number (some 9) (padded width n ++ 'Z' :: rest) = .ok (n, 'Z' :: rest) :=
      number_padded width hrest (fun k hk => by rw [hlength, ← Option.mem_some.1 hk]; exact hwidth)
        hsmall
    have hused : (padded width n ++ 'Z' :: rest).length - ('Z' :: rest).length = width := by
      rw [List.length_append, hlength]
      omega
    simp only [List.cons_append, nanos, hnumber, bind, Except.bind, hused]
    exact congrArg (fun m => Except.ok (m, 'Z' :: rest)) hnano
  unfold fractionText
  split_ifs with hzero hmilli hmicro
  · rw [hzero]
    rfl
  · exact hdigits (by decide) (by decide) (by omega) (by omega)
  · exact hdigits (by decide) (by decide) (by omega) (by omega)
  · exact hdigits (by decide) (by decide) (by omega) (by omega)

theorem daysInMonth_le (y : Int) (m : Nat) : daysInMonth y m ≤ 31 := by
  unfold daysInMonth
  split_ifs <;> omega

/-- At no offset the local time is the time. -/
theorem resolve_zero {t : Timestamp} (h : t.Valid) : resolve t 0 = .ok t := by
  have hhour := h.hour
  have hminute := h.minute
  have hsame : t.minusMinutes 0 = t := by
    have htime : (((t.hour * 60 + t.minute : Nat) : Int) - 0).emod 1440 =
        (t.hour * 60 + t.minute : Nat) := by
      rw [Int.sub_zero]
      exact Int.emod_eq_of_lt (by omega) (by omega)
    have hh : (((t.hour * 60 + t.minute : Nat) : Int) / 60).toNat = t.hour := by omega
    have hm : (((t.hour * 60 + t.minute : Nat) : Int) % 60).toNat = t.minute := by omega
    simp only [minusMinutes, htime, hh, hm]
    rw [if_neg (by omega), if_neg (by omega)]
  rw [resolve, if_neg (not_not.2 ⟨h.year.1, h.year.2, h.day.2⟩), if_neg (by decide), hsame]
  exact if_pos h.year

theorem mark_cons {c : Char} (hc : Text.isWhite c = false) (rest : List Char) :
    mark c (c :: rest) = .ok rest := by
  rw [mark, Text.trimStart, List.dropWhile_cons, hc]
  exact if_pos rfl

/-- **Reading the written form gives the timestamp.** -/
theorem parse_text {t : Timestamp} (h : t.Valid) : parse (String.ofList t.text) = .ok t := by
  have hday31 := h.day.2.trans (daysInMonth_le t.year t.month)
  have hmark : ∀ {c : Char} {rest : List Char}, isDigit c = false → EndsDigits (c :: rest) := by
    rintro c rest hc _ ⟨rfl⟩
    exact hc
  have hyear : ∀ rest, yearNumber (yearText t.year ++ '-' :: rest) = .ok (t.year, '-' :: rest) :=
    fun _ => yearNumber_yearText h.year.1 h.year.2 (hmark (by decide))
  have hmonth : ∀ rest, numberIn 1 12 (padded 2 t.month ++ '-' :: rest) = .ok (t.month, '-' :: rest) :=
    fun _ => numberIn_padded h.month.1 h.month.2 (by decide) (hmark (by decide))
  have hday : ∀ rest, numberIn 1 31 (padded 2 t.day ++ 'T' :: rest) = .ok (t.day, 'T' :: rest) :=
    fun _ => numberIn_padded h.day.1 hday31 (by decide) (hmark (by decide))
  have hhour : ∀ rest, numberIn 0 23 (padded 2 t.hour ++ ':' :: rest) = .ok (t.hour, ':' :: rest) :=
    fun _ => numberIn_padded (Nat.zero_le _) h.hour (by decide) (hmark (by decide))
  have hminute : ∀ rest,
      numberIn 0 59 (padded 2 t.minute ++ ':' :: rest) = .ok (t.minute, ':' :: rest) :=
    fun _ => numberIn_padded (Nat.zero_le _) h.minute (by decide) (hmark (by decide))
  have hsecond : numberIn 0 60 (padded 2 t.second ++ (fractionText t.nano ++ ['Z'])) =
      .ok (t.second, fractionText t.nano ++ ['Z']) := by
    refine numberIn_padded (Nat.zero_le _) h.second (by decide) ?_
    unfold fractionText
    split_ifs <;> exact hmark (by decide)
  have hoffset : offset (Text.trimStart ['Z']) = .ok (0, []) := rfl
  have hdash : ∀ rest, mark '-' ('-' :: rest) = .ok rest := mark_cons rfl
  have hcolon : ∀ rest, mark ':' (':' :: rest) = .ok rest := mark_cons rfl
  simp only [parse, String.toList_ofList, text, List.append_assoc, List.cons_append, bind, Except.bind,
    hyear, hdash, hmonth, hday, pure, Except.pure, true_or, if_true, hhour, hcolon, hminute, hsecond,
    nanos_fractionText h.nano, hoffset]
  exact resolve_zero h

theorem recovers_toValue {t : Timestamp} (h : t.Valid) : reader.Recovers t.toValue t := by
  have hreads : reader.Reads t.toValue t := fun o => by
    rw [toValue, Json.Document.ofValue, reader, Json.Reader.stringAs]
    simp only [parse_text h]
  refine ⟨hreads, ?_, ?_⟩
  · rw [toValue, Json.Value.canonical]
    exact hreads
  · rw [toValue, Json.Value.Numbers]
    trivial

end ReviewPanel.Timestamp
