/-!
# Double-precision numbers

A finite double is `± m · 2 ^ e` with `m < 2 ^ 53` and `-1074 ≤ e ≤ 971`, in its canonical form:
`m` has 53 bits unless `e` is least.  All arithmetic is exact arithmetic on natural numbers
followed by one rounding to the nearest double, ties to even (`Magnitude.nearest`).

A decimal is read in two roundings (`Double.ofDecimal`): its significand becomes a double, which
is then multiplied or divided by the double nearest to the power of ten.
-/

namespace ReviewPanel

/-- The size of a finite double: `mantissa · 2 ^ exponent`. -/
structure Magnitude where
  /-- Fewer than 54 bits. -/
  mantissa : Nat
  /-- The power of two of the last bit. -/
  exponent : Int
deriving DecidableEq, Repr

/-- A finite double; the two zeros are different. -/
structure Double where
  /-- The sign bit. -/
  negative : Bool
  /-- The absolute value. -/
  size : Magnitude
deriving DecidableEq, Repr

/-- The natural number nearest to `num / den`, the even one of two. -/
def roundHalfEven (num den : Nat) : Nat :=
  let q := num / den
  let r := num % den
  if 2 * r < den then q
  else if den < 2 * r then q + 1
  else if q % 2 = 0 then q else q + 1

namespace Magnitude

/-- The power of two of the last bit of a subnormal number. -/
def minExponent : Int := -1074

/-- The power of two of the last bit of the largest numbers. -/
def maxExponent : Int := 971

/-- The first of the 53 bits of a mantissa, `2 ^ 52`. -/
def leadingBit : Nat := 4503599627370496

/-- Zero. -/
def zero : Magnitude := ⟨0, minExponent⟩

/-- `num / den` in units of `2 ^ e`, as a fraction. -/
def inUnits (num den : Nat) (e : Int) : Nat × Nat :=
  if 0 ≤ e then (num, den * Nat.pow 2 e.toNat) else (num * Nat.pow 2 (-e).toNat, den)

/-- The double nearest to `num / den`; `none` beyond the largest. -/
def nearest (num den : Nat) : Option Magnitude :=
  if num = 0 then some zero
  else
    let low : Int := (num.log2 : Int) - (den.log2 : Int) - 53
    let whole := inUnits num den low
    let fit := if whole.1 / whole.2 < 2 * leadingBit then low else low + 1
    let e := max minExponent fit
    let units := inUnits num den e
    let m := roundHalfEven units.1 units.2
    let r : Magnitude := if m = 2 * leadingBit then ⟨leadingBit, e + 1⟩ else ⟨m, e⟩
    if r.exponent ≤ maxExponent then some r else none

/-- The value as a fraction. -/
def ratio (x : Magnitude) : Nat × Nat :=
  if 0 ≤ x.exponent then (x.mantissa * Nat.pow 2 x.exponent.toNat, 1)
  else (x.mantissa, Nat.pow 2 (-x.exponent).toNat)

/-- The rounded product. -/
def mul (x y : Magnitude) : Option Magnitude :=
  nearest (x.ratio.1 * y.ratio.1) (x.ratio.2 * y.ratio.2)

/-- The rounded quotient by a number that is not zero. -/
def div (x y : Magnitude) : Option Magnitude :=
  nearest (x.ratio.1 * y.ratio.2) (x.ratio.2 * y.ratio.1)

/-- The double nearest to `10 ^ k`. -/
def powerOfTen (k : Nat) : Option Magnitude := nearest (Nat.pow 10 k) 1

/-- The largest power of ten that is a double. -/
def maxPower : Nat := 308

/-- `x · 10 ^ k`; `none` beyond the largest double. -/
def scaleUp (x : Magnitude) (k : Nat) : Option Magnitude :=
  if k ≤ maxPower then (powerOfTen k).bind x.mul
  else if x.mantissa = 0 then some x else none

/-- `x / 10 ^ k`, by the largest power of ten at a time. -/
def scaleDown (x : Magnitude) (k : Nat) : Option Magnitude :=
  if k ≤ maxPower then (powerOfTen k).bind x.div
  else if x.mantissa = 0 then some x
  else ((powerOfTen maxPower).bind x.div).bind fun y => scaleDown y (k - maxPower)
termination_by k
decreasing_by simp only [maxPower] at *; omega

end Magnitude

namespace Double

/-- The double read for `± significand · 10 ^ exponent`; `none` beyond the largest. -/
def ofDecimal (negative : Bool) (significand : Nat) (exponent : Int) : Option Double :=
  ((Magnitude.nearest significand 1).bind fun x =>
    if 0 ≤ exponent then x.scaleUp exponent.toNat else x.scaleDown (-exponent).toNat).map
    (Double.mk negative)

end Double

end ReviewPanel
