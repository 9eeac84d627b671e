import ReviewPanel.Number.Double

/-!
# Shortest decimals

A double is written with the fewest significant digits that read back to it, the nearest such
decimal of that length, and the even one of two equally near.

`Magnitude.shortest` finds the digits: for `1, 2, …, 17` digits it tests the two neighbours of the
value on that decimal grid against the interval of reals that round to the double.  `Double.text`
lays them out: plain notation while the decimal point falls between five places before the first
digit and sixteen after it, with `.0` behind a whole number, and otherwise one digit before the
point and a signed exponent.
-/

namespace ReviewPanel

/-- A decimal `digits · 10 ^ exponent`. -/
structure Decimal where
  /-- The significant digits as one number. -/
  digits : Nat
  /-- The power of ten of the last digit. -/
  exponent : Int
deriving DecidableEq, Repr

namespace Decimal

/-- The value as a fraction. -/
def ratio (d : Decimal) : Nat × Nat :=
  if 0 ≤ d.exponent then (d.digits * Nat.pow 10 d.exponent.toNat, 1)
  else (d.digits, Nat.pow 10 (-d.exponent).toNat)

end Decimal

/-- Order of two fractions with positive denominators. -/
def fractionLe (a b : Nat × Nat) : Bool := a.1 * b.2 ≤ b.1 * a.2

namespace Magnitude

/-- The reals that round to a double: its ends, and whether they belong to it. -/
structure Interval where
  /-- The lower end. -/
  low : Nat × Nat
  /-- The upper end. -/
  high : Nat × Nat
  /-- The ends round to the double too. -/
  closed : Bool

/-- The reals that round to `x`; below a power of two doubles are twice as dense. -/
def interval (x : Magnitude) : Interval :=
  let quarter : Nat × Nat := (Magnitude.mk 1 (x.exponent - 2)).ratio
  let below := if x.mantissa = leadingBit ∧ minExponent < x.exponent then 1 else 2
  { low := ((4 * x.mantissa - below) * quarter.1, quarter.2)
    high := ((4 * x.mantissa + 2) * quarter.1, quarter.2)
    closed := x.mantissa % 2 = 0 }

/-- The decimal reads back to the double. -/
def Interval.contains (i : Interval) (d : Decimal) : Bool :=
  if i.closed then fractionLe i.low d.ratio && fractionLe d.ratio i.high
  else !fractionLe d.ratio i.low && !fractionLe i.high d.ratio

/-- The least `k` with `num / den < 10 ^ k`. -/
def pointPosition (num den : Nat) : Int :=
  if den ≤ num then (Nat.toDigits 10 (num / den)).length
  else -(((List.range 400).find? fun j => den ≤ num * Nat.pow 10 (j + 1)).getD 400 : Nat)

/-- The neighbours of `num / den` among the multiples of `10 ^ exponent`, the nearer one first;
of two equally near ones the even one. -/
def neighbours (num den : Nat) (exponent : Int) : List Decimal :=
  let scaled : Nat × Nat :=
    if 0 ≤ exponent then (num, den * Nat.pow 10 exponent.toNat)
    else (num * Nat.pow 10 (-exponent).toNat, den)
  let near := roundHalfEven scaled.1 scaled.2
  let floor := scaled.1 / scaled.2
  let far := if near = floor then floor + 1 else floor
  [⟨near, exponent⟩, ⟨far, exponent⟩]

/-- The shortest decimal that reads back to `x`. -/
def shortest (x : Magnitude) : Decimal :=
  let v := x.ratio
  let point := pointPosition v.1 v.2
  let i := x.interval
  ((List.range 17).findSome? fun n =>
    (neighbours v.1 v.2 (point - (n + 1 : Nat))).find? i.contains).getD ⟨0, 0⟩

end Magnitude

namespace Decimal

/-- Moves trailing zeros of the digits into the exponent. -/
def strip (fuel : Nat) (d : Decimal) : Decimal :=
  match fuel with
  | 0 => d
  | fuel + 1 => if d.digits % 10 = 0 ∧ d.digits ≠ 0 then strip fuel ⟨d.digits / 10, d.exponent + 1⟩
    else d

/-- Plain or exponent notation of the digits. -/
def layout (d : Decimal) : List Char :=
  let digits := Nat.toDigits 10 d.digits
  let point := digits.length + d.exponent
  if 0 ≤ d.exponent ∧ point ≤ 16 then
    digits ++ List.replicate d.exponent.toNat '0' ++ ['.', '0']
  else if 0 < point ∧ point ≤ 16 then
    digits.take point.toNat ++ '.' :: digits.drop point.toNat
  else if -5 < point ∧ point ≤ 0 then
    ['0', '.'] ++ List.replicate (-point).toNat '0' ++ digits
  else
    let power := point - 1
    let fraction := if digits.length ≤ 1 then [] else '.' :: digits.drop 1
    let sign := if power < 0 then '-' else '+'
    digits.take 1 ++ fraction ++ 'e' :: sign :: Nat.toDigits 10 power.natAbs

end Decimal

namespace Double

/-- The shortest text of a double. -/
def text (x : Double) : List Char :=
  let body := if x.size.mantissa = 0 then ['0', '.', '0'] else (x.size.shortest.strip 20).layout
  if x.negative then '-' :: body else body

end Double

end ReviewPanel
