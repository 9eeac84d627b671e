import ReviewPanel.Json.Record
import ReviewPanel.Text.Blank

/-!
# Timestamps

A timestamp is a civil date and time in UTC to the nanosecond; a leap second is the second `60` of
any minute.  It is written as RFC 3339 with `Z` and with 0, 3, 6 or 9 digits behind the seconds, the
fewest that are exact.

Reading accepts more than is written: any offset, `T`, `t` or a space between date and time, white
space before numbers, hyphens, colons and the offset, a sign before the year, fewer than two digits,
and more than nine digits behind the seconds, of which nine count.

## Main definitions

* `Timestamp.text` : the written form.
* `Timestamp.parse` : reads a text, or names what is wrong with it first.
-/

namespace ReviewPanel

/-- A point in time, UTC. -/
structure Timestamp where
  year : Int
  month : Nat
  day : Nat
  hour : Nat
  minute : Nat
  /-- At most 60; 60 is a leap second. -/
  second : Nat
  nano : Nat
deriving DecidableEq, Repr

namespace Timestamp

/-! ### The calendar -/

/-- A leap year of the Gregorian calendar. -/
def isLeapYear (y : Int) : Bool := y % 4 = 0 && (y % 100 ≠ 0 || y % 400 = 0)

/-- Number of days of a month. -/
def daysInMonth (y : Int) (m : Nat) : Nat :=
  if m = 2 then (if isLeapYear y then 29 else 28)
  else if m = 4 ∨ m = 6 ∨ m = 9 ∨ m = 11 then 30
  else 31

/-- The first year of the calendar. -/
def minYear : Int := -262143

/-- The last year of the calendar. -/
def maxYear : Int := 262142

/-- The same time on the next day. -/
def nextDay (t : Timestamp) : Timestamp :=
  if t.day < daysInMonth t.year t.month then { t with day := t.day + 1 }
  else if t.month < 12 then { t with month := t.month + 1, day := 1 }
  else { t with year := t.year + 1, month := 1, day := 1 }

/-- The same time on the day before. -/
def previousDay (t : Timestamp) : Timestamp :=
  if 1 < t.day then { t with day := t.day - 1 }
  else if 1 < t.month then
    { t with month := t.month - 1, day := daysInMonth t.year (t.month - 1) }
  else { t with year := t.year - 1, month := 12, day := 31 }

/-- The timestamp `minutes` before this one, less than a day in either direction. -/
def minusMinutes (t : Timestamp) (minutes : Int) : Timestamp :=
  let m := (t.hour * 60 + t.minute : Nat) - minutes
  let time := m.emod 1440
  let shifted := if m < 0 then t.previousDay else if 1440 ≤ m then t.nextDay else t
  { shifted with hour := (time / 60).toNat, minute := (time % 60).toNat }

/-- The timestamp so many seconds and nanoseconds after the beginning of 1970. -/
def ofSeconds (seconds nano : Nat) : Timestamp :=
  let midnight := Nat.repeat nextDay (seconds / 86400) ⟨1970, 1, 1, 0, 0, 0, 0⟩
  let rest := seconds % 86400
  { midnight with hour := rest / 3600, minute := rest / 60 % 60, second := rest % 60, nano }

/-! ### The written form -/

/-- A number with leading zeros up to a width. -/
def padded (width n : Nat) : List Char :=
  let ds := Nat.toDigits 10 n
  List.replicate (width - ds.length) '0' ++ ds

/-- A year of four digits, or a sign and at least four. -/
def yearText (y : Int) : List Char :=
  if 0 ≤ y ∧ y ≤ 9999 then padded 4 y.toNat
  else (if y < 0 then '-' else '+') :: padded 4 y.natAbs

/-- The digits behind the seconds. -/
def fractionText (nano : Nat) : List Char :=
  if nano = 0 then []
  else if nano % 1000000 = 0 then '.' :: padded 3 (nano / 1000000)
  else if nano % 1000 = 0 then '.' :: padded 6 (nano / 1000)
  else '.' :: padded 9 nano

/-- The written form. -/
def text (t : Timestamp) : List Char :=
  yearText t.year ++ '-' :: padded 2 t.month ++ '-' :: padded 2 t.day ++ 'T' :: padded 2 t.hour ++
    ':' :: padded 2 t.minute ++ ':' :: padded 2 t.second ++ fractionText t.nano ++ ['Z']

/-! ### Reading -/

/-- Why a text is no timestamp. -/
inductive ParseError where
  /-- A number does not fit its place. -/
  | outOfRange
  /-- The offset leads out of the calendar. -/
  | impossible
  /-- A character does not belong there. -/
  | invalid
  /-- The text ends too early. -/
  | tooShort
  /-- More text follows. -/
  | tooLong
deriving DecidableEq, Repr

/-- The wording of a parse error. -/
def ParseError.message : ParseError → String
  | .outOfRange => "input is out of range"
  | .impossible => "no possible date and time matching input"
  | .invalid => "input contains invalid characters"
  | .tooShort => "premature end of input"
  | .tooLong => "trailing input"

/-- Numbers have at most 63 bits. -/
def maxNumber : Nat := 9223372036854775807

/-- A number of one to `max` digits, or of any length. -/
def number (max : Option Nat) (cs : List Char) : Except ParseError (Nat × List Char) :=
  let window := match max with
    | some n => cs.take n
    | none => cs
  let ds := window.takeWhile Json.isDigit
  match cs, ds with
  | [], _ => .error .tooShort
  | _, [] => .error .invalid
  | cs, ds =>
    let n := Json.digitsValue ds
    if maxNumber < n then .error .outOfRange else .ok (n, cs.drop ds.length)

/-- A number between two bounds, after white space. -/
def numberIn (low high : Nat) (cs : List Char) : Except ParseError (Nat × List Char) := do
  let (n, rest) ← number (some 2) (Text.trimStart cs)
  if low ≤ n ∧ n ≤ high then return (n, rest) else throw .outOfRange

/-- A year, of four digits at most unless it has a sign. -/
def yearNumber (cs : List Char) : Except ParseError (Int × List Char) := do
  let (y, rest) ← match Text.trimStart cs with
    | '-' :: cs => do
      let (n, rest) ← number none cs
      pure (-(n : Int), rest)
    | '+' :: cs => do
      let (n, rest) ← number none cs
      pure ((n : Int), rest)
    | cs => do
      let (n, rest) ← number (some 4) cs
      pure ((n : Int), rest)
  if -2147483648 ≤ y ∧ y ≤ 2147483647 then return (y, rest) else throw .outOfRange

/-- One character, after white space. -/
def mark (c : Char) (cs : List Char) : Except ParseError (List Char) :=
  match Text.trimStart cs with
  | [] => .error .tooShort
  | d :: rest => if d = c then .ok rest else .error .invalid

/-- The digits behind the seconds, if there is a point. -/
def nanos (cs : List Char) : Except ParseError (Nat × List Char) :=
  match cs with
  | '.' :: cs => do
    let (n, rest) ← number (some 9) cs
    let used := cs.length - rest.length
    return (n * Nat.pow 10 (9 - used), rest.dropWhile Json.isDigit)
  | cs => .ok (0, cs)

/-- Two digits of an offset. -/
def twoDigits (cs : List Char) : Except ParseError (Nat × Nat × List Char) :=
  match cs with
  | [] => .error .tooShort
  | [c] => if c.utf8Size = 1 then .error .tooShort else .error .invalid
  | a :: b :: rest =>
    if Json.isDigit a ∧ Json.isDigit b then .ok (Json.digitValue a, Json.digitValue b, rest)
    else .error .invalid

/-- An offset with a sign, in minutes. -/
def signedOffset (negative : Bool) (cs : List Char) : Except ParseError (Int × List Char) := do
  let (h, h', rest) ← twoDigits cs
  let rest := rest.dropWhile fun c => c = ':' || Text.isWhite c
  let (m, m', rest) ← twoDigits rest
  if 6 ≤ m then throw .outOfRange
  let minutes : Int := (10 * h + h') * 60 + (10 * m + m')
  return (if negative then -minutes else minutes, rest)

/-- The offset from UTC in minutes: `Z`, `UTC`, or a sign with hours and minutes. -/
def offset (cs : List Char) : Except ParseError (Int × List Char) :=
  match cs with
  | [] => .error .tooShort
  | c :: rest =>
    if (cs.take 3).map Char.toUpper = ['U', 'T', 'C'] then .ok (0, cs.drop 3)
    else if c = 'Z' ∨ c = 'z' then .ok (0, rest)
    else if c = '+' then signedOffset false rest
    else if c = '-' ∨ c.toNat = 0x2212 then signedOffset true rest
    else .error .invalid

/-- The timestamp of a local date and time at an offset. -/
def resolve (t : Timestamp) (minutes : Int) : Except ParseError Timestamp :=
  if ¬ (minYear ≤ t.year ∧ t.year ≤ maxYear ∧ t.day ≤ daysInMonth t.year t.month) then
    .error .outOfRange
  else if ¬ (-1440 < minutes ∧ minutes < 1440) then .error .outOfRange
  else
    let utc := t.minusMinutes minutes
    if minYear ≤ utc.year ∧ utc.year ≤ maxYear then .ok utc else .error .impossible

/-- Reads a timestamp. -/
def parse (s : String) : Except ParseError Timestamp := do
  let (year, cs) ← yearNumber s.toList
  let cs ← mark '-' cs
  let (month, cs) ← numberIn 1 12 cs
  let cs ← mark '-' cs
  let (day, cs) ← numberIn 1 31 cs
  let cs ← match cs with
    | [] => throw .tooShort
    | c :: rest => if c = 'T' ∨ c = 't' ∨ c = ' ' then pure rest else throw .invalid
  let (hour, cs) ← numberIn 0 23 cs
  let cs ← mark ':' cs
  let (minute, cs) ← numberIn 0 59 cs
  let cs ← mark ':' cs
  let (second, cs) ← numberIn 0 60 cs
  let (nano, cs) ← nanos cs
  let (minutes, cs) ← offset (Text.trimStart cs)
  unless Text.trimStart cs = [] do throw .tooLong
  resolve ⟨year, month, day, hour, minute, second, nano⟩ minutes

/-- A timestamp as a JSON string. -/
def toValue (t : Timestamp) : Json.Value := .str (String.ofList t.text)

/-- Reads a JSON string as a timestamp. -/
def reader : Json.Reader Timestamp :=
  Json.Reader.stringAs "an RFC 3339 formatted date and time string" fun s =>
    match parse s with
    | .ok t => .ok t
    | .error e => .error (.unreadable e.message)

end Timestamp

end ReviewPanel
