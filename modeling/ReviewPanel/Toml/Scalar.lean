import ReviewPanel.Json.Token
import ReviewPanel.Timestamp

/-!
# TOML scalars

Numbers, truth values and dates are words: a longest run of letters, digits and the signs
`_ + - . :`.  `wordValue?` says what a word stands for.  Strings come in four kinds, between single
or triple quotes of either sort.

A date and a time may be separated by a space, and then are two words.
-/

namespace ReviewPanel.Toml

/-- A scalar value.  Dates carry no content, because nothing here looks into them. -/
inductive Scalar where
  | string (s : String)
  | integer (i : Int)
  | float
  | boolean (b : Bool)
  | date
deriving DecidableEq, Repr

/-! ### Words -/

/-- A decimal digit. -/
def isDigit (c : Char) : Bool := '0'.val ≤ c.val && c.val ≤ '9'.val

/-- A character of a bare key. -/
def isBare (c : Char) : Bool :=
  isDigit c || ('a'.val ≤ c.val && c.val ≤ 'z'.val) || ('A'.val ≤ c.val && c.val ≤ 'Z'.val) ||
    c == '_' || c == '-'

/-- A character of a word. -/
def isWordChar (c : Char) : Bool := isBare c || c == '+' || c == '.' || c == ':'

/-- The digit that a character stands for in bases up to sixteen. -/
def digit? (base : Nat) (c : Char) : Option Nat :=
  let n :=
    if isDigit c then c.toNat - '0'.toNat
    else if 'a'.val ≤ c.val ∧ c.val ≤ 'f'.val then c.toNat - 'a'.toNat + 10
    else if 'A'.val ≤ c.val ∧ c.val ≤ 'F'.val then c.toNat - 'A'.toNat + 10
    else base
  if n < base then some n else none

/-- Digits in a base; an underscore may stand between two of them. -/
def digits? (base : Nat) : List Char → Option (List Nat)
  | [] => none
  | [c] => (digit? base c).map ([·])
  | c :: '_' :: cs => do return (← digit? base c) :: (← digits? base cs)
  | c :: d :: cs => do return (← digit? base c) :: (← digits? base (d :: cs))

/-- The number that digits stand for. -/
def number (base : Nat) (ds : List Nat) : Nat := ds.foldl (fun n d => base * n + d) 0

/-- Splits a sign off. -/
def signed (cs : List Char) : Bool × List Char :=
  match cs with
  | '-' :: rest => (true, rest)
  | '+' :: rest => (false, rest)
  | cs => (false, cs)

/-- Decimal digits without a leading zero. -/
def wholeDigits? (cs : List Char) : Option (List Nat) :=
  match cs with
  | ['0'] => some [0]
  | '0' :: _ => none
  | cs => digits? 10 cs

/-- An integer of 64 bits. -/
def integer? (cs : List Char) : Option Int :=
  let natural := fun base cs => (digits? base cs).map fun ds => (number base ds : Int)
  let value := match cs with
    | '0' :: 'x' :: rest => natural 16 rest
    | '0' :: 'o' :: rest => natural 8 rest
    | '0' :: 'b' :: rest => natural 2 rest
    | cs =>
      let (negative, rest) := signed cs
      (wholeDigits? rest).map fun ds =>
        let n : Int := number 10 ds
        if negative then -n else n
  value.filter fun i => -9223372036854775808 ≤ i && i ≤ 9223372036854775807

/-- The digits of a list of characters as JSON spells them. -/
def plain (ds : List Nat) : List Char := ds.map Nat.digitChar

/-- A float that is not beyond the largest double. -/
def isFloat (cs : List Char) : Bool :=
  let (negative, cs) := signed cs
  let whole := cs.takeWhile fun c => c != '.' && c != 'e' && c != 'E'
  let rest := cs.drop whole.length
  let fraction := match rest with
    | '.' :: rest => some (rest.takeWhile fun c => c != 'e' && c != 'E')
    | _ => none
  let tail := match fraction with
    | some f => rest.drop (f.length + 1)
    | none => rest
  let power := match tail with
    | [] => some none
    | _ :: rest =>
      let (down, ds) := signed rest
      (digits? 10 ds).map fun ds => some (down, ds)
  match wholeDigits? whole, fraction.map (digits? 10), power with
  | some _, none, some none => false
  | some w, f, some p =>
    match f with
    | some none => false
    | some (some _) | none =>
      let draft : Json.NumberDraft :=
        { negative, whole := plain w, fraction := plain ((f.bind id).getD [])
          power := p.map Prod.fst, powerDigits := plain ((p.map Prod.snd).getD []) }
      negative || p.isNone || draft.value?.isSome
  | _, _, _ => false

/-- Infinity or not a number, with or without a sign. -/
def isSpecialFloat (cs : List Char) : Bool :=
  let rest := (signed cs).2
  rest == "inf".toList || rest == "nan".toList

/-! ### Dates -/

/-- Two digits at the front. -/
def twoDigits? (cs : List Char) : Option (Nat × List Char) :=
  match cs with
  | a :: b :: rest =>
    if isDigit a ∧ isDigit b then some (number 10 (Json.digitValue a :: [Json.digitValue b]), rest)
    else none
  | _ => none

/-- One character at the front. -/
def char? (c : Char) (cs : List Char) : Option (List Char) :=
  match cs with
  | d :: rest => if d = c then some rest else none
  | [] => none

/-- A day of the calendar at the front. -/
def date? (cs : List Char) : Option (List Char) := do
  let (century, cs) ← twoDigits? cs
  let (year, cs) ← twoDigits? cs
  let cs ← char? '-' cs
  let (month, cs) ← twoDigits? cs
  let cs ← char? '-' cs
  let (day, cs) ← twoDigits? cs
  let y : Int := 100 * century + year
  if 1 ≤ month ∧ month ≤ 12 ∧ 1 ≤ day ∧ day ≤ Timestamp.daysInMonth y month then some cs else none

/-- A time of day at the front. -/
def time? (cs : List Char) : Option (List Char) := do
  let (hour, cs) ← twoDigits? cs
  let cs ← char? ':' cs
  let (minute, cs) ← twoDigits? cs
  let cs ← char? ':' cs
  let (second, cs) ← twoDigits? cs
  if 23 < hour ∨ 59 < minute ∨ 60 < second then none
  else match cs with
    | '.' :: rest => if rest.takeWhile isDigit = [] then none else some (rest.dropWhile isDigit)
    | cs => some cs

/-- An offset, or nothing. -/
def isOffset (cs : List Char) : Bool :=
  match cs with
  | [] | ['Z'] | ['z'] => true
  | c :: rest =>
    (c == '+' || c == '-') &&
      ((do
        let (hour, rest) ← twoDigits? rest
        let rest ← char? ':' rest
        let (minute, rest) ← twoDigits? rest
        return decide (hour ≤ 23 ∧ minute ≤ 59 ∧ rest = [])) : Option Bool) == some true

/-- A time of day with or without an offset. -/
def isOffsetTime (cs : List Char) : Bool :=
  match time? cs with
  | some rest => isOffset rest
  | none => false

/-- A day, or a day and a time with a letter between them. -/
def isDate (cs : List Char) : Bool :=
  match date? cs with
  | some [] => true
  | some (c :: rest) => (c == 'T' || c == 't') && isOffsetTime rest
  | none => false

/-- What a word stands for. -/
def wordValue? (cs : List Char) : Option Scalar :=
  if cs = "true".toList then some (.boolean true)
  else if cs = "false".toList then some (.boolean false)
  else if isDate cs || time? cs = some [] then some .date
  else if isSpecialFloat cs || isFloat cs then some .float
  else (integer? cs).map .integer

/-- A word, or a day and a time with a space between them. -/
def word? (cs : List Char) : Option (Scalar × List Char) :=
  let first := cs.takeWhile isWordChar
  let rest := cs.dropWhile isWordChar
  match date? first, rest with
  | some [], ' ' :: c :: more =>
    if isDigit c then
      let second := (c :: more).takeWhile isWordChar
      if isOffsetTime second then some (.date, (c :: more).dropWhile isWordChar) else none
    else some (.date, rest)
  | _, _ => (wordValue? first).map fun v => (v, rest)

/-! ### Strings -/

/-- A character that may stand for itself: no control character but a tab. -/
def isPlain (c : Char) : Bool := c == '\t' || (0x20 ≤ c.toNat && c.toNat ≠ 0x7F)

/-- White space within a line. -/
def isBlank (c : Char) : Bool := c == ' ' || c == '\t'

/-- The character with a code in hexadecimal digits. -/
def codePoint? (cs : List Char) : Option Char := do
  let n := number 16 (← cs.mapM (digit? 16))
  if n < 0xD800 ∨ (0xDFFF < n ∧ n < 0x110000) then some (Char.ofNat n) else none

/-- The character that follows a backslash, and what comes after it. -/
def escape? (cs : List Char) : Option (Char × List Char) :=
  match cs with
  | 'b' :: rest => some (Char.ofNat 8, rest)
  | 't' :: rest => some ('\t', rest)
  | 'n' :: rest => some ('\n', rest)
  | 'f' :: rest => some (Char.ofNat 12, rest)
  | 'r' :: rest => some ('\r', rest)
  | '"' :: rest => some ('"', rest)
  | '\\' :: rest => some ('\\', rest)
  | 'u' :: rest =>
    if 4 ≤ rest.length then (codePoint? (rest.take 4)).map fun c => (c, rest.drop 4) else none
  | 'U' :: rest =>
    if 8 ≤ rest.length then (codePoint? (rest.take 8)).map fun c => (c, rest.drop 8) else none
  | _ => none

/-- A line break at the front. -/
def newline? (cs : List Char) : Option (List Char) :=
  match cs with
  | '\n' :: rest => some rest
  | '\r' :: '\n' :: rest => some rest
  | _ => none

/-- A backslash at the end of a line hides the white space up to the next text. -/
def hiddenBreak? (cs : List Char) : Option (List Char) :=
  (newline? (cs.dropWhile isBlank)).map fun rest =>
    rest.dropWhile fun c => isBlank c || c == '\n' || c == '\r'

/-- The end of a string between triple quotes; up to two more quotes belong to the content. -/
def tripleEnd (quote : Char) (cs : List Char) : List Char × List Char :=
  let extra := (cs.take 2).takeWhile (· = quote)
  (extra, cs.drop extra.length)

/-- The rest of a string between double quotes.  The fuel bounds the number of characters. -/
def basicBody : Nat → List Char → Option (List Char × List Char)
  | 0, _ => none
  | fuel + 1, cs =>
    match cs with
    | '"' :: rest => some ([], rest)
    | '\\' :: rest => do
      let (c, rest) ← escape? rest
      let (body, rest) ← basicBody fuel rest
      return (c :: body, rest)
    | c :: rest =>
      if isPlain c then (basicBody fuel rest).map fun r => (c :: r.1, r.2) else none
    | [] => none

/-- The rest of a string between triple double quotes. -/
def longBasicBody : Nat → List Char → Option (List Char × List Char)
  | 0, _ => none
  | fuel + 1, cs =>
    match newline? cs with
    | some rest => (longBasicBody fuel rest).map fun r => ('\n' :: r.1, r.2)
    | none =>
      match cs with
      | '"' :: '"' :: '"' :: rest => some (tripleEnd '"' rest)
      | '\\' :: rest =>
        match hiddenBreak? rest with
        | some rest => longBasicBody fuel rest
        | none => do
          let (c, rest) ← escape? rest
          let (body, rest) ← longBasicBody fuel rest
          return (c :: body, rest)
      | c :: rest =>
        if isPlain c then (longBasicBody fuel rest).map fun r => (c :: r.1, r.2) else none
      | [] => none

/-- The rest of a string between triple single quotes. -/
def longLiteralBody : Nat → List Char → Option (List Char × List Char)
  | 0, _ => none
  | fuel + 1, cs =>
    match newline? cs with
    | some rest => (longLiteralBody fuel rest).map fun r => ('\n' :: r.1, r.2)
    | none =>
      match cs with
      | '\'' :: '\'' :: '\'' :: rest => some (tripleEnd '\'' rest)
      | c :: rest =>
        if isPlain c then (longLiteralBody fuel rest).map fun r => (c :: r.1, r.2) else none
      | [] => none

/-- The rest of a string between single quotes. -/
def literalBody (cs : List Char) : Option (List Char × List Char) :=
  let body := cs.takeWhile fun c => isPlain c && c != '\''
  (char? '\'' (cs.drop body.length)).map fun rest => (body, rest)

/-- A line break right after the opening triple quotes does not count. -/
def skipNewline (cs : List Char) : List Char := (newline? cs).getD cs

/-- A string on one line. -/
def shortString? (cs : List Char) : Option (String × List Char) :=
  let parts := match cs with
    | '"' :: rest => basicBody (rest.length + 1) rest
    | '\'' :: rest => literalBody rest
    | _ => none
  parts.map fun r => (String.ofList r.1, r.2)

/-- A string of any kind. -/
def string? (cs : List Char) : Option (String × List Char) :=
  match cs with
  | '"' :: '"' :: '"' :: rest =>
    (longBasicBody (rest.length + 1) (skipNewline rest)).map fun r => (String.ofList r.1, r.2)
  | '\'' :: '\'' :: '\'' :: rest =>
    (longLiteralBody (rest.length + 1) (skipNewline rest)).map fun r => (String.ofList r.1, r.2)
  | cs => shortString? cs

end ReviewPanel.Toml
