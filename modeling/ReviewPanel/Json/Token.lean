import ReviewPanel.Json.Value
import ReviewPanel.Text.Utf8

/-!
# Tokens of a JSON text

A text is cut into tokens by an automaton that reads one symbol at a time (`Lexer.step`).  It
never looks ahead and never fails: where the text breaks off or leaves the grammar it emits a
`Token.broken` in place of the token that began there and ignores the rest, so that a reader meets
faults in the order of the text.

A reader may be strict or loose.  A loose reader only looks for the end of a value that it will
ignore: it accepts any escape of four digits inside a string, any byte, and numbers of any size.
`Token.broken` therefore carries one fault for each kind of reader, and a complete string or number
that only a loose reader accepts has no content.

## Main definitions

* `Piece`, `assemble` : the content of a string before and after surrogates are paired.
* `NumberDraft`, `NumberDraft.value?` : a number as it is spelled, and the number that is read.
* `tokens` : the tokens of a text.
-/

namespace ReviewPanel.Json

/-- What is wrong with a text as a text. -/
inductive Fault where
  /-- It leaves the grammar. -/
  | malformed
  /-- It ends too early. -/
  | truncated
deriving DecidableEq, Repr

/-- What a broken value began as. -/
inductive Lead where
  /-- It began with a quote. -/
  | text
  /-- It began as a number or a word. -/
  | scalar
  /-- It began as nothing in the grammar. -/
  | junk
  /-- There is no value at all. -/
  | absent
deriving DecidableEq, Repr

/-! ### Strings -/

/-- One unit of the content of a string. -/
inductive Piece where
  /-- A character, written as itself or by a short escape. -/
  | char (c : Char)
  /-- An escape of four digits, a UTF-16 unit. -/
  | unit (n : Nat)
  /-- Bytes that are no character. -/
  | invalid
deriving DecidableEq, Repr

/-- The first half of a surrogate pair. -/
def isLeadingSurrogate (n : Nat) : Bool := 0xD800 ≤ n && n < 0xDC00

/-- The second half of a surrogate pair. -/
def isTrailingSurrogate (n : Nat) : Bool := 0xDC00 ≤ n && n < 0xE000

/-- The character of a surrogate pair. -/
def surrogatePair (lead trail : Nat) : Char :=
  Char.ofNat (0x10000 + (lead - 0xD800) * 0x400 + (trail - 0xDC00))

/-- The characters of a string; `none` if a surrogate stands alone or bytes are no characters. -/
def assemble : List Piece → Option (List Char)
  | [] => some []
  | .char c :: ps => (assemble ps).map (c :: ·)
  | .invalid :: _ => none
  | [.unit n] =>
    if isLeadingSurrogate n || isTrailingSurrogate n then none else some [Char.ofNat n]
  | .unit n :: .unit m :: ps =>
    if isLeadingSurrogate n then
      if isTrailingSurrogate m then (assemble ps).map (surrogatePair n m :: ·) else none
    else if isTrailingSurrogate n then none
    else (assemble (.unit m :: ps)).map (Char.ofNat n :: ·)
  | .unit n :: p :: ps =>
    if isLeadingSurrogate n || isTrailingSurrogate n then none
    else (assemble (p :: ps)).map (Char.ofNat n :: ·)

/-- A surrogate stands alone, whatever may follow. -/
def unpaired : List Piece → Bool
  | [] => false
  | [.unit n] => isTrailingSurrogate n
  | .unit n :: .unit m :: ps =>
    if isLeadingSurrogate n then !isTrailingSurrogate m || unpaired ps
    else isTrailingSurrogate n || unpaired (.unit m :: ps)
  | .unit n :: p :: ps => isLeadingSurrogate n || isTrailingSurrogate n || unpaired (p :: ps)
  | _ :: ps => unpaired ps

/-! ### Numbers -/

/-- The value of a digit. -/
def digitValue (c : Char) : Nat := c.toNat - '0'.toNat

/-- The number written by a list of digits. -/
def digitsValue (ds : List Char) : Nat := ds.foldl (fun n c => 10 * n + digitValue c) 0

/-- The spelling of a number. -/
structure NumberDraft where
  /-- There is a minus sign. -/
  negative : Bool
  /-- Digits before the point. -/
  whole : List Char
  /-- Digits behind the point; none without a point. -/
  fraction : List Char
  /-- The sign of the exponent, if there is one. -/
  power : Option Bool
  /-- Digits of the exponent. -/
  powerDigits : List Char

/-- The largest significand: an integer of 64 bits. -/
def maxWord : Nat := 18446744073709551615

/-- The significand read so far, and the power of ten that it is off. -/
structure Significand where
  /-- The leading digits. -/
  digits : Nat
  /-- Its power of ten. -/
  exponent : Int

/-- Digits before the point are kept while the significand fits a word; then they only count. -/
def wholeSignificand (ds : List Char) : Significand :=
  let r := ds.foldl (fun (s : Significand × Bool) c =>
    let n := 10 * s.1.digits + digitValue c
    if s.2 || maxWord < n then (⟨s.1.digits, s.1.exponent + 1⟩, true)
    else (⟨n, s.1.exponent⟩, false)) (⟨0, 0⟩, false)
  r.1

/-- Digits behind the point are kept while the significand fits a word; the rest is dropped. -/
def withFraction (s : Significand) (ds : List Char) : Significand :=
  let r := ds.foldl (fun (s : Significand × Bool) c =>
    let n := 10 * s.1.digits + digitValue c
    if s.2 || maxWord < n then (s.1, true)
    else (⟨n, s.1.exponent - 1⟩, false)) (s, false)
  r.1

/-- The greatest exponent that is read as a number. -/
def maxPower : Nat := 2147483647

/-- The number that is read; `none` beyond the largest double.  A whole number that fits 64 bits is
an integer, except that minus zero is a double. -/
def NumberDraft.value? (d : NumberDraft) : Option Number :=
  let n := digitsValue d.whole
  let s := withFraction (wholeSignificand d.whole) d.fraction
  match d.power with
  | none =>
    if d.fraction = [] ∧ ¬ d.negative ∧ n ≤ maxWord then some (.int n)
    else if d.fraction = [] ∧ d.negative ∧ 0 < n ∧ n ≤ 9223372036854775808 then some (.int (-n))
    else (Double.ofDecimal d.negative s.digits s.exponent).map .float
  | some down =>
    let p := digitsValue d.powerDigits
    if maxPower < p then
      if s.digits ≠ 0 ∧ ¬ down then none else some (.float ⟨d.negative, .zero⟩)
    else
      (Double.ofDecimal d.negative s.digits
        (if down then s.exponent - p else s.exponent + p)).map .float

/-! ### The automaton -/

/-- One token. -/
inductive Token where
  | null
  | bool (b : Bool)
  /-- A number; without content if it is beyond the largest double. -/
  | number (n : Option Number)
  /-- A string; without content if only a loose reader accepts it. -/
  | text (s : Option String)
  | openArray
  | closeArray
  | openObject
  | closeObject
  | comma
  | colon
  /-- Here the text breaks, for a strict and for a loose reader. -/
  | broken (lead : Lead) (strict loose : Fault)
deriving DecidableEq, Repr

/-- How far a number has been read. -/
inductive NumberStage where
  /-- Behind the minus sign. -/
  | minus
  /-- Behind a leading zero. -/
  | zero
  /-- Among the digits before the point. -/
  | whole
  /-- Behind the point. -/
  | point
  /-- Among the digits behind the point. -/
  | fraction
  /-- Behind the mark of the exponent. -/
  | mark
  /-- Behind the sign of the exponent. -/
  | sign
  /-- Among the digits of the exponent. -/
  | power
deriving DecidableEq, Repr

/-- What the automaton is reading; digits and pieces stand in reverse. -/
inductive Lexer where
  /-- Between tokens. -/
  | ready
  /-- Inside a string. -/
  | text (pieces : List Piece)
  /-- Behind a backslash. -/
  | escape (pieces : List Piece)
  /-- Inside an escape of four digits, `count` of which have been read. -/
  | digits (pieces : List Piece) (count value : Nat)
  /-- Inside an escape that has another character among its four bytes. -/
  | badDigits (pieces : List Piece) (bytes : Nat)
  /-- Inside a word. -/
  | word (rest : List Char) (token : Token)
  /-- Inside a number. -/
  | number (stage : NumberStage) (draft : NumberDraft)
  /-- Behind a fault. -/
  | stopped

/-- The token of a string that breaks off. -/
def brokenText (pieces : List Piece) (f : Fault) : Token :=
  .broken .text (if unpaired pieces.reverse then .malformed else f) f

/-- The token of a complete string. -/
def completeText (pieces : List Piece) : Token :=
  .text ((assemble pieces.reverse).map String.ofList)

/-- The token of a complete number. -/
def completeNumber (d : NumberDraft) : Token :=
  .number (NumberDraft.value?
    { d with
      whole := d.whole.reverse
      fraction := d.fraction.reverse
      powerDigits := d.powerDigits.reverse })

/-- A digit. -/
def isDigit (c : Char) : Bool := '0' ≤ c && c ≤ '9'

/-- The value of a digit of base sixteen. -/
def hexValue? (c : Char) : Option Nat :=
  if '0' ≤ c ∧ c ≤ '9' then some (c.toNat - '0'.toNat)
  else if 'a' ≤ c ∧ c ≤ 'f' then some (c.toNat - 'a'.toNat + 10)
  else if 'A' ≤ c ∧ c ≤ 'F' then some (c.toNat - 'A'.toNat + 10)
  else none

/-- The character of a short escape. -/
def shortEscape? (c : Char) : Option Char :=
  if c = '"' then some '"'
  else if c = '\\' then some '\\'
  else if c = '/' then some '/'
  else if c = 'b' then some (Char.ofNat 0x08)
  else if c = 'f' then some (Char.ofNat 0x0C)
  else if c = 'n' then some '\n'
  else if c = 'r' then some '\r'
  else if c = 't' then some '\t'
  else none

/-- Blanks between tokens. -/
def isJsonBlank (c : Char) : Bool := c = ' ' || c = '\t' || c = '\n' || c = '\r'

namespace Lexer

/-- The automaton stops with a broken value. -/
def stop (t : Token) : Lexer × List Token := (.stopped, [t])

/-- What a symbol between tokens begins. -/
def start : Symbol → Lexer × List Token
  | .invalid _ => stop (.broken .junk .malformed .malformed)
  | .char c =>
    if isJsonBlank c then (.ready, [])
    else if c = '\x7b' then (.ready, [.openObject])
    else if c = '\x7d' then (.ready, [.closeObject])
    else if c = '[' then (.ready, [.openArray])
    else if c = ']' then (.ready, [.closeArray])
    else if c = ',' then (.ready, [.comma])
    else if c = ':' then (.ready, [.colon])
    else if c = '"' then (.text [], [])
    else if c = 't' then (.word "rue".toList (.bool true), [])
    else if c = 'f' then (.word "alse".toList (.bool false), [])
    else if c = 'n' then (.word "ull".toList .null, [])
    else if c = '-' then (.number .minus ⟨true, [], [], none, []⟩, [])
    else if c = '0' then (.number .zero ⟨false, ['0'], [], none, []⟩, [])
    else if isDigit c then (.number .whole ⟨false, [c], [], none, []⟩, [])
    else stop (.broken .junk .malformed .malformed)

/-- The next stage of a number after a character that belongs to it. -/
def numberStep? (stage : NumberStage) (d : NumberDraft) (c : Char) :
    Option (NumberStage × NumberDraft) :=
  let isMark := c = 'e' || c = 'E'
  match stage with
  | .minus =>
    if c = '0' then some (.zero, { d with whole := ['0'] })
    else if isDigit c then some (.whole, { d with whole := [c] })
    else none
  | .zero =>
    if c = '.' then some (.point, d)
    else if isMark then some (.mark, { d with power := some false })
    else none
  | .whole =>
    if isDigit c then some (.whole, { d with whole := c :: d.whole })
    else if c = '.' then some (.point, d)
    else if isMark then some (.mark, { d with power := some false })
    else none
  | .point => if isDigit c then some (.fraction, { d with fraction := [c] }) else none
  | .fraction =>
    if isDigit c then some (.fraction, { d with fraction := c :: d.fraction })
    else if isMark then some (.mark, { d with power := some false })
    else none
  | .mark =>
    if c = '+' then some (.sign, d)
    else if c = '-' then some (.sign, { d with power := some true })
    else if isDigit c then some (.power, { d with powerDigits := [c] })
    else none
  | .sign => if isDigit c then some (.power, { d with powerDigits := [c] }) else none
  | .power =>
    if isDigit c then some (.power, { d with powerDigits := c :: d.powerDigits }) else none

/-- A number may end at this stage before this symbol. -/
def numberEnds (stage : NumberStage) (next : Symbol) : Bool :=
  match stage with
  | .zero => match next with
    | .char c => !isDigit c
    | .invalid _ => true
  | .whole | .fraction | .power => true
  | .minus | .point | .mark | .sign => false

/-- One symbol. -/
def step (st : Lexer) (s : Symbol) : Lexer × List Token :=
  match st with
  | .ready => start s
  | .stopped => (.stopped, [])
  | .text ps =>
    match s with
    | .invalid _ => (.text (.invalid :: ps), [])
    | .char c =>
      if c = '"' then (.ready, [completeText ps])
      else if c = '\\' then (.escape ps, [])
      else if c.toNat < 0x20 then stop (brokenText ps .malformed)
      else (.text (.char c :: ps), [])
  | .escape ps =>
    match s with
    | .invalid _ => stop (brokenText ps .malformed)
    | .char c =>
      if c = 'u' then (.digits ps 0 0, [])
      else match shortEscape? c with
        | some e => (.text (.char e :: ps), [])
        | none => stop (brokenText ps .malformed)
  | .digits ps count value =>
    -- A bad escape is noticed only when four bytes have gone by.
    let bad := count + s.size
    let halt : Lexer × List Token :=
      if 4 ≤ bad then stop (brokenText ps .malformed) else (.badDigits ps bad, [])
    match s with
    | .invalid _ => halt
    | .char c =>
      match hexValue? c with
      | none => halt
      | some v =>
        if count + 1 = 4 then (.text (.unit (16 * value + v) :: ps), [])
        else (.digits ps (count + 1) (16 * value + v), [])
  | .badDigits ps bytes =>
    if 4 ≤ bytes + s.size then stop (brokenText ps .malformed)
    else (.badDigits ps (bytes + s.size), [])
  | .word rest token =>
    match rest with
    | [] => start s
    | r :: rs =>
      if s = .char r then (if rs = [] then (.ready, [token]) else (.word rs token, []))
      else stop (.broken .scalar .malformed .malformed)
  | .number stage d =>
    let continued := match s with
      | .char c => numberStep? stage d c
      | .invalid _ => none
    match continued with
    | some next => (.number next.1 next.2, [])
    | none =>
      -- The symbol that ends a number begins the next token.
      if numberEnds stage s then
        let r := start s
        (r.1, completeNumber d :: r.2)
      else stop (.broken .scalar .malformed .malformed)

/-- The end of the text. -/
def finish : Lexer → List Token
  | .ready | .stopped => []
  | .text ps | .escape ps | .digits ps _ _ | .badDigits ps _ => [brokenText ps .truncated]
  | .word _ _ => [.broken .scalar .truncated .truncated]
  | .number stage d =>
    match stage with
    | .zero | .whole | .fraction | .power => [completeNumber d]
    | .minus | .point | .mark | .sign => [.broken .scalar .truncated .malformed]

/-- The tokens of the symbols that follow. -/
def run : Lexer → List Symbol → List Token
  | st, [] => st.finish
  | st, s :: ss =>
    let r := st.step s
    r.2 ++ run r.1 ss

end Lexer

/-- The tokens of a text. -/
def tokens (symbols : List Symbol) : List Token := Lexer.run .ready symbols

end ReviewPanel.Json
