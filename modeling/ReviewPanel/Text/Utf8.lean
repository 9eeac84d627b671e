/-!
# Reading bytes as text

Documents and process output arrive as bytes that need not be UTF-8.  `Utf8.symbols` reads any
bytes: a well-formed sequence is a character, and a longest proper beginning of one (or a byte
that begins none) is one `Symbol.invalid`.  `Utf8.bytes` gives the bytes back, and `Utf8.lossy`
replaces each invalid symbol by U+FFFD.
-/

namespace ReviewPanel

/-- One unit of a byte text. -/
inductive Symbol where
  /-- A character. -/
  | char (c : Char)
  /-- Bytes that are no character. -/
  | invalid (bytes : List UInt8)
deriving DecidableEq, Repr

namespace Symbol

/-- Number of bytes of the symbol. -/
def size : Symbol → Nat
  | .char c => c.utf8Size
  | .invalid bytes => bytes.length

/-- The bytes of the symbol. -/
def bytes : Symbol → List UInt8
  | .char c => String.utf8EncodeChar c
  | .invalid bytes => bytes

/-- The character of a valid symbol. -/
def char? : Symbol → Option Char
  | .char c => some c
  | .invalid _ => none

/-- The character that stands for a symbol in a text. -/
def charOrReplacement : Symbol → Char
  | .char c => c
  | .invalid _ => Char.ofNat 0xFFFD

end Symbol

namespace Utf8

/-- A character whose first bytes have been read. -/
structure Pending where
  /-- The code point bits read so far. -/
  code : Nat
  /-- Continuation bytes still missing. -/
  need : Nat
  /-- Least value of the next byte. -/
  low : Nat
  /-- Greatest value of the next byte. -/
  high : Nat
  /-- Bytes read so far. -/
  seen : List UInt8

/-- What a byte begins. -/
def start (b : UInt8) : Symbol ⊕ Pending :=
  let n := b.toNat
  if n < 0x80 then .inl (.char (Char.ofNat n))
  else if n < 0xC2 then .inl (.invalid [b])
  else if n < 0xE0 then .inr ⟨n % 0x20, 1, 0x80, 0xBF, [b]⟩
  else if n < 0xF0 then
    .inr ⟨n % 0x10, 2, if n = 0xE0 then 0xA0 else 0x80, if n = 0xED then 0x9F else 0xBF, [b]⟩
  else if n < 0xF5 then
    .inr ⟨n % 0x08, 3, if n = 0xF0 then 0x90 else 0x80, if n = 0xF4 then 0x8F else 0xBF, [b]⟩
  else .inl (.invalid [b])

/-- Reads bytes after the beginning `p` of a character. -/
def symbolsFrom : Option Pending → List UInt8 → List Symbol
  | none, [] => []
  | some p, [] => [.invalid p.seen]
  | none, b :: bs =>
    match start b with
    | .inl s => s :: symbolsFrom none bs
    | .inr p => symbolsFrom (some p) bs
  | some p, b :: bs =>
    if p.low ≤ b.toNat ∧ b.toNat ≤ p.high then
      let code := p.code * 0x40 + b.toNat % 0x40
      if p.need ≤ 1 then .char (Char.ofNat code) :: symbolsFrom none bs
      else symbolsFrom (some ⟨code, p.need - 1, 0x80, 0xBF, p.seen ++ [b]⟩) bs
    else
      .invalid p.seen ::
        match start b with
        | .inl s => s :: symbolsFrom none bs
        | .inr q => symbolsFrom (some q) bs

/-- The symbols of a text. -/
def ofString (s : String) : List Symbol := s.toList.map .char

/-- The symbols of any bytes; those of well-formed bytes are the characters of the text. -/
def symbols (bytes : ByteArray) : List Symbol :=
  match String.fromUTF8? bytes with
  | some s => ofString s
  | none => symbolsFrom none bytes.toList

/-- The bytes of some symbols. -/
def bytes (symbols : List Symbol) : ByteArray := ⟨(symbols.flatMap Symbol.bytes).toArray⟩

/-- The text of some symbols, if all of them are characters. -/
def text? (symbols : List Symbol) : Option String :=
  (symbols.mapM Symbol.char?).map String.ofList

/-- The text of some symbols, with U+FFFD for each invalid one. -/
def lossy (symbols : List Symbol) : String :=
  String.ofList (symbols.map Symbol.charOrReplacement)

end Utf8

end ReviewPanel
