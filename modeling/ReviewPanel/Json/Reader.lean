import ReviewPanel.Json.Mismatch
import ReviewPanel.Table

/-!
# Readers

A `Reader α` goes through a document from left to right and returns an `α` or the first problem.
Documents come from a text or from a value; the two differ in three places only, all of which
concern shapes that a text reveals step by step and a value at once: an array that is too long for a
record or pair, a word that is no string, and a word written as an object.

## Main definitions

* `Reader.string`, `Reader.boolean`, `Reader.natural`, … : readers of single values.
* `Reader.word` : reads a member of a vocabulary.
* `Reader.list`, `Reader.optional`, `Reader.table`, `Reader.pair` : readers built from readers.
* `Reader.runText`, `Reader.runValue` : reading a whole text or value.
-/

namespace ReviewPanel.Json

/-- Where a document comes from. -/
inductive Origin where
  /-- A text, read as a stream. -/
  | text
  /-- A value, held as a whole. -/
  | value
deriving DecidableEq, Repr

/-- Reads an `α` from a document. -/
abbrev Reader (α : Type) := Origin → Document → Except DecodeError α

namespace Document

/-- Stops at a fault. -/
def failFault {α : Type} (f : Fault) : Except DecodeError α := .error (.fault f)

/-- Stops at a mismatch. -/
def failMismatch {α : Type} (m : Mismatch) : Except DecodeError α := .error (.mismatch m)

/-- The end of a container for a strict reader. -/
def checkClose : Close → Except DecodeError Unit
  | .closed => .ok ()
  | .unfinished _ strict _ => failFault strict

/-- The end of a container whose items have all been taken: a comma there is malformed. -/
def checkEnd : Close → Except DecodeError Unit
  | .closed => .ok ()
  | .unfinished afterComma strict _ => failFault (if afterComma then .malformed else strict)

/-- What a document holds, for a message. -/
def found : Document → Except DecodeError Found
  | .null => .ok .null
  | .bool b => .ok (.bool b)
  | .number (some n) => .ok (.number n)
  | .text (some s) => .ok (.text s)
  | .number none | .text none => failFault .malformed
  | .array _ _ => .ok .sequence
  | .object _ _ => .ok .map
  | .broken _ strict _ => failFault strict

/-- The document is not what is wanted. -/
def reject {α : Type} (want : String) (d : Document) : Except DecodeError α :=
  match d.found with
  | .ok f => failMismatch (.wrongType f want)
  | .error e => .error e

/-- A strict reader needs the content of a name or string. -/
def need {α : Type} : Option α → Except DecodeError α
  | some a => .ok a
  | none => failFault .malformed

end Document

namespace Reader

open Document

variable {α β κ : Type}

/-- A string that `f` makes sense of. -/
def stringAs (want : String) (f : String → Except Mismatch α) : Reader α := fun _ d =>
  match d with
  | .text (some s) =>
    match f s with
    | .ok a => .ok a
    | .error m => failMismatch m
  | d => d.reject want

/-- A string. -/
def string : Reader String := stringAs "a string" .ok

/-- The name of a file or directory. -/
def path : Reader String := stringAs "path string" .ok

/-- A truth value. -/
def boolean : Reader Bool := fun _ d =>
  match d with
  | .bool b => .ok b
  | d => d.reject "a boolean"

/-- A natural number below `bound`. -/
def naturalBelow (bound : Nat) (want : String) : Reader Nat := fun _ d =>
  match d with
  | .number (some (.int i)) =>
    if 0 ≤ i ∧ i < bound then .ok i.toNat
    else failMismatch (.wrongValue (.number (.int i)) want)
  | d => d.reject want

/-- A number of 64 bits. -/
def natural : Reader Nat := naturalBelow 18446744073709551616 "u64"

/-- A count, which has 64 bits too. -/
def count : Reader Nat := naturalBelow 18446744073709551616 "usize"

/-- A number of 32 bits. -/
def smallNatural : Reader Nat := naturalBelow 4294967296 "u32"

/-- `null` stands for absence. -/
def optional (r : Reader α) : Reader (Option α) := fun o d =>
  match d with
  | .null => .ok none
  | d => (r o d).map some

/-- Nothing. -/
def unit : Reader Unit := fun _ d =>
  match d with
  | .null => .ok ()
  | d => d.reject "unit"

/-- Reads a list of documents one after the other. -/
def each (r : Reader α) (o : Origin) : List Document → Except DecodeError (List α)
  | [] => .ok []
  | d :: ds => do
    let a ← r o d
    let as ← each r o ds
    return a :: as

/-- An array of any length. -/
def list (r : Reader α) : Reader (List α) := fun o d =>
  match d with
  | .array items close => do
    let as ← each r o items
    checkClose close
    return as
  | d => d.reject "a sequence"

/-- What follows the items that were wanted: nothing. -/
def noMore (o : Origin) (taken : Nat) (rest : List Document) (close : Close) :
    Except DecodeError Unit :=
  match rest with
  | [] => checkEnd close
  | _ :: _ =>
    match o with
    | .text => failFault .malformed
    | .value => failMismatch (.wrongLength (taken + rest.length) "fewer elements in array")

/-- An array that is too short. -/
def tooShort (index : Nat) (want : String) (close : Close) : Except DecodeError α :=
  match close with
  | .closed => failMismatch (.wrongLength index want)
  | .unfinished _ strict _ => failFault strict

/-- An array of two items. -/
def pair (r : Reader α) (s : Reader β) : Reader (α × β) := fun o d =>
  let want := "a tuple of size 2"
  match d with
  | .array [] close => tooShort 0 want close
  | .array [x] close => do
    let _ ← r o x
    tooShort 1 want close
  | .array (x :: y :: rest) close => do
    let a ← r o x
    let b ← s o y
    noMore o 2 rest close
    return (a, b)
  | d => d.reject want

/-- The member of a vocabulary with a given spelling. -/
def lookup (κ : Type) [Named κ] (word : String) : Except DecodeError κ :=
  match Named.ofName? word with
  | some k => .ok k
  | none => failMismatch (.unknownVariant word (Named.names κ))

/-- The single member of an object that stands for a word. -/
def wordMember [Named κ] (o : Origin) (name : Option String) (d : Document) :
    Except DecodeError κ := do
  let word ← need name
  let k ← lookup κ word
  unit o d
  return k

/-- A word of a vocabulary: a string, or an object whose only name it is, with nothing as value. -/
def word [Named κ] : Reader κ := fun o d =>
  match o, d with
  | _, .text (some s) => lookup κ s
  | .value, .object [(name, v)] .closed => wordMember .value name v
  | .value, .object _ _ => failMismatch (.wrongValue .map "map with a single key")
  | .value, d => d.reject "string or map"
  | .text, .object [] .closed => failFault .malformed
  | .text, .object [] (.unfinished _ strict _) => failFault strict
  | .text, .object ((name, v) :: rest) close => do
    let k ← wordMember .text name v
    if rest.isEmpty then checkEnd close else failFault .malformed
    return k
  | .text, .broken .text strict _ => failFault strict
  | .text, .broken .absent strict _ => failFault strict
  | .text, _ => failFault .malformed

/-- Reads the members of an object, `key` first and then the value. -/
def eachMember (key : String → Except DecodeError κ) (r : Reader α) (o : Origin) :
    List (Option String × Document) → Except DecodeError (List (κ × α))
  | [] => .ok []
  | (name, d) :: ms => do
    let k ← key (← need name)
    let a ← r o d
    let rest ← eachMember key r o ms
    return (k, a) :: rest

/-- The members of an object. -/
def members (key : String → Except DecodeError κ) (r : Reader α) : Reader (List (κ × α)) :=
  fun o d =>
    match d with
    | .object ms close => do
      let es ← eachMember key r o ms
      checkClose close
      return es
    | d => d.reject "a map"

/-- An object whose names are words of a vocabulary. -/
def table [Named κ] [DecidableEq κ] (r : Reader α) : Reader (Table κ α) := fun o d =>
  (members (lookup κ) r o d).map Table.ofList

/-- An object with free names, in the order of the names. -/
def dictionary (r : Reader α) : Reader (List (String × α)) := fun o d =>
  (members .ok r o d).map sortEntries

/-- Any value that stands inside `outer` containers. -/
def anythingInside (outer : Nat) : Reader Value := fun _ d =>
  match d.toValue (depthLimit - outer) with
  | .ok v => .ok v
  | .error f => failFault f

/-- Any value. -/
def anything : Reader Value := anythingInside 0

/-- Passes over a document without looking at its content. -/
def ignore (d : Document) : Except DecodeError Unit :=
  match d.looseFault? with
  | none => .ok ()
  | some f => failFault f

/-- Reads a whole text. -/
def runText (r : Reader α) (symbols : List Symbol) : Except DecodeError α := do
  let (d, more) := Document.parse symbols
  let a ← r .text d
  if more then failFault .malformed
  return a

/-- Reads a whole value. -/
def runValue (r : Reader α) (v : Value) : Except DecodeError α :=
  r .value (Document.ofValue v.canonical)

end Reader

end ReviewPanel.Json
