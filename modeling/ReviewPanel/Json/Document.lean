import ReviewPanel.Json.Token

/-!
# Documents with faults

A `Document` is a JSON text as far as it makes sense: a tree whose containers may be unfinished and
in which a value may be broken.  Every text is a document (`Document.parse`), built from its tokens
by an automaton with a stack of open containers (`Builder.step`).  Faults stand where the text has
them, so a reader that goes through a document from left to right reports the first problem of the
text, be it one of grammar or one of shape.

Every value is a document too, one without faults (`Document.ofValue`).

## Main definitions

* `Document.parse` : the document of a text, and whether more text follows it.
* `Document.ofValue` : the document of a value.
* `Document.looseFault?` : the first fault that matters to a reader who ignores the content.
* `Document.toValue` : the value of a document without faults.
-/

namespace ReviewPanel.Json

/-- How a container ends. -/
inductive Close where
  /-- It is closed. -/
  | closed
  /-- It breaks off, possibly behind a comma. -/
  | unfinished (afterComma : Bool) (strict loose : Fault)
deriving DecidableEq, Repr

namespace Close

/-- The fault of an end for a loose reader. -/
def loose? : Close → Option Fault
  | .closed => none
  | .unfinished _ _ loose => some loose

/-- The end of a container for a strict reader. -/
def check : Close → Except Fault Unit
  | .closed => .ok ()
  | .unfinished _ strict _ => .error strict

end Close

/-- A JSON text as far as it makes sense. -/
inductive Document where
  | null
  | bool (b : Bool)
  /-- A number; without content if it is beyond the largest double. -/
  | number (n : Option Number)
  /-- A string; without content if only a loose reader accepts it. -/
  | text (s : Option String)
  | array (items : List Document) (close : Close)
  | object (members : List (Option String × Document)) (close : Close)
  /-- A value that breaks off. -/
  | broken (lead : Lead) (strict loose : Fault)
deriving Repr

namespace Document

instance : Inhabited Document := ⟨.null⟩

end Document

/-! ### Building a document from tokens -/

/-- An open container; items and members stand in reverse. -/
inductive Frame where
  /-- An array. -/
  | array (items : List Document)
  /-- An object, with the name whose value is being read. -/
  | object (members : List (Option String × Document)) (name : Option String)

/-- What the innermost open container expects. -/
inductive Expect where
  /-- A value. -/
  | value
  /-- An item or the end of an array. -/
  | firstItem
  /-- An item, behind a comma. -/
  | nextItem
  /-- A comma or the end of an array. -/
  | afterItem
  /-- A name or the end of an object. -/
  | firstName
  /-- A name, behind a comma. -/
  | nextName
  /-- The colon behind a name. -/
  | colon
  /-- A comma or the end of an object. -/
  | afterMember
deriving DecidableEq, Repr

/-- The state of the automaton. -/
inductive Builder where
  /-- The document is complete. -/
  | finished (d : Document)
  /-- Containers are open, or nothing has been read. -/
  | reading (stack : List Frame) (expect : Expect)
  /-- The document breaks off. -/
  | stopped (d : Document)

namespace Builder

/-- A complete value joins the innermost open container. -/
def deliver (d : Document) : List Frame → Builder
  | [] => .finished d
  | .array items :: stack => .reading (.array (d :: items) :: stack) .afterItem
  | .object members name :: stack => .reading (.object ((name, d) :: members) none :: stack) .afterMember

/-- The document whose open containers all break off behind `d`. -/
def abandon (d : Document) : List Frame → Document
  | [] => d
  | .array items :: stack =>
    abandon (.array (d :: items).reverse (.unfinished false .malformed .malformed)) stack
  | .object members name :: stack =>
    abandon (.object ((name, d) :: members).reverse (.unfinished false .malformed .malformed)) stack

/-- The innermost open container breaks off. -/
def breakOff (c : Close) : List Frame → Document
  | [] => .broken .absent .truncated .truncated
  | .array items :: stack => abandon (.array items.reverse c) stack
  | .object members _ :: stack => abandon (.object members.reverse c) stack

/-- The innermost open container is closed. -/
def closeFrame : List Frame → Builder
  | [] => .stopped (.broken .junk .malformed .malformed)
  | .array items :: stack => deliver (.array items.reverse .closed) stack
  | .object members _ :: stack => deliver (.object members.reverse .closed) stack

/-- A token where a value is expected. -/
def stepValue (stack : List Frame) : Token → Builder
  | .null => deliver .null stack
  | .bool b => deliver (.bool b) stack
  | .number n => deliver (.number n) stack
  | .text s => deliver (.text s) stack
  | .openArray => .reading (.array [] :: stack) .firstItem
  | .openObject => .reading (.object [] none :: stack) .firstName
  | .broken lead strict loose => .stopped (abandon (.broken lead strict loose) stack)
  | .closeArray | .closeObject | .comma | .colon =>
    .stopped (abandon (.broken .junk .malformed .malformed) stack)

/-- The innermost container leaves the grammar. -/
def malformed (afterComma : Bool) (stack : List Frame) : Builder :=
  .stopped (breakOff (.unfinished afterComma .malformed .malformed) stack)

/-- A token where a name is expected. -/
def stepName (afterComma : Bool) (stack : List Frame) : Token → Builder
  | .text s =>
    match stack with
    | .object members _ :: stack => .reading (.object members s :: stack) .colon
    | stack => malformed afterComma stack
  | .broken .text strict loose =>
    .stopped (breakOff (.unfinished afterComma strict loose) stack)
  | _ => malformed afterComma stack

/-- One token. -/
def step : Builder → Token → Builder
  | .finished d, _ => .finished d
  | .stopped d, _ => .stopped d
  | .reading stack expect, t =>
    match expect with
    | .value => stepValue stack t
    | .firstItem => if t = .closeArray then closeFrame stack else stepValue stack t
    | .nextItem => if t = .closeArray then malformed true stack else stepValue stack t
    | .afterItem =>
      if t = .comma then .reading stack .nextItem
      else if t = .closeArray then closeFrame stack
      else malformed false stack
    | .firstName => if t = .closeObject then closeFrame stack else stepName false stack t
    | .nextName => stepName true stack t
    | .colon =>
      if t = .colon then .reading stack .value
      else .stopped (abandon (.broken .absent .malformed .malformed) stack)
    | .afterMember =>
      if t = .comma then .reading stack .nextName
      else if t = .closeObject then closeFrame stack
      else malformed false stack

/-- The end of the tokens. -/
def finish : Builder → Document
  | .finished d => d
  | .stopped d => d
  | .reading stack expect =>
    match expect with
    | .value | .colon => abandon (.broken .absent .truncated .truncated) stack
    | .nextItem | .nextName => breakOff (.unfinished true .truncated .truncated) stack
    | .firstItem | .afterItem | .firstName | .afterMember =>
      breakOff (.unfinished false .truncated .truncated) stack

/-- All tokens; the flag says that tokens follow a complete document. -/
def run : Builder → List Token → Document × Bool
  | b, [] => (b.finish, false)
  | .finished d, _ :: _ => (d, true)
  | b, t :: ts => run (b.step t) ts

end Builder

namespace Document

/-- The document of a text, and whether more text follows it. -/
def parse (symbols : List Symbol) : Document × Bool :=
  Builder.run (.reading [] .value) (tokens symbols)

/-! ### Documents of values -/

mutual

/-- The document of a value. -/
def ofValue : Value → Document
  | .null => .null
  | .bool b => .bool b
  | .num n => .number (some n)
  | .str s => .text (some s)
  | .arr items => .array (ofItems items) .closed
  | .obj members => .object (ofMembers members) .closed

/-- The documents of items. -/
def ofItems : List Value → List Document
  | [] => []
  | v :: vs => ofValue v :: ofItems vs

/-- The documents of members. -/
def ofMembers : List (String × Value) → List (Option String × Document)
  | [] => []
  | (k, v) :: ms => (some k, ofValue v) :: ofMembers ms

end

/-! ### Reading a document through -/

mutual

/-- The first fault for a reader who ignores the content. -/
def looseFault? : Document → Option Fault
  | .null | .bool _ | .number _ | .text _ => none
  | .array items close => (looseItems? items).or close.loose?
  | .object members close => (looseMembers? members).or close.loose?
  | .broken _ _ loose => some loose

/-- The first loose fault of some items. -/
def looseItems? : List Document → Option Fault
  | [] => none
  | d :: ds => (looseFault? d).or (looseItems? ds)

/-- The first loose fault of some members. -/
def looseMembers? : List (Option String × Document) → Option Fault
  | [] => none
  | (_, d) :: ms => (looseFault? d).or (looseMembers? ms)

end

/-- Content that only a loose reader accepts is malformed. -/
def content {α : Type} : Option α → Except Fault α
  | some a => .ok a
  | none => .error .malformed

mutual

/-- The value of a document in canonical form, with at most `depth - 1` containers inside one
another. -/
def toValue (depth : Nat) : Document → Except Fault Value
  | .null => .ok .null
  | .bool b => .ok (.bool b)
  | .number n => do return .num (← content n)
  | .text s => do return .str (← content s)
  | .array items close => do
    if depth ≤ 1 then throw .malformed
    let vs ← toItems (depth - 1) items
    close.check
    return .arr vs
  | .object members close => do
    if depth ≤ 1 then throw .malformed
    let ms ← toMembers (depth - 1) members
    close.check
    return .obj (sortEntries ms)
  | .broken _ strict _ => .error strict

/-- The values of items. -/
def toItems (depth : Nat) : List Document → Except Fault (List Value)
  | [] => .ok []
  | d :: ds => do
    let v ← toValue depth d
    let vs ← toItems depth ds
    return v :: vs

/-- The values of members. -/
def toMembers (depth : Nat) : List (Option String × Document) →
    Except Fault (List (String × Value))
  | [] => .ok []
  | (k, d) :: ms => do
    let name ← content k
    let v ← toValue depth d
    let rest ← toMembers depth ms
    return (name, v) :: rest

end

/-- A free-form document has at most 127 containers inside one another. -/
def depthLimit : Nat := 128

end Document

end ReviewPanel.Json
