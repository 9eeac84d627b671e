import ReviewPanel.Json.Reader

/-!
# Reading records

A record is written as an object whose members are its fields, in any order, or as an array of its
fields in their declared order.  `Fields α` describes the fields from which an `α` is built; one
description serves both forms.

* Members are read in the order of the document.  An unknown one is passed over, and a field given
  twice is refused before its second value is looked at.
* Once the object is closed, the first field in declared order that is absent and may not be is
  missing.
* An array may leave out fields at its end if they have a default.

## Main definitions

* `Fields` with `Fields.required`, `Fields.optional`, `Fields.defaulted` : descriptions.
* `Fields.Draft`, `Fields.put`, `Fields.finish` : a record while its members are read.
* `Reader.record` : the reader of a record.
-/

namespace ReviewPanel.Json

open Document

/-- The fields from which an `α` is built, the first one innermost. -/
inductive Fields : Type → Type 1 where
  /-- No fields are left. -/
  | build {α : Type} (a : α) : Fields α
  /-- One more field: what stands for it when it is absent from an object, and when an array ends
  before it. -/
  | field {α β : Type} (before : Fields (β → α)) (name : String) (read : Reader β)
      (absent short : Option β) : Fields α

namespace Fields

variable {α β : Type}

/-- A field that has to be there. -/
def required (before : Fields (β → α)) (name : String) (read : Reader β) : Fields α :=
  .field before name read none none

/-- A field that an object may leave out. -/
def optional (before : Fields (Option β → α)) (name : String) (read : Reader β) : Fields α :=
  .field before name (Reader.optional read) (some none) none

/-- A field with a default, which may be left out altogether. -/
def defaulted (before : Fields (β → α)) (name : String) (read : Reader β) (a : β) : Fields α :=
  .field before name read (some a) (some a)

/-- Number of fields. -/
def count : {α : Type} → Fields α → Nat
  | _, .build _ => 0
  | _, .field before .. => before.count + 1

/-- The values of the fields that have been read. -/
def Draft : {α : Type} → Fields α → Type
  | _, .build _ => Unit
  | _, .field (β := β) before .. => before.Draft × Option β

/-- No field has been read. -/
def blank : {α : Type} → (f : Fields α) → f.Draft
  | _, .build _ => ()
  | _, .field before .. => (before.blank, none)

/-- Reads a member into its field; `none` if no field has this name. -/
def put : {α : Type} → (f : Fields α) → Origin → f.Draft → String → Document →
    Option (Except DecodeError f.Draft)
  | _, .build _, _, _, _, _ => none
  | _, .field before own read _ _, o, draft, name, d =>
    match before.put o draft.1 name d with
    | some r => some (r.map fun rest => (rest, draft.2))
    | none =>
      if name = own then
        match draft.2 with
        | some _ => some (failMismatch (.duplicateField own))
        | none => some ((read o d).map fun b => (draft.1, some b))
      else none

/-- The record of the fields that were read. -/
def finish : {α : Type} → (f : Fields α) → f.Draft → Except DecodeError α
  | _, .build a, _ => .ok a
  | _, .field before name _ absent _, draft => do
    let make ← before.finish draft.1
    match draft.2.or absent with
    | some b => return make b
    | none => failMismatch (.missingField name)

/-- Reads members in the order of the document. -/
def putAll (f : Fields α) (o : Origin) (draft : f.Draft) :
    List (Option String × Document) → Except DecodeError f.Draft
  | [] => .ok draft
  | (name, d) :: ms => do
    let name ← need name
    match f.put o draft name d with
    | some r => putAll f o (← r) ms
    | none => do
      Reader.ignore d
      putAll f o draft ms

/-- Takes the fields from the front of an array. -/
def take : {α : Type} → (f : Fields α) → Origin → (want : String) → List Document → Close →
    Except DecodeError (α × List Document)
  | _, .build a, _, _, items, _ => .ok (a, items)
  | _, .field before _ read _ short, o, want, items, close => do
    let (make, rest) ← before.take o want items close
    match rest with
    | d :: ds =>
      let b ← read o d
      return (make b, ds)
    | [] =>
      match close, short with
      | .closed, some b => return (make b, [])
      | _, _ => Reader.tooShort before.count want close

end Fields

namespace Reader

/-- A record with the given name. -/
def record {α : Type} (name : String) (f : Fields α) : Reader α := fun o d =>
  match d with
  | .object ms close => do
    let draft ← f.putAll o f.blank ms
    checkClose close
    f.finish draft
  | .array items close => do
    let n := f.count
    let (a, rest) ← f.take o s!"struct {name} with {n} elements" items close
    noMore o n rest close
    return a
  | d => d.reject ("struct " ++ name)

end Reader

end ReviewPanel.Json
