import ReviewPanel.Toml.Scalar

/-!
# TOML documents

A document is a list of lines: a header that opens a table, or a key with a value that goes into the
table that is open.  A table may be opened once; tables on the way to it come into being by being
named, and may be opened later.  A dotted key makes tables too, and those belong to the table in which
the key stands: neither a header nor a key elsewhere may go on with them.

## Main definitions

* `Item` : a value, a table, or a list of tables that share a header.
* `Table.insert?` : puts a value under a dotted key.
* `Table.openTable?`, `Table.openElement?` : what a header does.
* `parse?` : reads a document; `none` if it is none.
-/

namespace ReviewPanel.Toml

/-- How a table came into being. -/
inductive Origin where
  /-- By a header of its own. -/
  | header
  /-- By a header for something inside it. -/
  | implied
  /-- By a dotted key. -/
  | dotted
deriving DecidableEq, Repr

/-- A part of a document. -/
inductive Item where
  | scalar (s : Scalar)
  | array (items : List Item)
  /-- A table between braces. -/
  | inline (entries : List (String × Item))
  | table (origin : Origin) (entries : List (String × Item))
  /-- Tables that share a header, the last one first. -/
  | tables (elements : List (List (String × Item)))

/-- The entries of a table, in the order in which they came. -/
abbrev Entries := List (String × Item)

namespace Entries

/-- The item of a key. -/
def get? (es : Entries) (key : String) : Option Item := (es.find? fun e => e.1 == key).map Prod.snd

/-- Replaces the item of a key, or adds one at the end. -/
def put (es : Entries) (key : String) (item : Item) : Entries :=
  match es with
  | [] => [(key, item)]
  | e :: rest => if e.1 = key then (key, item) :: rest else e :: put rest key item

/-- Goes down a path of headers, naming tables on the way, and changes the table at its end. -/
def descend (es : Entries) (path : List String) (f : Entries → Option Entries) : Option Entries :=
  match path with
  | [] => f es
  | key :: rest =>
    match es.get? key with
    | none => do return es.put key (.table .implied (← descend [] rest f))
    | some (.table origin inner) => do return es.put key (.table origin (← descend inner rest f))
    | some (.tables (last :: others)) => do
      return es.put key (.tables ((← descend last rest f) :: others))
    | some _ => none

/-- Adds an item under a new key. -/
def add? (es : Entries) (key : String) (item : Item) : Option Entries :=
  if (es.get? key).isSome then none else some (es ++ [(key, item)])

/-- Puts an item under a dotted key: tables on the way were made by dotted keys too. -/
def insert? (es : Entries) (path : List String) (key : String) (item : Item) : Option Entries :=
  match path with
  | [] => es.add? key item
  | first :: rest =>
    match es.get? first with
    | none => do return es ++ [(first, .table .dotted (← insert? [] rest key item))]
    | some (.table .dotted inner) => do
      return es.put first (.table .dotted (← insert? inner rest key item))
    | some (.table .implied inner) =>
      -- only a dotted table further down may take the item
      if rest.isEmpty then none
      else do return es.put first (.table .implied (← insert? inner rest key item))
    | some (.tables (last :: others)) =>
      if rest.isEmpty then none
      else do return es.put first (.tables ((← insert? last rest key item) :: others))
    | some _ => none

/-- Puts an item under a dotted key of a table between braces. -/
def insertInline? (es : Entries) (path : List String) (key : String) (item : Item) :
    Option Entries :=
  match path with
  | [] => es.add? key item
  | first :: rest =>
    match es.get? first with
    | none => do return es ++ [(first, .table .dotted (← insertInline? [] rest key item))]
    | some (.table .dotted inner) => do
      return es.put first (.table .dotted (← insertInline? inner rest key item))
    | some _ => none

/-- Opens the table with a key. -/
def openTable? (key : String) (es : Entries) : Option Entries :=
  match es.get? key with
  | none => some (es ++ [(key, .table .header [])])
  | some (.table .implied inner) => some (es.put key (.table .header inner))
  | some _ => none

/-- Adds a table to those that share a header. -/
def openElement? (key : String) (es : Entries) : Option Entries :=
  match es.get? key with
  | none => some (es ++ [(key, .tables [[]])])
  | some (.tables elements) => some (es.put key (.tables ([] :: elements)))
  | some _ => none

end Entries

/-! ### Reading -/

/-- Containers may stand inside one another this deep, and dotted keys may have as many parts. -/
def depthLimit : Nat := 80

/-- Drops white space within a line. -/
def skipBlanks (cs : List Char) : List Char := cs.dropWhile isBlank

/-- Drops a comment; `none` if it holds a control character. -/
def skipComment? (cs : List Char) : Option (List Char) :=
  match cs with
  | '#' :: rest =>
    let after := rest.dropWhile isPlain
    if after.isEmpty ∨ (newline? after).isSome then some after else none
  | cs => some cs

/-- Drops white space, comments and line breaks.  The fuel bounds their number. -/
def skipLines? : Nat → List Char → Option (List Char)
  | 0, _ => none
  | fuel + 1, cs => do
    let rest ← skipComment? (skipBlanks cs)
    match newline? rest with
    | some rest => skipLines? fuel rest
    | none => some rest

/-- Drops white space, comments and line breaks. -/
def skipSpace? (cs : List Char) : Option (List Char) := skipLines? (cs.length + 1) cs

/-- One part of a key. -/
def keyPart? (cs : List Char) : Option (String × List Char) :=
  let bare := cs.takeWhile isBare
  if bare.isEmpty then shortString? cs else some (String.ofList bare, cs.drop bare.length)

/-- The parts of a dotted key, with the white space around it. -/
def keyParts? : Nat → List Char → Option (List String × List Char)
  | 0, _ => none
  | fuel + 1, cs => do
    let (part, rest) ← keyPart? (skipBlanks cs)
    match skipBlanks rest with
    | '.' :: rest => do
      let (parts, rest) ← keyParts? fuel rest
      return (part :: parts, rest)
    | rest => return ([part], rest)

/-- A key: the parts on the way, and the last part. -/
def key? (cs : List Char) : Option (List String × String × List Char) := do
  let (parts, rest) ← keyParts? (cs.length + 1) cs
  if depthLimit ≤ parts.length then none
  else match parts.reverse with
    | last :: way => some (way.reverse, last, rest)
    | [] => none

mutual

/-- A value.  The fuel bounds the number of values, `depth` the containers around it. -/
def value? : Nat → Nat → List Char → Option (Item × List Char)
  | 0, _, _ => none
  | fuel + 1, depth, cs =>
    match cs with
    | '[' :: rest => if depthLimit ≤ depth + 1 then none else items? fuel (depth + 1) rest
    | '{' :: rest =>
      if depthLimit ≤ depth + 1 then none
      else match skipBlanks rest with
        | '}' :: rest => some (.inline [], rest)
        | rest => members? fuel (depth + 1) [] rest
    | '"' :: _ | '\'' :: _ => (string? cs).map fun r => (.scalar (.string r.1), r.2)
    | cs => (word? cs).map fun r => (.scalar r.1, r.2)

/-- The items of an array up to its end. -/
def items? : Nat → Nat → List Char → Option (Item × List Char)
  | 0, _, _ => none
  | fuel + 1, depth, cs => do
    let cs ← skipSpace? cs
    match cs with
    | ']' :: rest => return (.array [], rest)
    | cs => do
      let (item, rest) ← value? fuel depth cs
      let rest ← skipSpace? rest
      match rest with
      | ']' :: rest => return (.array [item], rest)
      | ',' :: rest =>
        match ← items? fuel depth rest with
        | (.array items, rest) => return (.array (item :: items), rest)
        | _ => none
      | _ => none

/-- The members of a table between braces, up to its end. -/
def members? : Nat → Nat → Entries → List Char → Option (Item × List Char)
  | 0, _, _, _ => none
  | fuel + 1, depth, es, cs => do
    let (way, last, rest) ← key? cs
    let rest ← char? '=' rest
    let (item, rest) ← value? fuel depth (skipBlanks rest)
    let es ← es.insertInline? way last item
    match skipBlanks rest with
    | '}' :: rest => return (.inline es, rest)
    | ',' :: rest => members? fuel depth es rest
    | _ => none

end

/-- A document while it is read: its entries, and the path of the open table. -/
structure Draft where
  root : Entries
  path : List String

/-- The end of a line: white space, a comment, and a line break or the end of the text. -/
def lineEnd? (cs : List Char) : Option (List Char) := do
  let rest ← skipComment? (skipBlanks cs)
  if rest.isEmpty then some [] else newline? rest

/-- A header between one pair of brackets or two. -/
def header? (d : Draft) (cs : List Char) : Option (Draft × List Char) :=
  match cs with
  | '[' :: '[' :: rest => do
    let (way, last, rest) ← key? rest
    let rest ← char? ']' (← char? ']' rest)
    let root ← d.root.descend way (Entries.openElement? last)
    return (⟨root, way ++ [last]⟩, rest)
  | '[' :: rest => do
    let (way, last, rest) ← key? rest
    let rest ← char? ']' rest
    let root ← d.root.descend way (Entries.openTable? last)
    return (⟨root, way ++ [last]⟩, rest)
  | _ => none

/-- A key with a value. -/
def assignment? (d : Draft) (cs : List Char) : Option (Draft × List Char) := do
  let (way, last, rest) ← key? cs
  let rest ← char? '=' rest
  let (item, rest) ← value? (cs.length + 1) 0 (skipBlanks rest)
  let root ← d.root.descend d.path fun es => es.insert? way last item
  return ({ d with root }, rest)

/-- The lines of a document.  The fuel bounds their number. -/
def lines? : Nat → Draft → List Char → Option Entries
  | 0, _, _ => none
  | fuel + 1, d, cs => do
    let cs ← skipSpace? cs
    match cs with
    | [] => return d.root
    | '[' :: _ => do
      let (d, rest) ← header? d cs
      lines? fuel d (← lineEnd? rest)
    | cs => do
      let (d, rest) ← assignment? d cs
      lines? fuel d (← lineEnd? rest)

/-- Reads a document, after a byte order mark if there is one. -/
def parse? (text : String) : Option Entries :=
  let cs := match text.toList with
    | c :: rest => if c.toNat = 0xFEFF then rest else c :: rest
    | [] => []
  lines? (cs.length + 1) ⟨[], []⟩ cs

end ReviewPanel.Toml
