import ReviewPanel.Text.Utf8

/-!
# The disk

A disk is a tree of directories and files, held as a list of locations with what is there.  The
content of a file is a list of symbols, that is, its bytes as text as far as they are text.

Paths are texts.  A path that does not begin with a slash starts at the working directory.

Writing a document is atomic: it is there with its new content, or the write fails and what was there
stays.  Besides the failures that the tree itself causes, the system may refuse at present to write at some
locations (`Disk.refusal`) and to remove what is at some (`Disk.retention`); nothing else can be assumed of
a disk.

## Main definitions

* `Path.join`, `Disk.locate` : paths as texts, and the locations that they mean.
* `Disk.node?` : what is at a location; `Disk.reach` : what a caller finds on the way there.
* `Disk.makeDirectory`, `Disk.makeDirectories`, `Disk.replaceFile`, `Disk.rename`, `Disk.removeTree`,
  `Disk.fileContent` : the calls.
* `OsError` : why a call fails.
-/

namespace ReviewPanel

/-- Why a call of the system fails. -/
inductive OsError where
  | notFound
  | permissionDenied
  | fileExists
  | notDirectory
  | isDirectory
  | nameTooLong
deriving DecidableEq, Repr

/-- What went wrong, in words. -/
def OsError.reason : OsError → String
  | .notFound => "No such file or directory"
  | .permissionDenied => "Permission denied"
  | .fileExists => "File exists"
  | .notDirectory => "Not a directory"
  | .isDirectory => "Is a directory"
  | .nameTooLong => "File name too long"

/-- The number of a failure. -/
def OsError.number : OsError → Nat
  | .notFound => 2
  | .permissionDenied => 13
  | .fileExists => 17
  | .notDirectory => 20
  | .isDirectory => 21
  | .nameTooLong => 36

/-- The wording of a failure. -/
def OsError.message (e : OsError) : String := e.reason ++ s!" (os error {e.number})"

namespace Path

/-- The text of a path with one more name. -/
def join (base name : String) : String :=
  if base.isEmpty then name
  else if base.toList.getLast? = some '/' then base ++ name
  else base ++ "/" ++ name

/-- The parts of a text between slashes. -/
def splitSlashes : List Char → List (List Char)
  | [] => [[]]
  | c :: cs =>
    match splitSlashes cs with
    | [] => [[c]]
    | part :: parts => if c = '/' then [] :: part :: parts else (c :: part) :: parts

/-- The names on a path; neither nothing nor a single dot is a name. -/
def names (path : String) : List String :=
  ((splitSlashes path.toList).map String.ofList).filter fun name => name ≠ "" ∧ name ≠ "."

end Path

/-- The names that lead from the top to a directory or file. -/
abbrev Location := List String

/-- Goes one name further; two dots lead back. -/
def Location.follow (loc : Location) (name : String) : Location :=
  if name = ".." then loc.dropLast else loc ++ [name]

/-- What can be at a location. -/
inductive Node where
  | directory
  | file (content : List Symbol)
deriving DecidableEq, Repr

/-- A tree of directories and files. -/
structure Disk where
  /-- What is at each location below the top. -/
  nodes : List (Location × Node)
  /-- The working directory. -/
  here : Location
  /-- Locations at which the system refuses to write at present. -/
  refusal : Location → Option OsError
  /-- Locations that the system refuses to remove at present. -/
  retention : Location → Option OsError

namespace Disk

/-- A disk with nothing but the top. -/
def blank : Disk := ⟨[], [], fun _ => none, fun _ => none⟩

/-- The location that a path means. -/
def locate (d : Disk) (path : String) : Location :=
  let start := if path.toList.head? = some '/' then [] else d.here
  (Path.names path).foldl Location.follow start

/-- What is at a location; the top is a directory. -/
def node? (d : Disk) (loc : Location) : Option Node :=
  if loc = [] then some .directory else (d.nodes.find? fun n => n.1 == loc).map Prod.snd

/-- Puts something at a location, in place of what is there. -/
def put (d : Disk) (loc : Location) (n : Node) : Disk :=
  { d with nodes := (loc, n) :: d.nodes.filter fun m => m.1 != loc }

/-- The longest name, in bytes. -/
def maxName : Nat := 255

/-- What a caller finds who follows names from a location. -/
def reachFrom (d : Disk) (start : Location) : List String → Except OsError Node
  | [] =>
    match d.node? start with
    | some n => .ok n
    | none => .error .notFound
  | name :: rest =>
    match d.node? start with
    | none => .error .notFound
    | some (.file _) => .error .notDirectory
    | some .directory =>
      if maxName < name.utf8ByteSize then .error .nameTooLong
      else reachFrom d (start ++ [name]) rest

/-- What a caller finds at a location, or why the way there ends early. -/
def reach (d : Disk) (loc : Location) : Except OsError Node := d.reachFrom [] loc

/-- There is a directory. -/
def isDirectory (d : Disk) (loc : Location) : Bool :=
  match d.reach loc with
  | .ok .directory => true
  | _ => false

/-- There is something. -/
def contains (d : Disk) (loc : Location) : Bool :=
  match d.reach loc with
  | .ok _ => true
  | .error _ => false

/-- Nothing is in the way of a new name in a directory. -/
def checkNew (d : Disk) (loc : Location) : Except OsError Unit :=
  match d.reach loc.dropLast with
  | .error e => .error e
  | .ok (.file _) => .error .notDirectory
  | .ok .directory =>
    match d.reach loc with
    | .ok _ => .error .fileExists
    | .error .notFound =>
      match d.refusal loc with
      | some e => .error e
      | none => .ok ()
    | .error e => .error e

/-- Makes one directory. -/
def makeDirectory (d : Disk) (loc : Location) : Except OsError Disk :=
  (d.checkNew loc).map fun _ => d.put loc .directory

/-- The beginnings of a location, the shortest first. -/
def waypoints (loc : Location) : List Location :=
  (List.range loc.length).map fun n => loc.take (n + 1)

/-- Makes a directory and those on the way to it. -/
def makeDirectories (d : Disk) (loc : Location) : Except OsError Disk :=
  (waypoints loc).foldlM
    (fun d p =>
      match d.reach p with
      | .ok .directory => .ok d
      | .ok (.file _) => .error (if p = loc then .fileExists else .notDirectory)
      -- Nothing is there, or the name is too long: making the directory tells.
      | .error _ => d.makeDirectory p)
    d

/-- The content of a file. -/
def fileContent (d : Disk) (loc : Location) : Except OsError (List Symbol) :=
  match d.reach loc with
  | .ok (.file content) => .ok content
  | .ok .directory => .error .isDirectory
  | .error e => .error e

/-- Where an atomic write fails. -/
inductive WriteError where
  /-- In the directory, which takes no new file. -/
  | folder (e : OsError)
  /-- At the document itself. -/
  | document (e : OsError)
deriving DecidableEq, Repr

/-- Replaces the content of a file in a directory, all at once. -/
def replaceFile (d : Disk) (folder : Location) (name : String) (content : List Symbol) :
    Except WriteError Disk :=
  match d.reach folder with
  | .error e => .error (.folder e)
  | .ok (.file _) => .error (.folder .notDirectory)
  | .ok .directory =>
    let loc := folder ++ [name]
    -- A new file beside it takes its place, which a directory does not allow.
    match d.refusal loc with
    | some e => .error (.document e)
    | none =>
      match d.node? loc with
      | some .directory => .error (.document .isDirectory)
      | _ => .ok (d.put loc (.file content))

/-- Writes a file after making the directories on the way to it. -/
def writeFile (d : Disk) (loc : Location) (content : List Symbol) : Except OsError Disk := do
  let d ← d.makeDirectories loc.dropLast
  match d.reach loc with
  | .ok .directory => .error .isDirectory
  | .ok (.file _) | .error .notFound => return d.put loc (.file content)
  | .error e => .error e

/-- Removes what is at a location and everything below it.  A tree goes as a whole or not at all. -/
def removeTree (d : Disk) (loc : Location) : Except OsError Disk :=
  match d.reach loc with
  | .ok _ =>
    match d.retention loc with
    | some e => .error e
    | none => .ok { d with nodes := d.nodes.filter fun n => !loc.isPrefixOf n.1 }
  | .error e => .error e

/-- Gives what is at a location, with everything below it, a new name in the same directory. -/
def rename (d : Disk) (loc : Location) (name : String) : Except OsError Disk := do
  let target := loc.dropLast ++ [name]
  let _ ← d.reach loc
  d.checkNew target
  return { d with nodes := d.nodes.map fun n =>
    if loc.isPrefixOf n.1 then (target ++ n.1.drop loc.length, n.2) else n }

/-- Everything below a location, by its path from there; the path of a directory ends in a slash. -/
def listing (d : Disk) (loc : Location) : List String :=
  let below := d.nodes.filterMap fun n =>
    if loc.isPrefixOf n.1 ∧ loc.length < n.1.length then
      let path := String.intercalate "/" (n.1.drop loc.length)
      some (match n.2 with
        | .directory => path ++ "/"
        | .file _ => path)
    else none
  below.mergeSort fun a b => decide (a ≤ b)

end Disk

end ReviewPanel
