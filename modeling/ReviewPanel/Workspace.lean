import ReviewPanel.Disk
import ReviewPanel.RunState

/-!
# Run workspaces

The documents of a run live in a directory of its own below a common root:

* `status.json`, the state of the run,
* `findings/…`, one document for each role that finished,
* `verdict.json`, and
* `generated-tests.json`.

The name of the directory is the run's identifier with every character outside a small set replaced,
so that an identifier cannot lead out of the root (`sanitize`).

## Main definitions

* `sanitize`, `Workspace.dirFor` : where a run lives.
* `Workspace.create`, `Workspace.find`, `Workspace.archive` : making, finding and setting aside.
* `Workspace.writeStatus`, `Workspace.readStatus`, … : the documents.
-/

namespace ReviewPanel

open Json (Value Reader DecodeError)

/-- Why a workspace call fails. -/
inductive WorkspaceError where
  /-- The system refused. -/
  | io (path : String) (e : OsError)
  /-- A document does not read as what it should be. -/
  | json (path : String) (e : DecodeError)
  /-- The run has a directory already. -/
  | alreadyExists (path : String)
  /-- There is no such directory or document. -/
  | missing (path : String)
deriving DecidableEq, Repr

/-- The wording of a failure. -/
def WorkspaceError.message : WorkspaceError → String
  | .io path e => "I/O error at " ++ path ++ ": " ++ e.message
  | .json path _ => "invalid JSON at " ++ path
  | .alreadyExists path => "run workspace already exists: " ++ path
  | .missing path => "not found: " ++ path

/-- A character that may stand in the name of a run directory. -/
def isNameChar (c : Char) : Bool :=
  ('a'.val ≤ c.val && c.val ≤ 'z'.val) || ('A'.val ≤ c.val && c.val ≤ 'Z'.val) ||
    ('0'.val ≤ c.val && c.val ≤ '9'.val) || c == '-' || c == '_' || c == '.'

/-- Replaces all other characters; a name without one that is no dot gets an underscore in front. -/
def sanitizeChars (cs : List Char) : List Char :=
  let cleaned := cs.map fun c => if isNameChar c then c else '_'
  if cleaned.all (· == '.') then '_' :: cleaned else cleaned

/-- The name of a run's directory. -/
def sanitize (id : RunId) : String := String.ofList (sanitizeChars id.toList)

/-- The directory with one run's documents. -/
structure Workspace where
  runId : RunId
  /-- The path of the directory. -/
  dir : String
deriving DecidableEq, Repr

namespace Workspace

/-- The directory of a run below a root. -/
def dirFor (root : String) (id : RunId) : String := Path.join root (sanitize id)

/-- The name under which a run's directory is set aside. -/
def archiveName (id : RunId) (stamp : String) : String := sanitize id ++ ".archived-" ++ stamp

/-- The name of the directory with the findings. -/
def findingsName : String := "findings"

/-- The name of the state document. -/
def statusName : String := "status.json"

/-- The name of the verdict document. -/
def verdictName : String := "verdict.json"

/-- The name of the document with the tests. -/
def testsName : String := "generated-tests.json"

/-- The path of the directory with the findings. -/
def findingsDir (w : Workspace) : String := Path.join w.dir findingsName

/-- The path of the state document. -/
def statusPath (w : Workspace) : String := Path.join w.dir statusName

/-- The path of the verdict document. -/
def verdictPath (w : Workspace) : String := Path.join w.dir verdictName

/-- The path of the document with the tests. -/
def testsPath (w : Workspace) : String := Path.join w.dir testsName

/-- The path of the document with a role's findings. -/
def slotPath (w : Workspace) (role : Role) : String := Path.join w.findingsDir role.slotName

/-- Makes the directory of a run.  The root stays even if the rest fails. -/
def create (d : Disk) (root : String) (id : RunId) : Disk × Except WorkspaceError Workspace :=
  let w : Workspace := ⟨id, dirFor root id⟩
  match d.makeDirectories (d.locate root) with
  | .error e => (d, .error (.io root e))
  | .ok d =>
    match d.makeDirectory (d.locate w.dir) with
    | .error .fileExists => (d, .error (.alreadyExists w.dir))
    | .error e => (d, .error (.io w.dir e))
    | .ok d =>
      match d.makeDirectory (d.locate w.findingsDir) with
      | .error e => (d, .error (.io w.findingsDir e))
      | .ok d => (d, .ok w)

/-- Finds the directory of a run. -/
def find (d : Disk) (root : String) (id : RunId) : Except WorkspaceError Workspace :=
  let w : Workspace := ⟨id, dirFor root id⟩
  if d.isDirectory (d.locate w.dir) then .ok w else .error (.missing w.dir)

/-- Sets the directory of a run aside and returns its new path, if there is one. -/
def archive (d : Disk) (root : String) (id : RunId) (stamp : String) :
    Except WorkspaceError (Disk × Option String) :=
  let dir := dirFor root id
  if d.contains (d.locate dir) then
    match d.rename (d.locate dir) (archiveName id stamp) with
    | .error e => .error (.io dir e)
    | .ok d => .ok (d, some (Path.join root (archiveName id stamp)))
  else .ok (d, none)

/-! ### Documents -/

/-- Writes a document, all at once. -/
def writeDocument (d : Disk) (folder name : String) (v : Value) : Except WorkspaceError Disk :=
  match d.replaceFile (d.locate folder) name (Utf8.ofString v.prettyText) with
  | .ok d => .ok d
  | .error (.folder e) => .error (.io folder e)
  | .error (.document e) => .error (.io (Path.join folder name) e)

/-- Reads a document. -/
def readDocument {α : Type} (d : Disk) (path : String) (r : Reader α) : Except WorkspaceError α :=
  match d.fileContent (d.locate path) with
  | .error .notFound => .error (.missing path)
  | .error e => .error (.io path e)
  | .ok content =>
    match r.runText content with
    | .ok a => .ok a
    | .error e => .error (.json path e)

variable (w : Workspace) (d : Disk)

/-- Replaces the state document. -/
def writeStatus (s : RunState) : Except WorkspaceError Disk :=
  writeDocument d w.dir statusName s.toValue

/-- Writes the findings of a role. -/
def writeSlot (role : Role) (fs : List Finding) : Except WorkspaceError Disk :=
  writeDocument d w.findingsDir role.slotName (Finding.listValue fs)

/-- Writes the verdict. -/
def writeVerdict (v : Verdict) : Except WorkspaceError Disk :=
  writeDocument d w.dir verdictName v.toValue

/-- Writes the tests. -/
def writeTests (v : Value) : Except WorkspaceError Disk := writeDocument d w.dir testsName v

/-- Reads the state document. -/
def readStatus : Except WorkspaceError RunState := readDocument d w.statusPath RunState.reader

/-- Reads the verdict. -/
def readVerdict : Except WorkspaceError Verdict := readDocument d w.verdictPath Verdict.reader

/-- Reads the findings of a role as a free-form document, if there are any. -/
def readSlot (role : Role) : Except WorkspaceError (Option Value) :=
  match readDocument d (w.slotPath role) Reader.anything with
  | .ok v => .ok (some v)
  | .error (.missing _) => .ok none
  | .error e => .error e

end Workspace

end ReviewPanel
