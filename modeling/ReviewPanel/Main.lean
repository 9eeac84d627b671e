import ReviewPanel.CommandLine.Program
import ReviewPanel.Shell.Session
import Std.Time.DateTime.Timestamp

/-!
# The command line

The outermost layer: it loads what a command line names from the disk of the system, lets `execute`
decide everything, and brings the disk of the system to the same state.  It starts no process: the
programs that reviewers may be are those of `Shell.installed`, in place of those of the system.
-/

namespace ReviewPanel.CommandLine

/-- The paths that the arguments of a reviewing program may mean. -/
def workerPaths (o : RunOptions) : List String :=
  let command : Command := ⟨o.workerCommand, o.workerArgs, .empty, none⟩
  o.roleList.flatMap fun role => command.expand role (.ofReference o.task)

/-- Loads what is at a path, with everything below it. -/
partial def loadPath (d : Disk) (path : String) : IO Disk := do
  let full := (← IO.currentDir) / path
  let loc := d.locate path
  if loc.isEmpty then return d
  let withFolders := fun (n : Node) =>
    ((d.makeDirectories loc.dropLast).toOption.getD d).put loc n
  if ← full.isDir then
    let mut d := withFolders .directory
    for entry in ← full.readDir do
      d ← loadPath d (Path.join path entry.fileName)
    return d
  else if ← full.pathExists then
    return withFolders (.file (Utf8.symbols (← IO.FS.readBinFile full)))
  else return d

/-- Loads what a command needs. -/
def loadOrder (d : Disk) : Order → IO Disk
  | .run o => do
    let d ← (o.config.toList ++ workerPaths o).foldlM loadPath d
    let root := match runConfig o d with
      | .ok config => config.workspaceRoot
      | .error _ => none
    root.toList.foldlM loadPath d
  | .status l | .synthesize l => loadPath d l.workspace

/-- The path of a location. -/
def pathOf (loc : Location) : String := "/" ++ String.intercalate "/" loc

/-- Brings the disk of the system from one state to another. -/
def store (before after : Disk) : IO Unit := do
  for (loc, node) in before.nodes do
    if after.node? loc = none then
      match node with
      | .file _ => IO.FS.removeFile (pathOf loc)
      | .directory => pure ()
  for (loc, node) in before.nodes.mergeSort fun a b => decide (b.1.length ≤ a.1.length) do
    if after.node? loc = none ∧ node = .directory then IO.FS.removeDir (pathOf loc)
  for (loc, node) in after.nodes do
    if before.node? loc ≠ some node then
      match node with
      | .directory => IO.FS.createDirAll (pathOf loc)
      | .file content =>
        IO.FS.createDirAll (pathOf loc.dropLast)
        IO.FS.writeBinFile (pathOf loc) (Utf8.bytes content)

/-- What the program finds around it. -/
def surroundings : IO World := do
  let time ← Std.Time.Timestamp.now
  let seconds := time.val.second.val.toNat
  let nano := time.val.nano.val.toNat
  let random ← IO.getRandomBytes 10
  let here := Disk.blank.locate (toString (← IO.currentDir))
  let disk := (Disk.blank.makeDirectories here).toOption.getD .blank
  return { disk := { disk with here }
           programs := Shell.installed
           now := .ofSeconds seconds nano
           nextStamp := random.toList.foldl (fun n b => 256 * n + b.toNat)
             (seconds * 1000 + nano / 1000000) }

/-- Carries out a command line on the system. -/
def runOnSystem (args : List String) : IO UInt32 := do
  let w ← surroundings
  let disk ← match parse args with
    | .ok r => loadOrder w.disk r.order
    | .error _ => pure w.disk
  let e := execute args { w with disk }
  store disk e.world.disk
  IO.print e.stdout
  IO.eprint e.stderr
  return e.exitCode.toUInt32

end ReviewPanel.CommandLine

/-- Runs the program. -/
def main (args : List String) : IO UInt32 := ReviewPanel.CommandLine.runOnSystem args
