import ReviewPanel.Dictionary
import ReviewPanel.Disk

/-!
# Running programs

An invocation names a program, its arguments, what it finds in its environment, and where it runs.  It
is started or it is not; once started, it writes to two streams and ends after some time, by an exit
code or by a signal.  Which programs there are, and what they do, is a parameter.

A program whose name has no slash is looked up among those that are installed, and then in the
directory for programs; any other name is a path.  What is found at a path is a document or a
directory, which cannot be run.
-/

namespace ReviewPanel

/-- How a program ended. -/
inductive ExitStatus where
  | code (n : Nat)
  | signal (n : Nat)
deriving DecidableEq, Repr

namespace ExitStatus

/-- It ended well. -/
def isSuccess : ExitStatus → Bool
  | .code n => n == 0
  | .signal _ => false

/-- The names of signals. -/
def signalNames : List (Nat × String) :=
  [(1, "SIGHUP"), (2, "SIGINT"), (3, "SIGQUIT"), (6, "SIGABRT"), (9, "SIGKILL"), (10, "SIGUSR1"),
    (12, "SIGUSR2"), (13, "SIGPIPE"), (14, "SIGALRM"), (15, "SIGTERM")]

/-- The ending as a description. -/
def describe : ExitStatus → String
  | .code n => s!"exit status: {n}"
  | .signal n =>
    match signalNames.find? fun s => s.1 == n with
    | some (_, name) => s!"signal: {n} ({name})"
    | none => s!"signal: {n}"

end ExitStatus

/-- What to run. -/
structure Invocation where
  program : String
  args : List String
  env : Dictionary String
  /-- The directory to run in, if not the present one. -/
  dir : Option String

/-- What a program did. -/
structure Ran where
  exit : ExitStatus
  stdout : List Symbol
  stderr : List Symbol
  /-- How long it took, in milliseconds. -/
  time : Nat

/-- The programs that are installed, by name. -/
abbrev Programs := String → Option (Invocation → Disk → Ran)

/-- Why a program could not be started. -/
inductive SpawnError where
  /-- A text that is handed over has a NUL in it. -/
  | nulByte
  | os (e : OsError)
deriving DecidableEq, Repr

/-- The wording of a failed start. -/
def SpawnError.message : SpawnError → String
  | .nulByte => "nul byte found in provided data"
  | .os e => e.message

namespace Invocation

/-- Every text that is handed over. -/
def texts (inv : Invocation) : List String :=
  inv.program :: inv.args ++ inv.env.entries.flatMap (fun e => [e.1, e.2]) ++ inv.dir.toList

/-- Some text has a NUL in it. -/
def hasNul (inv : Invocation) : Bool := inv.texts.any fun s => s.toList.contains (Char.ofNat 0)

/-- The disk as the program sees it: from the directory that it runs in. -/
def enter (inv : Invocation) (d : Disk) : Except OsError Disk :=
  match inv.dir with
  | none => .ok d
  | some dir =>
    match d.reach (d.locate dir) with
    | .ok .directory => .ok { d with here := d.locate dir }
    | .ok (.file _) => .error .notDirectory
    | .error e => .error e

/-- Why what is at a path cannot be run. -/
def refusalAt (d : Disk) (path : String) : SpawnError :=
  match d.reach (d.locate path) with
  | .ok _ => .os .permissionDenied
  | .error e => .os e

/-- The directory for programs. -/
def programFolder : String := "/usr/bin"

/-- Starts the program and lets it run to its end. -/
def run (inv : Invocation) (programs : Programs) (d : Disk) : Except SpawnError Ran :=
  if inv.hasNul then .error .nulByte
  else
    match inv.enter d with
    | .error e => .error (.os e)
    | .ok d =>
      -- An empty name is looked up nowhere.
      if inv.program.isEmpty then .error (.os .notFound)
      else if inv.program.toList.contains '/' then .error (refusalAt d inv.program)
      else
        match programs inv.program with
        | some program => .ok (program inv d)
        | none => .error (refusalAt d (Path.join programFolder inv.program))

end Invocation

end ReviewPanel
