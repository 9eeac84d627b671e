import ReviewPanel.CommandLine.Grammar
import ReviewPanel.Config
import ReviewPanel.Role
import ReviewPanel.Verdict

/-!
# What the program is asked to do

The program has three commands: `run` starts a run and waits for it, `status` shows the state of a
run, and `synthesize` makes tests of one.  The options for logging may stand on either side of the
command.
-/

namespace ReviewPanel.CommandLine

/-- What to run. -/
structure RunOptions where
  /-- The unit of work. -/
  task : String
  /-- The roles to ask; none means all. -/
  roles : List Role
  /-- The reviewing program. -/
  workerCommand : String
  workerArgs : List String
  /-- A configuration file. -/
  config : Option String
  workspace : Option String
  runId : Option String
  roleTimeout : Option Nat
  globalTimeout : Option Nat
  pollInterval : Option Nat
deriving DecidableEq, Repr

/-- Where a run is. -/
structure RunLocation where
  workspace : String
  runId : RunId
deriving DecidableEq, Repr

/-- A command. -/
inductive Order where
  | run (o : RunOptions)
  | status (l : RunLocation)
  | synthesize (l : RunLocation)
deriving DecidableEq, Repr

/-- A command line. -/
structure Request where
  /-- What to log. -/
  log : Option String
  /-- Logs are JSON. -/
  logJson : Bool
  order : Order
deriving DecidableEq, Repr

namespace RunOptions

/-- The roles to ask. -/
def roleList (o : RunOptions) : List Role := if o.roles.isEmpty then Role.all else o.roles

/-- The configuration with what the command line says about it. -/
def apply (o : RunOptions) (c : Config) : Config where
  roleTimeout := o.roleTimeout.getD c.roleTimeout
  globalTimeout := o.globalTimeout.getD c.globalTimeout
  pollInterval := o.pollInterval.getD c.pollInterval
  workspaceRoot := o.workspace.or c.workspaceRoot
  onTimeout := c.onTimeout
  rerunPolicy := c.rerunPolicy

end RunOptions

/-! ### Values -/

/-- A number of 64 bits in decimal digits, with or without a plus sign. -/
def number? (s : String) : Option Nat :=
  let cs := match s.toList with
    | '+' :: cs => cs
    | cs => cs
  if cs.isEmpty || !cs.all Json.isDigit then none
  else
    let n := Json.digitsValue cs
    if n ≤ maxMillis then some n else none

/-- Any text will do. -/
def anyText (_ : String) : Option UsageError := none

/-- A path has at least one character. -/
def pathProblem (s : String) : Option UsageError := if s.isEmpty then some .invalidValue else none

/-- A role has a name. -/
def roleProblem (s : String) : Option UsageError :=
  if (Role.parse? s).isNone then some .valueValidation else none

/-- A number has the form of one. -/
def numberProblem (s : String) : Option UsageError :=
  if (number? s).isNone then some .valueValidation else none

/-! ### Levels -/

/-- An option with a value. -/
def valued (long : String) (isRequired : Bool) (problem? : String → Option UsageError) :
    OptionSpec :=
  { long, short := none, arity := .single, isRequired, hyphens := false, problem? }

/-- An option with any number of values. -/
def repeated (long : String) (hyphens : Bool) (problem? : String → Option UsageError) :
    OptionSpec :=
  { long, short := none, arity := .many, isRequired := false, hyphens, problem? }

/-- An option without value. -/
def bare (long : String) (short : Option Char) (arity : Arity) : OptionSpec :=
  { long, short, arity, isRequired := false, hyphens := false, problem? := anyText }

/-- The options that every level has. -/
def commonOptions : List OptionSpec :=
  [valued "log" false anyText, bare "log-json" none .flag,
    bare "help" (some 'h') (.request .displayHelp)]

/-- The level of the program. -/
def programLevel : Level where
  options := bare "version" (some 'V') (.request .displayVersion) :: commonOptions
  commands := ["run", "status", "synthesize", "help"]

/-- The level of `run`. -/
def runLevel : Level where
  options := commonOptions ++
    [valued "task" true anyText, repeated "role" false roleProblem,
      valued "worker-cmd" true anyText, repeated "worker-arg" true anyText,
      valued "config" false pathProblem, valued "workspace" false pathProblem,
      valued "run-id" false anyText, valued "role-timeout-ms" false numberProblem,
      valued "global-timeout-ms" false numberProblem, valued "poll-ms" false numberProblem]
  commands := []

/-- The level of the commands that look at a run. -/
def locationLevel : Level where
  options := commonOptions ++ [valued "workspace" true pathProblem, valued "run-id" true anyText]
  commands := []

/-! ### Reading -/

/-- A number that has been checked. -/
def numberOf (d : Draft) (name : String) : Option Nat := (d.value? name).bind number?

/-- What to run. -/
def runOptions (d : Draft) : RunOptions where
  task := (d.value? "task").getD ""
  roles := (d.values "role").filterMap Role.parse?
  workerCommand := (d.value? "worker-cmd").getD ""
  workerArgs := d.values "worker-arg"
  config := d.value? "config"
  workspace := d.value? "workspace"
  runId := d.value? "run-id"
  roleTimeout := numberOf d "role-timeout-ms"
  globalTimeout := numberOf d "global-timeout-ms"
  pollInterval := numberOf d "poll-ms"

/-- Where a run is. -/
def runLocation (d : Draft) : RunLocation :=
  ⟨(d.value? "workspace").getD "", (d.value? "run-id").getD ""⟩

/-- Reads a level that no other follows. -/
def readLast (l : Level) (rest : List String) : Except UsageError Draft := do
  let (d, _) ← l.read false .blank rest
  l.checkRequired d
  return d

/-- Help on a command, if there is one. -/
def help (topics : List String) : UsageError :=
  match topics with
  | [] => .displayHelp
  | [topic] => if topic ∈ programLevel.commands then .displayHelp else .invalidSubcommand
  | _ :: _ :: _ => .invalidSubcommand

/-- Joins what both levels say about logging; the inner level wins. -/
def request (outer inner : Draft) (order : Order) : Request where
  log := (inner.value? "log").or (outer.value? "log")
  logJson := inner.has "log-json" || outer.has "log-json"
  order := order

/-- Reads a command line, without the name of the program. -/
def parse (args : List String) : Except UsageError Request := do
  let (outer, command) ← programLevel.read false .blank args
  match command with
  | none => throw (if outer.given.isEmpty then .helpOnMissing else .missingSubcommand)
  | some ("run", rest) =>
    let d ← readLast runLevel rest
    return request outer d (.run (runOptions d))
  | some ("status", rest) =>
    let d ← readLast locationLevel rest
    return request outer d (.status (runLocation d))
  | some ("synthesize", rest) =>
    let d ← readLast locationLevel rest
    return request outer d (.synthesize (runLocation d))
  -- The only command left is the request for help.
  | some (_, rest) => throw (help rest)

end ReviewPanel.CommandLine
