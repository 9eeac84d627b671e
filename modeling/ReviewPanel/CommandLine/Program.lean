import ReviewPanel.Command
import ReviewPanel.CommandLine.LogFilter
import ReviewPanel.CommandLine.Options
import ReviewPanel.ConfigFile
import ReviewPanel.Panel.Schedule
import ReviewPanel.Synthesis.Triage

/-!
# The program

`execute` carries out a command line on a disk: it gives an exit code, what is written to the two
streams, and the disk afterwards.  A run exits with 0, 1 or 2 for its recommendation; any failure exits
with 3 and is reported in one line, the failure and what caused it, each followed by the next.

## Main definitions

* `Failure`, `Failure.chain` : why a command fails, and the line that reports it.
* `runOrder`, `statusOrder`, `synthesizeOrder` : the commands.
* `execute` : the program.
-/

namespace ReviewPanel.CommandLine

/-- Why a command fails. -/
inductive Failure where
  /-- The log filter is none. -/
  | logFilter
  /-- The configuration file gives no configuration. -/
  | loading (path : String) (e : ConfigError)
  | panel (e : PanelError)
  /-- There is no such run. -/
  | notFound (l : RunLocation) (e : WorkspaceError)
  /-- The run has no verdict. -/
  | noVerdict (e : WorkspaceError)
  | workspace (e : WorkspaceError)
deriving DecidableEq, Repr

/-- A configuration error and what caused it. -/
def configChain (e : ConfigError) : List String :=
  e.message :: match e with
    | .read _ reason => [reason]
    | .parse | .invalid _ => []

/-- A workspace error and what caused it. -/
def workspaceChain (e : WorkspaceError) : List String :=
  e.message :: match e with
    | .io _ cause => [cause.message]
    | .json .. | .alreadyExists _ | .missing _ => []

/-- A failure and what caused it. -/
def Failure.chain : Failure → List String
  | .logFilter => ["invalid filter directive"]
  | .loading path e => ("loading config " ++ path) :: configChain e
  | .panel (.config e) => (PanelError.config e).message :: configChain e
  | .panel (.workspace e) => (PanelError.workspace e).message :: workspaceChain e
  | .panel e => [e.message]
  | .notFound l e =>
    ("run " ++ l.runId ++ " not found under " ++ l.workspace) :: workspaceChain e
  | .noVerdict e => "run has no verdict yet; finalize it first" :: workspaceChain e
  | .workspace e => workspaceChain e

/-- The line that reports a failure. -/
def Failure.line (f : Failure) : String := "error: " ++ String.intercalate ": " f.chain

/-- The exit code of a failure. -/
def failureCode : Nat := 3

/-- What the program finds around it. -/
structure World where
  disk : Disk
  programs : Programs
  now : Timestamp
  /-- The number of the next unique stamp. -/
  nextStamp : Nat

/-- What the program does. -/
structure Effect where
  exitCode : Nat
  stdout : String
  failure : Option Failure
  world : World

/-- What the program writes when it fails. -/
def Effect.stderr (e : Effect) : String :=
  match e.failure with
  | some f => f.line ++ "\n"
  | none => ""

/-- The configuration of a run. -/
def runConfig (o : RunOptions) (d : Disk) : Except Failure Config :=
  match o.config with
  | none => .ok (o.apply .default)
  | some path =>
    match Config.load d path with
    | .ok c => .ok (o.apply c)
    | .error e => .error (.loading path e)

/-- Starts a run under the identifier that is asked for, or a new one. -/
def startRun (o : RunOptions) (p : Panel) : Panel × Except PanelError RunId :=
  let item := WorkItem.ofReference o.task
  match o.runId with
  | some id => p.start id item o.roleList
  | none => p.startFresh item o.roleList

/-- Starts a run, waits for it and finalizes it. -/
def runPanel (o : RunOptions) (p : Panel) : Panel × Except PanelError Verdict :=
  match startRun o p with
  | (p, .error e) => (p, .error e)
  | (p, .ok id) =>
    match p.await id p.config.pollInterval p.config.globalTimeout with
    | (p, .error e) => (p, .error e)
    | (p, .ok _) => p.finalize id

/-- Starts a run, waits for it, and shows the verdict. -/
def runOrder (o : RunOptions) (w : World) : World × Except Failure Verdict :=
  match runConfig o w.disk with
  | .error f => (w, .error f)
  | .ok config =>
    let command : Command := ⟨o.workerCommand, o.workerArgs, .empty, none⟩
    match Panel.ofConfig config (.uniform (command.reviewer w.programs)) w.disk w.now true
        w.nextStamp with
    | .error e => (w, .error (.panel e))
    | .ok p =>
      let (p, r) := runPanel o p
      ({ w with disk := p.disk, nextStamp := p.nextStamp }, r.mapError .panel)

/-- Finds a run. -/
def findRun (l : RunLocation) (d : Disk) : Except Failure Workspace :=
  (Workspace.find d l.workspace l.runId).mapError (.notFound l)

/-- Shows the state of a run. -/
def statusOrder (l : RunLocation) (d : Disk) : Except Failure RunState := do
  let w ← findRun l d
  (w.readStatus d).mapError .workspace

/-- The documents with the findings of some roles. -/
def readSlots (w : Workspace) (d : Disk) :
    List Role → Except WorkspaceError (List (Role × Json.Value))
  | [] => .ok []
  | role :: roles => do
    let slot ← w.readSlot d role
    let rest ← readSlots w d roles
    return (slot.toList.map fun v => (role, v)) ++ rest

/-- Makes tests of a finalized run, writes them beside it and shows them. -/
def synthesizeOrder (l : RunLocation) (d : Disk) : Except Failure (Disk × SynthesisReport) := do
  let w ← findRun l d
  let verdict ← (w.readVerdict d).mapError .noVerdict
  let state ← (w.readStatus d).mapError .workspace
  let slots ← (readSlots w d state.roles.keys).mapError .workspace
  let report := SynthesisReport.ofDocuments verdict (.ofList slots)
  let d ← (w.writeTests d report.toValue).mapError .workspace
  return (d, report)

/-- What is shown of a document. -/
def shown (v : Json.Value) : String := v.prettyText ++ "\n"

/-- A failed command. -/
def Failure.effect (f : Failure) (w : World) : Effect := ⟨failureCode, "", some f, w⟩

/-- Carries out a command. -/
def carryOut (order : Order) (w : World) : Effect :=
  match order with
  | .run o =>
    match runOrder o w with
    | (w, .ok v) => ⟨v.recommendation.exitCode, shown v.toValue, none, w⟩
    | (w, .error f) => f.effect w
  | .status l =>
    match statusOrder l w.disk with
    | .ok s => ⟨0, shown s.toValue.canonical, none, w⟩
    | .error f => f.effect w
  | .synthesize l =>
    match synthesizeOrder l w.disk with
    | .ok (disk, r) => ⟨0, shown r.toValue, none, { w with disk }⟩
    | .error f => f.effect w

/-- Carries out a command line, without the name of the program. -/
def execute (args : List String) (w : World) : Effect :=
  match parse args with
  | .error e => ⟨e.exitCode, "", none, w⟩
  | .ok r =>
    if r.log.all isLogFilter then carryOut r.order w else Failure.logFilter.effect w

end ReviewPanel.CommandLine
