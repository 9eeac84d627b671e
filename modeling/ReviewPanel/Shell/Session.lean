import ReviewPanel.Shell.Statement
import ReviewPanel.Shell.Utility

/-!
# Running a shell script

A session runs statements one after another.  It keeps the parameters, what has been written to the two
streams, the time that has passed, and the ending once a command has ended it.

The shell and the small programs stand in for those of a system, so that a command line can be carried out
where no process can be started.  They follow the manuals, as far as the scripts of reviewers need it.  The
library does not depend on them: commands, and the program as a whole, take the programs of the system as a
parameter (`Programs`), reviewers may come back with anything, and no statement is about what is here.

## Main definitions

* `Session.run` : runs a statement.
* `sh` : the shell as a program; `installed` : the programs that can be started.
-/

namespace ReviewPanel.Shell

/-- A running shell. -/
structure Session where
  disk : Disk
  parameters : Dictionary String
  stdout : List Symbol
  stderr : List Symbol
  /-- How long it has run, in milliseconds. -/
  time : Nat
  /-- The exit code of the last command. -/
  status : Nat
  /-- How the shell ended. -/
  ended : Option ExitStatus

/-- A place for what is written. -/
inductive Sink where
  | out
  | err
  | nowhere
deriving DecidableEq, Repr

/-- Where the two streams go. -/
structure Routes where
  out : Sink
  err : Sink

namespace Session

/-- The value of a parameter; one that is not set is empty. -/
def value (s : Session) (name : List Char) : List Char :=
  match name with
  | ['?'] => (toString s.status).toList
  | _ => ((s.parameters.get? (String.ofList name)).getD "").toList

/-- The fields of a word so far: those that are complete, and the open one. -/
structure Fields where
  complete : List String
  last : Option (List Char)

/-- Adds one character of an unquoted value, which blanks cut. -/
def Fields.cut (f : Fields) (c : Char) : Fields :=
  if c = ' ' ∨ c = '\t' ∨ c = '\n' then
    match f.last with
    | some cs => ⟨f.complete ++ [String.ofList cs], none⟩
    | none => f
  else { f with last := some (f.last.getD [] ++ [c]) }

/-- Adds a piece of a word. -/
def addPiece (s : Session) (f : Fields) : Piece → Fields
  | .literal cs _ => { f with last := some (f.last.getD [] ++ cs) }
  | .parameter name true => { f with last := some (f.last.getD [] ++ s.value name) }
  | .parameter name false => (s.value name).foldl Fields.cut f

/-- The texts that a word stands for. -/
def expand (s : Session) (w : Word) : List String :=
  let f := w.foldl s.addPiece ⟨[], none⟩
  f.complete ++ (f.last.map String.ofList).toList

/-- The routes after a redirection.  What goes to a place by name is not kept. -/
def redirect (r : Routes) : Redirection → Routes
  | .toPlace stream _ => if stream = 2 then { r with err := .nowhere } else { r with out := .nowhere }
  | .toStream stream target =>
    let sink := if target = 2 then r.err else r.out
    if stream = 2 then { r with err := sink } else { r with out := sink }

/-- Writes to a place. -/
def write (s : Session) (text : List Symbol) : Sink → Session
  | .out => { s with stdout := s.stdout ++ text }
  | .err => { s with stderr := s.stderr ++ text }
  | .nowhere => s

/-- Takes over what a program did. -/
def absorb (s : Session) (r : Routes) (ran : Ran) : Session :=
  let s := (s.write ran.stdout r.out).write ran.stderr r.err
  { s with time := s.time + ran.time
           status := match ran.exit with
             | .code n => n
             | .signal n => 128 + n }

/-- The programs that a script can use. -/
def utility? : String → Option Utility
  | "cat" => some cat
  | "echo" => some echoEscaped
  | "printf" => some printf
  | "sleep" => some sleep
  | "test" => some test
  | "[" => some bracket
  | "true" | ":" => some fun _ _ => ending 0
  | "false" => some fun _ _ => ending 1
  | _ => none

/-- The signal that an argument names. -/
def signal? (text : String) : Option Nat :=
  match number? text.toList with
  | some n => some n
  | none => (ExitStatus.signalNames.find? fun s => s.2 == text || s.2 == "SIG" ++ text).map Prod.fst

/-- The signal and the receiver of a request to end a process. -/
def killRequest? : List String → Option (Nat × String)
  | ["-s", name, target] => (signal? name).map fun n => (n, target)
  | [option, target] =>
    match option.toList with
    | '-' :: name => (signal? (String.ofList name)).map fun n => (n, target)
    | _ => none
  | [target] => some (15, target)
  | _ => none

/-- Ends the shell with a code. -/
def exit (s : Session) (args : List String) : Session :=
  match args with
  | [] => { s with ended := some (.code s.status) }
  | code :: _ =>
    match number? code.toList with
    | some n => { s with ended := some (.code (n % 256)) }
    | none =>
      let s := s.write (Utf8.ofString ("sh: 1: exit: Illegal number: " ++ code ++ "\n")) .err
      { s with ended := some (.code 2) }

/-- Goes to another directory. -/
def goto (s : Session) (routes : Routes) (path : String) : Session :=
  let loc := s.disk.locate path
  if s.disk.isDirectory loc then { s with disk := { s.disk with here := loc }, status := 0 }
  else s.absorb routes (complained 2 ("sh: 1: cd: can't cd to " ++ path))

/-- Runs a command. -/
def call (s : Session) (routes : Routes) : List String → Session
  | [] => { s with status := 0 }
  | "exit" :: args => s.exit args
  | ["cd", path] => s.goto routes path
  | "kill" :: args =>
    match killRequest? args with
    | some (n, target) =>
      if s.parameters.get? "$" = some target then { s with ended := some (.signal n) }
      else s.absorb routes (complained 1 "sh: 1: kill: No such process")
    | none => s.absorb routes (complained 2 "sh: 1: kill: Usage: kill [-s sigspec] pid")
  | "exec" :: name :: args =>
    match utility? name with
    | some u =>
      let s := s.absorb routes (u args s.disk)
      { s with ended := some (.code s.status) }
    | none =>
      let s := s.absorb routes (complained 127 ("sh: 1: exec: " ++ name ++ ": not found"))
      { s with ended := some (.code 127) }
  | name :: args =>
    match utility? name with
    | some u => s.absorb routes (u args s.disk)
    | none => s.absorb routes (complained 127 ("sh: 1: " ++ name ++ ": not found"))

/-- Runs a statement; a shell that has ended runs nothing. -/
def run (s : Session) : Statement → Session
  | .skip => s
  | .command words redirections =>
    if s.ended.isSome then s
    else s.call (redirections.foldl redirect ⟨.out, .err⟩) (words.flatMap s.expand)
  | .andThen a b => (s.run a).run b
  | .both a b =>
    let s := s.run a
    if s.ended.isNone ∧ s.status = 0 then s.run b else s
  | .either a b =>
    let s := s.run a
    if s.ended.isNone ∧ s.status ≠ 0 then s.run b else s
  | .choice c yes no =>
    let s := s.run c
    if s.ended.isSome then s
    else if s.status = 0 then { s with status := 0 }.run yes
    else { s with status := 0 }.run no
  | .negation a =>
    let s := s.run a
    if s.ended.isSome then s else { s with status := if s.status = 0 then 1 else 0 }

/-- What the session did, once it is over. -/
def result (s : Session) : Ran :=
  ⟨s.ended.getD (.code s.status), s.stdout, s.stderr, s.time⟩

end Session

/-- The number of a shell among the processes. -/
def processNumber : String := "4711"

/-- Runs a script with a name and arguments. -/
def runScript (script : String) (name : String) (args : List String) (env : Dictionary String)
    (d : Disk) : Ran :=
  let positional := (args.take 9).zipIdx.map fun (a, i) => (toString (i + 1), a)
  let special := [("0", name), ("#", toString args.length), ("$", processNumber)]
  let s : Session := ⟨d, .ofList (env.entries ++ special ++ positional), [], [], 0, 0, none⟩
  match (tokens? script.toList).bind Statement.ofTokens? with
  | some statement => (s.run statement).result
  | none => complained 2 (name ++ ": 1: Syntax error")

/-- The shell: runs a script that is given as an argument, or that is in a file. -/
def sh (inv : Invocation) (d : Disk) : Ran :=
  match inv.args with
  | [] => ending 0
  | ["-c"] => complained 2 "sh: 0: -c requires an argument"
  | "-c" :: script :: rest => runScript script (rest.headD "sh") rest.tail inv.env d
  | file :: args =>
    match d.fileContent (d.locate file) with
    | .ok content => runScript (Utf8.lossy content) file args inv.env d
    | .error _ => complained 2 ("sh: 0: cannot open " ++ file ++ ": No such file")

/-- The programs that can be started. -/
def installed : Programs := fun name =>
  match name with
  | "sh" => some sh
  | "cat" => some fun inv => cat inv.args
  | "echo" => some fun inv => echo inv.args
  | "printf" => some fun inv => printf inv.args
  | "sleep" => some fun inv => sleep inv.args
  | "test" => some fun inv => test inv.args
  | "true" => some fun _ _ => ending 0
  | "false" => some fun _ _ => ending 1
  | _ => none

end ReviewPanel.Shell
