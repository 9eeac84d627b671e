import ReviewPanel.Invocation
import ReviewPanel.Reviewer

/-!
# Reviewers that are programs

A command runs a program once for each role and reads a list of findings from what it writes.  In its
arguments `{role}` and `{task}` stand for the name of the role and the reference of the unit of work;
the program also finds both in its environment.

## Main definitions

* `substitute` : replaces every occurrence of a text, from left to right.
* `Command.expand` : the arguments for a role.
* `Command.review` : one review; `Command.reviewer` : the reviewer.
-/

namespace ReviewPanel

open Json (Reader DecodeError)

/-- Replaces the occurrences of a text; the first `inside` characters belong to one that has been
replaced. -/
def substituteFrom (pattern replacement : List Char) : Nat → List Char → List Char
  | _, [] => []
  | inside + 1, _ :: cs => substituteFrom pattern replacement inside cs
  | 0, c :: cs =>
    if pattern.isPrefixOf (c :: cs) then
      replacement ++ substituteFrom pattern replacement (pattern.length - 1) cs
    else c :: substituteFrom pattern replacement 0 cs

/-- Replaces every occurrence of a text, from left to right. -/
def substitute (pattern replacement text : String) : String :=
  String.ofList (substituteFrom pattern.toList replacement.toList 0 text.toList)

/-- A program that reviews. -/
structure Command where
  program : String
  /-- Arguments, with placeholders. -/
  args : List String
  env : Dictionary String
  dir : Option String

/-- Why a command gives no findings. -/
inductive CommandError where
  /-- It could not be started. -/
  | spawn (e : SpawnError)
  /-- It ended badly; the end of what it complained about is kept. -/
  | exited (status : ExitStatus) (complaint : String)
  /-- What it wrote are no findings. -/
  | undecodable (e : DecodeError)
deriving DecidableEq, Repr

namespace Command

/-- The placeholder for the role. -/
def rolePlaceholder : String := "\x7brole\x7d"

/-- The placeholder for the unit of work. -/
def taskPlaceholder : String := "\x7btask\x7d"

/-- The arguments for a role. -/
def expand (c : Command) (role : Role) (item : WorkItem) : List String :=
  c.args.map fun a =>
    -- The task comes last, so what it brings in stays as it is.
    substitute taskPlaceholder item.reference (substitute rolePlaceholder role.name a)

/-- What is run for a role. -/
def invocation (c : Command) (role : Role) (item : WorkItem) : Invocation where
  program := c.program
  args := c.expand role item
  env := (c.env.insert "AUDIT_ROLE" role.name).insert "AUDIT_TASK" item.reference
  dir := c.dir

/-- How many characters of a complaint are kept. -/
def complaintLength : Nat := 512

/-- The end of what a program complained about, without white space around it. -/
def complaint (stderr : List Symbol) : String :=
  let cs := (Utf8.lossy stderr).toList
  Text.trim (String.ofList (cs.drop (cs.length - complaintLength)))

/-- The findings of a program that has ended. -/
def findings (ran : Ran) : Except CommandError (List Finding) :=
  if ran.exit.isSuccess then
    match (Reader.list Finding.reader).runText ran.stdout with
    | .ok fs => .ok fs
    | .error e => .error (.undecodable e)
  else .error (.exited ran.exit (complaint ran.stderr))

/-- One review. -/
def review (c : Command) (programs : Programs) (role : Role) (item : WorkItem) (d : Disk) :
    Nat × Except CommandError (List Finding) :=
  match (c.invocation role item).run programs d with
  | .error e => (0, .error (.spawn e))
  | .ok ran => (ran.time, findings ran)

/-- A failed review, as it is recorded. -/
def workerError (c : Command) : CommandError → WorkerError
  | .spawn e => .process ("failed to run " ++ c.program ++ ": " ++ e.message)
  | .exited status complaint =>
    .failed (c.program ++ " exited with " ++ status.describe ++ ": " ++ complaint)
  | .undecodable e =>
    .invalidOutput (c.program ++ ": " ++ match e with
      | .mismatch m => m.message
      | .fault .malformed => "malformed JSON"
      | .fault .truncated => "unexpected end of JSON")

/-- The reviewer that runs the command. -/
def reviewer (c : Command) (programs : Programs) : Reviewer := fun role item d =>
  let (time, r) := c.review programs role item d
  ⟨some time, r.mapError c.workerError⟩

end Command

end ReviewPanel
