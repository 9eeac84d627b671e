import ReviewPanel.Disk
import ReviewPanel.RunState

/-!
# Reviewers

A reviewer looks at a unit of work from the perspective of a role.  After some time it comes back with
findings, comes back with an error, or dies; or it never comes back.  A crew assigns reviewers to
roles.
-/

namespace ReviewPanel

/-- Why a review gives no findings. -/
inductive WorkerError where
  /-- The reviewer says so. -/
  | failed (message : String)
  /-- The reviewer died. -/
  | panicked (message : String)
  /-- What it wrote are no findings. -/
  | invalidOutput (message : String)
  /-- It could not be started. -/
  | process (message : String)
  /-- Nobody is in charge of the role. -/
  | unregistered (role : String)
deriving DecidableEq, Repr

/-- The wording of an error. -/
def WorkerError.message : WorkerError → String
  | .failed m => "worker failed: " ++ m
  | .panicked m => "worker panicked: " ++ m
  | .invalidOutput m => "invalid worker output: " ++ m
  | .process m => "worker process error: " ++ m
  | .unregistered role => "no worker registered for role " ++ role

/-- What a reviewer comes back with. -/
abbrev Reply := Except WorkerError (List Finding)

/-- How a review goes. -/
structure Course where
  /-- Milliseconds until the reviewer comes back, if it ever does. -/
  delay : Option Nat
  reply : Reply

/-- Reviews a unit of work from the perspective of a role, with the disk at hand. -/
abbrev Reviewer := Role → WorkItem → Disk → Course

/-- A reviewer that comes back at once with an error. -/
def Reviewer.refusing (e : Role → WorkerError) : Reviewer := fun role _ _ => ⟨some 0, .error (e role)⟩

/-- Reviewers for some roles, and one for all others. -/
structure Crew where
  byRole : Table Role Reviewer
  fallback : Option Reviewer

namespace Crew

/-- One reviewer for every role. -/
def uniform (r : Reviewer) : Crew := ⟨.empty, some r⟩

/-- Somebody is in charge of the role. -/
def covers (c : Crew) (role : Role) : Bool := (c.byRole.get? role).isSome || c.fallback.isSome

/-- The reviewer of a role; a role without one is refused. -/
def reviewer (c : Crew) (role : Role) : Reviewer :=
  ((c.byRole.get? role).or c.fallback).getD (.refusing fun role => .unregistered role.name)

/-- The crew as a description. -/
def describe (c : Crew) : String :=
  let roles := String.intercalate ", " (c.byRole.keys.map Role.title)
  let fallback := c.fallback.isSome
  s!"WorkerSet \x7b roles: [{roles}], fallback: {fallback} \x7d"

end Crew

end ReviewPanel
