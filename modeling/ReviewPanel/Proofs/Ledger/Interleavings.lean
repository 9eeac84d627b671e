import Mathlib.Data.List.Perm.Basic
import ReviewPanel.Proofs.Dictionary
import ReviewPanel.Proofs.Ledger.Calls

/-!
# Roles that move side by side

The roles of a run are moved by parties that know nothing of each other: each has its own sequence of
attempts to make, legal or not, and the order in which the attempts of different roles reach the ledger
is a matter of chance.  The revision of a run counts the accepted moves of all its roles, and a verdict
seals all of them at once, so at first sight the order could show.

It does not.  What the ledger answers to an attempt depends on the outlook of the role alone
(`Ledger.outlook`): whether the run is sealed, which no move changes, and the status of the role, which
only its own moves change.  So each party gets the answers that it would get if it were alone; the
accepted moves are the same in every order, and therefore so is the revision.

## Main definitions

* `Attempt` : an attempt to move a role of a run to a phase.
* `Ledger.attempts`, `Ledger.transcript` : the ledger after some attempts, and the answers to them.
* `Interleaves` : a sequence of attempts is made of given sequences, one for each role.

## Main statements

* `Ledger.outlook_apply` : an attempt changes the outlook of its own role only.
* `Ledger.transcript_filter` : **the answers to one role's attempts are those it gets alone.**
* `Ledger.independent_of_interleaving` : **answers and final ledger do not depend on the order.**
-/

namespace ReviewPanel

/-! ### Attempts and the answers to them -/

/-- An attempt to move a role of a run to a phase. -/
structure Attempt where
  runId : RunId
  role : Role
  phase : Phase
  cause : Option String
  time : Timestamp
deriving DecidableEq

/-- What an attempt to move a role depends on, if there is such a run. -/
structure Outlook where
  /-- A verdict is attached to the run. -/
  isSealed : Bool
  /-- The status of the role, if it is part of the run. -/
  status : Option Status

namespace Attempt

/-- The run and the role that are to change. -/
def seat (a : Attempt) : RunId × Role := (a.runId, a.role)

/-- The attempt as a call of the ledger. -/
def call (a : Attempt) : Ledger.Call := .transition a.runId a.role a.phase a.cause a.time

/-- The answer to the attempt, given the outlook of its role. -/
def answer (a : Attempt) : Option Outlook → Except LedgerError Status
  | none => .error (.unknownRun a.runId)
  | some o =>
    if o.isSealed then .error (.runSealed a.runId)
    else match o.status with
      | none => .error (.unknownRole a.runId a.role)
      | some s =>
        if s.phase.allows a.phase then .ok (s.advance a.phase a.cause a.time)
        else .error (.invalidTransition a.role s.phase a.phase)

/-- The outlook of the role after the attempt. -/
def onward (a : Attempt) (o : Option Outlook) : Option Outlook :=
  match a.answer o with
  | .ok s => some ⟨false, some s⟩
  | .error _ => o

end Attempt

/-- A sequence of attempts is made of the sequences that `plan` gives to the roles of all runs, each in
its own order. -/
def Interleaves (plan : RunId → Role → List Attempt) (as : List Attempt) : Prop :=
  ∀ id role, as.filter (fun a => a.seat = (id, role)) = plan id role

namespace Ledger

/-- The answer of the ledger to an attempt. -/
def respond (l : Ledger) (a : Attempt) : Except LedgerError Status :=
  (l.transition a.runId a.role a.phase a.cause a.time).map Update.answer

/-- The ledger after some attempts. -/
def attempts (l : Ledger) (as : List Attempt) : Ledger := as.foldl (fun l a => l.apply a.call) l

/-- Some attempts, made one after the other, each with the answer of the ledger. -/
def transcript (l : Ledger) : List Attempt → List (Attempt × Except LedgerError Status)
  | [] => []
  | a :: as => (a, l.respond a) :: (l.apply a.call).transcript as

/-- The outlook of a role. -/
def outlook (l : Ledger) (seat : RunId × Role) : Option Outlook :=
  (l.entries.get? seat.1).map fun e => ⟨e.verdict.isSome, e.roles.get? seat.2⟩

@[simp] theorem attempts_nil (l : Ledger) : l.attempts [] = l := rfl

@[simp] theorem attempts_cons (l : Ledger) (a : Attempt) (as : List Attempt) :
    l.attempts (a :: as) = (l.apply a.call).attempts as := rfl

/-! ### One attempt -/

theorem respond_eq (l : Ledger) (a : Attempt) : l.respond a = a.answer (l.outlook a.seat) := by
  simp only [respond, transition, outlook, Attempt.seat]
  cases l.entries.get? a.runId with
  | none => rfl
  | some e =>
    simp only [Option.map_some, Attempt.answer]
    by_cases hv : e.verdict.isSome = true
    · rw [if_pos hv, if_pos hv]
      rfl
    · rw [if_neg hv, if_neg hv]
      cases e.roles.get? a.role with
      | none => rfl
      | some s =>
        by_cases ha : s.phase.allows a.phase = true
        · simp only [if_pos ha]
          rfl
        · simp only [if_neg ha]
          rfl

theorem outlook_of_create {l : Ledger} {id : RunId} {item : WorkItem} {roles : List Role}
    {time : Timestamp} {u : Update RunState} (h : l.create id item roles time = .ok u) {role : Role}
    (hrole : role ∈ roles) : u.ledger.outlook (id, role) = some ⟨false, some .pending⟩ := by
  obtain ⟨-, -, -, rfl⟩ := create_eq_ok.1 h
  simp [outlook, LedgerEntry.fresh, Table.get?_ofKeys, hrole]

theorem apply_of_refused {l : Ledger} {a : Attempt} {e : LedgerError} (h : l.respond a = .error e) :
    l.apply a.call = l := by
  simp only [respond] at h
  simp only [Attempt.call, apply]
  cases ht : l.transition a.runId a.role a.phase a.cause a.time with
  | error => rfl
  | ok u => rw [ht] at h; cases h

theorem moved_of_accepted {l : Ledger} {a : Attempt} {s : Status} (h : l.respond a = .ok s) :
    ∃ e, l.entries.get? a.runId = some e ∧ e.verdict = none ∧
      l.apply a.call = l.put a.runId (e.move a.role s) := by
  simp only [respond] at h
  simp only [Attempt.call, apply]
  cases ht : l.transition a.runId a.role a.phase a.cause a.time with
  | error => rw [ht] at h; cases h
  | ok u =>
    rw [ht] at h
    obtain ⟨e, s', hget, hv, -, -, rfl⟩ := transition_eq_ok.1 ht
    obtain rfl : s'.advance a.phase a.cause a.time = s := Except.ok.inj h
    exact ⟨e, hget, hv, rfl⟩

/-- **An attempt changes the outlook of its own role only**, and that in a way that depends on nothing
else. -/
theorem outlook_apply (l : Ledger) (a : Attempt) (seat : RunId × Role) :
    (l.apply a.call).outlook seat =
      if seat = a.seat then a.onward (l.outlook seat) else l.outlook seat := by
  rw [Attempt.onward]
  cases h : l.respond a with
  | error =>
    rw [apply_of_refused h]
    split_ifs with hseat
    · rw [hseat, ← respond_eq, h]
    · rfl
  | ok s =>
    obtain ⟨e, hget, hv, happ⟩ := moved_of_accepted h
    obtain ⟨id, role⟩ := seat
    rw [happ]
    by_cases hid : id = a.runId
    · subst hid
      by_cases hrole : role = a.role
      · subst hrole
        rw [show (a.runId, a.role) = a.seat from rfl, if_pos rfl, ← respond_eq, h]
        simp [outlook, Attempt.seat, LedgerEntry.move, hv]
      · have hseat : (a.runId, role) ≠ a.seat := fun hs => hrole (congrArg Prod.snd hs)
        simp [outlook, hseat, hget, LedgerEntry.move, Table.get?_set, hrole]
    · have hseat : (id, role) ≠ a.seat := fun hs => hid (congrArg Prod.fst hs)
      simp [outlook, hseat, hid]

/-! ### Any number of attempts -/

theorem outlook_attempts (as : List Attempt) (l : Ledger) (seat : RunId × Role) :
    (l.attempts as).outlook seat =
      (as.filter fun a => a.seat = seat).foldl (fun o a => a.onward o) (l.outlook seat) := by
  induction as generalizing l with
  | nil => rfl
  | cons a as ih =>
    rw [attempts_cons, ih, outlook_apply]
    by_cases hseat : a.seat = seat
    · rw [if_pos hseat.symm, List.filter_cons_of_pos (by simpa using hseat), List.foldl_cons]
    · rw [if_neg (Ne.symm hseat), List.filter_cons_of_neg (by simpa using hseat)]

/-- **The answers to one role's attempts are those it gets alone**, on any ledger on which it has the
same outlook. -/
theorem transcript_filter (as : List Attempt) {l l' : Ledger} {seat : RunId × Role}
    (h : l.outlook seat = l'.outlook seat) :
    (l.transcript as).filter (fun r => r.1.seat = seat) =
      l'.transcript (as.filter fun a => a.seat = seat) := by
  -- induction on the attempts; the outlook of the role is the same on both sides all along
  induction as generalizing l l' with
  | nil => rfl
  | cons a as ih =>
    by_cases hseat : a.seat = seat
    · have hnext : (l.apply a.call).outlook seat = (l'.apply a.call).outlook seat := by
        rw [outlook_apply, outlook_apply, h]
      have hanswer : l.respond a = l'.respond a := by
        rw [respond_eq, respond_eq, hseat, h]
      rw [transcript, List.filter_cons_of_pos (by simpa using hseat),
        List.filter_cons_of_pos (by simpa using hseat), transcript, ih hnext, hanswer]
    · have hnext : (l.apply a.call).outlook seat = l'.outlook seat := by
        rw [outlook_apply, if_neg (Ne.symm hseat), h]
      rw [transcript, List.filter_cons_of_neg (by simpa using hseat),
        List.filter_cons_of_neg (by simpa using hseat), ih hnext]

/-- What an entry is after some attempts, apart from the status of its roles: the revision counts those
that were accepted. -/
theorem get?_attempts (as : List Attempt) {l : Ledger} {id : RunId} {e : LedgerEntry}
    (h : l.entries.get? id = some e) :
    ∃ e', (l.attempts as).entries.get? id = some e' ∧ e'.item = e.item ∧
      e'.createdAt = e.createdAt ∧ e'.verdict = e.verdict ∧
      e'.revision = e.revision +
        ((l.transcript as).filter fun r => r.1.runId = id).countP fun r => r.2.toBool := by
  induction as generalizing l e with
  | nil => exact ⟨e, h, rfl, rfl, rfl, rfl⟩
  | cons a as ih =>
    rw [attempts_cons, transcript]
    by_cases hid : a.runId = id
    · rw [List.filter_cons_of_pos (by simpa using hid), List.countP_cons]
      cases hres : l.respond a with
      | error =>
        rw [apply_of_refused hres]
        exact ih h
      | ok s =>
        obtain ⟨x, hx, -, happ⟩ := moved_of_accepted hres
        obtain rfl : x = e := Option.some.inj (by rw [← hx, hid, h])
        have hstep : (l.apply a.call).entries.get? id = some (x.move a.role s) := by
          rw [happ, get?_put, if_pos hid.symm]
        obtain ⟨e', he', hitem, htime, hv, hrev⟩ := ih hstep
        refine ⟨e', he', hitem, htime, hv, hrev.trans ?_⟩
        rw [LedgerEntry.move, Nat.add_assoc, Nat.add_comm 1]
        rfl
    · rw [List.filter_cons_of_neg (by simpa using hid)]
      have hne : a.call.runId? ≠ some id := fun hc => hid (Option.some.inj hc)
      refine ih ?_
      rw [get?_apply_of_ne l hne, h]

theorem get?_attempts_none (as : List Attempt) {l : Ledger} {id : RunId}
    (h : l.entries.get? id = none) : (l.attempts as).entries.get? id = none := by
  induction as generalizing l with
  | nil => exact h
  | cons a as ih =>
    refine ih ?_
    rcases (l.apply_effect a.call id).of_transition with hsame | ⟨-, e, -, he, -⟩
    · rw [hsame, h]
    · rw [h] at he
      cases he

/-! ### Two orders of the same attempts -/

section Orders

variable {l : Ledger} {as bs : List Attempt} {id : RunId}

/-- The answers to the attempts for a run are the same in every order that is the same for each of its
roles. -/
theorem transcript_perm
    (h : ∀ role, as.filter (fun a => a.seat = (id, role)) = bs.filter fun a => a.seat = (id, role)) :
    ((l.transcript as).filter fun r => r.1.runId = id).Perm
      ((l.transcript bs).filter fun r => r.1.runId = id) := by
  classical
  rw [List.perm_iff_count]
  intro r
  by_cases hid : r.1.runId = id
  · -- an answer to an attempt occurs as often as among the answers to the attempts of its role
    have hcount : ∀ rs : List (Attempt × Except LedgerError Status),
        (rs.filter fun r => r.1.runId = id).count r =
          (rs.filter fun r' => r'.1.seat = (id, r.1.role)).count r := fun rs => by
      rw [List.count_filter (by simpa using hid), List.count_filter (by simp [Attempt.seat, hid])]
    rw [hcount, hcount, transcript_filter as rfl, transcript_filter bs rfl, h]
  · rw [List.count_eq_zero.2 (by simp [hid]), List.count_eq_zero.2 (by simp [hid])]

/-- **A run is the same after every order** of attempts that is the same for each of its roles. -/
theorem get?_attempts_congr
    (h : ∀ role, as.filter (fun a => a.seat = (id, role)) = bs.filter fun a => a.seat = (id, role)) :
    (l.attempts as).entries.get? id = (l.attempts bs).entries.get? id := by
  cases hget : l.entries.get? id with
  | none => rw [get?_attempts_none as hget, get?_attempts_none bs hget]
  | some e =>
    obtain ⟨x, hx, hitem, htime, hv, hrev⟩ := get?_attempts as hget
    obtain ⟨y, hy, hitem', htime', hv', hrev'⟩ := get?_attempts bs hget
    have hroles : x.roles = y.roles := by
      refine Table.ext (funext fun role => ?_)
      have hout : (l.attempts as).outlook (id, role) = (l.attempts bs).outlook (id, role) := by
        rw [outlook_attempts, outlook_attempts, h]
      simp only [outlook, hx, hy, Option.map_some] at hout
      exact congrArg Outlook.status (Option.some.inj hout)
    have hrevision : x.revision = y.revision := by
      rw [hrev, hrev', (transcript_perm h).countP_eq]
    obtain ⟨xi, xt, xr, xv, xn⟩ := x
    obtain ⟨yi, yt, yr, yv, yn⟩ := y
    simp only at hitem htime hv hitem' htime' hv' hroles hrevision
    rw [hx, hy, hitem, hitem', htime, htime', hv, hv', hroles, hrevision]

end Orders

/-- **Roles that move side by side do not feel each other.**  Let every role of every run have its own
sequence of attempts to move it, legal or not, with the times and causes that go with them, and let two
orders be given in which they reach a ledger, any ledger, each role's attempts in their own order.  Then:

* under both orders the answers to the attempts of a role are those it gets if no other role moves at
  all,
* the ledger is the same in the end, so all snapshots are, with their revisions, and
* of each run the ledger has in the end what the attempts for that run alone lead to: moving the roles
  of one run never changes another one. -/
theorem independent_of_interleaving (l : Ledger) {plan : RunId → Role → List Attempt}
    {as bs : List Attempt} (has : Interleaves plan as) (hbs : Interleaves plan bs) :
    (∀ id role,
      (l.transcript as).filter (fun r => r.1.seat = (id, role)) = l.transcript (plan id role) ∧
      (l.transcript bs).filter (fun r => r.1.seat = (id, role)) = l.transcript (plan id role)) ∧
    l.attempts as = l.attempts bs ∧
    ∀ id, (l.attempts as).entries.get? id =
      (l.attempts (as.filter fun a => a.runId = id)).entries.get? id := by
  refine ⟨fun id role => ?_, ?_, fun id => get?_attempts_congr fun role => ?_⟩
  · rw [transcript_filter as rfl, transcript_filter bs rfl, has, hbs]
    exact ⟨rfl, rfl⟩
  · have hsame : ∀ id role, as.filter (fun a => a.seat = (id, role)) =
        bs.filter fun a => a.seat = (id, role) := fun id role => by rw [has, hbs]
    have hentries : (l.attempts as).entries = (l.attempts bs).entries :=
      Dictionary.ext_get? fun id => get?_attempts_congr (hsame id)
    exact congrArg Ledger.mk hentries
  · rw [List.filter_filter]
    refine List.filter_congr fun a _ => ?_
    simp +contextual [Attempt.seat, Prod.ext_iff]

/-- An attempt to move a role of the run `r`. -/
def toward (role : Role) (phase : Phase) (second : Nat) : Attempt :=
  ⟨"r", role, phase, none, ⟨2024, 5, 1, 12, 0, second, 0⟩⟩

/-- One role is started twice and then finishes; the other one tries to finish before it is started, and
runs out of time in the end. -/
def sidePlan (id : RunId) (role : Role) : List Attempt :=
  if id = "r" then
    match role with
    | .build => [toward .build .running 1, toward .build .running 3, toward .build .complete 5]
    | .security =>
      [toward .security .complete 2, toward .security .running 4, toward .security .timedOut 6]
    | _ => []
  else []

/-- The roles take turns. -/
def alternately : List Attempt :=
  [toward .build .running 1, toward .security .complete 2, toward .build .running 3,
    toward .security .running 4, toward .build .complete 5, toward .security .timedOut 6]

/-- One role comes after the other. -/
def consecutively : List Attempt := sidePlan "r" .security ++ sidePlan "r" .build

theorem interleaves_sidePlan : Interleaves sidePlan alternately ∧ Interleaves sidePlan consecutively := by
  constructor
  all_goals
    intro id role
    by_cases hid : id = "r"
    · subst hid
      cases role <;> rfl
    · simp [sidePlan, alternately, consecutively, toward, Attempt.seat, hid, Ne.symm hid]

/-- Two roles of a run that is on the ledger with another one: four of six attempts are accepted under
both orders, and the other run is as it was. -/
theorem independent_of_interleaving_sides : ∃ l : Ledger,
    ((l.attempts alternately).read "r").map RunState.revision = .ok 4 ∧
    (∀ id role,
      (l.transcript alternately).filter (fun r => r.1.seat = (id, role)) =
        l.transcript (sidePlan id role) ∧
      (l.transcript consecutively).filter (fun r => r.1.seat = (id, role)) =
        l.transcript (sidePlan id role)) ∧
    l.attempts alternately = l.attempts consecutively ∧
    ∀ id, (l.attempts alternately).entries.get? id =
      (l.attempts (alternately.filter fun a => a.runId = id)).entries.get? id := by
  refine ⟨after [.create "r" (.ofReference "a") [.build, .security] ⟨2024, 5, 1, 12, 0, 0, 0⟩,
    .create "q" (.ofReference "b") [.build] ⟨2024, 5, 1, 12, 0, 0, 0⟩], rfl, ?_⟩
  exact independent_of_interleaving _ interleaves_sidePlan.1 interleaves_sidePlan.2

end Ledger

end ReviewPanel
