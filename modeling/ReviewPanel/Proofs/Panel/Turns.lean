import ReviewPanel.Proofs.Panel.Desks
import ReviewPanel.Proofs.Panel.Verdicts

/-!
# The turns of a waiter, and what it tries on the ledger

Beside the calls of clients there are two steps that touch the ledger: a supervisor reports how its role
has ended, and a waiter starts or ends a role that is late.  Both try to move one role
(`Panel.attempt?`), and the ledger answers.  What a waiter does next depends on that answer and on little
else, so its next stage can be told from what it sees (`Panel.Turn`), one constructor for each thing that
can happen.

## Main definitions

* `Waiter.attempt?`, `Supervisor.attempt?`, `Panel.attempt?` : what a party tries on the ledger.
* `Panel.Turn` : the stage to which a waiter goes.

## Main statements

* `Panel.step_ledger` : **a step that is no call of a client does to the ledger what it tries.**
* `Panel.stepWaiter_goes` : **where a waiter goes.**
* `Panel.step_waiter` : a waiter takes no step but its own.
-/

namespace ReviewPanel

/-- What a supervisor tries on the ledger. -/
def Supervisor.attempt? (s : Supervisor) (now : Timestamp) : Option Attempt :=
  match s.stage with
  | .decided phase cause => some ⟨s.runId, s.role, phase, cause, now⟩
  | .waiting | .informed _ | .settled _ => none

/-- What a waiter tries on the ledger. -/
def Waiter.attempt? (w : Waiter) (now : Timestamp) : Option Attempt :=
  match w.stage with
  | .forcing snapshot _ (role :: _) .start =>
    if (snapshot.roles.get? role).map Status.phase = some .pending then
      some ⟨w.runId, role, .running, none, now⟩
    else none
  | .forcing _ _ (role :: _) .expire =>
    some ⟨w.runId, role, .timedOut, some (Panel.deadlineCause w.limit), now⟩
  | _ => none

theorem Waiter.attempt?_of_expire {w : Waiter} {snapshot : RunState} {late rest : List Role}
    {role : Role} (hst : w.stage = .forcing snapshot late (role :: rest) .expire) (now : Timestamp) :
    w.attempt? now =
      some ⟨w.runId, role, .timedOut, some (Panel.deadlineCause w.limit), now⟩ := by
  simp only [attempt?, hst]

/-- A waiter tries something only while it ends roles that are late. -/
theorem Waiter.forcing_of_attempt? {w : Waiter} {now : Timestamp} {a : Attempt}
    (ha : w.attempt? now = some a) :
    ∃ snapshot late rest next, w.stage = .forcing snapshot late (a.role :: rest) next ∧
      next ≠ .withhold := by
  unfold Waiter.attempt? at ha
  split at ha
  · rename_i snapshot late role rest hst
    split_ifs at ha
    obtain rfl := Option.some.inj ha
    exact ⟨snapshot, late, rest, .start, hst, by decide⟩
  · rename_i snapshot late role rest hst
    obtain rfl := Option.some.inj ha
    exact ⟨snapshot, late, rest, .expire, hst, by decide⟩
  · cases ha

/-- A waiter ends roles in one way only. -/
theorem Waiter.attempt?_of_isTerminal {w : Waiter} {now : Timestamp} {a : Attempt}
    (ha : w.attempt? now = some a) (hterm : a.phase.isTerminal = true) :
    ∃ snapshot late rest, w.stage = .forcing snapshot late (a.role :: rest) .expire ∧
      a.phase = .timedOut ∧ a.cause = some (Panel.deadlineCause w.limit) := by
  unfold Waiter.attempt? at ha
  split at ha
  · split_ifs at ha
    obtain rfl := Option.some.inj ha
    cases hterm
  · rename_i snapshot late role rest hst
    obtain rfl := Option.some.inj ha
    exact ⟨snapshot, late, rest, hst, rfl, rfl⟩
  · cases ha

namespace Panel

/-- What an event tries on the ledger. -/
def attempt? (p : Panel) : Event → Option Attempt
  | .settle j => (p.supervisors[j]?).bind fun s => s.attempt? p.now
  | .wait k => (p.waiters[k]?).bind fun w => w.attempt? p.now
  | _ => none

/-- Only a supervisor that has decided and a waiter try something on the ledger. -/
theorem attempt?_cases {p : Panel} {e : Event} {a : Attempt} (h : p.attempt? e = some a) :
    (∃ j s, e = .settle j ∧ p.supervisors[j]? = some s ∧ s.stage = .decided a.phase a.cause ∧
        a.seat = (s.runId, s.role)) ∨
      ∃ k w, e = .wait k ∧ p.waiters[k]? = some w ∧ w.attempt? p.now = some a := by
  cases e with
  | settle j =>
    obtain ⟨s, hs, ha⟩ := Option.bind_eq_some_iff.1 h
    unfold Supervisor.attempt? at ha
    split at ha
    · rename_i hst
      obtain rfl := Option.some.inj ha
      exact .inl ⟨j, s, rfl, hs, hst, rfl⟩
    all_goals cases ha
  | wait k =>
    obtain ⟨w, hw, ha⟩ := Option.bind_eq_some_iff.1 h
    exact .inr ⟨k, w, rfl, hw, ha⟩
  | _ => cases h

/-- The event is a call of a client that may create, seal or remove a run. -/
def Event.isCall : Event → Bool
  | .start .. | .finalize _ | .forget _ => true
  | _ => false

theorem unlessRaced_eq_error {α : Type} {r : Except LedgerError α} {e : LedgerError} :
    unlessRaced r = .error e ↔ r = .error e ∧ e.isInvalidTransition = false := by
  cases r with
  | ok a => simp [unlessRaced]
  | error e' => cases e' <;> simp [unlessRaced, LedgerError.isInvalidTransition] <;> rintro rfl <;> rfl

theorem unlessRaced_eq_ok {α : Type} {r : Except LedgerError α} :
    unlessRaced r = .ok () ↔ ∀ e, r = .error e → e.isInvalidTransition = true := by
  cases r with
  | ok a => simp [unlessRaced]
  | error e' => cases e' <;> simp [unlessRaced, LedgerError.isInvalidTransition]

/-! ### Where a waiter goes -/

/-- The supervisors of an incarnation that nobody has joined yet and whose roles were not late. -/
def punctual (p : Panel) (i : Nat) (late : List Role) : List Nat :=
  (((p.incarnations[i]?).map Incarnation.handles).getD []).filter (p.isPunctual late)

/-- The ledger lets a waiter go on: it accepts what the waiter tries, or the waiter has lost a race. -/
def Lets (p : Panel) (w : Waiter) : Prop :=
  ∀ a e, w.attempt? p.now = some a → p.ledger.respond a = .error e → e.isInvalidTransition = true

/-- The stage to which the next step takes a waiter. -/
inductive Turn (p : Panel) (w : Waiter) : WaitStage → Prop
  /-- It is not yet time to look at the ledger. -/
  | asleep {t : Nat} (hst : w.stage = .polling t) (ht : p.clock < t) : Turn p w w.stage
  /-- There is no such run any more. -/
  | lost {t : Nat} (hst : w.stage = .polling t) (hx : p.ledger.entries.get? w.runId = none) :
      Turn p w (.done (.error (.unknownRun w.runId)))
  /-- Every role has ended. -/
  | complete {t : Nat} {x : LedgerEntry} (hst : w.stage = .polling t)
      (hx : p.ledger.entries.get? w.runId = some x) (hc : x.isComplete = true) :
      Turn p w (.joining (p.punctual w.incarnation []))
  /-- It will look again. -/
  | again {t : Nat} {x : LedgerEntry} (hst : w.stage = .polling t)
      (hx : p.ledger.entries.get? w.runId = some x) (hc : x.isComplete = false)
      (hd : p.clock < p.deadline w) :
      Turn p w (.polling (p.clock + min w.poll (p.deadline w - p.clock)))
  /-- The time of the run is over. -/
  | turned {t : Nat} {x : LedgerEntry} (hst : w.stage = .polling t)
      (hx : p.ledger.entries.get? w.runId = some x) (hc : x.isComplete = false)
      (hd : p.deadline w ≤ p.clock) :
      Turn p w (.forcing (x.snapshot w.runId) (x.snapshot w.runId).outstanding
        (x.snapshot w.runId).outstanding .withhold)
  /-- It has ended all roles that were late. -/
  | expired {snapshot : RunState} {late : List Role} {next : ForceStep}
      (hst : w.stage = .forcing snapshot late [] next) :
      Turn p w (.joining (p.punctual w.incarnation late))
  | closed {snapshot : RunState} {late rest : List Role} {role : Role}
      (hst : w.stage = .forcing snapshot late (role :: rest) .withhold) :
      Turn p w (.forcing snapshot late (role :: rest) .start)
  | begun {snapshot : RunState} {late rest : List Role} {role : Role}
      (hst : w.stage = .forcing snapshot late (role :: rest) .start) (hlets : p.Lets w) :
      Turn p w (.forcing snapshot late (role :: rest) .expire)
  | ended {snapshot : RunState} {late rest : List Role} {role : Role}
      (hst : w.stage = .forcing snapshot late (role :: rest) .expire) (hlets : p.Lets w) :
      Turn p w (.forcing snapshot late rest .withhold)
  /-- The ledger does not let it go on. -/
  | refused {a : Attempt} {e : LedgerError} (ha : w.attempt? p.now = some a)
      (hr : p.ledger.respond a = .error e) (he : e.isInvalidTransition = false) :
      Turn p w (.done (.error (.ofLedger e)))
  /-- It waits for a supervisor that has not told the ledger. -/
  | held {handles : List Nat} (hst : w.stage = .joining handles)
      (hs : handles.all p.isSettled = false) : Turn p w w.stage
  | joined {handles : List Nat} (hst : w.stage = .joining handles)
      (hs : handles.all p.isSettled = true) :
      Turn p w (.done ((p.ledger.read w.runId).mapError .ofLedger))
  /-- It was done before. -/
  | idle {answer : Except PanelError RunState} (hst : w.stage = .done answer) : Turn p w w.stage

/-- What a step of a waiter does to the waiters and to the ledger. -/
structure Goes (p : Panel) (k : Nat) (w : Waiter) (q : Panel) (stage : WaitStage) : Prop where
  turn : Turn p w stage
  waiters : q.waiters = p.waiters.modify k fun w => { w with stage }
  ledger : q.ledger = (w.attempt? p.now).elim p.ledger fun a => p.ledger.apply a.call

section Waiter

variable {p : Panel} {k : Nat} {w : Waiter}

theorem modify_waiter_self (hw : p.waiters[k]? = some w) :
    p.waiters = p.waiters.modify k fun w' => { w' with stage := w.stage } := by
  conv_lhs => rw [← List.modify_id k p.waiters]
  refine modify_congr fun w' hw' => ?_
  obtain rfl : w' = w := Option.some.inj (hw'.symm.trans hw)
  rfl

theorem attempt?_of_polling {t : Nat} (hst : w.stage = .polling t) (now : Timestamp) :
    w.attempt? now = none := by
  simp only [Waiter.attempt?, hst]

theorem beginJoin_waiters (p : Panel) (k : Nat) (w : Waiter) (late : List Role) :
    (p.beginJoin k w late).waiters =
        p.waiters.modify k (fun w' => { w' with stage := .joining (p.punctual w.incarnation late) }) ∧
      (p.beginJoin k w late).ledger = p.ledger := by
  unfold beginJoin punctual
  cases p.incarnations[w.incarnation]? with
  | none => exact ⟨rfl, rfl⟩
  | some inc => simp

theorem poll_goes {t : Nat} (hst : w.stage = .polling t) :
    ∃ stage, p.Goes k w (p.poll k w) stage := by
  have hnone := attempt?_of_polling hst p.now
  unfold poll
  cases hx : p.ledger.entries.get? w.runId with
  | none =>
    simp only [Ledger.isComplete, Ledger.entry, hx, Except.map]
    exact ⟨_, .lost hst hx, rfl, by rw [hnone]; rfl⟩
  | some x =>
    simp only [Ledger.isComplete, Ledger.read, Ledger.entry, hx, Except.map]
    cases hc : x.isComplete with
    | true =>
      obtain ⟨hwaiters, hledger⟩ := p.beginJoin_waiters k w []
      exact ⟨_, .complete hst hx hc, hwaiters, by rw [hnone]; exact hledger⟩
    | false =>
      simp only
      split_ifs with hd
      · exact ⟨_, .turned hst hx hc hd, rfl, by rw [hnone]; rfl⟩
      · exact ⟨_, .again hst hx hc (Nat.not_le.1 hd), rfl, by rw [hnone]; rfl⟩

theorem force_goes {snapshot : RunState} {late todo : List Role} {next : ForceStep}
    (hst : w.stage = .forcing snapshot late todo next) :
    ∃ stage, p.Goes k w (p.force k w snapshot late todo next) stage := by
  cases todo with
  | nil =>
    have hnone : w.attempt? p.now = none := by simp only [Waiter.attempt?, hst]
    obtain ⟨hwaiters, hledger⟩ := p.beginJoin_waiters k w late
    exact ⟨_, .expired hst, hwaiters, by rw [hnone]; exact hledger⟩
  | cons role rest =>
    cases next with
    | withhold =>
      have hnone : w.attempt? p.now = none := by simp only [Waiter.attempt?, hst]
      exact ⟨_, .closed hst, by simp [force], by simp [force, hnone]⟩
    | start =>
      by_cases hpend : (snapshot.roles.get? role).map Status.phase = some .pending
      · have ha : w.attempt? p.now = some ⟨w.runId, role, .running, none, p.now⟩ := by
          simp only [Waiter.attempt?, hst, if_pos hpend]
        simp only [force, if_pos hpend]
        cases hr : unlessRaced (p.transition w.runId role .running none).2 with
        | error e =>
          obtain ⟨herr, hrace⟩ := unlessRaced_eq_error.1 hr
          rw [transition_snd] at herr
          exact ⟨_, .refused ha herr hrace, by simp, by simp [ha, Attempt.call]⟩
        | ok u =>
          refine ⟨_, .begun hst fun a e ha' herr => ?_, by simp, by simp [ha, Attempt.call]⟩
          obtain rfl := Option.some.inj (ha.symm.trans ha')
          rw [← transition_snd] at herr
          exact unlessRaced_eq_ok.1 hr e herr
      · have hnone : w.attempt? p.now = none := by
          simp only [Waiter.attempt?, hst, if_neg hpend]
        simp only [force, if_neg hpend]
        refine ⟨_, .begun hst fun a e ha _ => ?_, rfl, by rw [hnone]; rfl⟩
        rw [hnone] at ha
        cases ha
    | expire =>
      have ha := Waiter.attempt?_of_expire hst p.now
      simp only [force]
      cases hr : unlessRaced
          (p.transition w.runId role .timedOut (some (deadlineCause w.limit))).2 with
      | error e =>
        obtain ⟨herr, hrace⟩ := unlessRaced_eq_error.1 hr
        rw [transition_snd] at herr
        exact ⟨_, .refused ha herr hrace, by simp, by simp [ha, Attempt.call]⟩
      | ok u =>
        refine ⟨_, .ended hst fun a e ha' herr => ?_, by simp, by simp [ha, Attempt.call]⟩
        obtain rfl := Option.some.inj (ha.symm.trans ha')
        rw [← transition_snd] at herr
        exact unlessRaced_eq_ok.1 hr e herr

/-- **Where a waiter goes**, and that it does to the ledger what it tries. -/
theorem stepWaiter_goes (hw : p.waiters[k]? = some w) :
    ∃ stage, p.Goes k w (p.stepWaiter k) stage := by
  unfold stepWaiter
  simp only [hw]
  cases hst : w.stage with
  | polling t =>
    simp only
    split_ifs with ht
    · exact poll_goes hst
    · exact ⟨_, .asleep hst (Nat.not_le.1 ht), modify_waiter_self hw,
        by rw [attempt?_of_polling hst]; rfl⟩
  | forcing snapshot late todo next => exact force_goes hst
  | joining handles =>
    have hnone : w.attempt? p.now = none := by simp only [Waiter.attempt?, hst]
    simp only
    split_ifs with hs
    · exact ⟨_, .joined hst hs, rfl, by rw [hnone]; rfl⟩
    · exact ⟨_, .held hst (by simpa using hs), modify_waiter_self hw, by rw [hnone]; rfl⟩
  | done answer =>
    have hnone : w.attempt? p.now = none := by simp only [Waiter.attempt?, hst]
    exact ⟨_, .idle hst, modify_waiter_self hw, by rw [hnone]; rfl⟩

end Waiter

/-! ### The ledger -/

theorem settle_ledger (p : Panel) (j : Nat) :
    (p.settle j).ledger =
      (p.attempt? (.settle j)).elim p.ledger fun a => p.ledger.apply a.call := by
  cases hs : p.supervisors[j]? with
  | none => simp only [settle, attempt?, hs, Option.bind_none, Option.elim_none]
  | some s =>
    cases hst : s.stage with
    | decided phase cause =>
      have hl := p.transition_ledger s.runId s.role phase cause
      simp only [settle, attempt?, hs, hst, Option.bind_some, Supervisor.attempt?, Option.elim_some,
        Attempt.call]
      cases htr : p.transition s.runId s.role phase cause with
      | mk q r =>
        rw [htr] at hl
        cases r <;> exact hl
    | waiting | informed | settled =>
      simp only [settle, attempt?, hs, hst, Option.bind_some, Supervisor.attempt?, Option.elim_none]

theorem Move.ledger_of_supervisor {p q : Panel} {e : Event} {j : Nat} (h : Move p e q)
    (he : e = .observe j ∨ e = .decide j) : q.ledger = p.ledger := by
  cases h with
  | idle | aside | observed => rfl
  | published | withheld => simp
  | _ => rcases he with he | he <;> cases he

/-- **A step that is no call of a client does to the ledger what it tries.** -/
theorem step_ledger {p : Panel} {e : Event} (he : e.isCall = false) :
    (p.step e).ledger = (p.attempt? e).elim p.ledger fun a => p.ledger.apply a.call := by
  cases e with
  | start | finalize | forget => cases he
  | settle j => exact p.settle_ledger j
  | wait k =>
    cases hw : p.waiters[k]? with
    | none => simp [step, stepWaiter, attempt?, hw]
    | some w =>
      obtain ⟨stage, hgoes⟩ := stepWaiter_goes hw
      simpa [step, attempt?, hw] using hgoes.ledger
  | await id poll limit =>
    simp only [step, enterWait, attempt?, Option.elim_none]
    cases p.active id <;> rfl
  | observe j => exact (Move.observe p j).ledger_of_supervisor (.inl rfl)
  | decide j => exact (Move.decide p j).ledger_of_supervisor (.inr rfl)
  | deliver k => exact p.deliver_ledger k
  | comeBack | take | persist | draw | pass | refuse | retain | arrange => rfl

/-! ### The waiter -/

theorem Move.waiter_of_ne {p q : Panel} {e : Event} (h : Move p e q) {k : Nat} {w : Waiter}
    (hw : p.waiters[k]? = some w) (he : e ≠ .wait k) : q.waiters[k]? = some w := by
  have hother : ∀ {k' : Nat} (stage : WaitStage), Event.wait k' ≠ .wait k →
      (p.waiters.modify k' fun w => { w with stage })[k]? = some w := fun stage hne => by
    rw [List.getElem?_modify_ne _ _ fun hk => hne (congrArg Event.wait hk), hw]
  cases h with
  | idle | aside | refused | started | forgotten | finalized | returned | observed => exact hw
  | published | withheld | settled => simpa using hw
  | entered => exact (List.getElem?_append_left (List.getElem?_eq_some_iff.1 hw).1).trans hw
  | polled | turned | finished | joined | skipped => exact hother _ he
  | closed | began | gaveUp | expired => simpa using hother _ he

theorem stepWaiter_turn {p : Panel} {k : Nat} {w : Waiter} (hw : p.waiters[k]? = some w) :
    ∃ stage, Turn p w stage ∧ (p.stepWaiter k).waiters[k]? = some { w with stage } := by
  obtain ⟨stage, hgoes⟩ := stepWaiter_goes hw
  refine ⟨stage, hgoes.turn, ?_⟩
  rw [hgoes.waiters, List.getElem?_modify_eq, hw]
  rfl

/-- **A waiter takes no step but its own**, and that goes as `Panel.Turn` says. -/
theorem step_waiter {p : Panel} {k : Nat} {w : Waiter} (hw : p.waiters[k]? = some w) (e : Event) :
    (e ≠ .wait k ∧ (p.step e).waiters[k]? = some w) ∨
      e = .wait k ∧ ∃ stage, Turn p w stage ∧ (p.step e).waiters[k]? = some { w with stage } := by
  by_cases he : e = .wait k
  · subst he
    exact .inr ⟨rfl, stepWaiter_turn hw⟩
  · exact .inl ⟨he, (p.step_move e).waiter_of_ne hw he⟩

end Panel

end ReviewPanel
