import Mathlib.Algebra.Order.Floor.Div
import Mathlib.Tactic.IntervalCases
import ReviewPanel.Proofs.Panel.Progress

/-!
# Looking at the ledger comes to an end

A waiter looks at the ledger, sleeps, and looks again.  What happens while it sleeps is out of its hands: any
call may be made on the ledger, and the reviewers may never come back.  A waiter has its limit and the
clock, and these suffice.  A sleep lasts for one interval, or until the end of the time of the run where that
comes first, so at the look number `m` either `m` intervals have passed or that time is over.

It stops looking for one of three reasons.  Every role has ended; the time of the run is over; or the run is
gone from the ledger.  The third is not the first: a run must have ended to be removed, but the waiter
has not seen it, and all that it can answer is that there is no such run.

What is assumed of time is no more than that it does not go back and that nobody wakes a waiter too early.

## Main definitions

* `Panel.Meanwhile` : what may have happened while a waiter takes no step.
* `Panel.Looks` : the panels at which a waiter takes its steps.
* `Panel.Naps`, `Panel.Completes`, `Panel.Forces`, `Panel.Loses` : what comes of a look.

## Main statements

* `Panel.meanwhile_run` : the steps of all others are among the things that may happen.
* `Panel.Watching.look` : what comes of one look.
* `Panel.Looks.late` : what a number of looks has taken of the time of the run.
* `Panel.polling_ends` : **a waiter sleeps as often as its interval fits into the time that is left, and
  then it looks no more.**
-/

namespace ReviewPanel.Panel

variable {p q : Panel} {id : RunId} {k : Nat}

/-! ### While a waiter sleeps -/

/-- What may have happened from `p` to `q` while the waiter at `k` takes no step: anything, to the ledger and
to all else, except that time goes back or that somebody lays hands on the waiter or on the time at which an
incarnation was started. -/
structure Meanwhile (p : Panel) (k : Nat) (q : Panel) : Prop where
  clock_le : p.clock ≤ q.clock
  waiter : ∀ w, p.waiters[k]? = some w → q.waiters[k]? = some w
  incarnations : Extends (fun inc inc' : Incarnation => inc'.startedAt = inc.startedAt)
    p.incarnations q.incarnations

/-- The panels at which the waiter at `k` takes its steps, from `p` on: `look m` is the panel before its step
number `m`.  It is not woken before it is time. -/
structure Looks (p : Panel) (k : Nat) (look : Nat → Panel) : Prop where
  first : p.Meanwhile k (look 0)
  next : ∀ m, ((look m).stepWaiter k).Meanwhile k (look (m + 1))
  awake : ∀ m t, (look m).wakeTime? k = some t → t ≤ (look m).clock

theorem Meanwhile.refl (p : Panel) (k : Nat) : p.Meanwhile k p :=
  ⟨Nat.le_refl _, fun _ h => h, fun _ inc h => ⟨inc, h, rfl⟩⟩

theorem meanwhile_step {e : Event} (he : e ≠ .wait k) (h : p.Meanwhile k q) :
    p.Meanwhile k (q.step e) where
  clock_le := Nat.le_trans h.clock_le (q.clock_le_step e)
  waiter w hw := (q.step_move e).waiter_of_ne (h.waiter w hw) he
  incarnations i inc hinc := by
    obtain ⟨inc', hinc', hstart⟩ := h.incarnations i inc hinc
    obtain ⟨inc'', hinc'', hgrow⟩ := (q.step_advances e).incarnations i inc' hinc'
    exact ⟨inc'', hinc'', hgrow.startedAt_eq.trans hstart⟩

/-- **The steps of all others** are among the things that may happen. -/
theorem meanwhile_run {es : List Event} (hes : ∀ e ∈ es, e ≠ .wait k) : p.Meanwhile k (p.run es) :=
  run_preserves (P := fun q => p.Meanwhile k q) meanwhile_step hes (.refl p k)

/-- Time passes until the waiter at `k` is due, if it is asleep. -/
def awaken (p : Panel) (k : Nat) : Panel := { p with clock := max p.clock ((p.wakeTime? k).getD 0) }

theorem Meanwhile.awaken (h : p.Meanwhile k q) : p.Meanwhile k (q.awaken k) :=
  ⟨Nat.le_trans h.clock_le (Nat.le_max_left _ _), h.waiter, h.incarnations⟩

/-- The panels at which the waiter at `k` takes its steps, if before its step number `m` the others take
the steps `es m` and then time passes. -/
def amid (p : Panel) (k : Nat) (es : Nat → List Event) : Nat → Panel
  | 0 => (p.run (es 0)).awaken k
  | m + 1 => (((p.amid k es m).stepWaiter k).run (es (m + 1))).awaken k

/-- **A waiter may take its steps amid any schedule of the others.** -/
theorem looks_amid {es : Nat → List Event} (hes : ∀ m, ∀ e ∈ es m, e ≠ .wait k) :
    p.Looks k (p.amid k es) where
  first := (meanwhile_run (hes 0)).awaken
  next m := (meanwhile_run (hes (m + 1))).awaken
  awake m t ht := by
    have hdue : ∀ {q : Panel}, (q.awaken k).wakeTime? k = some t → t ≤ (q.awaken k).clock := by
      intro q hq
      have hwake : q.wakeTime? k = some t := hq
      rw [awaken, hwake, Option.getD_some]
      exact Nat.le_max_right _ _
    cases m with
    | zero => exact hdue ht
    | succ m => exact hdue ht

/-! ### What comes of a look -/

/-- The run goes on and its time is not over, so the waiter sleeps until it looks again: for an interval, or
for what is left of the time of the run if that is less.  What is left is a difference with the clock that is
not negative. -/
structure Naps (p : Panel) (k : Nat) (id : RunId) (interval deadline : Nat) : Prop where
  underway : p.ledger.isComplete id = .ok false
  early : p.clock < deadline
  sleeps : ∃ nap, nap = min interval (deadline - p.clock) ∧ 0 < nap ∧ p.clock + nap ≤ deadline ∧
    (p.stepWaiter k).wakeTime? k = some (p.clock + nap)

/-- Every role has ended, and the waiter turns to the supervisors. -/
structure Completes (p : Panel) (k : Nat) (id : RunId) : Prop where
  ended : ∃ s, p.ledger.read id = .ok s ∧ ∀ role t, s.roles.get? role = some t → t.isTerminal = true
  joins : ∃ w handles, (p.stepWaiter k).waiters[k]? = some w ∧ w.stage = .joining handles

/-- The time of the run is over and some role has not ended.  The waiter turns to the roles that are late. -/
structure Forces (p : Panel) (k : Nat) (id : RunId) (deadline : Nat) : Prop where
  overdue : deadline ≤ p.clock
  turns : ∃ s w, p.ledger.read id = .ok s ∧ s.outstanding ≠ [] ∧
    (p.stepWaiter k).waiters[k]? = some w ∧
    w.stage = .forcing s s.outstanding s.outstanding .withhold

/-- The run is gone from the ledger, and this is what the waiter answers. -/
structure Loses (p : Panel) (k : Nat) (id : RunId) : Prop where
  gone : p.ledger.entries.get? id = none
  fails : (p.stepWaiter k).answer? k = some (.error (.unknownRun id))

/-- The waiter `w` at `k` looks at the ledger until `deadline`. -/
structure Watching (p : Panel) (k : Nat) (w : Waiter) (deadline : Nat) : Prop where
  polling : ∃ t, p.waiters[k]? = some { w with stage := .polling t }
  started : ∃ inc, p.incarnations[w.incarnation]? = some inc ∧ inc.startedAt + w.limit = deadline

theorem outstanding_ne_nil {x : LedgerEntry} (hc : x.isComplete = false) (id : RunId) :
    (x.snapshot id).outstanding ≠ [] := by
  intro hnil
  have hall : x.isComplete = true := LedgerEntry.isComplete_iff.2 fun role t ht => by
    by_contra hterm
    have hmem : role ∈ (x.snapshot id).outstanding :=
      mem_outstanding.2 ⟨t, ht, by simpa using hterm⟩
    rw [hnil] at hmem
    cases hmem
  rw [hc] at hall
  cases hall

namespace Watching

variable {w : Waiter} {deadline : Nat}

theorem deadline_eq (h : p.Watching k w deadline) (stage : WaitStage) :
    p.deadline { w with stage } = deadline := by
  obtain ⟨inc, hinc, hstart⟩ := h.started
  simp only [Panel.deadline, hinc, Option.map_some, Option.getD_some, hstart]

theorem meanwhile (h : p.Watching k w deadline) (hq : p.Meanwhile k q) : q.Watching k w deadline where
  polling := by
    obtain ⟨t, hw⟩ := h.polling
    exact ⟨t, hq.waiter _ hw⟩
  started := by
    obtain ⟨inc, hinc, hstart⟩ := h.started
    obtain ⟨inc', hinc', hsame⟩ := hq.incarnations _ _ hinc
    exact ⟨inc', hinc', by rw [hsame, hstart]⟩

/-- **What comes of a look**: the waiter sleeps, or it stops looking for one of three reasons. -/
theorem look (h : p.Watching k w deadline) (hpoll : 0 < w.poll)
    (hawake : ∀ t, p.wakeTime? k = some t → t ≤ p.clock) :
    p.Naps k w.runId w.poll deadline ∨
      p.Completes k w.runId ∨ p.Forces k w.runId deadline ∨ p.Loses k w.runId := by
  obtain ⟨t, hw⟩ := h.polling
  have htime : t ≤ p.clock := hawake t (by rw [wakeTime?, hw])
  obtain ⟨stage, hturn, hnext⟩ := stepWaiter_turn hw
  have hdead := h.deadline_eq (.polling t)
  cases hturn with
  | asleep hst hlt =>
    cases hst
    omega
  | lost _ hx =>
    refine .inr (.inr (.inr ⟨hx, ?_⟩))
    rw [answer?, hnext]
  | @complete _ x _ hx hc =>
    refine .inr (.inl ⟨⟨_, Ledger.read_eq_ok.2 ⟨x, hx, rfl⟩, ?_⟩, _, _, hnext, rfl⟩)
    exact LedgerEntry.isComplete_iff.1 hc
  | @again _ x _ hx hc hd =>
    rw [hdead] at hd hnext
    refine .inl ⟨?_, hd, _, rfl, ?_, ?_, ?_⟩
    · rw [Ledger.isComplete, Ledger.entry, hx]
      exact congrArg Except.ok hc
    · omega
    · omega
    · rw [wakeTime?, hnext]
  | @turned _ x _ hx hc hd =>
    rw [hdead] at hd
    exact .inr (.inr (.inl ⟨hd, _, _, Ledger.read_eq_ok.2 ⟨x, hx, rfl⟩, outstanding_ne_nil hc _,
      hnext, rfl⟩))
  | refused ha => cases ha
  | expired hst | closed hst | begun hst | ended hst | held hst | joined hst | idle hst => cases hst

theorem nap {interval : Nat} (h : p.Watching k w deadline)
    (hn : p.Naps k w.runId interval deadline) : (p.stepWaiter k).Watching k w deadline where
  polling := by
    obtain ⟨t, hw⟩ := h.polling
    obtain ⟨nap, -, -, -, hwake⟩ := hn.sleeps
    obtain ⟨stage, -, hnext⟩ := stepWaiter_turn hw
    rw [wakeTime?, hnext] at hwake
    cases stage with
    | polling t' => exact ⟨t', hnext⟩
    | forcing | joining | done => cases hwake
  started := by
    obtain ⟨inc, hinc, hstart⟩ := h.started
    obtain ⟨inc', hinc', hgrow⟩ := (p.step_advances (.wait k)).incarnations _ _ hinc
    exact ⟨inc', hinc', by rw [hgrow.startedAt_eq, hstart]⟩

end Watching

/-! ### All looks together -/

namespace Looks

variable {w : Waiter} {deadline : Nat} {look : Nat → Panel}

/-- **What a number of looks has taken of the time of the run**: as many intervals, or all of it. -/
theorem late (hl : p.Looks k look) (h : p.Watching k w deadline) {m : Nat}
    (hn : ∀ j < m, (look j).Naps k w.runId w.poll deadline) :
    (look m).Watching k w deadline ∧ min deadline (p.clock + m * w.poll) ≤ (look m).clock := by
  induction m with
  | zero =>
    have hclock := hl.first.clock_le
    exact ⟨h.meanwhile hl.first, by omega⟩
  | succ m ih =>
    obtain ⟨hwatch, hclock⟩ := ih fun j hj => hn j (Nat.lt_succ_of_lt hj)
    have hnap := hn m (Nat.lt_succ_self m)
    obtain ⟨nap, hlen, -, -, hwake⟩ := hnap.sleeps
    have hnext := hwatch.nap hnap
    refine ⟨hnext.meanwhile (hl.next m), ?_⟩
    -- the waiter is still asleep when the others are done, and is woken in time
    have hslept : (look m).clock + nap ≤ (look (m + 1)).clock := by
      obtain ⟨t, hw⟩ := hnext.polling
      rw [wakeTime?, hw] at hwake
      obtain rfl := Option.some.inj hwake
      refine hl.awake (m + 1) _ ?_
      rw [wakeTime?, (hl.next m).waiter _ hw]
    have hearly := hnap.early
    rw [Nat.succ_mul]
    omega

theorem ends (hl : p.Looks k look) (h : p.Watching k w deadline) (hpoll : 0 < w.poll) :
    ∃ n, n ≤ (deadline - p.clock) ⌈/⌉ w.poll ∧
      (∀ m < n, (look m).Naps k w.runId w.poll deadline) ∧
      ((look n).Completes k w.runId ∨ (look n).Forces k w.runId deadline ∨
        (look n).Loses k w.runId) := by
  classical
  -- all the sleeps that fit in would take the time that is left, so one of these looks is not followed by one
  have hstop : ∃ n ≤ (deadline - p.clock) ⌈/⌉ w.poll,
      ¬ (look n).Naps k w.runId w.poll deadline := by
    by_contra hall
    push Not at hall
    obtain ⟨-, hclock⟩ := hl.late h fun j hj => hall j (Nat.le_of_lt hj)
    have hearly := (hall _ (Nat.le_refl _)).early
    have hfit : deadline - p.clock ≤ w.poll * ((deadline - p.clock) ⌈/⌉ w.poll) :=
      le_smul_ceilDiv hpoll
    rw [Nat.mul_comm] at hfit
    omega
  obtain ⟨m, hm, hnot⟩ := hstop
  have hex : ∃ n, ¬ (look n).Naps k w.runId w.poll deadline := ⟨m, hnot⟩
  have hbefore : ∀ j < Nat.find hex, (look j).Naps k w.runId w.poll deadline := fun j hj =>
    Classical.not_not.1 (Nat.find_min hex hj)
  obtain ⟨hwatch, -⟩ := hl.late h hbefore
  refine ⟨Nat.find hex, (Nat.find_min' hex hnot).trans hm, hbefore, ?_⟩
  exact (hwatch.look hpoll (hl.awake _)).resolve_left (Nat.find_spec hex)

end Looks

theorem watching_of_enterWait {poll limit : Nat} (h : p.enterWait id poll limit = (q, .ok k)) :
    ∃ i inc, p.active id = .ok (i, inc) ∧ q.clock = p.clock ∧
      q.Watching k ⟨i, id, max poll 1, limit, .polling p.clock⟩ (inc.startedAt + limit) := by
  cases hact : p.active id with
  | error e =>
    simp only [enterWait, hact] at h
    cases congrArg Prod.snd h
  | ok r =>
    obtain ⟨i, inc⟩ := r
    simp only [enterWait, hact] at h
    obtain ⟨rfl, hk⟩ := Prod.mk.inj h
    obtain rfl := Except.ok.inj hk
    obtain ⟨-, hinc⟩ := active_eq_ok.1 hact
    exact ⟨i, inc, rfl, rfl, ⟨p.clock, by simp⟩, inc, hinc, rfl⟩

/-- **A waiter sleeps as often as its interval fits into the time that is left, and then it looks no more.**
Let a client begin to wait, with any interval and any limit, for a run that was started at any time, and let
anything happen between its looks.  As long as it goes on looking, the run has not ended and its time is
not over, so that what is left of it is positive; and each sleep is positive and ends not later than
that time.  After at most as many sleeps as there are intervals in the time that is left, it stops: because
every role has ended, or because the time of the run is over, when it ends the roles that are late.  It also
stops, without either, if it finds the run gone from the ledger. -/
theorem polling_ends {poll limit : Nat} {look : Nat → Panel}
    (h : p.enterWait id poll limit = (q, .ok k)) (hl : q.Looks k look) :
    ∃ i inc, p.active id = .ok (i, inc) ∧
      ∃ n, n ≤ (inc.startedAt + limit - p.clock) ⌈/⌉ max poll 1 ∧
        (∀ m < n, (look m).Naps k id (max poll 1) (inc.startedAt + limit)) ∧
        ((look n).Completes k id ∨ (look n).Forces k id (inc.startedAt + limit) ∨
          (look n).Loses k id) := by
  obtain ⟨i, inc, hact, hclock, hwatch⟩ := watching_of_enterWait h
  obtain ⟨n, hn, hrest⟩ := hl.ends hwatch (Nat.lt_of_lt_of_le Nat.one_pos (Nat.le_max_right poll 1))
  exact ⟨i, inc, hact, n, hclock ▸ hn, hrest⟩

/-- The reviewer never comes back and nobody does anything, so the waiter sleeps for one millisecond three
times, although it was given no interval, and then ends the role. -/
theorem polling_ends_unattended : ∃ p q, Reachable p ∧ p.enterWait "r" 0 3 = (q, .ok 0) ∧
    q.Looks 0 (q.amid 0 fun _ => []) ∧
    (∀ m < 3, (q.amid 0 (fun _ => []) m).Naps 0 "r" 1 3) ∧
    (q.amid 0 (fun _ => []) 3).Forces 0 "r" 3 := by
  obtain ⟨p, hp⟩ : ∃ p, p = (fresh .default halfCrew).run
      [.start "r" (.ofReference "t") [.build]] := ⟨_, rfl⟩
  have hreach : Reachable p := hp ▸ (Reachable.ofConfig (ofConfig_blank rfl halfCrew)).run _
  obtain ⟨q, hq⟩ : ∃ q, p.enterWait "r" 0 3 = (q, .ok 0) := by
    rw [hp]
    exact ⟨_, rfl⟩
  have hl : q.Looks 0 (q.amid 0 fun _ => []) := looks_amid (by simp)
  obtain ⟨i, inc, hact, n, hn, hnaps, hstops⟩ := polling_ends hq hl
  have hstart : inc.startedAt = 0 ∧ p.clock = 0 := by
    rw [hp] at hact ⊢
    obtain rfl := congrArg Prod.snd (Except.ok.inj hact)
    exact ⟨rfl, rfl⟩
  have hrunning : (p.ledger.status? ("r", .build)).map Status.isTerminal = some false := by
    rw [hp]
    rfl
  have hlook : ∀ m ≤ 3, (q.amid 0 (fun _ => []) m).clock = m ∧
      (q.amid 0 (fun _ => []) m).ledger = p.ledger := by
    obtain rfl : (p.enterWait "r" 0 3).1 = q := congrArg Prod.fst hq
    rw [hp]
    intro m hm
    interval_cases m <;> exact ⟨rfl, rfl⟩
  rw [hstart.1, hstart.2] at hn
  rw [hstart.1] at hnaps hstops
  obtain ⟨hclock, hledger⟩ := hlook n hn
  rcases hstops with hdone | hforces | hlost
  · obtain ⟨s, hs, hended⟩ := hdone.ended
    rw [hledger] at hs
    rw [Ledger.status?_of_read hs, Option.map_eq_some_iff] at hrunning
    obtain ⟨t, ht, hterm⟩ := hrunning
    rw [hended _ t ht] at hterm
    cases hterm
  · have hover := hforces.overdue
    obtain rfl : n = 3 := Nat.le_antisymm hn (by omega)
    exact ⟨p, q, hreach, hq, hl, hnaps, hforces⟩
  · have hgone := hlost.gone
    rw [hledger] at hgone
    rw [Ledger.status?_eq, hgone] at hrunning
    cases hrunning

/-- A run whose only reviewer is about to come back. -/
def expectant : Panel :=
  (fresh .default halfCrew).run [.start "r" (.ofReference "t") [.security]]

/-- After the first look of the waiter the run ends, and another client finalizes and forgets it. -/
def forgetting (m : Nat) : List Event :=
  if m = 1 then [.comeBack 0, .observe 0, .decide 0, .settle 0, .finalize "r", .forget "r"] else []

/-- **A waiter may stop looking without either**: while it sleeps every role ends, and the run is finalized
and forgotten.  The waiter has not seen the end of the roles, there is time left, and it answers that there
is no such run. -/
theorem polling_of_forgotten : ∃ q i inc, Reachable expectant ∧
    expectant.enterWait "r" 1 1000 = (q, .ok 0) ∧ expectant.active "r" = .ok (i, inc) ∧
    q.Looks 0 (q.amid 0 forgetting) ∧ (q.amid 0 forgetting 1).Loses 0 "r" ∧
    ¬ ∃ n, (∀ m < n, (q.amid 0 forgetting m).Naps 0 "r" 1 (inc.startedAt + 1000)) ∧
      ((q.amid 0 forgetting n).Completes 0 "r" ∨
        (q.amid 0 forgetting n).Forces 0 "r" (inc.startedAt + 1000)) := by
  obtain ⟨i, inc, hact⟩ : ∃ i inc, expectant.active "r" = .ok (i, inc) := ⟨_, _, rfl⟩
  obtain ⟨q, hq⟩ : ∃ q, expectant.enterWait "r" 1 1000 = (q, .ok 0) := ⟨_, rfl⟩
  have hstart : inc.startedAt = 0 := by
    obtain rfl := congrArg Prod.snd (Except.ok.inj hact)
    rfl
  have hl : q.Looks 0 (q.amid 0 forgetting) := looks_amid fun m e he => by
    unfold forgetting at he
    split_ifs at he
    · rintro rfl
      simp at he
    · cases he
  have hlost : (q.amid 0 forgetting 1).Loses 0 "r" ∧ (q.amid 0 forgetting 0).clock = 0 ∧
      (q.amid 0 forgetting 0).ledger.isComplete "r" = .ok false := by
    obtain rfl : (expectant.enterWait "r" 1 1000).1 = q := congrArg Prod.fst hq
    exact ⟨⟨rfl, rfl⟩, rfl, rfl⟩
  obtain ⟨hlost, hclock, hopen⟩ := hlost
  refine ⟨q, i, inc, (Reachable.ofConfig (ofConfig_blank rfl halfCrew)).run _, hq, hact, hl, hlost, ?_⟩
  rintro ⟨n, hnaps, hstops⟩
  rcases n with _ | _ | n
  · -- at the first look the run goes on, and there is time left
    rcases hstops with hdone | hforces
    · obtain ⟨s, hs, hended⟩ := hdone.ended
      obtain ⟨x, hx, rfl⟩ := Ledger.read_eq_ok.1 hs
      have hall : x.isComplete = true := LedgerEntry.isComplete_iff.2 hended
      rw [Ledger.isComplete, Ledger.entry, hx] at hopen
      rw [Except.ok.inj hopen] at hall
      cases hall
    · have hover := hforces.overdue
      omega
  · -- at the second look the run is gone
    have hread : ∀ s, (q.amid 0 forgetting 1).ledger.read "r" ≠ .ok s := fun s hs => by
      obtain ⟨x, hx, -⟩ := Ledger.read_eq_ok.1 hs
      rw [hlost.gone] at hx
      cases hx
    rcases hstops with hdone | hforces
    · obtain ⟨s, hs, -⟩ := hdone.ended
      exact hread s hs
    · obtain ⟨s, -, hs, -⟩ := hforces.turns
      exact hread s hs
  · have hunderway := (hnaps 1 (by omega)).underway
    rw [Ledger.isComplete, Ledger.entry, hlost.gone] at hunderway
    cases hunderway

end ReviewPanel.Panel
