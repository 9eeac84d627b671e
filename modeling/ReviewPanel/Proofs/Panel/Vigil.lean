import ReviewPanel.Proofs.Panel.Rehearsal
import ReviewPanel.Proofs.Panel.Verdicts

/-!
# How a client waits for a run

A client that waits looks at the ledger every now and then.  How often it does so decides neither when
time stands still nor what is on the ledger then: the supervisors act on their own account, at the
instants at which something is due for them.  All that the client does by itself is to end the roles that
are late when the time of the run is over, and at that instant these are the roles for which nothing was
due before.

So a wait that begins with every role running comes to an end, and when it does, every role has ended as
it should.

## Main definitions

* `Rehearsal.ClientAt` : the stage of the client.
* `Rehearsal.Forcing` : the client is about to end the roles that are late.
* `Rehearsal.Pending`, `Rehearsal.Over` : before a round of the wait, and after the last one.

## Main statements

* `Rehearsal.Forcing.over` : **the client ends all roles that are late, in one go.**
* `Rehearsal.Pending.round` : what one round of the wait leads to.
* `Rehearsal.Pending.over` : **the wait comes to an end, with every role ended as it should.**
-/

namespace ReviewPanel

namespace Panel

/-! ### The steps of a waiter keep all parties -/

theorem Keeps.setWait (p : Panel) (k : Nat) (stage : WaitStage) : p.Keeps (p.setWait k stage) :=
  .of_eq rfl rfl rfl

theorem Keeps.stopLate (p : Panel) (w : Waiter) (role : Role) : p.Keeps (p.stopLate w role) := by
  rcases p.stopLate_eq w role with h | ⟨j, h⟩
  · rw [h]
    exact .of_eq rfl rfl rfl
  · rw [h]
    exact .modifySupervisor p _ _

theorem beginJoin_eq {p : Panel} {w : Waiter} {inc : Incarnation}
    (hinc : p.incarnations[w.incarnation]? = some inc) (k : Nat) (late : List Role) :
    p.beginJoin k w late =
      (p.modifyIncarnation w.incarnation fun inc' =>
        { inc' with handles := (inc.handles.partition (p.isPunctual late)).2 }).setWait k
        (.joining (inc.handles.partition (p.isPunctual late)).1) := by
  simp only [beginJoin, hinc]

theorem Keeps.beginJoin (p : Panel) (k : Nat) (w : Waiter) (late : List Role) :
    p.Keeps (p.beginJoin k w late) := by
  cases hinc : p.incarnations[w.incarnation]? with
  | none =>
    simp only [Panel.beginJoin, hinc]
    exact .setWait p k _
  | some inc =>
    -- those that were not late are joined, the others are left
    have hleft : p.Keeps (p.modifyIncarnation w.incarnation fun inc' =>
        { inc' with handles := (inc.handles.partition (p.isPunctual late)).2 }) := by
      refine ⟨rfl, rfl, fun i inc' hinc' => ?_⟩
      rw [modifyIncarnation_incarnations, List.getElem?_modify] at hinc'
      obtain ⟨inc₀, hinc₀, rfl⟩ := Option.map_eq_some_iff.1 hinc'
      refine ⟨inc₀, hinc₀, ?_⟩
      split_ifs with hi
      · obtain rfl : inc₀ = inc := Option.some.inj (hinc₀.symm.trans (hi ▸ hinc))
        rw [List.partition_eq_filter_filter]
        exact List.filter_sublist.subset
      · exact List.Subset.refl _
    rw [beginJoin_eq hinc]
    exact hleft.trans (.setWait _ k _)

theorem Keeps.poll (p : Panel) (k : Nat) (w : Waiter) : p.Keeps (p.poll k w) := by
  unfold Panel.poll
  split
  · exact .setWait p k _
  · exact .beginJoin p k w []
  · dsimp only
    split_ifs
    · split <;> exact .setWait p k _
    · exact .setWait p k _

theorem Keeps.force (p : Panel) (k : Nat) (w : Waiter) (snapshot : RunState) (late todo : List Role)
    (next : ForceStep) : p.Keeps (p.force k w snapshot late todo next) := by
  cases todo with
  | nil => exact .beginJoin p k w late
  | cons role rest =>
    cases next with
    | withhold => exact (Keeps.withhold p _ _).trans (.setWait _ k _)
    | start =>
      simp only [Panel.force]
      split_ifs
      · split <;> exact (Keeps.transition p _ _ _ _).trans (.setWait _ k _)
      · exact .setWait p k _
    | expire =>
      simp only [Panel.force]
      split
      · exact ((Keeps.transition p _ _ _ _).trans (.stopLate _ w _)).trans (.setWait _ k _)
      · exact (Keeps.transition p _ _ _ _).trans (.setWait _ k _)

theorem keeps_stepWaiter (p : Panel) (k : Nat) : p.Keeps (p.stepWaiter k) := by
  have hsame : p.Keeps p := .of_eq rfl rfl rfl
  unfold stepWaiter
  split
  · exact hsame
  · split
    · split_ifs
      · exact .poll p k _
      · exact hsame
    · exact .force p k _ _ _ _ _
    · split_ifs
      · exact .setWait p k _
      · exact hsame
    · exact hsame

/-- The clock goes to the next look at the ledger, unless something is due before. -/
theorem nextTime_of_wakeTime {p : Panel} {k u : Nat} (h : p.wakeTime? k = some u) :
    p.nextTime k = p.nextEvent?.elim u (min · u) := by
  unfold nextTime
  rw [h]
  cases p.nextEvent? <;> rfl

theorem nextTime_le {p : Panel} {k u : Nat} (h : p.wakeTime? k = some u) : p.nextTime k ≤ u := by
  rw [nextTime_of_wakeTime h]
  cases p.nextEvent? with
  | none => exact Nat.le_refl u
  | some t => exact Nat.min_le_right t u

theorem clock_lt_nextTime {p : Panel} {k u : Nat} (h : p.wakeTime? k = some u) (hlt : p.clock < u) :
    p.clock < p.nextTime k := by
  rw [nextTime_of_wakeTime h]
  cases ht : p.nextEvent? with
  | none => exact hlt
  | some t => exact Nat.lt_min.2 ⟨clock_lt_nextEvent ht, hlt⟩

theorem drive_succ {p : Panel} {k : Nat} (h : p.canStep k = true) (fuel : Nat) :
    drive k (fuel + 1) p = drive k fuel (p.stepWaiter k) := by
  rw [drive, if_pos h]

theorem drive_of_stuck {p : Panel} {k : Nat} (h : p.canStep k = false) (fuel : Nat) :
    drive k fuel p = p := by
  cases fuel with
  | zero => rfl
  | succ fuel => rw [drive, if_neg (by simp [h])]

end Panel

namespace Rehearsal

variable {R : Rehearsal} {p q : Panel} {role : Role}

/-! ### The client -/

/-- The waiter of the client, at a given stage. -/
def waiter (R : Rehearsal) (stage : WaitStage) : Waiter where
  incarnation := R.incarnation
  runId := R.runId
  poll := max R.poll 1
  limit := R.limit
  stage := stage

/-- The client has come to a given stage. -/
def ClientAt (R : Rehearsal) (p : Panel) (stage : WaitStage) : Prop :=
  p.waiters[R.client]? = some (R.waiter stage)

theorem ClientAt.setWait {stage : WaitStage} (h : R.ClientAt p stage) (hw : q.waiters = p.waiters)
    (stage' : WaitStage) : R.ClientAt (q.setWait R.client stage') stage' := by
  rw [ClientAt, Panel.setWait_waiters, List.getElem?_modify_eq, hw, h]
  rfl

theorem Scene.stepWaiter (h : R.Scene p) (k : Nat) : R.Scene (p.stepWaiter k) :=
  h.of_advances (h.reachable.step (.wait k)) (p.step_advances (.wait k)) (p.keeps_stepWaiter k)

/-- The entry of the run on the ledger. -/
structure Shows (R : Rehearsal) (p : Panel) (x : LedgerEntry) : Prop where
  entry : p.ledger.entries.get? R.runId = some x
  roles : ∀ role, (x.roles.get? role).isSome = true ↔ role ∈ R.roles

theorem Shows.outlook {x : LedgerEntry} (h : R.Shows p x) (role : Role) :
    p.ledger.outlook (R.runId, role) = some ⟨x.verdict.isSome, x.roles.get? role⟩ := by
  rw [Ledger.outlook, h.entry]
  rfl

theorem Shows.read {x : LedgerEntry} (h : R.Shows p x) :
    p.ledger.read R.runId = .ok (x.snapshot R.runId) :=
  Ledger.read_eq_ok.2 ⟨x, h.entry, rfl⟩

theorem Scene.entry (h : R.Scene p) : ∃ x, R.Shows p x := by
  obtain ⟨inc, hinc, -, hslots, -⟩ := h.incarnation
  rcases h.reachable.wired.listed R.runId with ⟨hnone, -⟩ | ⟨i, inc', x, htab, hinc', -, hx, hroles⟩
  · rw [h.table_eq] at hnone
    cases hnone
  · obtain rfl : i = R.incarnation := Option.some.inj (htab.symm.trans h.table_eq)
    obtain rfl : inc' = inc := Option.some.inj (hinc'.symm.trans hinc)
    exact ⟨x, hx, fun role => by rw [hroles, hslots]⟩

/-- The wait is over: every role has ended as it should, and the client has a snapshot of the run. -/
structure Over (R : Rehearsal) (p : Panel) : Prop where
  scene : R.Scene p
  ended : ∀ role ∈ R.roles, R.Ended p role
  answer : ∃ s, p.answer? R.client = some (.ok s)

/-- A client that waits for supervisors which are all done is done itself. -/
theorem Scene.over_of_joining {handles : List Nat} (h : R.Scene p)
    (hclient : R.ClientAt p (.joining handles)) (hdone : handles.all p.isSettled = true)
    (hended : ∀ role ∈ R.roles, R.Ended p role) (fuel : Nat) :
    R.Over (Panel.drive R.client (fuel + 1) p) := by
  obtain ⟨x, hx⟩ := h.entry
  have hcan : p.canStep R.client = true := by
    rw [ClientAt] at hclient
    simp only [Panel.canStep, hclient, waiter]
    exact hdone
  have hstep : p.stepWaiter R.client =
      p.setWait R.client (.done (.ok (x.snapshot R.runId))) := by
    rw [ClientAt] at hclient
    simp only [Panel.stepWaiter, hclient, waiter, if_pos hdone, hx.read]
    rfl
  have hafter := hclient.setWait rfl (.done (.ok (x.snapshot R.runId)))
  rw [ClientAt] at hafter
  have hstuck : (p.setWait R.client (.done (.ok (x.snapshot R.runId)))).canStep R.client = false := by
    simp only [Panel.canStep, hafter, waiter]
  rw [Panel.drive_succ hcan, hstep, Panel.drive_of_stuck hstuck]
  exact {
    scene := hstep ▸ h.stepWaiter R.client
    ended := hended
    answer := ⟨x.snapshot R.runId, by simp only [Panel.answer?, hafter, waiter]⟩ }

/-- A client that turns to the supervisors of the roles that were not late finds them done. -/
theorem Scene.over_of_beginJoin {stage : WaitStage} {late : List Role} (h : R.Scene p)
    (hclient : R.ClientAt p stage) (hcan : p.canStep R.client = true)
    (hstep : p.stepWaiter R.client = p.beginJoin R.client (R.waiter stage) late)
    (hended : ∀ role ∈ R.roles, R.Ended p role)
    (hreleased : ∀ role ∈ R.roles, role ∉ late → R.Released p role) (fuel : Nat) :
    R.Over (Panel.drive R.client (fuel + 2) p) := by
  have hscene := h.stepWaiter R.client
  obtain ⟨inc, hinc, -, hslots, hhandles⟩ := h.incarnation
  have hjoin := hstep.trans (Panel.beginJoin_eq (w := R.waiter stage) hinc R.client late)
  rw [Panel.drive_succ hcan]
  rw [hjoin] at hscene ⊢
  refine hscene.over_of_joining (hclient.setWait rfl _) ?_ hended fuel
  rw [List.all_eq_true]
  intro j hj
  rw [List.partition_eq_filter_filter, List.mem_filter] at hj
  obtain ⟨hmem, hpunctual⟩ := hj
  change p.isSettled j = true
  unfold Panel.isSettled
  cases hs : p.supervisors[j]? with
  | none => rfl
  | some s =>
    have hsi := hhandles j hmem s hs
    have hmems := List.mem_of_getElem? hs
    -- the role of the supervisor is one of the run, and it was not late
    obtain ⟨inc₀, hinc₀, -, hslot, -⟩ := h.reachable.wired.supervisors s hmems
    obtain rfl : inc₀ = inc := Option.some.inj ((hsi ▸ hinc₀).symm.trans hinc)
    have hlate : s.role ∉ late := by simpa [Panel.isPunctual, hs] using hpunctual
    obtain ⟨s', hs', hpost, hsettled⟩ := hreleased s.role ((hslots _).1 hslot) hlate
    obtain rfl := h.reachable.wired.eq_of_post hs' hmems
      (hpost.trans (by rw [Supervisor.post, hsi]))
    exact hsettled

/-! ### Ending the roles that are late -/

/-- The time of the run is over, and the client is about to end the roles of `todo`, after it has ended
the other ones of `late`. -/
structure Forcing (R : Rehearsal) (p : Panel) (snapshot : RunState) (late todo : List Role) : Prop where
  scene : R.Scene p
  client : R.ClientAt p (.forcing snapshot late todo .withhold)
  /-- The roles to be ended are running, and should end in this way. -/
  running : ∀ role ∈ todo, ∃ status, p.ledger.outlook (R.runId, role) = some ⟨false, some status⟩ ∧
    status.phase = .running
  forced : ∀ role ∈ todo, R.ending role = (.timedOut, some (Panel.deadlineCause R.limit))
  /-- None of them needs to be started. -/
  begun : ∀ role ∈ todo, (snapshot.roles.get? role).map Status.phase ≠ some .pending
  ended : ∀ role ∈ R.roles, role ∉ todo → R.Ended p role
  released : ∀ role ∈ R.roles, role ∉ late → R.Released p role

/-- The attempt with which a client ends a role that is late. -/
def lastCall (R : Rehearsal) (p : Panel) (role : Role) : Attempt :=
  ⟨R.runId, role, .timedOut, some (Panel.deadlineCause R.limit), p.now⟩

theorem ClientAt.canStep_of_forcing {snapshot : RunState} {late todo : List Role} {next : ForceStep}
    (h : R.ClientAt p (.forcing snapshot late todo next)) : p.canStep R.client = true := by
  rw [ClientAt] at h
  simp only [Panel.canStep, h, waiter]

theorem ClientAt.stepWaiter_of_forcing {snapshot : RunState} {late todo : List Role}
    {next : ForceStep} (h : R.ClientAt p (.forcing snapshot late todo next)) :
    p.stepWaiter R.client =
      p.force R.client (R.waiter (.forcing snapshot late todo next)) snapshot late todo next := by
  rw [ClientAt] at h
  simp only [Panel.stepWaiter, h, waiter]

theorem Forcing.respond_eq {snapshot : RunState} {late rest : List Role}
    (h : R.Forcing p snapshot late (role :: rest)) :
    ∃ status, p.ledger.outlook (R.runId, role) = some ⟨false, some status⟩ ∧
      status.phase = .running ∧
      p.ledger.respond (R.lastCall p role) =
        .ok (status.advance .timedOut (some (Panel.deadlineCause R.limit)) p.now) := by
  obtain ⟨status, ho, hrun⟩ := h.running role List.mem_cons_self
  refine ⟨status, ho, hrun, ?_⟩
  have hallows : status.phase.allows .timedOut = true := hrun ▸ Phase.allows_of_isTerminal rfl
  rw [Ledger.respond_eq, show (R.lastCall p role).seat = (R.runId, role) from rfl, ho]
  simp [Attempt.answer, lastCall, hallows]

/-- The three steps with which the client ends a role that is late. -/
theorem Forcing.steps {snapshot : RunState} {late rest : List Role}
    (h : R.Forcing p snapshot late (role :: rest)) :
    ∃ q, (∀ fuel, Panel.drive R.client (fuel + 3) p = Panel.drive R.client fuel q) ∧ R.Scene q ∧
      p.Advances q ∧ R.ClientAt q (.forcing snapshot late rest .withhold) ∧
      q.ledger = p.ledger.apply (R.lastCall p role).call := by
  obtain ⟨status, -, -, hres⟩ := h.respond_eq
  generalize hp₁ : p.stepWaiter R.client = p₁
  generalize hp₂ : p₁.stepWaiter R.client = p₂
  generalize hp₃ : p₂.stepWaiter R.client = p₃
  -- the client closes the slot
  have hc := h.client
  have heq₁ : p₁ = (p.withhold R.incarnation role).1.setWait R.client
      (.forcing snapshot late (role :: rest) .start) := hp₁ ▸ hc.stepWaiter_of_forcing
  have hc₁ : R.ClientAt p₁ (.forcing snapshot late (role :: rest) .start) :=
    heq₁ ▸ hc.setWait (by simp) _
  -- it need not start the role
  have heq₂ : p₂ = p₁.setWait R.client (.forcing snapshot late (role :: rest) .expire) := by
    rw [← hp₂, hc₁.stepWaiter_of_forcing, Panel.force, if_neg (h.begun role List.mem_cons_self)]
  have hc₂ : R.ClientAt p₂ (.forcing snapshot late (role :: rest) .expire) :=
    heq₂ ▸ hc₁.setWait rfl _
  -- and it ends the role, since that is still running
  have hledger : p₂.ledger = p.ledger := by rw [heq₂, heq₁]; simp
  have hnow : p₂.now = p.now := by rw [heq₂, heq₁, Panel.withhold_fst]; rfl
  have hok : (p₂.transition R.runId role .timedOut (some (Panel.deadlineCause R.limit))).2 =
      p.ledger.respond (R.lastCall p role) := by
    rw [Panel.transition_snd, hledger, hnow]
    rfl
  rw [hres] at hok
  have heq₃ : p₃ = ((p₂.transition R.runId role .timedOut
      (some (Panel.deadlineCause R.limit))).1.stopLate
        (R.waiter (.forcing snapshot late (role :: rest) .expire)) role).setWait R.client
      (.forcing snapshot late rest .withhold) := by
    rw [← hp₃, hc₂.stepWaiter_of_forcing]
    simp only [Panel.force]
    rw [show (R.waiter _).runId = R.runId from rfl, show (R.waiter _).limit = R.limit from rfl, hok]
    rfl
  refine ⟨p₃, fun fuel => ?_, ?_, ?_, ?_, ?_⟩
  · rw [Panel.drive_succ hc.canStep_of_forcing, hp₁, Panel.drive_succ hc₁.canStep_of_forcing, hp₂,
      Panel.drive_succ hc₂.canStep_of_forcing, hp₃]
  · exact hp₃ ▸ hp₂ ▸ hp₁ ▸ ((h.scene.stepWaiter _).stepWaiter _).stepWaiter _
  · have hadv := p.run_advances [.wait R.client, .wait R.client, .wait R.client]
    simpa [Panel.step, hp₁, hp₂, hp₃] using hadv
  · rw [heq₃]
    exact hc₂.setWait (by simp) _
  · rw [heq₃]
    simp [hledger, hnow, Attempt.call, lastCall]

theorem Forcing.next {snapshot : RunState} {late rest : List Role}
    (h : R.Forcing p snapshot late (role :: rest)) (hnd : (role :: rest).Nodup) :
    ∃ q, (∀ fuel, Panel.drive R.client (fuel + 3) p = Panel.drive R.client fuel q) ∧
      R.Forcing q snapshot late rest := by
  obtain ⟨status, ho, -, hres⟩ := h.respond_eq
  obtain ⟨q, hdrive, hscene, hadv, hclient, hledger⟩ := h.steps
  have hseat : (R.lastCall p role).seat = (R.runId, role) := rfl
  have hother : ∀ role' ≠ role,
      q.ledger.outlook (R.runId, role') = p.ledger.outlook (R.runId, role') := fun role' hne => by
    rw [hledger, Ledger.outlook_apply, hseat, if_neg fun heq => hne (Prod.mk.inj heq).2]
  have hself : R.Ended q role := by
    refine ⟨status.advance .timedOut (some (Panel.deadlineCause R.limit)) p.now, ?_, ?_⟩
    · rw [hledger, Ledger.outlook_apply, hseat, if_pos rfl, Attempt.onward, ← hseat,
        ← Ledger.respond_eq, hres]
    · rw [h.forced role List.mem_cons_self]
      rfl
  have hnotin := (List.nodup_cons.1 hnd).1
  refine ⟨q, hdrive, hscene, hclient, fun role' hr => ?_, fun role' hr => ?_, fun role' hr => ?_,
    fun role' hr hnr => ?_, fun role' hr hl => (h.released role' hr hl).of_advances hadv⟩
  · rw [hother role' fun heq => hnotin (heq ▸ hr)]
    exact h.running role' (List.mem_cons_of_mem _ hr)
  · exact h.forced role' (List.mem_cons_of_mem _ hr)
  · exact h.begun role' (List.mem_cons_of_mem _ hr)
  · by_cases heq : role' = role
    · exact heq ▸ hself
    · obtain ⟨status', ho', hend⟩ := h.ended role' hr (by simp [heq, hnr])
      exact ⟨status', (hother role' heq).trans ho', hend⟩

/-- **The client ends all roles that are late, in one go**, and is done. -/
theorem Forcing.over {snapshot : RunState} {late todo : List Role}
    (h : R.Forcing p snapshot late todo) (hnd : todo.Nodup) (fuel : Nat) :
    R.Over (Panel.drive R.client (fuel + 2 + 3 * todo.length) p) := by
  induction todo generalizing p with
  | nil =>
    exact h.scene.over_of_beginJoin h.client h.client.canStep_of_forcing
      h.client.stepWaiter_of_forcing (fun role hr => h.ended role hr (by simp)) h.released fuel
  | cons role rest ih =>
    obtain ⟨q, hdrive, hq⟩ := h.next hnd
    rw [List.length_cons, Nat.mul_succ, ← Nat.add_assoc, hdrive]
    exact ih hq (List.nodup_cons.1 hnd).2

/-! ### Rounds of the wait -/

/-- What holds before a round of the wait, as long as that is not over. -/
structure Pending (R : Rehearsal) (p : Panel) (wakeAt : Nat) : Prop where
  scene : R.Scene p
  client : R.ClientAt p (.polling wakeAt)
  clock_le : p.clock ≤ wakeAt
  wakeAt_le : wakeAt ≤ R.deadline
  timely : ∀ role ∈ R.roles, R.Timely p role p.clock

theorem ClientAt.canStep_of_polling {wakeAt : Nat} (h : R.ClientAt p (.polling wakeAt)) :
    p.canStep R.client = decide (wakeAt ≤ p.clock) := by
  rw [ClientAt] at h
  simp only [Panel.canStep, h, waiter]

theorem ClientAt.stepWaiter_of_polling (h : R.ClientAt p (.polling p.clock)) :
    p.stepWaiter R.client = p.poll R.client (R.waiter (.polling p.clock)) := by
  rw [ClientAt] at h
  simp only [Panel.stepWaiter, h, waiter, if_pos (Nat.le_refl _)]

theorem ClientAt.answer_of_polling {wakeAt : Nat} (h : R.ClientAt p (.polling wakeAt)) :
    p.answer? R.client = none := by
  rw [ClientAt] at h
  simp only [Panel.answer?, h, waiter]

theorem ClientAt.wakeTime_of_polling {wakeAt : Nat} (h : R.ClientAt p (.polling wakeAt)) :
    p.wakeTime? R.client = some wakeAt := by
  rw [ClientAt] at h
  simp only [Panel.wakeTime?, h, waiter]

theorem Scene.deadline_eq (h : R.Scene p) (stage : WaitStage) :
    p.deadline (R.waiter stage) = R.deadline := by
  obtain ⟨inc, hinc, hstart, -⟩ := h.incarnation
  rw [Panel.deadline, show (R.waiter stage).incarnation = R.incarnation from rfl, hinc,
    Option.map_some, hstart]
  rfl

/-- There are no more roles that are late than there are roles. -/
theorem nodup_outstanding (s : RunState) :
    s.outstanding.Nodup ∧ s.outstanding.length ≤ Role.all.length := by
  rw [RunState.outstanding, Panel.rolesWhere_eq_filter]
  have hnd : Role.all.Nodup := Enumerated.nodup_all
  exact ⟨hnd.filter _, List.length_filter_le _ _⟩

section Look

variable {x : LedgerEntry} {wakeAt : Nat}

/-- A role that has ended on the ledger has ended as it should, and its supervisor is done. -/
theorem Pending.punctual (h : R.Pending p wakeAt) (hx : R.Shows p x) (hr : role ∈ R.roles)
    (hterm : ∀ status, x.roles.get? role = some status → status.isTerminal = true) :
    R.Ended p role ∧ R.Released p role := by
  rcases h.timely role hr with ⟨j, ⟨status, hat, hrun⟩, -⟩ | hdone
  · have hs := congrArg Outlook.status (Option.some.inj ((hx.outlook role).symm.trans hat.outlook))
    have habs := hterm status hs
    rw [Status.isTerminal, hrun] at habs
    cases habs
  · exact hdone

/-- A role that has not ended on the ledger is running, and nothing was due for it. -/
theorem Pending.late {status : Status} (h : R.Pending p wakeAt) (hx : R.Shows p x)
    (hs : x.roles.get? role = some status) (hterm : status.isTerminal = false) :
    p.ledger.outlook (R.runId, role) = some ⟨false, some status⟩ ∧ status.phase = .running ∧
      (R.supervisor role).RestsUntil p.clock := by
  have hr := (hx.roles role).1 (Option.isSome_iff_exists.2 ⟨status, hs⟩)
  have hout := hx.outlook role
  rw [hs] at hout
  rcases h.timely role hr with ⟨j, ⟨status', hat, hrun⟩, hrests⟩ | ⟨⟨status', ho, hend⟩, -⟩
  · have heq := Option.some.inj (hout.symm.trans hat.outlook)
    obtain rfl := Option.some.inj (congrArg Outlook.status heq)
    exact ⟨hat.outlook, hrun, hrests⟩
  · have heq := Option.some.inj (hout.symm.trans ho)
    obtain rfl := Option.some.inj (congrArg Outlook.status heq)
    rw [Ended.isTerminal hend] at hterm
    cases hterm

theorem Pending.look (h : R.Pending p p.clock) (hx : R.Shows p x) :
    p.stepWaiter R.client =
      if x.isComplete then p.beginJoin R.client (R.waiter (.polling p.clock)) []
      else if R.deadline ≤ p.clock then
        p.setWait R.client (.forcing (x.snapshot R.runId) (x.snapshot R.runId).outstanding
          (x.snapshot R.runId).outstanding .withhold)
      else p.setWait R.client (.polling (p.clock + min (max R.poll 1) (R.deadline - p.clock))) := by
  have hcomplete : p.ledger.isComplete (R.waiter (.polling p.clock)).runId = .ok x.isComplete := by
    simp [waiter, Ledger.isComplete, Ledger.entry, hx.entry, Except.map]
  have hread : p.ledger.read (R.waiter (.polling p.clock)).runId = _ := hx.read
  rw [h.client.stepWaiter_of_polling, Panel.poll, hcomplete]
  simp only [h.scene.deadline_eq, hread]
  cases x.isComplete <;> rfl

theorem Pending.canStep (h : R.Pending p p.clock) : p.canStep R.client = true := by
  rw [h.client.canStep_of_polling]
  exact decide_eq_true (Nat.le_refl _)

theorem Pending.over_of_complete (h : R.Pending p p.clock) (hx : R.Shows p x)
    (hcomplete : x.isComplete = true) (fuel : Nat) :
    R.Over (Panel.drive R.client (fuel + 2) p) := by
  have hdone : ∀ role ∈ R.roles, R.Ended p role ∧ R.Released p role := fun role hr =>
    h.punctual hx hr (LedgerEntry.isComplete_iff.1 hcomplete role)
  have hstep := h.look hx
  rw [if_pos hcomplete] at hstep
  exact h.scene.over_of_beginJoin h.client h.canStep hstep (fun role hr => (hdone role hr).1)
    (fun role hr _ => (hdone role hr).2) fuel

/-- When the time of the run is over, the roles that are late are those for which nothing was due. -/
theorem Pending.forcing (h : R.Pending p p.clock) (hx : R.Shows p x)
    (hcomplete : x.isComplete = false) (hclock : p.clock = R.deadline) :
    R.Forcing (p.stepWaiter R.client) (x.snapshot R.runId) (x.snapshot R.runId).outstanding
      (x.snapshot R.runId).outstanding := by
  have hscene := h.scene.stepWaiter R.client
  have hstep := h.look hx
  rw [if_neg (by simp [hcomplete]), if_pos (Nat.le_of_eq hclock.symm)] at hstep
  rw [hstep] at hscene ⊢
  have hlate : ∀ role ∈ (x.snapshot R.runId).outstanding, ∃ status,
      x.roles.get? role = some status ∧ status.isTerminal = false := fun role hr =>
    Panel.mem_outstanding.1 hr
  have hpunctual : ∀ role ∈ R.roles, role ∉ (x.snapshot R.runId).outstanding →
      R.Ended p role ∧ R.Released p role := by
    refine fun role hr hnot => h.punctual hx hr fun status hs => ?_
    by_contra hterm
    exact hnot (Panel.mem_outstanding.2 ⟨status, hs, by simpa using hterm⟩)
  exact {
    scene := hscene
    client := h.client.setWait rfl _
    running := fun role hr => by
      obtain ⟨status, hs, hterm⟩ := hlate role hr
      obtain ⟨ho, hrun, -⟩ := h.late hx hs hterm
      exact ⟨status, ho, hrun⟩
    forced := fun role hr => by
      obtain ⟨status, hs, hterm⟩ := hlate role hr
      obtain ⟨-, -, hrests⟩ := h.late hx hs hterm
      exact ending_of_deadline (hclock ▸ hrests)
    begun := fun role hr => by
      obtain ⟨status, hs, hterm⟩ := hlate role hr
      obtain ⟨-, hrun, -⟩ := h.late hx hs hterm
      rw [show (x.snapshot R.runId).roles = x.roles from rfl, hs, Option.map_some, hrun]
      decide
    ended := fun role hr hnot => (hpunctual role hr hnot).1
    released := fun role hr hnot => (hpunctual role hr hnot).2 }

/-- When the time of the run is over, the client is done at once. -/
theorem Pending.over_of_deadline (h : R.Pending p p.clock) (hx : R.Shows p x)
    (hcomplete : x.isComplete = false) (hclock : p.clock = R.deadline) :
    R.Over (Panel.drive R.client Panel.maxSteps p) := by
  obtain ⟨hnd, hlen⟩ := nodup_outstanding (x.snapshot R.runId)
  have hlen : (x.snapshot R.runId).outstanding.length ≤ 6 := hlen
  have hover := (h.forcing hx hcomplete hclock).over hnd
    (19 - 3 * (x.snapshot R.runId).outstanding.length)
  rw [show Panel.maxSteps = 21 + 1 from rfl, Panel.drive_succ h.canStep]
  convert hover using 2
  omega

theorem Pending.again (h : R.Pending p p.clock) (hx : R.Shows p x)
    (hcomplete : x.isComplete = false) (hclock : p.clock < R.deadline) (fuel : Nat) :
    ∃ t, R.Pending (Panel.drive R.client (fuel + 1) p) t ∧
      (Panel.drive R.client (fuel + 1) p).clock = p.clock ∧ p.clock < t := by
  have hscene := h.scene.stepWaiter R.client
  have hstep := h.look hx
  rw [if_neg (by simp [hcomplete]), if_neg (Nat.not_le.2 hclock)] at hstep
  obtain ⟨t, ht, hlt, hle⟩ : ∃ t, p.clock + min (max R.poll 1) (R.deadline - p.clock) = t ∧
      p.clock < t ∧ t ≤ R.deadline := ⟨_, rfl, by omega, by omega⟩
  rw [ht] at hstep
  rw [hstep] at hscene
  have hclient := h.client.setWait (q := p) rfl (.polling t)
  refine ⟨t, ?_⟩
  rw [Panel.drive_succ h.canStep, hstep, Panel.drive_of_stuck]
  · exact ⟨⟨hscene, hclient, Nat.le_of_lt hlt, hle,
      fun role hr => (h.timely role hr).congr rfl rfl rfl⟩, rfl, hlt⟩
  · rw [hclient.canStep_of_polling]
    exact decide_eq_false (Nat.not_le.2 hlt)

/-- **What the client does at one instant**: it is done, or it will look at the ledger again. -/
theorem Pending.drive (h : R.Pending p wakeAt) :
    R.Over (Panel.drive R.client Panel.maxSteps p) ∨
      ∃ t, R.Pending (Panel.drive R.client Panel.maxSteps p) t ∧
        (Panel.drive R.client Panel.maxSteps p).clock = p.clock ∧ p.clock < t := by
  rcases Nat.lt_or_eq_of_le h.clock_le with hlt | rfl
  · -- it is not yet time to look
    rw [Panel.drive_of_stuck]
    · exact .inr ⟨wakeAt, h, rfl, hlt⟩
    · rw [h.client.canStep_of_polling]
      exact decide_eq_false (Nat.not_le.2 hlt)
  · obtain ⟨x, hx⟩ := h.scene.entry
    cases hcomplete : x.isComplete with
    | true => exact .inl (h.over_of_complete hx hcomplete _)
    | false =>
      rcases Nat.lt_or_eq_of_le h.wakeAt_le with hlt | hclock
      · exact .inr (h.again hx hcomplete hlt _)
      · exact .inl (h.over_of_deadline hx hcomplete hclock)

end Look

/-- **What a round leads to** in which the client goes on waiting: all supervisors have their turn, and
the clock goes to the next event, which is not later than the next look at the ledger. -/
theorem Pending.round {wakeAt : Nat} (h : R.Pending p wakeAt) (hlt : p.clock < wakeAt)
    (hdelay : ∀ role ∈ R.roles, (R.course role).delay ≠ some R.roleTimeout) :
    p.others.canStep R.client = false ∧ p.clock < p.others.nextTime R.client ∧
      R.Pending { p.others with clock := p.others.nextTime R.client } wakeAt := by
  have hdead : p.clock < R.deadline := Nat.lt_of_lt_of_le hlt h.wakeAt_le
  obtain ⟨hscene, hclock, hwait⟩ := h.scene.others
  have hclient : R.ClientAt p.others (.polling wakeAt) := by
    rw [ClientAt, hwait]
    exact h.client
  have hwake := hclient.wakeTime_of_polling
  have hnext : p.clock < p.others.nextTime R.client :=
    hclock ▸ Panel.clock_lt_nextTime hwake (hclock.symm ▸ hlt)
  refine ⟨?_, hnext, ?_⟩
  · rw [hclient.canStep_of_polling, decide_eq_false_iff_not, hclock]
    omega
  · have hpass := Panel.clock_eq_run (p := p.others) (hclock.symm ▸ Nat.le_of_lt hnext)
    exact {
      scene := by
        refine hscene.of_advances ?_ ?_ (.of_eq rfl rfl rfl)
        · exact hpass ▸ hscene.reachable.run _
        · exact hpass ▸ p.others.run_advances _
      client := hclient
      clock_le := Panel.nextTime_le hwake
      wakeAt_le := h.wakeAt_le
      timely := fun role hr => by
        have htimely := h.scene.others_timely hdead (hdelay role hr) (h.timely role hr)
        refine Timely.congr (p := p.others) ?_ rfl rfl rfl
        rcases htimely with ⟨j, ⟨status, hat, hrun⟩, hrests⟩ | hdone
        · have hmem := List.mem_of_getElem? hat.supervisor
          exact .inl ⟨j, ⟨status, hat, hrun⟩,
            Panel.restsUntil_nextTime hmem rfl rfl rfl (hclock.symm ▸ hrests) R.client⟩
        · exact .inr hdone }

theorem Pending.hear {wakeAt : Nat} (h : R.Pending p wakeAt) :
    R.Pending p.hear wakeAt ∧ p.hear.clock = p.clock := by
  have hscene := h.scene.hear
  obtain ⟨scribe, disk, inFlight, hp⟩ := p.hear_eq
  rw [hp] at hscene ⊢
  exact ⟨⟨hscene, h.client, h.clock_le, h.wakeAt_le,
    fun role hr => (h.timely role hr).congr rfl rfl rfl⟩, rfl⟩

theorem Over.hear (h : R.Over p) : R.Over p.hear := by
  have hscene := h.scene.hear
  obtain ⟨scribe, disk, inFlight, hp⟩ := p.hear_eq
  rw [hp] at hscene ⊢
  exact ⟨hscene, h.ended, h.answer⟩

/-- **The wait comes to an end, with every role ended as it should**: each round moves the clock towards
the deadline of the run. -/
theorem Pending.over {wakeAt fuel : Nat} (h : R.Pending p wakeAt)
    (hdelay : ∀ role ∈ R.roles, (R.course role).delay ≠ some R.roleTimeout)
    (hfuel : R.deadline - p.clock < fuel) : R.Over (Panel.waitUntil R.client fuel p) := by
  induction fuel generalizing p wakeAt with
  | zero => omega
  | succ fuel ih =>
    simp only [Panel.waitUntil]
    rcases h.drive with hover | ⟨t, hpending, hclock, hlt⟩
    · obtain ⟨s, hs⟩ := hover.hear.answer
      rw [if_pos (by rw [hs]; rfl)]
      exact hover.hear
    · obtain ⟨hpending, hheard⟩ := hpending.hear
      rw [← hheard] at hclock
      generalize (Panel.drive R.client Panel.maxSteps p).hear = q at hpending hclock ⊢
      obtain ⟨hstuck, hnext, hround⟩ := hpending.round (by omega) hdelay
      rw [if_neg (by simp [hpending.client.answer_of_polling]), if_neg (by simp [hstuck])]
      have hle := hpending.wakeAt_le
      refine ih hround ?_
      change R.deadline - q.others.nextTime R.client < fuel
      omega

/-- When the wait is over, the ledger shows how each role has ended. -/
theorem Over.entry (h : R.Over p) (hne : R.roles ≠ []) :
    ∃ x, R.Shows p x ∧ x.isComplete = true ∧ x.verdict = none ∧
      ∀ role, (x.roles.get? role).map (fun status => (status.phase, status.cause)) =
        if role ∈ R.roles then some (R.ending role) else none := by
  obtain ⟨x, hx⟩ := h.scene.entry
  have hended : ∀ role ∈ R.roles, ∃ status, x.roles.get? role = some status ∧
      (status.phase, status.cause) = R.ending role ∧ x.verdict = none := by
    intro role hr
    obtain ⟨status, ho, hend⟩ := h.ended role hr
    have heq := Option.some.inj ((hx.outlook role).symm.trans ho)
    exact ⟨status, congrArg Outlook.status heq, hend,
      by simpa using congrArg Outlook.isSealed heq⟩
  obtain ⟨role₀, hrole₀⟩ := List.exists_mem_of_ne_nil _ hne
  obtain ⟨-, -, -, hopen⟩ := hended role₀ hrole₀
  refine ⟨x, hx, LedgerEntry.isComplete_iff.2 fun role status hs => ?_, hopen, fun role => ?_⟩
  · obtain ⟨status', hs', hend, -⟩ := hended role ((hx.roles role).1 (by rw [hs]; rfl))
    obtain rfl : status' = status := Option.some.inj (hs'.symm.trans hs)
    exact Ended.isTerminal hend
  · by_cases hr : role ∈ R.roles
    · obtain ⟨status, hs, hend, -⟩ := hended role hr
      rw [if_pos hr, hs, Option.map_some, hend]
    · rw [if_neg hr, Option.map_eq_none_iff, ← Option.not_isSome_iff_eq_none, hx.roles]
      exact hr

end Rehearsal

end ReviewPanel
