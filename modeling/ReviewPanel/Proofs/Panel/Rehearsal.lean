import ReviewPanel.Proofs.Panel.Agreement
import ReviewPanel.Proofs.Panel.Desks
import ReviewPanel.Proofs.Panel.Refusals

/-!
# The supervisors of a run that a client waits for

While a client waits for a run, time passes from event to event, and at each of them all supervisors take
their turn.  What matters for a role is when its reviewer comes back, when its own time is over, and when
the time of the run is over; whichever comes first decides how the role ends (`Course.ending`).

Here is what the supervisors contribute.  As long as the deadline of the run is ahead, a role has either
ended as it should, or nothing has happened to it yet and nothing was due (`Rehearsal.Timely`); after
everybody had a turn, this is so for the next instant.

## Main definitions

* `Course.ending` : how a role ends, from its review and the two time limits alone.
* `Supervisor.RestsUntil` : nothing is due for a supervisor before a given time.
* `Rehearsal` : what is fixed about a run that a client waits for.
* `Rehearsal.Scene`, `Rehearsal.Timely` : what holds of its panel, and of its roles, at every instant.

## Main statements

* `Rehearsal.Scene.others_timely` : **when all supervisors had their turn, nothing is overdue.**
-/

namespace ReviewPanel

/-- How a role ends that is late: the shorter one of the time limits is over first. -/
def lateEnding (roleTimeout limit : Nat) : Phase × Option String :=
  (.timedOut, some (if roleTimeout < limit then Panel.overdueCause roleTimeout
    else Panel.deadlineCause limit))

/-- How a role ends that a client waits for.  What its reviewer comes back with counts if it is there
before the time of the role and the time of the run are over. -/
def Course.ending (c : Course) (roleTimeout limit : Nat) : Phase × Option String :=
  if c.delay.any (· < min roleTimeout limit) then endingOf c.reply else lateEnding roleTimeout limit

theorem Course.isTerminal_ending (c : Course) (roleTimeout limit : Nat) :
    (c.ending roleTimeout limit).1.isTerminal = true := by
  unfold Course.ending
  split
  · rcases c.reply with _ | _ <;> rfl
  · rfl

/-! ### When something is due for a supervisor -/

namespace Supervisor

/-- Neither is the reviewer back before the given time, nor is the time of the role over. -/
def RestsUntil (s : Supervisor) (time : Nat) : Prop :=
  time ≤ s.dueAt ∧ ∀ t, s.backAt = some t → time ≤ t

variable {s : Supervisor} {clock : Nat}

theorem isBackBy_iff : s.isBackBy clock = true ↔ ∃ t, s.backAt = some t ∧ t ≤ clock := by
  simp [isBackBy, Option.any_eq_true]

/-- Where there is nothing to learn, nothing is due before the next instant. -/
theorem restsUntil_of_learns_none (h : s.learns? clock = none) : s.RestsUntil (clock + 1) := by
  unfold learns? at h
  split_ifs at h with hback hdue
  refine ⟨Nat.not_le.1 hdue, fun t ht => Nat.not_le.1 fun hle => hback ?_⟩
  exact isBackBy_iff.2 ⟨t, ht, hle⟩

theorem learns?_of_restsUntil {time : Nat} (h : s.RestsUntil time) (hlt : clock < time) :
    s.learns? clock = none := by
  have hback : ¬ s.isBackBy clock = true := fun hb => by
    obtain ⟨t, ht, hle⟩ := isBackBy_iff.1 hb
    have := h.2 t ht
    omega
  have hdue := h.1
  rw [learns?, if_neg hback, if_neg (by omega)]

end Supervisor

namespace Panel

theorem nextTime_le_nextEvent {p : Panel} {m : Nat} (h : p.nextEvent? = some m) (k : Nat) :
    p.nextTime k ≤ m := by
  unfold nextTime
  rw [h]
  cases p.wakeTime? k with
  | none => exact Nat.le_refl m
  | some u => exact Nat.min_le_left m u

theorem restsUntil_nextTime {p : Panel} {s : Supervisor} (hs : s ∈ p.supervisors)
    (hwait : s.stage = .waiting) (hstop : s.stopped = false) (hret : s.returned = false)
    (h : s.RestsUntil (p.clock + 1)) (k : Nat) : s.RestsUntil (p.nextTime k) := by
  have hdue : s.dueAt ∈ eventTimes s := by simp [eventTimes, hwait]
  have hback : ∀ t, s.backAt = some t → t ∈ eventTimes s := fun t ht => by
    simp [eventTimes, hwait, ht, hret, hstop]
  -- the next event is not later than any event of this supervisor that is yet to come
  have hle : ∀ t ∈ eventTimes s, p.clock + 1 ≤ t → p.nextTime k ≤ t := by
    intro t ht hlt
    have hmem : t ∈ (p.supervisors.flatMap eventTimes).filter (p.clock < ·) :=
      List.mem_filter.2 ⟨List.mem_flatMap.2 ⟨s, hs, ht⟩, decide_eq_true hlt⟩
    cases hm : p.nextEvent? with
    | none =>
      rw [List.min?_eq_none_iff.1 hm] at hmem
      cases hmem
    | some m =>
      exact Nat.le_trans (nextTime_le_nextEvent hm k) ((List.min?_eq_some_iff.1 hm).2 t hmem)
  exact ⟨hle _ hdue h.1, fun t ht => hle t (hback t ht) (h.2 t ht)⟩

end Panel

/-! ### A run that a client waits for -/

/-- What is fixed about a run that a client waits for. -/
structure Rehearsal where
  /-- Position of the incarnation. -/
  incarnation : Nat
  runId : RunId
  roles : List Role
  /-- How the review of each role goes. -/
  course : Role → Course
  /-- Position of the waiter. -/
  client : Nat
  startedAt : Nat
  roleTimeout : Nat
  /-- How long the run may take. -/
  limit : Nat
  poll : Nat

namespace Rehearsal

/-- When the time of the run is over. -/
def deadline (R : Rehearsal) : Nat := R.startedAt + R.limit

/-- How a role of the run ends. -/
def ending (R : Rehearsal) (role : Role) : Phase × Option String :=
  (R.course role).ending R.roleTimeout R.limit

/-- The supervisor of a role before anything has happened. -/
def supervisor (R : Rehearsal) (role : Role) : Supervisor where
  incarnation := R.incarnation
  runId := R.runId
  role := role
  backAt := (R.course role).delay.map (R.startedAt + ·)
  reply := (R.course role).reply
  dueAt := R.startedAt + R.roleTimeout
  returned := false
  stopped := false
  stage := .waiting

variable {R : Rehearsal} {role : Role} {clock : Nat}

/-- What a supervisor learns before the deadline of the run is how its role should end. -/
theorem ending_of_learns {r : Report} (h : (R.supervisor role).RestsUntil clock)
    (hr : (R.supervisor role).learns? clock = some r) (hclock : clock < R.deadline)
    (hdelay : (R.course role).delay ≠ some R.roleTimeout) :
    r.ending R.roleTimeout = R.ending role := by
  obtain ⟨hdue, hback⟩ := h
  simp only [supervisor] at hdue hback
  unfold Supervisor.learns? at hr
  unfold deadline at hclock
  unfold ending Course.ending
  split_ifs at hr with hby hover
  · -- the reviewer is back
    obtain rfl := Option.some.inj hr
    obtain ⟨t, ht, hle⟩ := Supervisor.isBackBy_iff.1 hby
    obtain ⟨d, hd, rfl⟩ := Option.map_eq_some_iff.1 ht
    have hat := hback _ ht
    have hne : d ≠ R.roleTimeout := fun h => hdelay (h ▸ hd)
    have hin : (R.course role).delay.any (· < min R.roleTimeout R.limit) = true := by
      rw [hd, Option.any_some, decide_eq_true_iff]
      omega
    rw [if_pos hin]
    rfl
  · -- the time of the role is over, and the reviewer is not back
    obtain rfl := Option.some.inj hr
    simp only [supervisor] at hover
    have hlt : R.roleTimeout < R.limit := by omega
    have hout : ¬ (R.course role).delay.any (· < min R.roleTimeout R.limit) = true := by
      rw [Option.any_eq_true]
      rintro ⟨d, hd, hlt⟩
      rw [decide_eq_true_iff] at hlt
      exact hby (Supervisor.isBackBy_iff.2 ⟨R.startedAt + d, by simp [supervisor, hd], by omega⟩)
    rw [if_neg hout, lateEnding, if_pos hlt]
    rfl

/-- A role for which nothing is due before the deadline of the run is ended by the client. -/
theorem ending_of_deadline (h : (R.supervisor role).RestsUntil R.deadline) :
    R.ending role = (.timedOut, some (Panel.deadlineCause R.limit)) := by
  obtain ⟨hdue, hback⟩ := h
  simp only [supervisor, deadline] at hdue hback
  have hout : ¬ (R.course role).delay.any (· < min R.roleTimeout R.limit) = true := by
    rw [Option.any_eq_true]
    rintro ⟨d, hd, hlt⟩
    rw [decide_eq_true_iff] at hlt
    have := hback (R.startedAt + d) (by rw [hd]; rfl)
    omega
  rw [ending, Course.ending, if_neg hout, lateEnding, if_neg (by omega)]

/-! ### What holds at every instant -/

/-- What holds of the panel all along. -/
structure Scene (R : Rehearsal) (p : Panel) : Prop where
  reachable : p.Reachable
  sole : p.Sole R.incarnation R.runId
  inMemory : p.config.workspaceRoot = none
  roleTimeout_eq : p.config.roleTimeout = R.roleTimeout
  table_eq : p.table.get? R.runId = some R.incarnation
  incarnation : ∃ inc, p.incarnations[R.incarnation]? = some inc ∧ inc.startedAt = R.startedAt ∧
    (∀ role, (inc.slots.cells.get? role).isSome = true ↔ role ∈ R.roles) ∧
    ∀ h ∈ inc.handles, ∀ s, p.supervisors[h]? = some s → s.incarnation = R.incarnation

/-- Nothing has happened to the role, and nothing is due before the given time; its supervisor is the
one at `j`. -/
structure WaitsAt (R : Rehearsal) (p : Panel) (role : Role) (j time : Nat) : Prop where
  running : ∃ status, p.At j (R.supervisor role) (some .vacant) (some ⟨false, some status⟩) ∧
    status.phase = .running
  rests : (R.supervisor role).RestsUntil time

/-- The role has ended as it should. -/
def Ended (R : Rehearsal) (p : Panel) (role : Role) : Prop :=
  ∃ status, p.ledger.outlook (R.runId, role) = some ⟨false, some status⟩ ∧
    (status.phase, status.cause) = R.ending role

/-- The supervisor of the role is done. -/
def Released (R : Rehearsal) (p : Panel) (role : Role) : Prop :=
  ∃ s ∈ p.supervisors, s.post = (R.incarnation, role) ∧ s.isSettled = true

/-- Either nothing has happened to the role and nothing is due before the given time, or it has ended as
it should and its supervisor is done. -/
def Timely (R : Rehearsal) (p : Panel) (role : Role) (time : Nat) : Prop :=
  (∃ j, R.WaitsAt p role j time) ∨ R.Ended p role ∧ R.Released p role

section Stage

variable {p q : Panel} {j j' : Nat}

theorem Scene.of_advances (h : R.Scene p) (hq : q.Reachable) (hadv : p.Advances q)
    (hkeep : p.Keeps q) : R.Scene q where
  reachable := hq
  sole i inc' hinc' hid := by
    obtain ⟨inc, hinc, -⟩ := hkeep.incarnations i inc' hinc'
    obtain ⟨inc'', hinc'', hgrow⟩ := hadv.incarnations i inc hinc
    obtain rfl : inc'' = inc' := Option.some.inj (hinc''.symm.trans hinc')
    exact h.sole i inc hinc (hgrow.runId_eq.symm.trans hid)
  inMemory := hadv.config_eq ▸ h.inMemory
  roleTimeout_eq := hadv.config_eq ▸ h.roleTimeout_eq
  table_eq := hkeep.table_eq ▸ h.table_eq
  incarnation := by
    obtain ⟨inc, hinc, hstart, hslots, hhandles⟩ := h.incarnation
    obtain ⟨inc', hinc', hgrow⟩ := hadv.incarnations _ inc hinc
    obtain ⟨inc₀, hinc₀, hsub⟩ := hkeep.incarnations _ inc' hinc'
    obtain rfl : inc₀ = inc := Option.some.inj (hinc₀.symm.trans hinc)
    refine ⟨inc', hinc', hgrow.startedAt_eq.trans hstart, fun role => ?_, fun h hh s hs => ?_⟩
    · rw [hgrow.slots.isSome_eq, hslots]
    · rcases hadv.supervisors.back hs with ⟨s₀, hs₀, hs₀s⟩ | hnew
      · exact hs₀s.incarnation_eq.trans (hhandles h (hsub hh) s₀ hs₀)
      · have hlt := (List.getElem?_eq_some_iff.1 hs).1
        have hlen := hkeep.supervisors
        omega

theorem Scene.step_of_supervisor (h : R.Scene p) {e : Panel.Event} (he : e.supervisor? = some j) :
    R.Scene (p.step e) :=
  h.of_advances (h.reachable.step e) (p.step_advances e) ((p.step_move e).keeps he)

theorem Scene.supervise (h : R.Scene p) (j : Nat) : R.Scene (p.supervise j) :=
  Panel.supervise_induction h fun _ _ he hq => hq.step_of_supervisor he

/-- The client is where it was, at the same instant, when others have had their turns. -/
theorem Scene.foldl_supervise (h : R.Scene p) (js : List Nat) :
    R.Scene (js.foldl Panel.supervise p) ∧ (js.foldl Panel.supervise p).clock = p.clock ∧
      (js.foldl Panel.supervise p).waiters = p.waiters := by
  induction js generalizing p with
  | nil => exact ⟨h, rfl, rfl⟩
  | cons j js ih =>
    have hclient : (p.supervise j).clock = p.clock ∧ (p.supervise j).waiters = p.waiters :=
      Panel.supervise_induction (P := fun q => q.clock = p.clock ∧ q.waiters = p.waiters) ⟨rfl, rfl⟩
        fun q e he hq => ⟨((q.step_move e).clock_eq (Panel.Event.isAside_of_supervisor he)).trans hq.1,
          ((q.step_move e).waiters_eq he).trans hq.2⟩
    obtain ⟨hscene, hclock, hwait⟩ := ih (h.supervise j)
    exact ⟨hscene, hclock.trans hclient.1, hwait.trans hclient.2⟩

theorem Scene.incarnation_of_runId (h : R.Scene p) {s : Supervisor} (hs : s ∈ p.supervisors)
    (hid : s.runId = R.runId) : s.incarnation = R.incarnation := by
  obtain ⟨inc, hinc, hinc_id, -, -⟩ := h.reachable.wired.supervisors s hs
  exact h.sole _ inc hinc (hinc_id.trans hid)

theorem Scene.unique (h : R.Scene p) {s s' : Supervisor} (hs : p.supervisors[j]? = some s)
    (hs' : p.supervisors[j']? = some s') (hpost : s.post = s'.post) : j = j' :=
  h.reachable.wired.index_eq_of_post hs hs' hpost

/-- The steps of other supervisors do not touch a role to which nothing has happened. -/
theorem WaitsAt.step_of_ne {time : Nat} {e : Panel.Event} (hw : R.WaitsAt p role j time)
    (h : R.Scene p) (he : e.supervisor? = some j') (hne : j' ≠ j) :
    R.WaitsAt (p.step e) role j time := by
  obtain ⟨⟨status, hat, hrun⟩, hrests⟩ := hw
  have hmove := p.step_move e
  have hother : ∀ s, p.supervisors[j']? = some s → s.incarnation = R.incarnation →
      s.role ≠ role := fun s hs hinc hrole =>
    hne (h.unique hs hat.supervisor (Prod.ext hinc hrole))
  refine ⟨⟨status, ⟨?_, ?_, ?_⟩, hrun⟩, hrests⟩
  · exact (hmove.supervisors_eq he hne).trans hat.supervisor
  · exact (hmove.cell?_eq he fun s hs => hother s hs).trans hat.cell
  · refine (hmove.outlook_eq he fun s hs hid => hother s hs ?_).trans hat.outlook
    exact h.incarnation_of_runId (List.mem_of_getElem? hs) hid

theorem WaitsAt.supervise_of_ne {time : Nat} (hw : R.WaitsAt p role j time) (h : R.Scene p)
    (hne : j' ≠ j) : R.WaitsAt (p.supervise j') role j time :=
  (Panel.supervise_induction (P := fun q => R.Scene q ∧ R.WaitsAt q role j time) ⟨h, hw⟩
    fun _ _ he hq => ⟨hq.1.step_of_supervisor he, hq.2.step_of_ne hq.1 he hne⟩).2

theorem Ended.isTerminal {status : Status} (h : (status.phase, status.cause) = R.ending role) :
    status.isTerminal = true := by
  have hphase : status.phase = (R.ending role).1 := congrArg Prod.fst h
  rw [Status.isTerminal, hphase]
  exact Course.isTerminal_ending _ _ _

/-- A role that has ended stays so, whatever supervisors do. -/
theorem Ended.supervise (h : R.Ended p role) (j : Nat) : R.Ended (p.supervise j) role :=
  Panel.supervise_induction (P := fun q => R.Ended q role) h fun q e he ⟨status, ho, hend⟩ =>
    ⟨status, (q.step_move e).outlook_of_ended he ho (Ended.isTerminal hend), hend⟩

theorem Released.of_advances (h : R.Released p role) (hadv : p.Advances q) : R.Released q role := by
  obtain ⟨s, hs, hpost, hsettled⟩ := h
  obtain ⟨s', hs', hss'⟩ := hadv.supervisors.exists_mem hs
  refine ⟨s', hs', ?_, hss'.settled hsettled⟩
  rw [← hpost, Supervisor.post, Supervisor.post, hss'.incarnation_eq, hss'.role_eq]

/-- When the supervisor of a role has had its turn, nothing is overdue for that role. -/
theorem WaitsAt.supervise (hw : R.WaitsAt p role j p.clock) (h : R.Scene p)
    (hclock : p.clock < R.deadline) (hdelay : (R.course role).delay ≠ some R.roleTimeout) :
    R.Timely (p.supervise j) role (p.clock + 1) := by
  obtain ⟨⟨status, hat, hrun⟩, hrests⟩ := hw
  cases hr : (R.supervisor role).learns? p.clock with
  | none =>
    rw [Panel.supervise_of_idle hat.supervisor rfl rfl rfl hr]
    exact .inl ⟨j, ⟨status, hat, hrun⟩, Supervisor.restsUntil_of_learns_none hr⟩
  | some r =>
    obtain ⟨s', status', hat', hid, hpost, hsettled, hend⟩ :=
      Panel.supervise_of_learns h.reachable h.inMemory hat hrun rfl rfl rfl hr
    rw [h.roleTimeout_eq, ending_of_learns hrests hr hclock hdelay] at hend
    refine .inr ⟨⟨status', ?_, hend⟩, s', List.mem_of_getElem? hat'.supervisor, hpost, hsettled⟩
    rw [← hat'.outlook, hid, show s'.role = role from congrArg Prod.snd hpost]
    rfl

theorem Timely.supervise {time : Nat} (hr : R.Timely p role time) (h : R.Scene p)
    (hle : p.clock < time) (j : Nat) : R.Timely (p.supervise j) role time := by
  rcases hr with ⟨j₀, hw⟩ | ⟨hend, hreleased⟩
  · by_cases hj : j = j₀
    · -- its own supervisor has nothing to learn
      subst hj
      obtain ⟨⟨status, hat, hrun⟩, hrests⟩ := hw
      rw [Panel.supervise_of_idle hat.supervisor rfl rfl rfl
        (Supervisor.learns?_of_restsUntil hrests hle)]
      exact .inl ⟨j, ⟨status, hat, hrun⟩, hrests⟩
    · exact .inl ⟨j₀, hw.supervise_of_ne h hj⟩
  · refine .inr ⟨hend.supervise j, hreleased.of_advances ?_⟩
    exact p.run_advances [.comeBack j, .observe j, .decide j, .settle j]

theorem timely_foldl_supervise (hclock : clock < R.deadline)
    (hdelay : (R.course role).delay ≠ some R.roleTimeout) (js : List Nat) (h : R.Scene p)
    (hp : p.clock = clock)
    (hrole : (∃ j ∈ js, R.WaitsAt p role j clock) ∨ R.Timely p role (clock + 1)) :
    R.Timely (js.foldl Panel.supervise p) role (clock + 1) := by
  -- induction on the supervisors that have yet to have their turn; that of the role is one of them, or
  -- has had it
  induction js generalizing p with
  | nil => exact hrole.resolve_left (by simp)
  | cons j js ih =>
    subst hp
    obtain ⟨-, hsame, -⟩ := h.foldl_supervise [j]
    refine ih (h.supervise j) hsame ?_
    rcases hrole with ⟨j₀, hmem, hw⟩ | htimely
    · by_cases hj : j = j₀
      · exact .inr (hj ▸ hw.supervise h hclock hdelay)
      · exact .inl ⟨j₀, (List.mem_cons.1 hmem).resolve_left (Ne.symm hj), hw.supervise_of_ne h hj⟩
    · exact .inr (htimely.supervise h (Nat.lt_succ_self _) j)

theorem Scene.hear (h : R.Scene p) : R.Scene p.hear := by
  obtain ⟨es, hes⟩ := p.hear_eq_run
  obtain ⟨scribe, disk, inFlight, hp⟩ := p.hear_eq
  refine h.of_advances (hes ▸ h.reachable.run es) (hes ▸ p.run_advances es) ?_
  rw [hp]
  exact .of_eq rfl rfl rfl

theorem Scene.others_eq (h : R.Scene p) :
    p.others = ((List.range p.supervisors.length).foldl Panel.supervise p).hear := by
  have hscene := (h.foldl_supervise (List.range p.supervisors.length)).1.hear
  have hscribe := hscene.reachable.scribe_eq_empty hscene.inMemory
  simp only [Panel.others, hscribe]
  rfl

/-- The client is where it was, at the same instant, when everybody else has had a turn. -/
theorem Scene.others (h : R.Scene p) :
    R.Scene p.others ∧ p.others.clock = p.clock ∧ p.others.waiters = p.waiters := by
  obtain ⟨hscene, hclock, hwait⟩ := h.foldl_supervise (List.range p.supervisors.length)
  rw [h.others_eq]
  refine ⟨hscene.hear, ?_⟩
  obtain ⟨scribe, disk, inFlight, heq⟩ :=
    ((List.range p.supervisors.length).foldl Panel.supervise p).hear_eq
  rw [heq]
  exact ⟨hclock, hwait⟩

theorem Timely.congr {time : Nat} (h : R.Timely p role time) (hs : q.supervisors = p.supervisors)
    (hi : q.incarnations = p.incarnations) (hl : q.ledger = p.ledger) : R.Timely q role time := by
  rcases h with ⟨j, ⟨status, hat, hrun⟩, hrests⟩ | ⟨⟨status, ho, hend⟩, s, hmem, hdone⟩
  · refine .inl ⟨j, ⟨status, ⟨?_, ?_, ?_⟩, hrun⟩, hrests⟩
    · rw [hs, hat.supervisor]
    · rw [Panel.cell?, hi]
      exact hat.cell
    · rw [hl, hat.outlook]
  · exact .inr ⟨⟨status, hl ▸ ho, hend⟩, s, hs ▸ hmem, hdone⟩

theorem Timely.hear {time : Nat} (h : R.Timely p role time) : R.Timely p.hear role time := by
  obtain ⟨scribe, disk, inFlight, hp⟩ := p.hear_eq
  rw [hp]
  exact h.congr rfl rfl rfl

/-- **When all supervisors had their turn, nothing is overdue.** -/
theorem Scene.others_timely (h : R.Scene p) (hclock : p.clock < R.deadline)
    (hdelay : (R.course role).delay ≠ some R.roleTimeout) (hrole : R.Timely p role p.clock) :
    R.Timely p.others role (p.clock + 1) := by
  rw [h.others_eq]
  refine (timely_foldl_supervise hclock hdelay _ h rfl ?_).hear
  rcases hrole with ⟨j, hw⟩ | hdone
  · obtain ⟨status, hat, -⟩ := hw.running
    exact .inl ⟨j, List.mem_range.2 (List.getElem?_eq_some_iff.1 hat.supervisor).1, hw⟩
  · exact .inr (.inr hdone)

end Stage

end Rehearsal

end ReviewPanel
