import ReviewPanel.Proofs.Panel.Vigil
import ReviewPanel.Script

/-!
# Deadlines alone decide how a review goes

A review starts a run under a new identifier, waits for it and finalizes it.  Between its start and its
verdict many things happen side by side: reviewers come back or do not, supervisors close slots, the
client looks at the ledger, and in the end it may have to stop those who are late.  What comes out of it
is nevertheless a matter of three numbers for each role: the delay of its reviewer, the time limit of the
role, and the time limit of the run.

## Main definitions

* `Panel.Opened` : what a start under a new identifier leaves behind.
* `Script.ending` : how the role of a scripted reviewer ends.
* `Panel.OnScript` : a panel whose reviewers follow scripts is about to review something.

## Main statements

* `Panel.opened_of_start`, `Panel.Opened.await`, `Panel.Opened.finalize` : the three parts of a review.
* `Panel.review_of_courses` : **how a review goes**, whatever its reviewers do.
* `Panel.review_on_script` : **deadlines alone decide how a review goes.**
-/

namespace ReviewPanel

/-! ### Starting a run under a new identifier -/

namespace Rehearsal

variable {R : Rehearsal} {p q : Panel} {item : WorkItem} {role : Role} {roles : List Role}

/-- What has to be so for the supervisor of a role to be started. -/
structure CanSpawn (R : Rehearsal) (item : WorkItem) (q : Panel) (role : Role) : Prop where
  pending : q.ledger.outlook (R.runId, role) = some ⟨false, some .pending⟩
  course : ∀ d, q.crew.reviewer role role item d = R.course role
  clock : q.clock = R.startedAt
  roleTimeout : q.config.roleTimeout = R.roleTimeout

theorem CanSpawn.spawn_eq (h : R.CanSpawn item q role) :
    (q.spawn R.incarnation R.runId item role).supervisors = q.supervisors ++ [R.supervisor role] ∧
      (q.spawn R.incarnation R.runId item role).incarnations =
        q.incarnations.modify R.incarnation (Incarnation.addHandles [q.supervisors.length]) := by
  obtain ⟨u, hu⟩ := Panel.transition_of_pending h.pending
  constructor
  · simp only [Panel.spawn, hu, Panel.accept_eq, h.course, h.clock, h.roleTimeout]
    rfl
  · simp only [Panel.spawn, hu, Panel.accept_eq]
    rfl

theorem CanSpawn.spawn_of_ne (h : R.CanSpawn item q role) {role' : Role} (hne : role ≠ role') :
    R.CanSpawn item (q.spawn R.incarnation R.runId item role') role := by
  have hpend := (q.outlook_spawn_of_ne R.incarnation R.runId item hne).trans h.pending
  obtain ⟨scribe, disk, new, handles, -, -, hq⟩ :=
    q.spawn_eq R.incarnation R.runId item role'
  rw [hq] at hpend ⊢
  exact ⟨hpend, h.course, h.clock, h.roleTimeout⟩

theorem foldl_spawn (hnd : roles.Nodup) (h : ∀ role ∈ roles, R.CanSpawn item q role) :
    (roles.foldl (fun p role => p.spawn R.incarnation R.runId item role) q).supervisors =
        q.supervisors ++ roles.map R.supervisor ∧
      (roles.foldl (fun p role => p.spawn R.incarnation R.runId item role) q).incarnations =
        q.incarnations.modify R.incarnation
          (Incarnation.addHandles (List.range' q.supervisors.length roles.length)) := by
  induction roles generalizing q with
  | nil =>
    rw [List.length_nil, List.range'_zero, Incarnation.addHandles_nil, List.modify_id, List.map_nil,
      List.append_nil]
    exact ⟨rfl, rfl⟩
  | cons role roles ih =>
    obtain ⟨hnotin, hnd⟩ := List.nodup_cons.1 hnd
    obtain ⟨hsup, hinc⟩ := (h role List.mem_cons_self).spawn_eq
    obtain ⟨hsup', hinc'⟩ := ih (q := q.spawn R.incarnation R.runId item role) hnd
      fun role' hr => (h role' (List.mem_cons_of_mem _ hr)).spawn_of_ne fun heq => hnotin (heq ▸ hr)
    rw [List.foldl_cons]
    constructor
    · rw [hsup', hsup, List.append_assoc]
      rfl
    · rw [hinc', hinc, hsup, List.modify_modify_eq, Incarnation.addHandles_comp]
      simp [List.range'_succ]

/-- The findings with which the reviewer of a role comes back, if it does and has some. -/
def answer? (R : Rehearsal) (role : Role) : Option (List Finding) := (R.course role).reply.toOption

end Rehearsal

theorem le_foldl_max {α : Type} (f : α → Nat) (as : List α) (n : Nat) :
    n ≤ as.foldl (fun t a => max t (f a)) n := by
  induction as generalizing n with
  | nil => exact Nat.le_refl n
  | cons a as ih => exact Nat.le_trans (Nat.le_max_left n (f a)) (ih _)

namespace Panel

variable {p : Panel} {id : RunId} {item : WorkItem} {roles : List Role}

theorem Wired.unknown_of_new (h : p.Wired) (hid : ∀ inc ∈ p.incarnations, inc.runId ≠ id) :
    p.ledger.entries.get? id = none := by
  rcases h.listed id with ⟨-, hnone⟩ | ⟨i, inc, x, -, hinc, hrun, -⟩
  · exact hnone
  · exact absurd hrun (hid inc (List.mem_of_getElem? hinc))

theorem start_of_new (item : WorkItem) (hspawn : p.canSpawn = true)
    (hroot : p.config.workspaceRoot = none) (hid : p.ledger.entries.get? id = none)
    (hne : roles ≠ []) (hnd : roles.Nodup) :
    ∃ u, p.ledger.create id item roles p.now = .ok u ∧
      p.start id item roles = ((p.accept u).launch id item roles none, .ok id) := by
  have hcreate : p.ledger.create id item roles p.now = .ok _ :=
    Ledger.create_eq_ok.2 ⟨hne, hnd, hid, rfl⟩
  refine ⟨_, hcreate, ?_⟩
  have hclear : p.clearPrevious id = (p, .ok ()) := by
    rw [clearPrevious_eq, hid]
    cases p.config.rerunPolicy with
    | reject => rfl
    | archive => simp only [makeRoom, hroot]
  rw [start_eq, if_pos hspawn, hclear]
  simp only [enter, openWorkspace, hroot, hcreate]

/-- The run of a client that starts it now and waits for it at once. -/
def rehearsal (p : Panel) (id : RunId) (roles : List Role) (course : Role → Course)
    (poll limit : Nat) : Rehearsal where
  incarnation := p.incarnations.length
  runId := id
  roles := roles
  course := course
  client := p.waiters.length
  startedAt := p.clock
  roleTimeout := p.config.roleTimeout
  limit := limit
  poll := poll

theorem launch_of_create {u : Ledger.Update RunState}
    (hu : p.ledger.create id item roles p.now = .ok u) {course : Role → Course}
    (hcourse : ∀ role ∈ roles, ∀ d, p.crew.reviewer role role item d = course role)
    (poll limit : Nat) :
    ((p.accept u).launch id item roles none).supervisors =
        p.supervisors ++ roles.map (p.rehearsal id roles course poll limit).supervisor ∧
      ((p.accept u).launch id item roles none).incarnations = p.incarnations ++ [
        { runId := id, slots := .ofRoles roles none,
          handles := List.range' p.supervisors.length roles.length, startedAt := p.clock,
          verdict := none }] := by
  obtain ⟨-, hnd, -, -⟩ := Ledger.create_eq_ok.1 hu
  rw [accept_eq]
  generalize (p.scribe.receive p.disk u.published).1 = scribe
  generalize (p.scribe.receive p.disk u.published).2 = disk
  have hcan : ∀ role ∈ roles, (p.rehearsal id roles course poll limit).CanSpawn item
      { p with ledger := u.ledger, scribe, disk, incarnations := p.incarnations ++ [
        { runId := id, slots := .ofRoles roles none, handles := [], startedAt := p.clock,
          verdict := none }] } role := fun role hr => {
    pending := Ledger.outlook_of_create hu hr
    course := hcourse role hr
    clock := rfl
    roleTimeout := rfl }
  obtain ⟨hsup, hinc⟩ := Rehearsal.foldl_spawn hnd hcan
  refine ⟨hsup, hinc.trans ?_⟩
  simp [rehearsal, List.modify_eq_take_cons_drop, Incarnation.addHandles]

/-- What a start under a new identifier leaves behind, where no documents are kept. -/
structure Opened (p r : Panel) (R : Rehearsal) : Prop where
  new : ∀ inc ∈ p.incarnations, inc.runId ≠ R.runId
  position : R.incarnation = p.incarnations.length
  reachable : r.Reachable
  config_eq : r.config = p.config
  inMemory : r.config.workspaceRoot = none
  roleTimeout_eq : r.config.roleTimeout = R.roleTimeout
  clock_eq : r.clock = R.startedAt
  table_eq : r.table.get? R.runId = some R.incarnation
  waiters_eq : r.waiters.length = R.client
  running : AllRunning r.ledger R.runId R.roles
  supervisors_eq : r.supervisors = p.supervisors ++ R.roles.map R.supervisor
  incarnations_eq : r.incarnations = p.incarnations ++ [
    { runId := R.runId, slots := .ofRoles R.roles none,
      handles := List.range' p.supervisors.length R.roles.length, startedAt := R.startedAt,
      verdict := none }]

/-- **A start under a new identifier is accepted**, and all its roles are running. -/
theorem opened_of_start (hp : Reachable p) (hspawn : p.canSpawn = true)
    (hroot : p.config.workspaceRoot = none) (hnew : ∀ inc ∈ p.incarnations, inc.runId ≠ id)
    (hne : roles ≠ []) (hnd : roles.Nodup) {course : Role → Course}
    (hcourse : ∀ role ∈ roles, ∀ d, p.crew.reviewer role role item d = course role)
    (poll limit : Nat) :
    (p.start id item roles).2 = .ok id ∧
      p.Opened (p.start id item roles).1 (p.rehearsal id roles course poll limit) := by
  obtain ⟨u, hu, hstart⟩ := start_of_new item hspawn hroot
    (hp.wired.unknown_of_new hnew) hne hnd
  have hok : (p.start id item roles).2 = .ok id := by rw [hstart]
  have hlaunched := launched_of_start hok
  have hconfig := (p.step_advances (.start id item roles)).config_eq
  obtain ⟨hsup, hinc⟩ := launch_of_create hu hcourse poll limit
  obtain ⟨_, _, _, _, -, -, hl⟩ := (p.accept u).launch_eq id item roles none
  refine ⟨hok, ?_⟩
  exact {
    new := hnew
    position := rfl
    reachable := hp.step (.start id item roles)
    config_eq := hconfig
    inMemory := (congrArg Config.workspaceRoot hconfig).trans hroot
    roleTimeout_eq := congrArg Config.roleTimeout hconfig
    clock_eq := by rw [hstart, hl, accept_eq]; rfl
    table_eq := hlaunched.table
    waiters_eq := congrArg List.length hlaunched.waiters
    running := hlaunched.running
    supervisors_eq := by rw [hstart]; exact hsup
    incarnations_eq := by rw [hstart]; exact hinc }

namespace Opened

variable {r : Panel} {R : Rehearsal}

theorem incarnation_eq (h : p.Opened r R) : r.incarnations[R.incarnation]? = some
    { runId := R.runId, slots := .ofRoles R.roles none,
      handles := List.range' p.supervisors.length R.roles.length, startedAt := R.startedAt,
      verdict := none } := by
  rw [h.incarnations_eq, h.position]
  exact List.getElem?_concat_length

theorem mem_supervisors (h : p.Opened r R) {role : Role} (hr : role ∈ R.roles) :
    R.supervisor role ∈ r.supervisors := by
  rw [h.supervisors_eq]
  exact List.mem_append_right _ (List.mem_map_of_mem hr)

theorem waitsAt (h : p.Opened r R) {role : Role} (hr : role ∈ R.roles) :
    ∃ j, R.WaitsAt r role j R.startedAt := by
  obtain ⟨x, hx, hv, hphase⟩ := h.running
  have hrun := hphase role
  rw [if_pos hr] at hrun
  obtain ⟨status, hs, hrun⟩ := Option.map_eq_some_iff.1 hrun
  obtain ⟨j, hj⟩ := List.mem_iff_getElem?.1 (h.mem_supervisors hr)
  refine ⟨j, ⟨status, ⟨hj, ?_, ?_⟩, hrun⟩, ?_⟩
  · rw [cell?, show (R.supervisor role).incarnation = R.incarnation from rfl, h.incarnation_eq]
    exact if_pos hr
  · rw [Ledger.outlook]
    simp [Rehearsal.supervisor, hx, hv, hs]
  · refine ⟨Nat.le_add_right _ _, fun t ht => ?_⟩
    obtain ⟨d, -, rfl⟩ := Option.map_eq_some_iff.1 ht
    exact Nat.le_add_right _ _

theorem scene (h : p.Opened r R) : R.Scene r where
  reachable := h.reachable
  sole j inc hinc hid := by
    rw [h.incarnations_eq] at hinc
    have hposition := h.position
    by_cases hj : j < p.incarnations.length
    · rw [List.getElem?_append_left hj] at hinc
      exact absurd hid (h.new inc (List.mem_of_getElem? hinc))
    · have hlt := (List.getElem?_eq_some_iff.1 hinc).1
      simp only [List.length_append, List.length_singleton] at hlt
      omega
  inMemory := h.inMemory
  roleTimeout_eq := h.roleTimeout_eq
  table_eq := h.table_eq
  incarnation := by
    refine ⟨_, h.incarnation_eq, rfl, isSome_ofRoles _ _, fun j hj s hs => ?_⟩
    -- the supervisors that have been started are those of the run
    rw [h.supervisors_eq, List.getElem?_append_right (List.mem_range'_1.1 hj).1] at hs
    obtain ⟨role, -, rfl⟩ := List.mem_map.1 (List.mem_of_getElem? hs)
    rfl

/-- A client that waits for the run at once finds every role running and nothing due. -/
theorem pending (h : p.Opened r R) :
    ∃ q, r.enterWait R.runId R.poll R.limit = (q, .ok R.client) ∧ r.Advances q ∧
      q.clock = R.startedAt ∧ R.Pending q R.startedAt := by
  have hact : r.active R.runId = .ok (R.incarnation, _) :=
    active_eq_ok.2 ⟨h.table_eq, h.incarnation_eq⟩
  have henter : r.enterWait R.runId R.poll R.limit =
      ({ r with waiters := r.waiters ++ [R.waiter (.polling R.startedAt)] }, .ok R.client) := by
    simp only [enterWait, hact, h.clock_eq, h.waiters_eq]
    rfl
  have hstep : r.step (.await R.runId R.poll R.limit) = _ := congrArg Prod.fst henter
  have hadv := r.step_advances (.await R.runId R.poll R.limit)
  have hreach := h.reachable.step (.await R.runId R.poll R.limit)
  rw [hstep] at hadv hreach
  refine ⟨_, henter, hadv, h.clock_eq, ?_⟩
  exact {
    scene := h.scene.of_advances hreach hadv (.of_eq rfl rfl rfl)
    client := by
      rw [Rehearsal.ClientAt, ← h.waiters_eq]
      exact List.getElem?_concat_length
    clock_le := Nat.le_of_eq h.clock_eq
    wakeAt_le := Nat.le_add_right _ _
    timely := fun role hr => by
      change R.Timely _ role r.clock
      rw [h.clock_eq]
      exact Rehearsal.Timely.congr (.inl (h.waitsAt hr)) rfl rfl rfl }

/-- **Waiting for the run gives a snapshot in which every role has ended as it should.** -/
theorem await (h : p.Opened r R)
    (hdelay : ∀ role ∈ R.roles, (R.course role).delay ≠ some R.roleTimeout) :
    ∃ q s, r.await R.runId R.poll R.limit = (q, .ok s) ∧ r.Advances q ∧ R.Over q := by
  obtain ⟨q₀, henter, hadv, hclock, hpending⟩ := h.pending
  have hclient := hpending.client
  rw [Rehearsal.ClientAt] at hclient
  -- the fuel of the wait lasts until the deadline of the run
  have hhorizon : R.deadline ≤ q₀.horizon (R.waiter (.polling R.startedAt)) := by
    refine Nat.le_trans ?_ (le_foldl_max _ _ _)
    rw [hpending.scene.deadline_eq]
    exact Nat.le_max_right _ _
  have hfuel : R.deadline - q₀.clock <
      q₀.horizon (R.waiter (.polling R.startedAt)) - q₀.clock + 4 := by omega
  have hover := hpending.over hdelay hfuel
  obtain ⟨s, hs⟩ := hover.answer
  obtain ⟨es, hes⟩ := waitUntil_eq_run R.client
    (q₀.horizon (R.waiter (.polling R.startedAt)) - q₀.clock + 4) q₀
  refine ⟨_, s, ?_, hadv.trans (hes ▸ q₀.run_advances es), hover⟩
  simp only [Panel.await, henter, hclient, hs]
  rfl

end Opened

/-! ### Finalizing the run -/

theorem finalize_of_ended {i : Nat} {inc : Incarnation} {x : LedgerEntry}
    (hact : p.active id = .ok (i, inc)) (hnone : inc.verdict = none)
    (hx : p.ledger.entries.get? id = some x) (hcomplete : x.isComplete = true)
    (hopen : x.verdict = none) (hworkspace : p.scribe.workspace? id = none) :
    (p.finalize id).2 = .ok (Verdict.reduce (x.snapshot id) inc.slots.findings) ∧
      ∃ verdict, (p.finalize id).1.ledger.read id = .ok ((x.withVerdict verdict).snapshot id) := by
  have hread : p.ledger.read id = .ok (x.snapshot id) := Ledger.read_eq_ok.2 ⟨x, hx, rfl⟩
  have hagg : aggregate (x.snapshot id) inc.slots =
      .ok (Verdict.reduce (x.snapshot id) inc.slots.findings) := if_pos hcomplete
  generalize Verdict.reduce (x.snapshot id) inc.slots.findings = v at hagg ⊢
  have hattach : p.ledger.attach id v.toRef = .ok _ :=
    Ledger.attach_eq_ok.2 ⟨x, hx, hcomplete, hopen, rfl⟩
  simp only [finalize, hact, hnone, hread, hagg, writeVerdict, hworkspace, attachVerdict, hattach,
    true_and]
  exact ⟨v.toRef, Ledger.read_eq_ok.2 ⟨x.withVerdict v.toRef, by simp, rfl⟩⟩

theorem Opened.answer_eq {r q : Panel} {R : Rehearsal} {inc : Incarnation} {x : LedgerEntry}
    (h : p.Opened r R) (hadv : r.Advances q) (hscene : R.Scene q) (hx : R.Shows q x)
    (hagree : Agrees q.supervisors R.incarnation inc x) {role : Role} {status : Status}
    (hs : x.roles.get? role = some status) (hphase : status.phase = .complete) :
    R.answer? role = inc.slots.findings role := by
  obtain ⟨s, hs_mem, hpost, fs, -, hreply, hcell⟩ := hagree.delivered role status hs hphase
  obtain ⟨s', hs'_mem, hs'⟩ := hadv.supervisors.exists_mem
    (h.mem_supervisors ((hx.roles role).1 (Option.isSome_iff_exists.2 ⟨status, hs⟩)))
  obtain rfl := hscene.reachable.wired.eq_of_post hs_mem hs'_mem
    (hpost.trans (Prod.ext hs'.incarnation_eq.symm hs'.role_eq.symm))
  have hrole : s.role = role := congrArg Prod.snd hpost
  have hcourse : (R.course role).reply = .ok fs := hs'.reply_eq.symm.trans hreply
  rw [Rehearsal.answer?, hcourse, Slots.findings, ← hrole, hcell]
  rfl

/-- **Finalizing the run gives the verdict of what the reviewers of the finished roles came back
with.** -/
theorem Opened.finalize {r q : Panel} {R : Rehearsal} (h : p.Opened r R) (hne : R.roles ≠ [])
    (hadv : r.Advances q) (hover : R.Over q) :
    ∃ s, (q.finalize R.runId).2 = .ok (Verdict.reduce s R.answer?) ∧
      (q.finalize R.runId).1.ledger.read R.runId = .ok s ∧
      ∀ role, (s.roles.get? role).map (fun status => (status.phase, status.cause)) =
        if role ∈ R.roles then some (R.ending role) else none := by
  have hscene := hover.scene
  obtain ⟨inc, hinc, -⟩ := hscene.incarnation
  obtain ⟨x, hx, hcomplete, hopen, hroles⟩ := hover.entry hne
  have hid : inc.runId = R.runId :=
    (hscene.reachable.wired.listed R.runId).runId_eq hscene.table_eq hinc
  have hagree := hscene.reachable.agrees hinc (hid ▸ hscene.sole) (hid ▸ hx.entry)
  have hnone : inc.verdict = none := by
    cases hv : inc.verdict with
    | none => rfl
    | some v =>
      obtain ⟨hsealed, -⟩ := hagree.verdict v hv
      rw [hopen] at hsealed
      cases hsealed
  have hworkspace : q.scribe.workspace? R.runId = none := by
    rw [hscene.reachable.scribe_eq_empty hscene.inMemory]
    rfl
  obtain ⟨hv, verdict, hread⟩ := finalize_of_ended (active_eq_ok.2 ⟨hscene.table_eq, hinc⟩) hnone
    hx.entry hcomplete hopen hworkspace
  refine ⟨_, hv.trans (congrArg Except.ok ?_), hread, hroles⟩
  exact (Verdict.reduce_congr rfl rfl fun role status hs hphase =>
    h.answer_eq hadv hscene hx hagree hs hphase).symm

/-- **How a review goes**, under a new identifier and without documents: every role ends as its course
and the two time limits say. -/
theorem review_of_courses (hp : Reachable p) (hspawn : p.canSpawn = true)
    (hroot : p.config.workspaceRoot = none)
    (hnew : ∀ inc ∈ p.incarnations, inc.runId ≠ "run-" ++ stamp p.nextStamp)
    (hne : roles ≠ []) (hnd : roles.Nodup) {course : Role → Course}
    (hcourse : ∀ role ∈ roles, ∀ d, p.crew.reviewer role role item d = course role)
    (hdelay : ∀ role ∈ roles, (course role).delay ≠ some p.config.roleTimeout) :
    ∃ s, (p.review item roles).2 =
        .ok (s, Verdict.reduce s fun role => (course role).reply.toOption) ∧
      s.runId = "run-" ++ stamp p.nextStamp ∧
      ∀ role, (s.roles.get? role).map (fun status => (status.phase, status.cause)) =
        if role ∈ roles then
          some ((course role).ending p.config.roleTimeout p.config.globalTimeout)
        else none := by
  obtain ⟨hok, hopened⟩ := opened_of_start (p := p.step .draw) (hp.step .draw) hspawn hroot
    hnew hne hnd hcourse p.config.pollInterval p.config.globalTimeout
  have hstart : p.startFresh item roles =
      (((p.step .draw).start ("run-" ++ stamp p.nextStamp) item roles).1,
        .ok ("run-" ++ stamp p.nextStamp)) := Prod.ext rfl hok
  generalize ((p.step .draw).start ("run-" ++ stamp p.nextStamp) item roles).1 = r
    at hopened hstart
  obtain ⟨q, _, hawait, hadv, hover⟩ := hopened.await hdelay
  obtain ⟨s, hv, hread, hroles⟩ := hopened.finalize hne hadv hover
  obtain ⟨_, -, hs⟩ := Ledger.read_eq_ok.1 hread
  refine ⟨s, ?_, congrArg RunState.runId hs, hroles⟩
  have hconfig : r.config = p.config := hopened.config_eq
  generalize hq' : (q.finalize _).1 = q' at hread
  have hfinalize : q.finalize ("run-" ++ stamp p.nextStamp) = (q', .ok _) := Prod.ext hq' hv
  simp only [rehearsal] at hawait hread
  simp only [review, hstart, hconfig, hawait, hfinalize, hread]
  rfl

end Panel

/-! ### Scripts -/

namespace Script

/-- How the role of a scripted reviewer ends: as its act says if its delay is shorter than both time
limits, and late otherwise. -/
def ending (s : Script) (roleTimeout limit : Nat) : Phase × Option String :=
  if s.delay < min roleTimeout limit then
    match s.act with
    | .succeed _ | .echo => (.complete, none)
    | .fail e => (.failed, some e.message)
    | .hang => lateEnding roleTimeout limit
  else lateEnding roleTimeout limit

/-- The findings that a script has its reviewer come back with. -/
def findings? (s : Script) (role : Role) (item : WorkItem) : Option (List Finding) :=
  match s.act with
  | .succeed fs => some fs
  | .echo => some [echoFinding role item]
  | .fail _ | .hang => none

theorem ending_reviewer (s : Script) (role : Role) (item : WorkItem) (d : Disk)
    (roleTimeout limit : Nat) :
    (s.reviewer role item d).ending roleTimeout limit = s.ending roleTimeout limit := by
  unfold Course.ending ending reviewer
  cases s.act with
  | hang => exact (ite_self _).symm
  | succeed | fail | echo =>
    simp only [Option.any_some, decide_eq_true_eq]
    rfl

/-- A role that finishes does so with the findings of its script. -/
theorem answer_reviewer {s : Script} {roleTimeout limit : Nat}
    (h : (s.ending roleTimeout limit).1 = .complete) (role : Role) (item : WorkItem) (d : Disk) :
    (s.reviewer role item d).reply.toOption = s.findings? role item := by
  unfold ending at h
  unfold reviewer findings?
  cases hact : s.act with
  | succeed fs => rfl
  | echo => rfl
  | fail e =>
    rw [hact] at h
    split_ifs at h
    cases h
  | hang =>
    simp only [hact, ite_self] at h
    cases h

end Script

namespace Panel

variable {p : Panel} {item : WorkItem} {roles : List Role} {scripts : Role → Script}

/-- A panel that keeps no documents is about to review a unit of work from the perspective of some roles,
whose reviewers follow scripts. -/
structure OnScript (p : Panel) (item : WorkItem) (roles : List Role) (scripts : Role → Script) :
    Prop where
  reachable : p.Reachable
  canSpawn : p.canSpawn = true
  inMemory : p.config.workspaceRoot = none
  /-- The next identifier is new, as unique stamps are. -/
  new : ∀ inc ∈ p.incarnations, inc.runId ≠ "run-" ++ stamp p.nextStamp
  ne_nil : roles ≠ []
  nodup : roles.Nodup
  scripted : ∀ role ∈ roles, ∀ d,
    p.crew.reviewer role role item d = (scripts role).reviewer role item d
  /-- No reviewer comes back at the very instant at which its time is over. -/
  delay_ne : ∀ role ∈ roles, (scripts role).delay ≠ p.config.roleTimeout

/-- The phase and the cause of a role in a snapshot. -/
def outcome (s : RunState) (role : Role) : Option (Phase × Option String) :=
  (s.roles.get? role).map fun status => (status.phase, status.cause)

theorem OnScript.review_eq (h : p.OnScript item roles scripts) :
    ∃ s, (p.review item roles).2 =
        .ok (s, Verdict.reduce s fun role => (scripts role).findings? role item) ∧
      s.runId = "run-" ++ stamp p.nextStamp ∧
      ∀ role, outcome s role = if role ∈ roles then
        some ((scripts role).ending p.config.roleTimeout p.config.globalTimeout) else none := by
  have hdelay : ∀ role ∈ roles,
      ((scripts role).reviewer role item p.disk).delay ≠ some p.config.roleTimeout := by
    intro role hr heq
    unfold Script.reviewer at heq
    split at heq
    case h_3 => cases heq
    all_goals exact h.delay_ne role hr (Option.some.inj heq)
  have hscripted : ∀ role ∈ roles, ∀ d,
      p.crew.reviewer role role item d = (scripts role).reviewer role item p.disk := h.scripted
  obtain ⟨s, hreview, hid, hroles⟩ := review_of_courses h.reachable h.canSpawn h.inMemory h.new
    h.ne_nil h.nodup hscripted hdelay
  have houtcome : ∀ role, outcome s role = if role ∈ roles then
      some ((scripts role).ending p.config.roleTimeout p.config.globalTimeout) else none :=
    fun role => (hroles role).trans (by rw [Script.ending_reviewer])
  refine ⟨s, hreview.trans ?_, hid, houtcome⟩
  congr 2
  refine Verdict.reduce_congr rfl rfl fun role status hs hphase => ?_
  -- a role that finished has a script that says so
  have hend := houtcome role
  rw [outcome, hs, Option.map_some] at hend
  split_ifs at hend
  have hcomplete := (congrArg Prod.fst (Option.some.inj hend)).symm.trans hphase
  exact Script.answer_reviewer hcomplete role item p.disk

/-- **Deadlines alone decide how a review goes.**  Let no reviewer come back exactly when its own time is
over.  Then the review gives a snapshot and a verdict.  In the snapshot every role has ended as its
script, the time limit of a role and the time limit of the run say, and the verdict is that of the
scripted findings of the roles that finished.  So neither depends on how often the ledger is looked at,
on what happens to reviewers that are late, or on anything else that happens on the panel.

A review takes the steps that are due at one instant in a fixed order (`Panel.others`).  Where the delay of
a reviewer or the time limit of a role equals the time limit of the run, what is said here is about that
order. -/
theorem review_on_script (h : p.OnScript item roles scripts) :
    ∃ s v, (p.review item roles).2 = .ok (s, v) ∧
      (∀ role, outcome s role = if role ∈ roles then
        some ((scripts role).ending p.config.roleTimeout p.config.globalTimeout) else none) ∧
      v = Verdict.reduce s (fun role => (scripts role).findings? role item) ∧
      ∀ q : Panel, q.OnScript item roles scripts → q.config.roleTimeout = p.config.roleTimeout →
        q.config.globalTimeout = p.config.globalTimeout → q.nextStamp = p.nextStamp →
        ∃ s', (q.review item roles).2 = .ok (s', v) ∧ ∀ role, outcome s' role = outcome s role := by
  obtain ⟨s, hreview, hid, houtcome⟩ := h.review_eq
  refine ⟨s, _, hreview, houtcome, rfl, fun q hq hrole hglobal hstamp => ?_⟩
  obtain ⟨s', hreview', hid', houtcome'⟩ := hq.review_eq
  have hsame : ∀ role, outcome s' role = outcome s role := fun role => by
    rw [houtcome, houtcome', hrole, hglobal]
  refine ⟨s', hreview'.trans ?_, hsame⟩
  congr 2
  refine Verdict.reduce_of_phases _ (by rw [hid, hid', hstamp]) fun role => ?_
  have hphase := congrArg (Option.map Prod.fst) (hsame role)
  simpa [outcome, Option.map_map, Function.comp_def] using hphase

/-- One reviewer that follows all scripts. -/
def scriptedCrew (scripts : Role → Script) : Crew :=
  .uniform fun role => (scripts role).reviewer role

theorem onScript_ofConfig {config : Config} {disk : Disk} {now : Timestamp} {nextStamp : Nat}
    (hp : Panel.ofConfig config (scriptedCrew scripts) disk now true nextStamp = .ok p)
    (hroot : config.workspaceRoot = none) (hne : roles ≠ []) (hnd : roles.Nodup)
    (hdelay : ∀ role ∈ roles, (scripts role).delay ≠ config.roleTimeout) :
    p.OnScript item roles scripts := by
  have hreach := Reachable.ofConfig hp
  obtain rfl := eq_of_ofConfig hp
  exact ⟨hreach, rfl, hroot, by simp [fresh], hne, hnd, fun _ _ _ => rfl, hdelay⟩

/-- Time limits of 50 milliseconds for a role and 80 for a run, and frequent looks at the ledger. -/
def briefConfig : Config :=
  { Config.default with roleTimeout := 50, globalTimeout := 80, pollInterval := 7 }

/-- A reviewer for security who has a finding after 10 milliseconds, one for the build who dies after 20,
one for coverage who would need 60, and others who never come back. -/
def briefScripts : Role → Script
  | .security => ⟨10, .succeed [openPort]⟩
  | .build => ⟨20, .fail (.panicked "boom")⟩
  | .coverage => ⟨60, .succeed []⟩
  | _ => ⟨0, .hang⟩

/-- The last two run out of time, and another panel that looks at the ledger less often and stops
reviewers that are late comes to the same result. -/
theorem review_on_script_brief : ∃ s v,
    ((fresh briefConfig (scriptedCrew briefScripts)).review (.ofReference "t")
      [.security, .build, .coverage, .observability]).2 = .ok (s, v) ∧
    outcome s .security = some (.complete, none) ∧
    outcome s .build = some (.failed, some "worker panicked: boom") ∧
    outcome s .coverage = some (.timedOut, some "no completion within 50ms") ∧
    outcome s .observability = some (.timedOut, some "no completion within 50ms") ∧
    outcome s .architecture = none ∧
    ∃ s', ((fresh { briefConfig with pollInterval := 31, onTimeout := .abort }
        (scriptedCrew briefScripts)).review (.ofReference "t")
        [.security, .build, .coverage, .observability]).2 = .ok (s', v) := by
  have honScript : ∀ config : Config, config.validate = .ok () → config.workspaceRoot = none →
      config.roleTimeout = 50 → (fresh config (scriptedCrew briefScripts)).OnScript (.ofReference "t")
        [.security, .build, .coverage, .observability] briefScripts :=
    fun config hvalid hroot htimeout => onScript_ofConfig (ofConfig_blank hvalid _) hroot (by decide)
      (by decide) (by rw [htimeout]; decide)
  obtain ⟨s, v, hreview, houtcome, -, hsame⟩ :=
    review_on_script (honScript briefConfig rfl rfl rfl)
  obtain ⟨s', hreview', -⟩ := hsame _ (honScript
    { briefConfig with pollInterval := 31, onTimeout := .abort } rfl rfl rfl) rfl rfl rfl
  exact ⟨s, v, hreview, houtcome _, houtcome _, houtcome _, houtcome _, houtcome _, s', hreview'⟩

end Panel

end ReviewPanel
