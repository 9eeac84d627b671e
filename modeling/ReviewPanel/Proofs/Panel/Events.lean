import ReviewPanel.Panel.Lifecycle
import ReviewPanel.Panel.Waiting
import ReviewPanel.Proofs.Ledger.Calls

/-!
# The schedules of a panel

The parties of a panel take their steps in any order.  An `Event` is one step of one party, or of the
surroundings: time passes, the calendar shows something else, the system begins or ceases to refuse
writes or removals.  A schedule is any list of events.

A statement about `Panel.run p es` for all `es` is one about all schedules, and these are not all the
interleavings there are.  A start, a call that finalizes and one that forgets are one step each, although
they do several things: what others do in the midst of them is taken before or after.  A supervisor and a
waiter change the ledger in one step, and the snapshot of the change reaches the scribe in another one
(`Event.deliver`), at any time and in any order with all else, or never.  Only where a call hands a verdict
to the ledger and has the documents brought up to date is there a moment in the middle of it: any snapshots
that are on their way may arrive then (`Event.arrange` says which).

Here is what the calls of a client come down to: which calls they make on the ledger, which parties they
add, and which parts of the panel they leave alone.

## Main definitions

* `Panel.Event`, `Panel.step`, `Panel.run` : schedules.
* `Panel.Reachable` : the panels that some schedule leads to.
* `Panel.fresh`, `Panel.halfSchedule` : a panel and a schedule to try statements on.

## Main statements

* `Panel.start_cases`, `Panel.finalize_cases`, `Panel.forget_cases` : **what the calls of a client
  do**, and when they are accepted.
-/

namespace ReviewPanel

theorem modify_congr {α : Type} {as : List α} {i : Nat} {f g : α → α}
    (h : ∀ a, as[i]? = some a → f a = g a) : as.modify i f = as.modify i g := by
  apply List.ext_getElem?
  intro j
  rw [List.getElem?_modify, List.getElem?_modify]
  by_cases hij : i = j
  · subst hij
    cases ha : as[i]? with
    | none => rfl
    | some a => simp [h a ha]
  · simp [hij]

/-- The incarnation with more supervisors that nobody has joined yet. -/
def Incarnation.addHandles (handles : List Nat) (inc : Incarnation) : Incarnation :=
  { inc with handles := inc.handles ++ handles }

theorem Incarnation.addHandles_nil : Incarnation.addHandles [] = id := by
  funext inc
  simp [addHandles]

theorem Incarnation.addHandles_comp (as bs : List Nat) :
    Incarnation.addHandles bs ∘ Incarnation.addHandles as = Incarnation.addHandles (as ++ bs) := by
  funext inc
  simp [addHandles]

namespace Panel

/-- One step of one party, or of the surroundings. -/
inductive Event where
  /-- A client starts a run. -/
  | start (id : RunId) (item : WorkItem) (roles : List Role)
  /-- A client finalizes a run. -/
  | finalize (id : RunId)
  /-- A client forgets a run. -/
  | forget (id : RunId)
  /-- A client begins to wait for a run. -/
  | await (id : RunId) (poll limit : Nat)
  /-- A waiter takes its next step. -/
  | wait (k : Nat)
  /-- The reviewer of a supervisor comes back. -/
  | comeBack (j : Nat)
  /-- A supervisor learns how the review went. -/
  | observe (j : Nat)
  /-- A supervisor decides about its slot. -/
  | decide (j : Nat)
  /-- A supervisor tells the ledger. -/
  | settle (j : Nat)
  /-- A writer of the scribe takes the newest snapshot. -/
  | take (n : Nat)
  /-- A writer of the scribe writes what it took. -/
  | persist (n : Nat)
  /-- A unique stamp is drawn, as for a run under a new identifier. -/
  | draw
  /-- Time passes, and the calendar shows something else. -/
  | pass (ms : Nat) (now : Timestamp)
  /-- The system refuses to write at other locations than before. -/
  | refuse (refusal : Location → Option OsError)
  /-- The system refuses to remove other things than before. -/
  | retain (retention : Location → Option OsError)
  /-- A snapshot that is on its way reaches the scribe. -/
  | deliver (k : Nat)
  /-- Other snapshots than before are going to arrive in the midst of a call that finalizes a run. -/
  | arrange (arrivals : List Nat)

/-- Proofs about a step often treat a start apart from all others. -/
theorem Event.start_or_other (e : Event) :
    (∃ id item roles, e = .start id item roles) ∨ ∀ id item roles, e ≠ .start id item roles := by
  cases e with
  | start id item roles => exact .inl ⟨id, item, roles, rfl⟩
  | _ => exact .inr fun _ _ _ heq => by cases heq

/-- The panel after one step. -/
def step (p : Panel) : Event → Panel
  | .start id item roles => (p.start id item roles).1
  | .finalize id => (p.finalize id).1
  | .forget id => (p.forget id).1
  | .await id poll limit => (p.enterWait id poll limit).1
  | .wait k => p.stepWaiter k
  | .comeBack j => p.reviewerReturns j
  | .observe j => p.observe j
  | .decide j => p.decide j
  | .settle j => p.settle j
  | .take n => { p with scribe := p.scribe.take n }
  | .persist n =>
    let (scribe, disk) := p.scribe.persist p.disk n
    { p with scribe, disk }
  | .draw => { p with nextStamp := p.nextStamp + 1 }
  | .pass ms now => { p with clock := p.clock + ms, now }
  | .refuse refusal => { p with disk := { p.disk with refusal } }
  | .retain retention => { p with disk := { p.disk with retention } }
  | .deliver k => p.deliver k
  | .arrange arrivals => { p with arrivals }

/-- The panel after a schedule. -/
def run (p : Panel) (es : List Event) : Panel := es.foldl step p

@[simp] theorem run_nil (p : Panel) : p.run [] = p := rfl

@[simp] theorem run_cons (p : Panel) (e : Event) (es : List Event) :
    p.run (e :: es) = (p.step e).run es := rfl

theorem run_append (p : Panel) (es es' : List Event) : p.run (es ++ es') = (p.run es).run es' := by
  simp [run]

theorem run_concat (p : Panel) (es : List Event) (e : Event) :
    p.run (es ++ [e]) = (p.run es).step e := by rw [run_append, run_cons, run_nil]

/-- What each step of a kind preserves, a schedule of such steps preserves. -/
theorem run_preserves {P : Panel → Prop} {C : Event → Prop}
    (hstep : ∀ {p : Panel} {e : Event}, C e → P p → P (p.step e)) {es : List Event}
    (hes : ∀ e ∈ es, C e) {p : Panel} (h : P p) : P (p.run es) := by
  induction es generalizing p with
  | nil => exact h
  | cons e es ih =>
    exact ih (fun e' he' => hes e' (List.mem_cons_of_mem _ he')) (hstep (hes e List.mem_cons_self) h)

/-- A panel on a blank disk, before anything has happened. -/
def fresh (config : Config) (crew : Crew) : Panel where
  config := config
  crew := crew
  canSpawn := true
  ledger := .empty
  scribe := .empty
  disk := .blank
  incarnations := []
  table := .empty
  supervisors := []
  waiters := []
  inFlight := []
  arrivals := []
  clock := 0
  now := ⟨2024, 5, 1, 12, 0, 0, 0⟩
  nextStamp := 0

/-- A panel that has just been set up is a fresh one, but for the world around it. -/
theorem eq_of_ofConfig {config : Config} {crew : Crew} {disk : Disk} {now : Timestamp} {canSpawn : Bool}
    {nextStamp : Nat} {p : Panel} (h : Panel.ofConfig config crew disk now canSpawn nextStamp = .ok p) :
    { fresh config crew with disk, now, canSpawn, nextStamp } = p := by
  unfold Panel.ofConfig at h
  split at h
  · cases h
  · exact Except.ok.inj h

theorem ofConfig_blank {config : Config} (h : config.validate = .ok ()) (crew : Crew) :
    Panel.ofConfig config crew .blank ⟨2024, 5, 1, 12, 0, 0, 0⟩ true 0 = .ok (fresh config crew) := by
  simp only [Panel.ofConfig, h]
  rfl

/-- A finding that blocks its task. -/
def openPort : Finding :=
  { id := "SEC-1", severity := .blocker, location := "net", classification := .violation,
    rationale := "open port", remediation := none, reference := none }

/-- Reviewers of which the one for security comes back with a finding, and no other ever does. -/
def halfCrew : Crew where
  byRole := .ofList [(.security, fun _ _ _ => ⟨some 0, .ok [openPort]⟩)]
  fallback := some fun _ _ _ => ⟨none, .ok []⟩

/-- The steps after a start of two roles in which the first one finishes, and a waiter runs out of time
and ends the second one. -/
def halfSchedule : List Event :=
  [.comeBack 0, .observe 0, .await "r" 1 5, .decide 0, .settle 0,
    .pass 10 ⟨2024, 5, 1, 12, 0, 0, 10⟩, .wait 0, .wait 0, .wait 0, .wait 0]

/-- The panels that some schedule leads to. -/
inductive Reachable : Panel → Prop
  | ofConfig {config : Config} {crew : Crew} {disk : Disk} {now : Timestamp} {canSpawn : Bool}
      {nextStamp : Nat} {p : Panel}
      (h : Panel.ofConfig config crew disk now canSpawn nextStamp = .ok p) : Reachable p
  | step {p : Panel} (h : Reachable p) (e : Event) : Reachable (p.step e)

theorem Reachable.run {p : Panel} (h : Reachable p) (es : List Event) : Reachable (p.run es) := by
  induction es generalizing p with
  | nil => exact h
  | cons e es ih => exact ih (h.step e)

/-! ### The operations that steps are made of -/

theorem active_eq_ok {p : Panel} {id : RunId} {i : Nat} {inc : Incarnation} :
    p.active id = .ok (i, inc) ↔ p.table.get? id = some i ∧ p.incarnations[i]? = some inc := by
  unfold active
  cases p.table.get? id with
  | none => simp
  | some i' =>
    cases hinc : p.incarnations[i']? with
    | none =>
      simp only [Option.bind_some, hinc, Option.map_none, reduceCtorEq, Option.some.injEq, false_iff,
        not_and]
      rintro rfl
      simp [hinc]
    | some inc' =>
      simp only [Option.bind_some, hinc, Option.map_some, Except.ok.injEq, Prod.mk.injEq,
        Option.some.injEq]
      constructor
      · rintro ⟨rfl, rfl⟩
        exact ⟨rfl, hinc⟩
      · rintro ⟨rfl, h⟩
        exact ⟨rfl, Option.some.inj (hinc.symm.trans h)⟩

section Frame

variable (p : Panel)

/-- A snapshot that reaches the scribe touches documents at most. -/
theorem deliver_eq (k : Nat) :
    ∃ scribe disk inFlight, p.deliver k = { p with scribe, disk, inFlight } := by
  unfold deliver
  split
  · exact ⟨p.scribe, p.disk, p.inFlight, rfl⟩
  · exact ⟨_, _, _, rfl⟩

@[simp] theorem deliver_ledger (k : Nat) : (p.deliver k).ledger = p.ledger := by
  obtain ⟨scribe, disk, inFlight, hp⟩ := p.deliver_eq k
  rw [hp]

theorem foldl_deliver_eq (ks : List Nat) :
    ∃ scribe disk inFlight, ks.foldl deliver p = { p with scribe, disk, inFlight } := by
  induction ks generalizing p with
  | nil => exact ⟨p.scribe, p.disk, p.inFlight, rfl⟩
  | cons k ks ih =>
    obtain ⟨scribe, disk, inFlight, hp⟩ := p.deliver_eq k
    obtain ⟨scribe', disk', inFlight', hq⟩ := ih (p.deliver k)
    exact ⟨scribe', disk', inFlight', by rw [List.foldl_cons, hq, hp]⟩

/-- What every single snapshot preserves, any number of them preserve. -/
theorem foldl_deliver_preserves {P : Panel → Prop} (hstep : ∀ q k, P q → P (q.deliver k))
    (ks : List Nat) {p : Panel} (h : P p) : P (ks.foldl deliver p) := by
  induction ks generalizing p with
  | nil => exact h
  | cons k ks ih => exact ih (hstep p k h)

/-- A change whose snapshot is handed on at once leaves those of others on their way. -/
theorem accept_eq {α : Type} (u : Ledger.Update α) :
    p.accept u = { p with
      ledger := u.ledger
      scribe := (p.scribe.receive p.disk u.published).1
      disk := (p.scribe.receive p.disk u.published).2 } := by
  simp [accept, post, deliver, List.eraseIdx_append_of_length_le]

@[simp] theorem accept_ledger {α : Type} (u : Ledger.Update α) : (p.accept u).ledger = u.ledger := by
  rw [accept_eq]

@[simp] theorem foldl_deliver_ledger (ks : List Nat) : (ks.foldl deliver p).ledger = p.ledger := by
  obtain ⟨scribe, disk, inFlight, hp⟩ := p.foldl_deliver_eq ks
  rw [hp]

theorem foldl_deliver_accept_eq {α : Type} (u : Ledger.Update α) (ks : List Nat) :
    ∃ scribe disk inFlight, ks.foldl deliver (p.accept u) =
      { p with ledger := u.ledger, scribe, disk, inFlight } := by
  obtain ⟨scribe, disk, inFlight, hp⟩ := (p.accept u).foldl_deliver_eq ks
  exact ⟨scribe, disk, inFlight, by rw [hp, accept_eq]⟩

@[simp] theorem modifyIncarnation_incarnations (i : Nat) (f : Incarnation → Incarnation) :
    (p.modifyIncarnation i f).incarnations = p.incarnations.modify i f := rfl

@[simp] theorem modifyIncarnation_supervisors (i : Nat) (f : Incarnation → Incarnation) :
    (p.modifyIncarnation i f).supervisors = p.supervisors := rfl

@[simp] theorem modifyIncarnation_waiters (i : Nat) (f : Incarnation → Incarnation) :
    (p.modifyIncarnation i f).waiters = p.waiters := rfl

@[simp] theorem modifyIncarnation_table (i : Nat) (f : Incarnation → Incarnation) :
    (p.modifyIncarnation i f).table = p.table := rfl

@[simp] theorem modifyIncarnation_ledger (i : Nat) (f : Incarnation → Incarnation) :
    (p.modifyIncarnation i f).ledger = p.ledger := rfl

@[simp] theorem setStage_incarnations (j : Nat) (stage : Stage) :
    (p.setStage j stage).incarnations = p.incarnations := rfl

@[simp] theorem setStage_supervisors (j : Nat) (stage : Stage) :
    (p.setStage j stage).supervisors = p.supervisors.modify j fun s => { s with stage } := rfl

@[simp] theorem setStage_waiters (j : Nat) (stage : Stage) :
    (p.setStage j stage).waiters = p.waiters := rfl

@[simp] theorem setStage_table (j : Nat) (stage : Stage) :
    (p.setStage j stage).table = p.table := rfl

@[simp] theorem setStage_ledger (j : Nat) (stage : Stage) :
    (p.setStage j stage).ledger = p.ledger := rfl

@[simp] theorem setWait_incarnations (k : Nat) (stage : WaitStage) :
    (p.setWait k stage).incarnations = p.incarnations := rfl

@[simp] theorem setWait_supervisors (k : Nat) (stage : WaitStage) :
    (p.setWait k stage).supervisors = p.supervisors := rfl

@[simp] theorem setWait_waiters (k : Nat) (stage : WaitStage) :
    (p.setWait k stage).waiters = p.waiters.modify k fun w => { w with stage } := rfl

@[simp] theorem setWait_table (k : Nat) (stage : WaitStage) :
    (p.setWait k stage).table = p.table := rfl

@[simp] theorem setWait_ledger (k : Nat) (stage : WaitStage) :
    (p.setWait k stage).ledger = p.ledger := rfl

/-- Moving a role touches the ledger, and a snapshot of it may set out. -/
theorem transition_fst (id : RunId) (role : Role) (phase : Phase) (cause : Option String) :
    ∃ inFlight, (p.transition id role phase cause).1 =
      { p with ledger := p.ledger.apply (.transition id role phase cause p.now), inFlight } := by
  cases h : p.ledger.transition id role phase cause p.now with
  | error e => exact ⟨p.inFlight, by simp only [transition, Ledger.apply, h]⟩
  | ok u => exact ⟨_, by simp only [transition, Ledger.apply, h, post]; rfl⟩

@[simp] theorem transition_incarnations (id : RunId) (role : Role) (phase : Phase)
    (cause : Option String) :
    (p.transition id role phase cause).1.incarnations = p.incarnations := by
  obtain ⟨inFlight, hp⟩ := p.transition_fst id role phase cause
  rw [hp]

@[simp] theorem transition_supervisors (id : RunId) (role : Role) (phase : Phase)
    (cause : Option String) :
    (p.transition id role phase cause).1.supervisors = p.supervisors := by
  obtain ⟨inFlight, hp⟩ := p.transition_fst id role phase cause
  rw [hp]

@[simp] theorem transition_waiters (id : RunId) (role : Role) (phase : Phase)
    (cause : Option String) : (p.transition id role phase cause).1.waiters = p.waiters := by
  obtain ⟨inFlight, hp⟩ := p.transition_fst id role phase cause
  rw [hp]

@[simp] theorem transition_table (id : RunId) (role : Role) (phase : Phase)
    (cause : Option String) : (p.transition id role phase cause).1.table = p.table := by
  obtain ⟨inFlight, hp⟩ := p.transition_fst id role phase cause
  rw [hp]

@[simp] theorem transition_ledger (id : RunId) (role : Role) (phase : Phase)
    (cause : Option String) : (p.transition id role phase cause).1.ledger =
      p.ledger.apply (.transition id role phase cause p.now) := by
  obtain ⟨inFlight, hp⟩ := p.transition_fst id role phase cause
  rw [hp]

@[simp] theorem transition_disk (id : RunId) (role : Role) (phase : Phase)
    (cause : Option String) : (p.transition id role phase cause).1.disk = p.disk := by
  obtain ⟨inFlight, hp⟩ := p.transition_fst id role phase cause
  rw [hp]

@[simp] theorem withhold_fst (i : Nat) (role : Role) :
    (p.withhold i role).1 =
      p.modifyIncarnation i fun inc => { inc with slots := (inc.slots.withhold role).1 } := by
  unfold withhold modifyIncarnation
  cases h : p.incarnations[i]? with
  | none => simp [List.modify_eq_self (List.getElem?_eq_none_iff.1 h)]
  | some inc =>
    simp only
    rw [modify_congr]
    intro inc' h'
    rw [Option.some.inj (h.symm.trans h')]

theorem publish_fst (i : Nat) (role : Role) (fs : List Finding) :
    ∃ disk, (p.publish i role fs).1 =
      { p.modifyIncarnation i fun inc =>
          { inc with slots := (inc.slots.publish p.disk role fs).1 } with disk } := by
  unfold publish modifyIncarnation
  cases h : p.incarnations[i]? with
  | none => exact ⟨p.disk, by simp [List.modify_eq_self (List.getElem?_eq_none_iff.1 h)]⟩
  | some inc =>
    refine ⟨(inc.slots.publish p.disk role fs).2.1, ?_⟩
    simp only
    rw [modify_congr]
    intro inc' h'
    rw [Option.some.inj (h.symm.trans h')]

@[simp] theorem publish_incarnations (i : Nat) (role : Role) (fs : List Finding) :
    (p.publish i role fs).1.incarnations = p.incarnations.modify i fun inc =>
      { inc with slots := (inc.slots.publish p.disk role fs).1 } := by
  obtain ⟨disk, hp⟩ := p.publish_fst i role fs
  rw [hp, modifyIncarnation_incarnations]

@[simp] theorem publish_supervisors (i : Nat) (role : Role) (fs : List Finding) :
    (p.publish i role fs).1.supervisors = p.supervisors := by
  obtain ⟨disk, hp⟩ := p.publish_fst i role fs
  rw [hp, modifyIncarnation_supervisors]

@[simp] theorem publish_waiters (i : Nat) (role : Role) (fs : List Finding) :
    (p.publish i role fs).1.waiters = p.waiters := by
  obtain ⟨disk, hp⟩ := p.publish_fst i role fs
  rw [hp, modifyIncarnation_waiters]

@[simp] theorem publish_table (i : Nat) (role : Role) (fs : List Finding) :
    (p.publish i role fs).1.table = p.table := by
  obtain ⟨disk, hp⟩ := p.publish_fst i role fs
  rw [hp, modifyIncarnation_table]

@[simp] theorem publish_ledger (i : Nat) (role : Role) (fs : List Finding) :
    (p.publish i role fs).1.ledger = p.ledger := by
  obtain ⟨disk, hp⟩ := p.publish_fst i role fs
  rw [hp, modifyIncarnation_ledger]

/-- Stopping the reviewer of a late role stops one reviewer or none. -/
theorem stopLate_eq (w : Waiter) (role : Role) :
    p.stopLate w role = p ∨ ∃ h, p.stopLate w role = p.stopReviewer h := by
  unfold stopLate
  split
  · split
    · exact .inr ⟨_, rfl⟩
    · exact .inl rfl
  · exact .inl rfl

@[simp] theorem stopLate_incarnations (w : Waiter) (role : Role) :
    (p.stopLate w role).incarnations = p.incarnations := by
  rcases p.stopLate_eq w role with h | ⟨j, h⟩ <;> rw [h]
  rfl

@[simp] theorem stopLate_waiters (w : Waiter) (role : Role) :
    (p.stopLate w role).waiters = p.waiters := by
  rcases p.stopLate_eq w role with h | ⟨j, h⟩ <;> rw [h]
  rfl

@[simp] theorem stopLate_table (w : Waiter) (role : Role) :
    (p.stopLate w role).table = p.table := by
  rcases p.stopLate_eq w role with h | ⟨j, h⟩ <;> rw [h]
  rfl

@[simp] theorem stopLate_ledger (w : Waiter) (role : Role) :
    (p.stopLate w role).ledger = p.ledger := by
  rcases p.stopLate_eq w role with h | ⟨j, h⟩ <;> rw [h]
  rfl

end Frame

/-! ### Starting a run -/

/-- The directory that a run gets, if documents are kept. -/
def workspaceFor (p : Panel) (id : RunId) : Option Workspace :=
  p.config.workspaceRoot.map fun root => ⟨id, Workspace.dirFor root id⟩

/-- Ledger and table after the rerun policy has made room for a run. -/
def Cleared (p : Panel) (id : RunId) (ledger : Ledger) (table : Dictionary Nat) : Prop :=
  ledger.entries.get? id = none ∧
    (ledger = p.ledger ∧ table = p.table ∨
      ledger = p.ledger.apply (.retire id) ∧ table = p.table.erase id)

/-- **What the rerun policy does**: nothing if the run is in the way, else it makes room for it. -/
theorem clearPrevious_cases (p : Panel) (id : RunId) :
    (∃ e, p.clearPrevious id = (p, .error e)) ∨
      ∃ ledger table scribe disk nextStamp r, Cleared p id ledger table ∧
        p.clearPrevious id = ({ p with ledger, table, scribe, disk, nextStamp }, r) := by
  unfold clearPrevious
  cases p.config.rerunPolicy with
  | reject =>
    cases hid : p.ledger.entries.get? id with
    | some e => exact .inl ⟨.duplicateRun id, rfl⟩
    | none => exact .inr ⟨_, _, _, _, _, .ok (), ⟨hid, .inl ⟨rfl, rfl⟩⟩, rfl⟩
  | archive =>
    cases hret : p.ledger.retire id with
    | ok r =>
      have hl : r.1 = p.ledger.apply (.retire id) := by simp only [Ledger.apply, hret]
      have hgone : Cleared p id r.1 (p.table.erase id) :=
        ⟨Ledger.get?_of_retire hret, .inr ⟨hl, rfl⟩⟩
      right
      simp only
      split
      · exact ⟨_, _, _, _, _, _, hgone, rfl⟩
      · split <;> exact ⟨_, _, _, _, _, _, hgone, rfl⟩
    | error e =>
      rcases Ledger.retire_eq_error hret with rfl | hid
      · exact .inl ⟨.duplicateRun id, rfl⟩
      · have hsame : Cleared p id p.ledger p.table := ⟨hid, .inl ⟨rfl, rfl⟩⟩
        simp only
        split
        · exact .inl ⟨_, rfl⟩
        · right
          split
          · exact ⟨_, _, _, _, _, _, hsame, rfl⟩
          · split <;> exact ⟨_, _, _, _, _, _, hsame, rfl⟩

theorem openWorkspace_eq (p : Panel) (id : RunId) :
    (∃ scribe disk, (p.openWorkspace id).1 = { p with scribe, disk }) ∧
      ∀ w, (p.openWorkspace id).2 = .ok w → w = p.workspaceFor id := by
  unfold openWorkspace workspaceFor
  cases p.config.workspaceRoot with
  | none => exact ⟨⟨_, _, rfl⟩, fun w hw => (Except.ok.inj hw).symm⟩
  | some root =>
    simp only [Workspace.create]
    split <;> rename_i hc
    · split at hc
      · cases hc
      · split at hc
        · cases hc
        · cases hc
        · split at hc <;> cases hc
          exact ⟨⟨_, _, rfl⟩, fun w hw => (Except.ok.inj hw).symm⟩
    · exact ⟨⟨_, _, rfl⟩, fun w hw => by cases hw⟩
    · exact ⟨⟨_, _, rfl⟩, fun w hw => by cases hw⟩

theorem closeWorkspace_eq (p : Panel) (id : RunId) (w : Option Workspace) :
    ∃ scribe disk, p.closeWorkspace id w = { p with scribe, disk } := by
  unfold closeWorkspace
  cases w with
  | none => exact ⟨_, _, rfl⟩
  | some w =>
    simp only
    split <;> exact ⟨_, _, rfl⟩

/-- What a start does before it launches the run. -/
theorem start_eq_launch (p : Panel) (id : RunId) (item : WorkItem) (roles : List Role) :
    (∃ e, p.start id item roles = (p, .error e)) ∨
      ∃ ledger table scribe disk nextStamp, Cleared p id ledger table ∧
        ((∃ e, p.start id item roles =
            ({ p with ledger, table, scribe, disk, nextStamp }, .error e)) ∨
          ∃ u, ledger.create id item roles p.now = .ok u ∧
            p.start id item roles =
              (({ p with ledger := u.ledger, table, scribe, disk, nextStamp }).launch id item roles
                (p.workspaceFor id), .ok id)) := by
  unfold start
  split_ifs with hspawn
  · exact .inl ⟨.noRuntime, rfl⟩
  · rcases p.clearPrevious_cases id with
      ⟨e, hclear⟩ | ⟨ledger, table, scribe, disk, nextStamp, r, hcl, hclear⟩
    · exact .inl ⟨e, by simp only [hclear]⟩
    · right
      cases r with
      | error e =>
        exact ⟨ledger, table, scribe, disk, nextStamp, hcl, .inl ⟨e, by simp only [hclear]⟩⟩
      | ok _ =>
        simp only [hclear]
        generalize hp₁ : ({ p with ledger, table, scribe, disk, nextStamp } : Panel) = p₁
        obtain ⟨⟨scribe₂, disk₂, hp₂⟩, hw⟩ := p₁.openWorkspace_eq id
        have hfor : p₁.workspaceFor id = p.workspaceFor id := by rw [← hp₁]; rfl
        cases hopen : p₁.openWorkspace id with
        | mk p₂ r₂ =>
          rw [hopen] at hp₂ hw
          simp only at hp₂ hw
          subst hp₂ hp₁
          cases r₂ with
          | error e => exact ⟨_, _, _, _, _, hcl, .inl ⟨e, rfl⟩⟩
          | ok w =>
            simp only
            rw [hw w rfl, hfor]
            cases hcreate : ledger.create id item roles p.now with
            | error e =>
              obtain ⟨scribe₃, disk₃, hp₃⟩ := closeWorkspace_eq
                { p with ledger, table, scribe := scribe₂, disk := disk₂, nextStamp } id
                (p.workspaceFor id)
              exact ⟨_, _, _, _, _, hcl, .inl ⟨_, by rw [hp₃]⟩⟩
            | ok u =>
              simp only [accept_eq]
              exact ⟨_, _, _, _, _, hcl, .inr ⟨u, hcreate, rfl⟩⟩

/-- A supervisor that has just been started for a role of an incarnation. -/
structure IsNew (i : Nat) (id : RunId) (s : Supervisor) : Prop where
  incarnation_eq : s.incarnation = i
  runId_eq : s.runId = id
  stage_eq : s.stage = .waiting

/-- The calls with which a start moves its roles to `running`. -/
def launchCalls (id : RunId) (now : Timestamp) (roles : List Role) : List Ledger.Call :=
  roles.map fun role => .transition id role .running none now

/-- **The calls of a start move every role to `running`**, one after the other, whatever the roles were
that had not been started. -/
theorem get?_launchCalls (id : RunId) (now : Timestamp) :
    ∀ {roles : List Role} {l : Ledger} {e : LedgerEntry}, roles.Nodup →
      l.entries.get? id = some e → e.verdict = none →
      (∀ role ∈ roles, e.roles.get? role = some .pending) →
      ∃ e', ((launchCalls id now roles).foldl Ledger.apply l).entries.get? id = some e' ∧
        e'.verdict = none ∧ e'.revision = e.revision + roles.length ∧
        ∀ role, (e'.roles.get? role).map Status.phase =
          if role ∈ roles then some .running else (e.roles.get? role).map Status.phase := by
  intro roles
  induction roles with
  | nil => exact fun {l e} _ he hv _ => ⟨e, he, hv, rfl, fun role => by simp⟩
  | cons r rs ih =>
    intro l e hnd he hv hp
    obtain ⟨hr, hnd⟩ := List.nodup_cons.1 hnd
    have hpend := hp r List.mem_cons_self
    -- the first call is accepted, and leaves the other roles as they were
    have hok : l.transition id r .running none now =
        .ok ⟨l.put id (e.move r (Status.pending.advance .running none now)), _, _⟩ :=
      Ledger.transition_eq_ok.2 ⟨e, .pending, he, hv, hpend, by decide, rfl⟩
    have happ : l.apply (.transition id r .running none now) =
        l.put id (e.move r (Status.pending.advance .running none now)) := by
      simp only [Ledger.apply, hok]
    obtain ⟨e', he', hv', hrev, hroles⟩ := ih (l := l.apply (.transition id r .running none now))
      (e := e.move r (Status.pending.advance .running none now)) hnd (by rw [happ]; simp) hv
      (fun role hrole => by
        have hne : role ≠ r := fun h => hr (h ▸ hrole)
        rw [LedgerEntry.move, Table.get?_set, if_neg hne]
        exact hp role (List.mem_cons_of_mem _ hrole))
    refine ⟨e', he', hv', ?_, fun role => ?_⟩
    · rw [hrev, List.length_cons, Nat.add_comm rs.length 1, ← Nat.add_assoc]
      rfl
    · rw [hroles role, LedgerEntry.move, Table.get?_set]
      by_cases h : role = r
      · simp [h, hr, Status.advance]
      · simp [h]

theorem get?_launchCalls_of_ne {id id' : RunId} (hne : id' ≠ id) (now : Timestamp)
    (roles : List Role) :
    ∀ l : Ledger, ((launchCalls id now roles).foldl Ledger.apply l).entries.get? id' =
      l.entries.get? id' := by
  induction roles with
  | nil => exact fun l => rfl
  | cons r rs ih =>
    intro l
    refine (ih (l.apply (.transition id r .running none now))).trans ?_
    exact l.get?_apply_of_ne fun h => hne (Option.some.inj h).symm

theorem spawn_eq (p : Panel) (i : Nat) (id : RunId) (item : WorkItem) (role : Role) :
    ∃ scribe disk new handles, (∀ s ∈ new, IsNew i id s) ∧ (new.map Supervisor.role).Sublist [role] ∧
      p.spawn i id item role =
        { p with
          ledger := p.ledger.apply (.transition id role .running none p.now), scribe, disk
          supervisors := p.supervisors ++ new
          incarnations := p.incarnations.modify i (Incarnation.addHandles handles) } := by
  cases htr : p.ledger.transition id role .running none p.now with
  | error e =>
    refine ⟨p.scribe, p.disk, [], [], by simp, by simp, ?_⟩
    simp only [spawn, htr, Ledger.apply, List.append_nil]
    rw [Incarnation.addHandles_nil, List.modify_id]
  | ok u =>
    simp only [spawn, htr, Ledger.apply, accept_eq]
    exact ⟨_, _, [_], [_], by simpa using ⟨rfl, rfl, rfl⟩, by simp, rfl⟩

theorem foldl_spawn_eq (i : Nat) (id : RunId) (item : WorkItem) (roles : List Role) :
    ∀ p : Panel, ∃ scribe disk new handles, (∀ s ∈ new, IsNew i id s) ∧
      (new.map Supervisor.role).Sublist roles ∧
      roles.foldl (fun p role => p.spawn i id item role) p =
        { p with
          ledger := (launchCalls id p.now roles).foldl Ledger.apply p.ledger, scribe, disk
          supervisors := p.supervisors ++ new
          incarnations := p.incarnations.modify i (Incarnation.addHandles handles) } := by
  induction roles with
  | nil =>
    intro p
    refine ⟨p.scribe, p.disk, [], [], by simp, by simp, ?_⟩
    rw [Incarnation.addHandles_nil, List.modify_id, List.append_nil]
    rfl
  | cons role roles ih =>
    intro p
    obtain ⟨scribe, disk, new, handles, hnew, hroles, hp⟩ := p.spawn_eq i id item role
    obtain ⟨scribe', disk', new', handles', hnew', hroles', hq⟩ := ih (p.spawn i id item role)
    refine ⟨scribe', disk', new ++ new', handles ++ handles', ?_, ?_, ?_⟩
    · intro s hs
      rcases List.mem_append.1 hs with hs | hs
      · exact hnew s hs
      · exact hnew' s hs
    · rw [List.map_append]
      exact hroles.append hroles'
    · rw [List.foldl_cons, hq, hp]
      simp only [List.append_assoc, List.modify_modify_eq, Incarnation.addHandles_comp]
      rfl

/-- **What launching a run does**: a new incarnation, the calls that start its roles, and supervisors
for the roles that could be started. -/
theorem launch_eq (p : Panel) (id : RunId) (item : WorkItem) (roles : List Role)
    (w : Option Workspace) :
    ∃ scribe disk new handles, (∀ s ∈ new, IsNew p.incarnations.length id s) ∧
      (new.map Supervisor.role).Sublist roles ∧
      p.launch id item roles w =
        { p with
          ledger := (launchCalls id p.now roles).foldl Ledger.apply p.ledger, scribe, disk
          supervisors := p.supervisors ++ new
          incarnations := p.incarnations ++ [
            { runId := id, slots := .ofRoles roles w, handles, startedAt := p.clock,
              verdict := none }]
          table := p.table.insert id p.incarnations.length } := by
  obtain ⟨scribe, disk, new, handles, hnew, hroles, hq⟩ := foldl_spawn_eq p.incarnations.length id
    item roles
    { p with incarnations := p.incarnations ++
        [{ runId := id, slots := .ofRoles roles w, handles := [], startedAt := p.clock,
           verdict := none }] }
  refine ⟨scribe, disk, new, handles, hnew, hroles, ?_⟩
  simp only [launch, hq]
  congr 1
  simp [List.modify_eq_take_cons_drop, Incarnation.addHandles]

/-- **What a start does.**  It is refused at once, or after it has made room for the run, or the run is
entered in the ledger and launched. -/
theorem start_cases (p : Panel) (id : RunId) (item : WorkItem) (roles : List Role) :
    (∃ e, p.start id item roles = (p, .error e)) ∨
      ∃ ledger table scribe disk nextStamp, Cleared p id ledger table ∧
        ((∃ e, p.start id item roles =
            ({ p with ledger, table, scribe, disk, nextStamp }, .error e)) ∨
          ∃ u new handles, ledger.create id item roles p.now = .ok u ∧
            (∀ s ∈ new, IsNew p.incarnations.length id s) ∧
            (new.map Supervisor.role).Sublist roles ∧
            p.start id item roles =
              ({ p with
                ledger := (launchCalls id p.now roles).foldl Ledger.apply u.ledger
                scribe, disk, nextStamp
                supervisors := p.supervisors ++ new
                incarnations := p.incarnations ++ [
                  { runId := id, slots := .ofRoles roles (p.workspaceFor id), handles,
                    startedAt := p.clock, verdict := none }]
                table := table.insert id p.incarnations.length }, .ok id)) := by
  rcases p.start_eq_launch id item roles with
    h | ⟨ledger, table, scribe, disk, nextStamp, hc, h | ⟨u, hu, h⟩⟩
  · exact .inl h
  · exact .inr ⟨ledger, table, scribe, disk, nextStamp, hc, .inl h⟩
  · obtain ⟨scribe', disk', new, handles, hnew, hroles, hq⟩ := launch_eq
      { p with ledger := u.ledger, table, scribe, disk, nextStamp } id item roles (p.workspaceFor id)
    exact .inr ⟨ledger, table, scribe', disk', nextStamp, hc, .inr
      ⟨u, new, handles, hu, hnew, hroles, by rw [h, hq]⟩⟩

/-! ### Ending a run -/

theorem writeVerdict_eq {p q : Panel} {id : RunId} {v : Verdict} (h : p.writeVerdict id v = .ok q) :
    ∃ disk, q = { p with disk } := by
  unfold writeVerdict at h
  split at h
  · exact ⟨p.disk, (Except.ok.inj h).symm⟩
  · split at h
    · exact ⟨_, (Except.ok.inj h).symm⟩
    · cases h

theorem attachVerdict_eq {p q : Panel} {id : RunId} {v : Verdict}
    (h : p.attachVerdict id v = .ok q) :
    (∃ u, p.ledger.attach id v.toRef = .ok u) ∧
      ∃ scribe disk inFlight,
        q = { p with ledger := p.ledger.apply (.attach id v.toRef), scribe, disk, inFlight } := by
  unfold attachVerdict at h
  cases ha : p.ledger.attach id v.toRef with
  | error e =>
    rw [ha] at h
    cases h
  | ok u =>
    rw [ha] at h
    obtain rfl := Except.ok.inj h
    obtain ⟨scribe, disk, inFlight, hp⟩ := p.foldl_deliver_accept_eq u p.arrivals
    refine ⟨⟨u, rfl⟩, (scribe.flush disk id).1, (scribe.flush disk id).2, inFlight, ?_⟩
    simp only [hp, Ledger.apply, ha]
    rfl

/-- **What finalizing does**: it fails and leaves at most a document behind, it repeats a verdict, or it
finds one and attaches it. -/
theorem finalize_cases (p : Panel) (id : RunId) :
    (∃ e disk, p.finalize id = ({ p with disk }, .error e)) ∨
      ∃ i inc v, p.active id = .ok (i, inc) ∧
        ((inc.verdict = some v ∧ p.finalize id = (p, .ok v)) ∨
          inc.verdict = none ∧ ∃ s scribe disk inFlight, p.ledger.read id = .ok s ∧
            aggregate s inc.slots = .ok v ∧ (∃ u, p.ledger.attach id v.toRef = .ok u) ∧
            p.finalize id =
              (({ p with ledger := p.ledger.apply (.attach id v.toRef), scribe, disk, inFlight }
                ).modifyIncarnation i fun inc => { inc with verdict := some v }, .ok v)) := by
  unfold finalize
  cases hact : p.active id with
  | error e => exact .inl ⟨e, p.disk, rfl⟩
  | ok r =>
    obtain ⟨i, inc⟩ := r
    cases hv : inc.verdict with
    | some v => exact .inr ⟨i, inc, v, rfl, .inl ⟨hv, by simp only [hv]⟩⟩
    | none =>
      simp only [hv]
      cases hread : p.ledger.read id with
      | error e => exact .inl ⟨_, p.disk, rfl⟩
      | ok s =>
        simp only
        cases hagg : aggregate s inc.slots with
        | error e => exact .inl ⟨e, p.disk, rfl⟩
        | ok v =>
          simp only
          cases hwrite : p.writeVerdict id v with
          | error e => exact .inl ⟨e, p.disk, rfl⟩
          | ok q =>
            obtain ⟨disk, rfl⟩ := writeVerdict_eq hwrite
            simp only
            cases hatt : attachVerdict { p with disk } id v with
            | error e => exact .inl ⟨e, disk, rfl⟩
            | ok q' =>
              obtain ⟨hu, scribe, disk', inFlight, rfl⟩ := attachVerdict_eq hatt
              exact .inr ⟨i, inc, v, rfl, .inr ⟨hv, s, scribe, disk', inFlight, rfl, hagg, hu, rfl⟩⟩

theorem forget_cases (p : Panel) (id : RunId) :
    (∃ e, p.forget id = (p, .error e)) ∨
      ∃ i inc s scribe, p.active id = .ok (i, inc) ∧
        (p.ledger.apply (.retire id)).entries.get? id = none ∧
        p.forget id =
          ({ p with ledger := p.ledger.apply (.retire id), scribe, table := p.table.erase id },
            .ok s) := by
  unfold forget
  cases hact : p.active id with
  | error e => exact .inl ⟨e, rfl⟩
  | ok r =>
    obtain ⟨i, inc⟩ := r
    cases hv : inc.verdict with
    | none => exact .inl ⟨.runNotComplete id, by simp [hv]⟩
    | some v =>
      cases hret : p.ledger.retire id with
      | error e => exact .inl ⟨.ofLedger e, by simp [hv]⟩
      | ok r =>
        have hl : r.1 = p.ledger.apply (.retire id) := by simp only [Ledger.apply, hret]
        exact .inr ⟨i, inc, r.2, p.scribe.unregister id, rfl, hl ▸ Ledger.get?_of_retire hret,
          by simp [hv, hl]⟩

end Panel

end ReviewPanel
