import ReviewPanel.Proofs.Ledger.Interleavings
import ReviewPanel.Proofs.Panel.Schedule
import ReviewPanel.Proofs.Panel.Wiring

/-!
# What a supervisor does at one instant

A supervisor that gets its turn does all that it can (`Panel.supervise`): it notices whether its reviewer
has come back or its time is over, closes the slot of its role, and tells the ledger.  Here is what that
comes down to, seen from the three places that a role has on a panel: its supervisor, its slot, and its
outlook on the ledger.  The places of one role are changed by nobody who looks after another one.

## Main definitions

* `Supervisor.learns?`, `Report.ending`, `Report.cell` : what a supervisor learns at an instant, and what
  it makes of it.
* `Panel.cell?` : a slot of an incarnation.
* `Panel.Event.supervisor?` : whose step an event is.
* `Panel.Keeps` : no party is added, and no supervisor is handed out.
* `Panel.At` : the three places of a role.

## Main statements

* `Panel.Move.cell?_eq`, `Panel.Move.outlook_eq` : the steps of a supervisor leave all roles but its
  own alone.
* `Panel.supervise_of_learns` : **a supervisor that learns something ends its role at once.**
* `Panel.supervise_of_idle` : one that learns nothing changes nothing.
-/

namespace ReviewPanel

/-! ### What a supervisor makes of a report -/

/-- How a role ends whose reviewer comes back in time. -/
def endingOf : Reply → Phase × Option String
  | .ok _ => (.complete, none)
  | .error e => (.failed, some e.message)

namespace Report

/-- How a role ends whose supervisor has got the report. -/
def ending (roleTimeout : Nat) : Report → Phase × Option String
  | .replied r => endingOf r
  | .cancelled => (.failed, some Panel.cancelledCause)
  | .overdue => (.timedOut, some (Panel.overdueCause roleTimeout))

/-- What an open slot becomes when its supervisor has got the report. -/
def cell : Report → Cell
  | .replied (.ok fs) => .published fs
  | .replied (.error _) | .cancelled | .overdue => .withheld

theorem isTerminal_ending (r : Report) (roleTimeout : Nat) :
    (r.ending roleTimeout).1.isTerminal = true := by
  rcases r with (_ | _) | _ | _ <;> rfl

end Report

namespace Supervisor

/-- The reviewer is back by the given time, unless it was stopped. -/
def isBackBy (s : Supervisor) (clock : Nat) : Bool := s.backAt.any (· ≤ clock)

/-- What a supervisor whose reviewer has neither come back nor been stopped learns at a given time. -/
def learns? (s : Supervisor) (clock : Nat) : Option Report :=
  if s.isBackBy clock then some (.replied s.reply)
  else if s.dueAt ≤ clock then some .overdue
  else none

end Supervisor

theorem Ledger.outlook_of_ended (l : Ledger) {seat : RunId × Role} {b : Bool} {status : Status}
    (h : l.outlook seat = some ⟨b, some status⟩) (hterm : status.isTerminal = true) (a : Attempt) :
    (l.apply a.call).outlook seat = l.outlook seat := by
  have hallows : status.phase.allows a.phase = false := by
    unfold Phase.allows
    rw [Phase.isTerminal_iff_next_eq_nil.1 hterm]
    rfl
  rw [outlook_apply, h, Attempt.onward, Attempt.answer]
  cases b <;> simp [hallows]

namespace Panel

/-- The slot of a role in an incarnation. -/
def cell? (p : Panel) (i : Nat) (role : Role) : Option Cell :=
  (p.incarnations[i]?).bind fun inc => inc.slots.cells.get? role

/-- The supervisor whose step an event is. -/
def Event.supervisor? : Event → Option Nat
  | .comeBack j | .observe j | .decide j | .settle j => some j
  | _ => none

variable {p q : Panel} {e : Event} {j : Nat}

theorem Event.isAside_of_supervisor (he : e.supervisor? = some j) : e.isAside = false := by
  cases e <;> first | rfl | cases he

/-! ### The steps of a supervisor leave all other roles alone -/

section Elsewhere

theorem publish_clock (p : Panel) (i : Nat) (role : Role) (fs : List Finding) :
    (p.publish i role fs).1.clock = p.clock := by
  obtain ⟨disk, hp⟩ := p.publish_fst i role fs
  rw [hp]
  rfl

theorem transition_clock (p : Panel) (id : RunId) (role : Role) (phase : Phase)
    (cause : Option String) : (p.transition id role phase cause).1.clock = p.clock := by
  obtain ⟨inFlight, hp⟩ := p.transition_fst id role phase cause
  rw [hp]

theorem transition_snd (p : Panel) (id : RunId) (role : Role) (phase : Phase)
    (cause : Option String) :
    (p.transition id role phase cause).2 = p.ledger.respond ⟨id, role, phase, cause, p.now⟩ := by
  unfold transition Ledger.respond
  cases p.ledger.transition id role phase cause p.now <;> rfl

theorem transition_of_pending {p : Panel} {id : RunId} {role : Role}
    (h : p.ledger.outlook (id, role) = some ⟨false, some .pending⟩) :
    ∃ u, p.ledger.transition id role .running none p.now = .ok u := by
  have hres : p.ledger.respond ⟨id, role, .running, none, p.now⟩ =
      .ok (Status.pending.advance .running none p.now) := by
    rw [Ledger.respond_eq]
    simp only [Attempt.seat, h, Attempt.answer]
    rfl
  unfold Ledger.respond at hres
  cases hu : p.ledger.transition id role .running none p.now with
  | error e =>
    rw [hu] at hres
    cases hres
  | ok u => exact ⟨u, rfl⟩

/-- Starting one role leaves the others as they are. -/
theorem outlook_spawn_of_ne (p : Panel) (i : Nat) (id : RunId) (item : WorkItem) {role role' : Role}
    (hne : role ≠ role') :
    (p.spawn i id item role').ledger.outlook (id, role) = p.ledger.outlook (id, role) := by
  obtain ⟨scribe, disk, new, handles, -, -, hq⟩ := p.spawn_eq i id item role'
  rw [hq]
  exact (p.ledger.outlook_apply ⟨id, role', .running, none, p.now⟩ _).trans
    (if_neg fun heq => hne (congrArg Prod.snd heq))

theorem Move.clock_eq (h : Move p e q) (he : e.isAside = false) : q.clock = p.clock := by
  cases h with
  | aside hside =>
    rw [he] at hside
    cases hside
  | finalized => cases he
  | published => exact publish_clock _ _ _ _
  | withheld | closed =>
    rw [withhold_fst]
    rfl
  | settled | began | gaveUp => exact transition_clock _ _ _ _ _
  | @expired _ w _ _ role _ cause =>
    rcases (p.transition w.runId role .timedOut cause).1.stopLate_eq w role with h | ⟨j, h⟩ <;> rw [h]
    exacts [transition_clock _ _ _ _ _, transition_clock _ _ _ _ _]
  | _ => rfl

theorem Move.waiters_eq (h : Move p e q) (he : e.supervisor? = some j) : q.waiters = p.waiters := by
  cases h with
  | idle | returned | observed | aside => rfl
  | published | withheld | settled => simp
  | _ => cases he

theorem Move.supervisors_eq (h : Move p e q) (he : e.supervisor? = some j) {j' : Nat} (hj : j ≠ j') :
    q.supervisors[j']? = p.supervisors[j']? := by
  cases h with
  | idle | aside => rfl
  | returned | observed | published | withheld | settled =>
    obtain rfl := Option.some.inj he
    simp [reviewerReturns, modifySupervisor, hj]
  | _ => cases he

/-- No party is added, no run gets another incarnation, and no supervisor is handed out. -/
structure Keeps (p q : Panel) : Prop where
  table_eq : q.table = p.table
  supervisors : q.supervisors.length = p.supervisors.length
  incarnations : ∀ (i : Nat) (inc' : Incarnation), q.incarnations[i]? = some inc' →
    ∃ inc, p.incarnations[i]? = some inc ∧ inc'.handles ⊆ inc.handles

theorem Keeps.trans {p q q' : Panel} (h : p.Keeps q) (h' : q.Keeps q') : p.Keeps q' where
  table_eq := h'.table_eq.trans h.table_eq
  supervisors := h'.supervisors.trans h.supervisors
  incarnations i inc'' hinc'' := by
    obtain ⟨inc', hinc', hsub'⟩ := h'.incarnations i inc'' hinc''
    obtain ⟨inc, hinc, hsub⟩ := h.incarnations i inc' hinc'
    exact ⟨inc, hinc, List.Subset.trans hsub' hsub⟩

theorem Keeps.of_modify {p q : Panel} {i : Nat} {f : Incarnation → Incarnation}
    (ht : q.table = p.table) (hs : q.supervisors.length = p.supervisors.length)
    (hi : q.incarnations = p.incarnations.modify i f) (hf : ∀ inc, (f inc).handles ⊆ inc.handles) :
    p.Keeps q where
  table_eq := ht
  supervisors := hs
  incarnations i' inc' hinc' := by
    rw [hi, List.getElem?_modify] at hinc'
    obtain ⟨inc, hinc, rfl⟩ := Option.map_eq_some_iff.1 hinc'
    refine ⟨inc, hinc, ?_⟩
    split_ifs
    · exact hf inc
    · exact List.Subset.refl _

theorem Keeps.of_eq {p q : Panel} (ht : q.table = p.table)
    (hs : q.supervisors.length = p.supervisors.length) (hi : q.incarnations = p.incarnations) :
    p.Keeps q where
  table_eq := ht
  supervisors := hs
  incarnations _ inc' hinc' := ⟨inc', hi ▸ hinc', List.Subset.refl _⟩

theorem Keeps.withhold (p : Panel) (i : Nat) (role : Role) : p.Keeps (p.withhold i role).1 := by
  rw [withhold_fst]
  exact .of_modify rfl rfl rfl fun _ => List.Subset.refl _

theorem Keeps.publish (p : Panel) (i : Nat) (role : Role) (fs : List Finding) :
    p.Keeps (p.publish i role fs).1 :=
  .of_modify (p.publish_table i role fs) (congrArg List.length (p.publish_supervisors i role fs))
    (p.publish_incarnations i role fs) fun _ => List.Subset.refl _

theorem Keeps.transition (p : Panel) (id : RunId) (role : Role) (phase : Phase)
    (cause : Option String) : p.Keeps (p.transition id role phase cause).1 :=
  .of_eq (by simp) (by simp) (by simp)

theorem Keeps.modifySupervisor (p : Panel) (j : Nat) (f : Supervisor → Supervisor) :
    p.Keeps (p.modifySupervisor j f) :=
  .of_eq rfl (List.length_modify _ _ _) rfl

theorem Move.keeps (h : Move p e q) (he : e.supervisor? = some j) : p.Keeps q := by
  cases h with
  | idle | aside => exact .of_eq rfl rfl rfl
  | observed | returned => exact .modifySupervisor p _ _
  | published => exact (Keeps.publish p _ _ _).trans (.modifySupervisor _ _ _)
  | withheld => exact (Keeps.withhold p _ _).trans (.modifySupervisor _ _ _)
  | settled => exact (Keeps.transition p _ _ _ _).trans (.modifySupervisor _ _ _)
  | _ => cases he

end Elsewhere

end Panel

namespace Slots

theorem get?_withhold_of_ne (s : Slots) {role role' : Role} (hne : role' ≠ role) :
    (s.withhold role).1.cells.get? role' = s.cells.get? role' := by
  unfold withhold
  cases h : s.close role .withheld with
  | ok s' =>
    obtain ⟨-, rfl⟩ := close_eq_ok.1 h
    exact (Table.get?_set _ _ _ _).trans (if_neg hne)
  | error e => cases e <;> rfl

theorem get?_withhold_of_vacant {s : Slots} {role : Role} (h : s.cells.get? role = some .vacant) :
    (s.withhold role).1.cells.get? role = some .withheld := by
  have hclose : s.close role .withheld = .ok { s with cells := s.cells.set role .withheld } :=
    close_eq_ok.2 ⟨h, rfl⟩
  simp [withhold, hclose]

theorem get?_publish_of_ne (s : Slots) (d : Disk) {role role' : Role} (hne : role' ≠ role)
    (fs : List Finding) : (s.publish d role fs).1.cells.get? role' = s.cells.get? role' := by
  rcases publish_cases s d role fs with ⟨-, e, h⟩ | ⟨-, ⟨d', -, h⟩ | ⟨e, h⟩⟩ <;> rw [h]
  · exact (Table.get?_set _ _ _ _).trans (if_neg hne)
  · exact (Table.get?_set _ _ _ _).trans (if_neg hne)

end Slots

namespace Panel

variable {p q : Panel} {e : Event} {j : Nat}

section Elsewhere

theorem Move.cell?_eq (h : Move p e q) (he : e.supervisor? = some j) {i : Nat} {role : Role}
    (hs : ∀ s, p.supervisors[j]? = some s → s.incarnation = i → s.role ≠ role) :
    q.cell? i role = p.cell? i role := by
  have hslots : ∀ (i' : Nat) (f : Slots → Slots),
      (i' = i → ∀ s, (f s).cells.get? role = s.cells.get? role) →
      ((p.incarnations.modify i' fun inc => { inc with slots := f inc.slots })[i]?).bind
        (fun inc => inc.slots.cells.get? role) = p.cell? i role := fun i' f hf => by
    rw [cell?, List.getElem?_modify]
    cases p.incarnations[i]? with
    | none => rfl
    | some inc =>
      by_cases hi : i' = i
      · simp [hi, hf hi]
      · simp [hi]
  cases h with
  | idle | returned | observed | aside => rfl
  | @published _ s fs _ hj =>
    obtain rfl := Option.some.inj he
    rw [cell?, setStage_incarnations, publish_incarnations]
    exact hslots _ (fun slots => (slots.publish p.disk s.role fs).1) fun hi slots =>
      slots.get?_publish_of_ne p.disk (Ne.symm (hs s hj hi)) fs
  | @withheld _ s _ _ hj =>
    obtain rfl := Option.some.inj he
    rw [cell?, setStage_incarnations, withhold_fst, modifyIncarnation_incarnations]
    exact hslots _ (fun slots => (slots.withhold s.role).1) fun hi slots =>
      slots.get?_withhold_of_ne (Ne.symm (hs s hj hi))
  | settled =>
    rw [cell?, setStage_incarnations, transition_incarnations]
    rfl
  | _ => cases he

/-- What the ledger says about other roles stays as it is. -/
theorem Move.outlook_eq (h : Move p e q) (he : e.supervisor? = some j) {id : RunId} {role : Role}
    (hs : ∀ s, p.supervisors[j]? = some s → s.runId = id → s.role ≠ role) :
    q.ledger.outlook (id, role) = p.ledger.outlook (id, role) := by
  cases h with
  | idle | returned | observed | aside => rfl
  | published | withheld => simp
  | @settled _ s phase cause hj =>
    obtain rfl := Option.some.inj he
    have hne : (id, role) ≠ (s.runId, s.role) := fun heq => by
      obtain ⟨hid, hrole⟩ := Prod.mk.inj heq
      exact hs s hj hid.symm hrole.symm
    rw [setStage_ledger, transition_ledger]
    exact (p.ledger.outlook_apply ⟨s.runId, s.role, phase, cause, p.now⟩ _).trans (if_neg hne)
  | _ => cases he

/-- What the ledger says about a role that has ended stays as it is. -/
theorem Move.outlook_of_ended (h : Move p e q) (he : e.supervisor? = some j) {seat : RunId × Role}
    {status : Status} (ho : p.ledger.outlook seat = some ⟨false, some status⟩)
    (hterm : status.isTerminal = true) : q.ledger.outlook seat = some ⟨false, some status⟩ := by
  cases h with
  | idle | returned | observed | aside => exact ho
  | published | withheld => simpa using ho
  | @settled _ s phase cause =>
    rw [setStage_ledger, transition_ledger]
    exact (p.ledger.outlook_of_ended ho hterm ⟨s.runId, s.role, phase, cause, p.now⟩).trans ho
  | _ => cases he

end Elsewhere

/-! ### What a supervisor does for its own role -/

section Own

variable {s : Supervisor}

/-- What every step of a supervisor preserves, its turn preserves. -/
theorem supervise_induction {P : Panel → Prop} (hp : P p)
    (hstep : ∀ q e, e.supervisor? = some j → P q → P (q.step e)) : P (p.supervise j) :=
  hstep _ (.settle j) rfl <| hstep _ (.decide j) rfl <| hstep _ (.observe j) rfl <|
    hstep _ (.comeBack j) rfl hp

/-- The supervisor at `j` is `s`, its slot is `c`, and the ledger says `o` about its role. -/
structure At (p : Panel) (j : Nat) (s : Supervisor) (c : Option Cell) (o : Option Outlook) : Prop where
  supervisor : p.supervisors[j]? = some s
  cell : p.cell? s.incarnation s.role = c
  outlook : p.ledger.outlook (s.runId, s.role) = o

variable {c : Option Cell} {o : Option Outlook}

theorem At.setStage (h : p.At j s c o) (stage : Stage) :
    (p.setStage j stage).At j { s with stage } c o where
  supervisor := by simp [h.supervisor]
  cell := h.cell
  outlook := h.outlook

theorem At.reviewerReturns (h : p.At j s c o) (hstop : s.stopped = false)
    (hret : s.returned = false) :
    (p.reviewerReturns j).At j { s with returned := s.isBackBy p.clock } c o where
  supervisor := by
    simp only [Panel.reviewerReturns, modifySupervisor, List.getElem?_modify_eq, h.supervisor,
      Supervisor.isBackBy]
    obtain ⟨i, id, role, backAt, reply, dueAt, returned, stopped, stage⟩ := s
    simp only at hstop hret
    subst hstop hret
    cases backAt with
    | none => rfl
    | some t => by_cases ht : t ≤ p.clock <;> simp [ht]
  cell := h.cell
  outlook := h.outlook

/-- A waiting supervisor whose reviewer had the chance to come back takes notice of what there is to
learn. -/
theorem At.observe {r : Report} (h : p.At j s c o) (hwait : s.stage = .waiting)
    (hr : s.news? p.clock = some r) : (p.observe j).At j { s with stage := .informed r } c o := by
  have hobserve : p.observe j = p.setStage j (.informed r) := by
    simp only [Panel.observe, h.supervisor]
    rw [hwait, hr]
  exact hobserve ▸ h.setStage _

/-- A supervisor that has got a report closes the slot. -/
theorem At.decide {r : Report} (h : p.At j s (some .vacant) o) (hst : s.stage = .informed r)
    (hw : ∀ inc ∈ p.incarnations, inc.slots.workspace = none) :
    (p.decide j).At j
      { s with
        stage := .decided (r.ending p.config.roleTimeout).1 (r.ending p.config.roleTimeout).2 }
      (some r.cell) o := by
  obtain ⟨inc, hinc, hvacant⟩ := Option.bind_eq_some_iff.1 h.cell
  have hnone := hw inc (List.mem_of_getElem? hinc)
  have hwithheld : (p.withhold s.incarnation s.role).1.At j s (some .withheld) o := by
    rw [withhold_fst]
    exact ⟨h.supervisor, by simp [cell?, hinc, Slots.get?_withhold_of_vacant hvacant], h.outlook⟩
  have hpublished : ∀ fs, (p.publish s.incarnation s.role fs).1.At j s (some (.published fs)) o :=
    fun fs => {
      supervisor := by simp [h.supervisor]
      cell := by simp [cell?, hinc, Slots.publish_of_vacant hvacant, hnone]
      outlook := by simp [h.outlook] }
  obtain ⟨q, hq, hdecide⟩ : ∃ q : Panel, q.At j s (some r.cell) o ∧ p.decide j = q.setStage j
      (.decided (r.ending p.config.roleTimeout).1 (r.ending p.config.roleTimeout).2) := by
    simp only [Panel.decide, h.supervisor, hst]
    rcases r with (err | fs) | _ | _
    · exact ⟨_, hwithheld, rfl⟩
    · refine ⟨_, hpublished fs, ?_⟩
      simp only [publish, hinc, Slots.publish_of_vacant hvacant, hnone]
      rfl
    · exact ⟨_, hwithheld, rfl⟩
    · exact ⟨_, hwithheld, rfl⟩
  rw [hdecide]
  exact hq.setStage _

/-- A supervisor that has decided ends its role on the ledger, if it is running. -/
theorem At.settle {status : Status} {phase : Phase} {cause : Option String}
    (h : p.At j s c (some ⟨false, some status⟩)) (hst : s.stage = .decided phase cause)
    (hterm : phase.isTerminal = true) (hrun : status.phase = .running) :
    ∃ seen, (p.settle j).At j { s with stage := .settled seen } c
      (some ⟨false, some (status.advance phase cause p.now)⟩) := by
  have hallows : status.phase.allows phase = true := hrun ▸ Phase.allows_of_isTerminal hterm
  obtain ⟨seen, hsettle⟩ : ∃ seen, p.settle j =
      (p.transition s.runId s.role phase cause).1.setStage j (.settled seen) := by
    simp only [Panel.settle, h.supervisor, hst]
    cases p.transition s.runId s.role phase cause with
    | mk q r => cases r <;> exact ⟨_, rfl⟩
  refine ⟨seen, ?_⟩
  rw [hsettle]
  refine At.setStage ⟨by simp [h.supervisor], ?_, ?_⟩ _
  · rw [cell?, transition_incarnations]
    exact h.cell
  · rw [transition_ledger]
    refine (p.ledger.outlook_apply ⟨s.runId, s.role, phase, cause, p.now⟩ _).trans ?_
    rw [if_pos (show (s.runId, s.role) = Attempt.seat _ from rfl), h.outlook]
    simp [Attempt.onward, Attempt.answer, hallows]

/-- Without a place for documents no run has a workspace. -/
theorem Reachable.workspace_eq_none (hp : Reachable p) (hroot : p.config.workspaceRoot = none) :
    ∀ inc ∈ p.incarnations, inc.slots.workspace = none := fun inc hinc => by
  rw [hp.wired.workspaces inc hinc, workspaceFor, hroot]
  rfl

/-- What a supervisor finds out once its reviewer had the chance to come back. -/
theorem news?_returned (s : Supervisor) (clock : Nat) (hstop : s.stopped = false) :
    Supervisor.news? { s with returned := s.isBackBy clock } clock = s.learns? clock := by
  simp [Supervisor.news?, Supervisor.learns?, hstop]

/-- **A supervisor that learns something ends its role at once**, if that is running and its slot is
open. -/
theorem supervise_of_learns {r : Report} {status : Status} (hp : Reachable p)
    (hroot : p.config.workspaceRoot = none)
    (h : p.At j s (some .vacant) (some ⟨false, some status⟩)) (hrun : status.phase = .running)
    (hwait : s.stage = .waiting) (hstop : s.stopped = false) (hret : s.returned = false)
    (hr : s.learns? p.clock = some r) :
    ∃ s' status', (p.supervise j).At j s' (some r.cell) (some ⟨false, some status'⟩) ∧
      s'.runId = s.runId ∧ s'.post = s.post ∧ s'.isSettled = true ∧
      (status'.phase, status'.cause) = r.ending p.config.roleTimeout := by
  have hinformed := (h.reviewerReturns hstop hret).observe hwait
    ((news?_returned s p.clock hstop).trans hr)
  obtain ⟨s₁, hid, hpost, hst, hinformed⟩ : ∃ s₁, s₁.runId = s.runId ∧ s₁.post = s.post ∧
      s₁.stage = .informed r ∧
      ((p.reviewerReturns j).observe j).At j s₁ (some .vacant) (some ⟨false, some status⟩) :=
    ⟨_, rfl, rfl, rfl, hinformed⟩
  have hconfig : ((p.reviewerReturns j).observe j).config = p.config :=
    (p.run_advances [.comeBack j, .observe j]).config_eq
  have hnone : ∀ inc ∈ ((p.reviewerReturns j).observe j).incarnations, inc.slots.workspace = none :=
    (hp.run [.comeBack j, .observe j]).workspace_eq_none (hconfig ▸ hroot)
  have hdecided := hinformed.decide hst hnone
  rw [hconfig] at hdecided
  obtain ⟨seen, hsettled⟩ := hdecided.settle rfl (r.isTerminal_ending _) hrun
  refine ⟨_, _, hsettled, hid, hpost, rfl, ?_⟩
  simp [Status.advance, r.isTerminal_ending]

/-- **A supervisor that learns nothing changes nothing.** -/
theorem supervise_of_idle (hs : p.supervisors[j]? = some s) (hwait : s.stage = .waiting)
    (hstop : s.stopped = false) (hret : s.returned = false) (hr : s.learns? p.clock = none) :
    p.supervise j = p := by
  have hnews : s.isBackBy p.clock = false ∧ s.news? p.clock = none := by
    unfold Supervisor.learns? at hr
    split_ifs at hr with hback hdue
    exact ⟨by simpa using hback, by simp [Supervisor.news?, hret, hstop, hdue]⟩
  have hreturns : p.reviewerReturns j = p := by
    simp only [reviewerReturns, modifySupervisor]
    rw [modify_congr (g := id) fun s' hs' => ?_, List.modify_id]
    obtain rfl := Option.some.inj (hs.symm.trans hs')
    have hback := hnews.1
    unfold Supervisor.isBackBy at hback
    split
    · rename_i t ht
      rw [ht, Option.any_some, decide_eq_false_iff_not] at hback
      rw [if_neg fun h => hback h.1]
      rfl
    · rfl
  simp only [supervise, hreturns, observe, hs, hnews.2, decide, hwait, settle]

end Own

end Panel

end ReviewPanel
