import ReviewPanel.Proofs.Panel.Growth

/-!
# How the parties of a panel hang together

What holds on every panel that can be reached, whatever has been started, forgotten and started again:

* a supervisor belongs to an incarnation of its run and has a slot there; once it has decided, that slot
  is shut, and if it is going to report success the slot holds what its reviewer came back with;
* no role of an incarnation has two supervisors;
* a waiter belongs to an incarnation of its run, and touches the ledger only after it has shut the slot
  of the role;
* table and ledger know the same runs, and the roles on the ledger are those with a slot;
* an incarnation has the workspace of its run, if documents are kept.

## Main definitions

* `Supervisor.Delivered`, `Supervisor.PlacedIn`, `Waiter.PlacedIn`, `Panel.Listed` : these facts, one
  party at a time.
* `Panel.Wired` : all of them.
* `Panel.Launched` : what an accepted start leaves behind.

## Main statements

* `Panel.Move.wired` : what one step preserves.
* `Panel.Reachable.wired` : **every reachable panel is wired.**
-/

namespace ReviewPanel

/-! ### Supervisors -/

namespace Supervisor

/-- The reviewer came back with findings, and the slot holds them. -/
def Delivered (s : Supervisor) (inc : Incarnation) : Prop :=
  ∃ fs, s.returned = true ∧ s.reply = .ok fs ∧ inc.slots.cells.get? s.role = some (.published fs)

/-- What a supervisor knows is so, and what it has decided is done. -/
structure Backed (s : Supervisor) (inc : Incarnation) : Prop where
  informed : ∀ r, s.stage = .informed (.replied r) → s.returned = true ∧ s.reply = r
  decided : ∀ phase cause, s.stage = .decided phase cause →
    phase.isTerminal = true ∧ inc.slots.Shut s.role
  complete : ∀ cause, s.stage = .decided .complete cause → s.Delivered inc

/-- The supervisor belongs to one of the incarnations and has a slot there. -/
def PlacedIn (incs : List Incarnation) (s : Supervisor) : Prop :=
  ∃ inc, incs[s.incarnation]? = some inc ∧ inc.runId = s.runId ∧
    (inc.slots.cells.get? s.role).isSome = true ∧ s.Backed inc

/-- The role of the incarnation that the supervisor looks after. -/
def post (s : Supervisor) : Nat × Role := (s.incarnation, s.role)

variable {s s' : Supervisor} {inc inc' : Incarnation}

theorem Delivered.mono (h : s.Delivered inc) (hs : s.Advances s') (hi : inc.Grows inc') :
    s'.Delivered inc' := by
  obtain ⟨fs, hret, hreply, hcell⟩ := h
  refine ⟨fs, hs.returned hret, hs.reply_eq.trans hreply, ?_⟩
  rw [hs.role_eq, hi.slots.cell_eq s.role (by simp [Slots.Shut, hcell]), hcell]

theorem Backed.mono (h : s.Backed inc) (hs : s.Advances s') (hst : s'.stage = s.stage)
    (hi : inc.Grows inc') : s'.Backed inc' where
  informed r hr := by
    obtain ⟨hret, hreply⟩ := h.informed r (hst ▸ hr)
    exact ⟨hs.returned hret, hs.reply_eq.trans hreply⟩
  decided phase cause hd := by
    obtain ⟨hterm, hshut⟩ := h.decided phase cause (hst ▸ hd)
    exact ⟨hterm, hs.role_eq ▸ hi.slots.shut hshut⟩
  complete cause hd := (h.complete cause (hst ▸ hd)).mono hs hi

variable {incs incs' : List Incarnation}

theorem PlacedIn.lt (h : s.PlacedIn incs) : s.incarnation < incs.length := by
  obtain ⟨inc, hinc, -⟩ := h
  exact (List.getElem?_eq_some_iff.1 hinc).1

theorem PlacedIn.mono (h : s.PlacedIn incs) (hi : Extends Incarnation.Grows incs incs')
    (hs : s.Advances s') (hst : s'.stage = s.stage) : s'.PlacedIn incs' := by
  obtain ⟨inc, hinc, hid, hslot, hback⟩ := h
  obtain ⟨inc', hinc', hgrow⟩ := hi _ _ hinc
  refine ⟨inc', by rw [hs.incarnation_eq, hinc'], ?_, ?_, hback.mono hs hst hgrow⟩
  · rw [hgrow.runId_eq, hid, hs.runId_eq]
  · rw [hs.role_eq, hgrow.slots.isSome_eq, hslot]

/-- A supervisor may go to a stage that is backed. -/
theorem PlacedIn.setStage (h : s.PlacedIn incs) (hi : Extends Incarnation.Grows incs incs')
    {stage : Stage} (hb : ∀ inc inc', incs[s.incarnation]? = some inc →
      incs'[s.incarnation]? = some inc' → s.Backed inc →
      Backed { s with stage } inc') : PlacedIn incs' { s with stage } := by
  obtain ⟨inc, hinc, hid, hslot, hback⟩ := h
  obtain ⟨inc', hinc', hgrow⟩ := hi _ _ hinc
  refine ⟨inc', hinc', hgrow.runId_eq.trans hid, ?_, hb inc inc' hinc hinc' hback⟩
  exact (hgrow.slots.isSome_eq s.role).trans hslot

end Supervisor

/-! ### Waiters -/

/-- The waiter belongs to one of the incarnations, and the slot of the role that it is about to start or
end there is shut. -/
def Waiter.PlacedIn (incs : List Incarnation) (w : Waiter) : Prop :=
  ∃ inc, incs[w.incarnation]? = some inc ∧ inc.runId = w.runId ∧
    ∀ snapshot late role rest next, w.stage = .forcing snapshot late (role :: rest) next →
      next ≠ .withhold → inc.slots.Shut role

namespace Waiter.PlacedIn

variable {w w' : Waiter} {incs incs' : List Incarnation}

theorem mono (h : w.PlacedIn incs) (hi : Extends Incarnation.Grows incs incs') :
    w.PlacedIn incs' := by
  obtain ⟨inc, hinc, hid, hshut⟩ := h
  obtain ⟨inc', hinc', hgrow⟩ := hi _ _ hinc
  refine ⟨inc', hinc', hgrow.runId_eq.trans hid, ?_⟩
  intro snapshot late role rest next hst hne
  exact hgrow.slots.shut (hshut snapshot late role rest next hst hne)

/-- A waiter may go to a stage in which the slot of its next role is shut. -/
theorem setWait (h : w.PlacedIn incs) (hi : Extends Incarnation.Grows incs incs')
    {stage : WaitStage}
    (hshut : ∀ inc inc', incs[w.incarnation]? = some inc → incs'[w.incarnation]? = some inc' →
      inc.Grows inc' → ∀ snapshot late role rest next,
        stage = .forcing snapshot late (role :: rest) next → next ≠ .withhold →
        inc'.slots.Shut role) :
    Waiter.PlacedIn incs' { w with stage } := by
  obtain ⟨inc, hinc, hid, -⟩ := h
  obtain ⟨inc', hinc', hgrow⟩ := hi _ _ hinc
  exact ⟨inc', hinc', hgrow.runId_eq.trans hid, hshut inc inc' hinc hinc' hgrow⟩

end Waiter.PlacedIn

/-! ### Lists in which one member was replaced -/

section Modify

variable {α β : Type} {as bs : List α}

theorem mem_of_mem_modify {i : Nat} {f : α → α} {b : α} (h : b ∈ as.modify i f) :
    b ∈ as ∨ ∃ a, as[i]? = some a ∧ b = f a := by
  obtain ⟨j, hj⟩ := List.mem_iff_getElem?.1 h
  rw [List.getElem?_modify] at hj
  obtain ⟨a, ha, rfl⟩ := Option.map_eq_some_iff.1 hj
  split_ifs with hij
  · exact .inr ⟨a, hij ▸ ha, rfl⟩
  · exact .inl (List.mem_of_getElem? ha)

theorem Extends.map_eq {R : α → α → Prop} (h : Extends R as bs) (hlen : bs.length = as.length)
    {f : α → β} (hf : ∀ a b, R a b → f b = f a) : bs.map f = as.map f := by
  apply List.ext_getElem?
  intro i
  rw [List.getElem?_map, List.getElem?_map]
  cases ha : as[i]? with
  | none =>
    have hi := List.getElem?_eq_none_iff.1 ha
    rw [List.getElem?_eq_none_iff.2 (hlen ▸ hi)]
  | some a =>
    obtain ⟨b, hb, hab⟩ := h i a ha
    rw [hb, Option.map_some, Option.map_some, hf a b hab]

end Modify

namespace Panel

/-! ### Runs -/

/-- Table and ledger agree about a run: neither knows it, or both do and it has the same roles on the
ledger and in the slots. -/
def Listed (p : Panel) (id : RunId) : Prop :=
  p.table.get? id = none ∧ p.ledger.entries.get? id = none ∨
    ∃ i inc e, p.table.get? id = some i ∧ p.incarnations[i]? = some inc ∧ inc.runId = id ∧
      p.ledger.entries.get? id = some e ∧
      ∀ role, (e.roles.get? role).isSome = (inc.slots.cells.get? role).isSome

theorem Listed.of_steady {p q : Panel} {id : RunId} (h : p.Listed id) (ht : q.table = p.table)
    (hl : p.ledger.Steady q.ledger) (hi : Extends Incarnation.Grows p.incarnations q.incarnations) :
    q.Listed id := by
  rcases h with ⟨htab, hent⟩ | ⟨i, inc, e, htab, hinc, hid, hent, hroles⟩
  · rcases hl id with ⟨-, hq⟩ | ⟨e, e', he, -, -⟩
    · exact .inl ⟨ht ▸ htab, hq⟩
    · rw [hent] at he
      cases he
  · rcases hl id with ⟨hnone, -⟩ | ⟨e₀, e', he, he', hsame⟩
    · rw [hent] at hnone
      cases hnone
    · obtain rfl : e₀ = e := Option.some.inj (he.symm.trans hent)
      obtain ⟨inc', hinc', hgrow⟩ := hi _ _ hinc
      refine .inr ⟨i, inc', e', ht ▸ htab, hinc', hgrow.runId_eq.trans hid, he', fun role => ?_⟩
      rw [hsame, hroles, hgrow.slots.isSome_eq]

theorem Listed.congr {p q : Panel} {id : RunId} (h : p.Listed id)
    (ht : q.table.get? id = p.table.get? id)
    (hl : q.ledger.entries.get? id = p.ledger.entries.get? id)
    (hi : Extends Incarnation.Grows p.incarnations q.incarnations) : q.Listed id := by
  rcases h with ⟨htab, hent⟩ | ⟨i, inc, e, htab, hinc, hid, hent, hroles⟩
  · exact .inl ⟨ht.trans htab, hl.trans hent⟩
  · obtain ⟨inc', hinc', hgrow⟩ := hi _ _ hinc
    refine .inr ⟨i, inc', e, ht.trans htab, hinc', hgrow.runId_eq.trans hid, hl.trans hent, ?_⟩
    intro role
    rw [hroles, hgrow.slots.isSome_eq]

theorem Listed.runId_eq {p : Panel} {id : RunId} {i : Nat} {inc : Incarnation} (h : p.Listed id)
    (htab : p.table.get? id = some i) (hinc : p.incarnations[i]? = some inc) : inc.runId = id := by
  rcases h with ⟨hnone, -⟩ | ⟨i', inc', e, htab', hinc', hid, -, -⟩
  · rw [htab] at hnone
    cases hnone
  · obtain rfl : i' = i := Option.some.inj (htab'.symm.trans htab)
    obtain rfl : inc' = inc := Option.some.inj (hinc'.symm.trans hinc)
    exact hid

theorem Cleared.table_get? {p : Panel} {id : RunId} {ledger : Ledger} {table : Dictionary Nat}
    (h : Cleared p id ledger table) (hp : p.Listed id) : table.get? id = none := by
  obtain ⟨hnone, ⟨rfl, rfl⟩ | ⟨-, rfl⟩⟩ := h
  · rcases hp with ⟨htab, -⟩ | ⟨i, inc, e, -, -, -, hent, -⟩
    · exact htab
    · rw [hnone] at hent
      cases hent
  · rw [Dictionary.get?_erase, if_pos rfl]

/-! ### What one step preserves -/

/-- What holds on every panel that can be reached. -/
structure Wired (p : Panel) : Prop where
  supervisors : ∀ s ∈ p.supervisors, s.PlacedIn p.incarnations
  nodup_posts : (p.supervisors.map Supervisor.post).Nodup
  waiters : ∀ w ∈ p.waiters, w.PlacedIn p.incarnations
  listed : ∀ id, p.Listed id
  workspaces : ∀ inc ∈ p.incarnations, inc.slots.workspace = p.workspaceFor inc.runId

theorem publish_snd {p : Panel} {i : Nat} {inc : Incarnation} (hinc : p.incarnations[i]? = some inc)
    (role : Role) (fs : List Finding) :
    (p.publish i role fs).2 = (inc.slots.publish p.disk role fs).2.2 := by
  simp only [publish, hinc]

/-- The slots of a run that is launched are those of its roles. -/
theorem isSome_ofRoles (roles : List Role) (w : Option Workspace) (role : Role) :
    ((Slots.ofRoles roles w).cells.get? role).isSome = true ↔ role ∈ roles := by
  rw [Slots.ofRoles, Table.get?_ofKeys]
  split_ifs with h <;> simp [h]

/-- The run is on the ledger, and all its roles are running. -/
def AllRunning (l : Ledger) (id : RunId) (roles : List Role) : Prop :=
  ∃ x, l.entries.get? id = some x ∧ x.verdict = none ∧ ∀ role,
    (x.roles.get? role).map Status.phase = if role ∈ roles then some .running else none

/-- A run that has just been launched is running. -/
theorem allRunning_launched {ledger : Ledger} {id : RunId} {item : WorkItem} {roles : List Role}
    {now : Timestamp} {u : Ledger.Update RunState} (hu : ledger.create id item roles now = .ok u) :
    AllRunning ((launchCalls id now roles).foldl Ledger.apply u.ledger) id roles := by
  obtain ⟨-, hnd, -, rfl⟩ := Ledger.create_eq_ok.1 hu
  obtain ⟨e, he, hv, -, hroles⟩ := get?_launchCalls id now hnd
    (l := ledger.put id (.fresh item roles now)) (e := .fresh item roles now) (by simp) rfl
    (fun role hrole => by simp [LedgerEntry.fresh, Table.get?_ofKeys, hrole])
  refine ⟨e, he, hv, fun role => (hroles role).trans ?_⟩
  by_cases h : role ∈ roles
  · simp [h]
  · simp [h, LedgerEntry.fresh, Table.get?_ofKeys]

/-- What an accepted start leaves behind. -/
structure Launched (p q : Panel) (id : RunId) (roles : List Role) : Prop where
  ne_nil : roles ≠ []
  table : q.table.get? id = some p.incarnations.length
  incarnation : ∃ inc, q.incarnations[p.incarnations.length]? = some inc ∧ inc.runId = id ∧
    ∀ role, (inc.slots.cells.get? role).isSome = true ↔ role ∈ roles
  running : AllRunning q.ledger id roles
  supervisors : ∃ new, q.supervisors = p.supervisors ++ new ∧
    ∀ s ∈ new, s.incarnation = p.incarnations.length
  waiters : q.waiters = p.waiters

theorem launched_of_start {p : Panel} {id : RunId} {item : WorkItem} {roles : List Role}
    (hok : (p.start id item roles).2 = .ok id) : p.Launched (p.start id item roles).1 id roles := by
  rcases p.start_cases id item roles with
    ⟨e, h⟩ | ⟨_, _, _, _, _, -, ⟨e, h⟩ | ⟨u, new, _, hu, hnew, -, h⟩⟩
  · rw [h] at hok
    cases hok
  · rw [h] at hok
    cases hok
  · rw [h]
    exact {
      ne_nil := (Ledger.create_eq_ok.1 hu).1
      table := Dictionary.get?_insert_self _ _ _
      incarnation := ⟨_, List.getElem?_concat_length, rfl, isSome_ofRoles roles _⟩
      running := allRunning_launched hu
      supervisors := ⟨new, rfl, fun s hs => (hnew s hs).incarnation_eq⟩
      waiters := rfl }

/-- News of a reply is news of a reviewer who is back. -/
theorem news?_eq_replied {s : Supervisor} {clock : Nat} {r : Reply}
    (h : s.news? clock = some (.replied r)) : s.returned = true ∧ s.reply = r := by
  unfold Supervisor.news? at h
  split_ifs at h with hret
  · cases h
    exact ⟨hret, rfl⟩
  · cases h
  · cases h

/-! ### Supervisors that change -/

section Supervisors

variable {p q : Panel} {s : Supervisor} {j : Nat}

theorem of_mem_stopReviewer (h : s ∈ (p.stopReviewer j).supervisors) :
    ∃ s₀ ∈ p.supervisors, s₀.Advances s ∧ s.stage = s₀.stage := by
  rcases mem_of_mem_modify h with hs | ⟨s₀, hs₀, rfl⟩
  · exact ⟨s, hs, Supervisor.Advances.refl s, rfl⟩
  · refine ⟨s₀, List.mem_of_getElem? hs₀, ?_⟩
    split_ifs
    · exact ⟨Supervisor.Advances.refl s₀, rfl⟩
    · exact ⟨⟨rfl, rfl, rfl, rfl, rfl, fun h => h, fun h => h⟩, rfl⟩

theorem of_mem_reviewerReturns (h : s ∈ (p.reviewerReturns j).supervisors) :
    ∃ s₀ ∈ p.supervisors, s₀.Advances s ∧ s.stage = s₀.stage := by
  rcases mem_of_mem_modify h with hs | ⟨s₀, hs₀, rfl⟩
  · exact ⟨s, hs, Supervisor.Advances.refl s, rfl⟩
  · refine ⟨s₀, List.mem_of_getElem? hs₀, ?_⟩
    split
    · split_ifs
      · exact ⟨⟨rfl, rfl, rfl, rfl, rfl, fun _ => rfl, fun h => h⟩, rfl⟩
      · exact ⟨Supervisor.Advances.refl s₀, rfl⟩
    · exact ⟨Supervisor.Advances.refl s₀, rfl⟩

/-- One supervisor goes to a stage that is backed; the others stay where they are. -/
theorem placed_setStage {s₀ : Supervisor} {stage : Stage} (hs₀ : p.supervisors[j]? = some s₀)
    (hp : ∀ s ∈ p.supervisors, s.PlacedIn p.incarnations)
    (hi : Extends Incarnation.Grows p.incarnations q.incarnations)
    (hsup : q.supervisors = p.supervisors)
    (hb : ∀ inc inc', p.incarnations[s₀.incarnation]? = some inc →
      q.incarnations[s₀.incarnation]? = some inc' → s₀.Backed inc →
      Supervisor.Backed { s₀ with stage } inc') :
    ∀ s ∈ (q.setStage j stage).supervisors, s.PlacedIn q.incarnations := by
  intro s hs
  rw [setStage_supervisors, hsup] at hs
  rcases mem_of_mem_modify hs with hs | ⟨s₁, hs₁, rfl⟩
  · exact (hp s hs).mono hi (Supervisor.Advances.refl s) rfl
  · obtain rfl : s₀ = s₁ := Option.some.inj (hs₀.symm.trans hs₁)
    exact (hp s₀ (List.mem_of_getElem? hs₀)).setStage hi hb

end Supervisors

/-- One waiter goes to another stage; the others stay where they are. -/
theorem placed_setWait {p q : Panel} {k : Nat} {w₀ : Waiter} {stage : WaitStage}
    (hw₀ : p.waiters[k]? = some w₀) (hp : ∀ w ∈ p.waiters, w.PlacedIn p.incarnations)
    (hi : Extends Incarnation.Grows p.incarnations q.incarnations) (hwait : q.waiters = p.waiters)
    (hshut : ∀ inc inc', p.incarnations[w₀.incarnation]? = some inc →
      q.incarnations[w₀.incarnation]? = some inc' → inc.Grows inc' →
      ∀ snapshot late role rest next, stage = .forcing snapshot late (role :: rest) next →
        next ≠ .withhold → inc'.slots.Shut role) :
    ∀ w ∈ (q.setWait k stage).waiters, w.PlacedIn q.incarnations := by
  intro w hw
  rw [setWait_waiters, hwait] at hw
  rcases mem_of_mem_modify hw with hw | ⟨w₁, hw₁, rfl⟩
  · exact (hp w hw).mono hi
  · obtain rfl : w₀ = w₁ := Option.some.inj (hw₀.symm.trans hw₁)
    exact (hp w₀ (List.mem_of_getElem? hw₀)).setWait hi hshut

namespace Move

variable {p q : Panel} {e : Event}

theorem placed (h : Move p e q) (hp : ∀ s ∈ p.supervisors, s.PlacedIn p.incarnations) :
    ∀ s ∈ q.supervisors, s.PlacedIn q.incarnations := by
  have hi := h.advances.incarnations
  have hold : ∀ s ∈ p.supervisors, s.PlacedIn q.incarnations := fun s hs =>
    (hp s hs).mono hi (Supervisor.Advances.refl s) rfl
  cases h with
  | idle | aside | refused | finalized | forgotten | entered | polled | turned | finished | joined
    | skipped => exact hold
  | closed | began | gaveUp => exact fun s hs => hold s (by simpa using hs)
  | @started id item roles _ _ _ new hc hu hnew hroles scribe disk nextStamp handles =>
    intro s hs
    rcases List.mem_append.1 hs with hs | hs
    · exact hold s hs
    · have hisnew := hnew s hs
      have hrole : s.role ∈ roles := hroles.subset (List.mem_map_of_mem hs)
      refine ⟨_, by rw [hisnew.incarnation_eq]; exact List.getElem?_concat_length, hisnew.runId_eq.symm,
        (isSome_ofRoles roles _ s.role).2 hrole, ?_, ?_, ?_⟩ <;> simp [hisnew.stage_eq]
  | @expired k w _ _ role _ cause =>
    intro s hs
    rw [setWait_supervisors] at hs
    rcases (p.transition w.runId role .timedOut cause).1.stopLate_eq w role with heq | ⟨j, heq⟩
    · rw [heq, transition_supervisors] at hs
      exact hold s hs
    · rw [heq] at hs
      obtain ⟨s₀, hs₀, hadv, hst⟩ := of_mem_stopReviewer hs
      rw [transition_supervisors] at hs₀
      exact (hp s₀ hs₀).mono hi hadv hst
  | returned j =>
    intro s hs
    obtain ⟨s₀, hs₀, hadv, hst⟩ := of_mem_reviewerReturns hs
    exact (hp s₀ hs₀).mono hi hadv hst
  | @observed j s₀ r hs₀ hst hn =>
    refine placed_setStage hs₀ hp hi rfl fun inc inc' _ _ _ => ⟨?_, ?_, ?_⟩
    · rintro r' ⟨⟩
      exact news?_eq_replied hn
    · rintro phase cause ⟨⟩
    · rintro cause ⟨⟩
  | @published j s₀ fs phase hs₀ hst hphase cause =>
    refine placed_setStage hs₀ hp hi (by simp) fun inc inc' hinc hinc' hback => ⟨?_, ?_, ?_⟩
    all_goals
      rw [publish_incarnations, List.getElem?_modify_eq, hinc] at hinc'
      obtain rfl := Option.some.inj hinc'
    · rintro r ⟨⟩
    · rintro phase' cause' ⟨⟩
      refine ⟨?_, (inc.slots.grows_publish p.disk s₀.role fs).2⟩
      rcases hphase with ⟨rfl, -⟩ | rfl <;> rfl
    · rintro cause' ⟨⟩
      rcases hphase with ⟨-, hok⟩ | habs
      · obtain ⟨hret, hreply⟩ := hback.informed _ hst
        rw [publish_snd hinc] at hok
        exact ⟨fs, hret, hreply, (Slots.publish_eq_ok hok).1⟩
      · cases habs
  | @withheld j s₀ r phase hs₀ hst hphase cause =>
    refine placed_setStage hs₀ hp hi (by simp) fun inc inc' hinc hinc' hback => ⟨?_, ?_, ?_⟩
    all_goals
      rw [withhold_fst, modifyIncarnation_incarnations, List.getElem?_modify_eq, hinc] at hinc'
      obtain rfl := Option.some.inj hinc'
    · rintro r ⟨⟩
    · rintro phase' cause' ⟨⟩
      refine ⟨?_, (inc.slots.grows_withhold s₀.role).2⟩
      rcases hphase with rfl | rfl <;> rfl
    · rintro cause' ⟨⟩
      rcases hphase with habs | habs <;> cases habs
  | @settled j s₀ phase cause hs₀ hst seen =>
    refine placed_setStage hs₀ hp hi (by simp) fun inc inc' _ _ _ => ⟨?_, ?_, ?_⟩
    · rintro r ⟨⟩
    · rintro phase' cause' ⟨⟩
    · rintro cause' ⟨⟩

/-- Only a start adds supervisors. -/
theorem length_supervisors (h : Move p e q) (hlen : p.incarnations.length = q.incarnations.length) :
    q.supervisors.length = p.supervisors.length := by
  cases h with
  | idle | aside | refused | finalized | forgotten | entered | polled | turned | finished | joined
    | skipped => rfl
  | started => simp at hlen
  | @expired k w _ _ role _ cause =>
    rw [setWait_supervisors]
    rcases (p.transition w.runId role .timedOut cause).1.stopLate_eq w role with heq | ⟨j, heq⟩
    · rw [heq, transition_supervisors]
    · rw [heq, stopReviewer, modifySupervisor, List.length_modify, transition_supervisors]
  | returned => exact List.length_modify _ _ _
  | closed | began | gaveUp => simp
  | observed | published | withheld | settled => simp

theorem nodup_posts (h : Move p e q) (hp : ∀ s ∈ p.supervisors, s.PlacedIn p.incarnations)
    (hnd : (p.supervisors.map Supervisor.post).Nodup) :
    (q.supervisors.map Supervisor.post).Nodup := by
  by_cases hlen : p.incarnations.length = q.incarnations.length
  · rw [h.advances.supervisors.map_eq (h.length_supervisors hlen)]
    · exact hnd
    · intro a b hab
      rw [Supervisor.post, Supervisor.post, hab.incarnation_eq, hab.role_eq]
  · cases h with
    | @started id item roles _ _ _ new hc hu hnew hroles =>
      obtain ⟨-, hroles_nd, -, -⟩ := Ledger.create_eq_ok.1 hu
      rw [List.map_append, List.nodup_append]
      refine ⟨hnd, ?_, ?_⟩
      · -- the new supervisors have different roles
        refine List.Nodup.of_map Prod.snd ?_
        rw [List.map_map]
        exact hroles_nd.sublist hroles
      · -- and belong to an incarnation that no supervisor had before
        rintro a ha b hb rfl
        obtain ⟨s, hs, rfl⟩ := List.mem_map.1 ha
        obtain ⟨s', hs', hpost⟩ := List.mem_map.1 hb
        have hlt := (hp s hs).lt
        have hinc : s'.incarnation = s.incarnation := congrArg Prod.fst hpost
        rw [(hnew s' hs').incarnation_eq] at hinc
        omega
    | returned => exact absurd rfl hlen
    | _ => simp at hlen

theorem waiters_placed (h : Move p e q) (hp : ∀ w ∈ p.waiters, w.PlacedIn p.incarnations)
    (hl : ∀ id, p.Listed id) : ∀ w ∈ q.waiters, w.PlacedIn q.incarnations := by
  have hi := h.advances.incarnations
  have hold : ∀ w ∈ p.waiters, w.PlacedIn q.incarnations := fun w hw => (hp w hw).mono hi
  -- a slot that was shut for the waiter's last step is shut for its next one
  have hlast : ∀ {k : Nat} {w₀ : Waiter} {snapshot : RunState} {late rest : List Role} {role : Role}
      {next : ForceStep}, p.waiters[k]? = some w₀ →
      w₀.stage = .forcing snapshot late (role :: rest) next → next ≠ .withhold →
      ∀ inc inc', p.incarnations[w₀.incarnation]? = some inc → inc.Grows inc' →
        inc'.slots.Shut role := by
    intro k w₀ snapshot late rest role next hw₀ hst hne inc inc' hinc hgrow
    obtain ⟨inc₀, hinc₀, -, hshut⟩ := hp w₀ (List.mem_of_getElem? hw₀)
    obtain rfl : inc₀ = inc := Option.some.inj (hinc₀.symm.trans hinc)
    exact hgrow.slots.shut (hshut _ _ _ _ _ hst hne)
  cases h with
  | idle | aside | refused | started | forgotten | finalized | returned | observed => exact hold
  | published | withheld | settled => exact fun w hw => hold w (by simpa using hw)
  | @entered id i inc hact poll limit =>
    intro w hw
    rcases List.mem_append.1 hw with hw | hw
    · exact hold w hw
    · obtain rfl := List.mem_singleton.1 hw
      obtain ⟨htab, hinc⟩ := active_eq_ok.1 hact
      refine ⟨inc, hinc, (hl id).runId_eq htab hinc, ?_⟩
      rintro _ _ _ _ _ ⟨⟩
  | polled hw₀ hst =>
    refine placed_setWait hw₀ hp hi rfl fun inc inc' _ _ _ => ?_
    rintro _ _ _ _ _ ⟨⟩
  | turned hw₀ hst =>
    refine placed_setWait hw₀ hp hi rfl fun inc inc' _ _ _ => ?_
    intro snapshot late role rest next hst' hne
    injection hst' with _ _ _ hnext
    exact absurd hnext.symm hne
  | finished hw₀ =>
    refine placed_setWait hw₀ hp hi rfl fun inc inc' _ _ _ => ?_
    rintro _ _ _ _ _ ⟨⟩
  | joined hw₀ =>
    refine placed_setWait hw₀ hp hi rfl fun inc inc' _ _ _ => ?_
    rintro _ _ _ _ _ ⟨⟩
  | @closed k w₀ _ _ role _ hw₀ hst =>
    refine placed_setWait hw₀ hp hi (by simp) fun inc inc' hinc hinc' _ => ?_
    rintro _ _ _ _ _ ⟨⟩ -
    rw [withhold_fst, modifyIncarnation_incarnations, List.getElem?_modify_eq, hinc] at hinc'
    obtain rfl := Option.some.inj hinc'
    exact (inc.slots.grows_withhold role).2
  | skipped hw₀ hst =>
    refine placed_setWait hw₀ hp hi rfl fun inc inc' hinc _ hgrow => ?_
    rintro _ _ _ _ _ ⟨⟩ -
    exact hlast hw₀ hst (by decide) inc inc' hinc hgrow
  | began hw₀ hst hstage =>
    refine placed_setWait hw₀ hp hi (by simp) fun inc inc' hinc _ hgrow => ?_
    rintro _ _ _ _ _ rfl hne
    rcases hstage with heq | ⟨a, heq⟩
    · cases heq
      exact hlast hw₀ hst (by decide) inc inc' hinc hgrow
    · cases heq
  | expired hw₀ hst =>
    refine placed_setWait hw₀ hp hi (by simp) fun inc inc' _ _ _ => ?_
    intro snapshot late role rest next hst' hne
    injection hst' with _ _ _ hnext
    exact absurd hnext.symm hne
  | gaveUp hw₀ =>
    refine placed_setWait hw₀ hp hi (by simp) fun inc inc' _ _ _ => ?_
    rintro _ _ _ _ _ ⟨⟩

theorem listed (h : Move p e q) (hp : ∀ id, p.Listed id) (id : RunId) : q.Listed id := by
  have hi := h.advances.incarnations
  cases h with
  | idle | aside | entered | polled | turned | finished | joined | skipped | returned | observed =>
    exact (hp id).congr rfl rfl hi
  | closed | published | withheld => exact (hp id).congr (by simp) (by simp) hi
  | began | expired | gaveUp | settled =>
    exact (hp id).of_steady (by simp) (by simpa using p.ledger.steady_apply rfl) hi
  | finalized => exact (hp id).of_steady rfl (p.ledger.steady_apply rfl) hi
  | @refused id' _ _ _ _ hc =>
    by_cases hid : id = id'
    · subst hid
      exact .inl ⟨hc.table_get? (hp id), hc.1⟩
    · exact (hp id).congr (hc.get?_of_ne hid).1 (hc.get?_of_ne hid).2 hi
  | @started id' item roles _ _ _ new hc hu hnew hroles =>
    by_cases hid : id = id'
    · subst hid
      obtain ⟨e, he, -, hphase⟩ := allRunning_launched hu
      refine .inr ⟨p.incarnations.length, _, e, by simp, List.getElem?_concat_length, rfl, he, ?_⟩
      intro role
      rw [Bool.eq_iff_iff, isSome_ofRoles, ← Option.isSome_map (f := Status.phase), hphase role]
      split_ifs with h <;> simp [h]
    · refine (hp id).congr ?_ ?_ hi
      · rw [Dictionary.get?_insert, if_neg hid, (hc.get?_of_ne hid).1]
      · exact get?_started_of_ne hc hu hid
  | @forgotten id' hgone =>
    by_cases hid : id = id'
    · subst hid
      exact .inl ⟨by rw [Dictionary.get?_erase, if_pos rfl], hgone⟩
    · refine (hp id).congr (by rw [Dictionary.get?_erase, if_neg hid]) ?_ hi
      exact p.ledger.get?_apply_of_ne fun h => hid (Option.some.inj h).symm

/-- **Only an accepted start makes a new incarnation**, which then is the last one: its slots are open,
and on the ledger all its roles are running. -/
theorem launched (h : Move p e q) {i : Nat} {inc : Incarnation}
    (hinc : q.incarnations[i]? = some inc) (hnew : p.incarnations.length ≤ i) :
    i = p.incarnations.length ∧ ∃ item roles, e = .start inc.runId item roles ∧
      inc.slots = .ofRoles roles (p.workspaceFor inc.runId) ∧ inc.verdict = none ∧
      AllRunning q.ledger inc.runId roles := by
  have hlt := (List.getElem?_eq_some_iff.1 hinc).1
  cases h with
  | @started id item roles _ _ _ _ hc hu =>
    have hi : i = p.incarnations.length := by
      simp only [List.length_append, List.length_singleton] at hlt
      omega
    subst hi
    obtain rfl := Option.some.inj (List.getElem?_concat_length.symm.trans hinc)
    exact ⟨rfl, item, roles, rfl, rfl, rfl, allRunning_launched hu⟩
  | idle | returned => exact absurd hlt (Nat.not_lt.2 hnew)
  | _ =>
    simp at hlt
    omega

theorem workspaces (h : Move p e q)
    (hp : ∀ inc ∈ p.incarnations, inc.slots.workspace = p.workspaceFor inc.runId) :
    ∀ inc ∈ q.incarnations, inc.slots.workspace = q.workspaceFor inc.runId := by
  intro inc' hmem
  have hconfig : q.workspaceFor inc'.runId = p.workspaceFor inc'.runId := by
    rw [workspaceFor, workspaceFor, h.advances.config_eq]
  obtain ⟨i, hinc'⟩ := List.mem_iff_getElem?.1 hmem
  rcases h.advances.incarnations.back hinc' with ⟨inc, hinc, hgrow⟩ | hnew
  · rw [hgrow.slots.workspace_eq, hp inc (List.mem_of_getElem? hinc), hconfig, hgrow.runId_eq]
  · obtain ⟨-, item, roles, -, hslots, -⟩ := h.launched hinc' hnew
    rw [hslots, hconfig]
    rfl

/-- **One step keeps the panel wired.** -/
theorem wired (h : Move p e q) (hp : p.Wired) : q.Wired where
  supervisors := h.placed hp.supervisors
  nodup_posts := h.nodup_posts hp.supervisors hp.nodup_posts
  waiters := h.waiters_placed hp.waiters hp.listed
  listed := h.listed hp.listed
  workspaces := h.workspaces hp.workspaces

end Move

theorem wired_ofConfig {config : Config} {crew : Crew} {disk : Disk} {now : Timestamp}
    {canSpawn : Bool} {nextStamp : Nat} {p : Panel}
    (h : Panel.ofConfig config crew disk now canSpawn nextStamp = .ok p) : p.Wired := by
  obtain rfl := eq_of_ofConfig h
  exact ⟨by simp [fresh], by simp [fresh], by simp [fresh], fun id => .inl ⟨rfl, rfl⟩, by simp [fresh]⟩

/-- **Every reachable panel is wired.** -/
theorem Reachable.wired {p : Panel} (h : Reachable p) : p.Wired := by
  induction h with
  | ofConfig h => exact wired_ofConfig h
  | @step p h e ih => exact (p.step_move e).wired ih

/-- Two supervisors of one role of an incarnation are the same. -/
theorem Wired.eq_of_post {p : Panel} (h : p.Wired) {s s' : Supervisor} (hs : s ∈ p.supervisors)
    (hs' : s' ∈ p.supervisors) (hpost : s.post = s'.post) : s = s' :=
  List.inj_on_of_nodup_map h.nodup_posts hs hs' hpost

theorem Wired.index_eq_of_post {p : Panel} (h : p.Wired) {j j' : Nat} {s s' : Supervisor}
    (hs : p.supervisors[j]? = some s) (hs' : p.supervisors[j']? = some s')
    (hpost : s.post = s'.post) : j = j' := by
  have hlt : j < (p.supervisors.map Supervisor.post).length := by
    rw [List.length_map]
    exact (List.getElem?_eq_some_iff.1 hs).1
  refine (List.getElem?_inj hlt h.nodup_posts).1 ?_
  rw [List.getElem?_map, List.getElem?_map, hs, hs', Option.map_some, Option.map_some, hpost]

end Panel

end ReviewPanel
