import ReviewPanel.Proofs.Panel.Documents

/-!
# The slot comes first

A role ends on the ledger only after its slot has been closed, and it finishes only after what its
reviewer came back with has been published, in memory and, if documents are kept, on disk.  Supervisors
and waiters do these things in separate steps and race for each of them; a publication that fails on disk
leaves the slot published and the role failed.  The statement holds for every interleaving, for a run
whose identifier is not used twice and whose directory no other run uses.

## Main definitions

* `Panel.Written` : the document of a slot holds what the slot holds.
* `Panel.Done` : the ledger says that the role finished, or its supervisor is about to say so.
* `Panel.Filed` : what is done is written.

## Main statements

* `Panel.filed_step`, `Panel.filed_run` : steps and schedules keep the slots filed.
* `Panel.slot_before_end` : **the slot comes first, and stays.**
-/

namespace ReviewPanel.Panel

/-- If the slot is published and documents are kept, the document holds the same findings. -/
def Written (p : Panel) (inc : Incarnation) (role : Role) : Prop :=
  ∀ w fs, inc.slots.workspace = some w → inc.slots.cells.get? role = some (.published fs) →
    p.disk.fileContent (p.disk.locate (w.slotPath role)) =
      .ok (Utf8.ofString (Finding.listValue fs).prettyText)

/-- The role finished on the ledger, or its supervisor is about to say so. -/
def Done (p : Panel) (i : Nat) (x : LedgerEntry) (role : Role) : Prop :=
  (∃ status, x.roles.get? role = some status ∧ status.phase = .complete) ∨
    ∃ s ∈ p.supervisors, s.post = (i, role) ∧ ∃ cause, s.stage = .decided .complete cause

/-- As long as the run is there and has one incarnation, what is done is written. -/
def Filed (p : Panel) (id : RunId) : Prop :=
  ∀ i inc x, p.incarnations[i]? = some inc → inc.runId = id → p.Sole i id →
    p.ledger.entries.get? id = some x → ∀ role, p.Done i x role → p.Written inc role

/-! ### What one step does -/

theorem Move.decided_cases {p q : Panel} {e : Event} (h : Move p e q) {s' : Supervisor}
    (hs' : s' ∈ q.supervisors) {cause : Option String} (hst' : s'.stage = .decided .complete cause) :
    (∃ s ∈ p.supervisors, s.post = s'.post ∧ s.stage = .decided .complete cause) ∨
      ∃ s fs, s ∈ p.supervisors ∧ s.post = s'.post ∧
        (p.publish s.incarnation s.role fs).2 = .ok () ∧
        q.disk = (p.publish s.incarnation s.role fs).1.disk ∧
        q.incarnations = (p.publish s.incarnation s.role fs).1.incarnations := by
  have hsame : ∀ s ∈ p.supervisors, s.Advances s' → s'.stage = s.stage →
      ∃ s ∈ p.supervisors, s.post = s'.post ∧ s.stage = .decided .complete cause := by
    intro s hs hadv hst
    refine ⟨s, hs, ?_, hst.symm.trans hst'⟩
    rw [Supervisor.post, Supervisor.post, hadv.incarnation_eq, hadv.role_eq]
  cases h with
  | idle | aside | refused | finalized | forgotten | entered | polled | turned | finished | joined
    | skipped => exact .inl ⟨s', hs', rfl, hst'⟩
  | closed | began | gaveUp => exact .inl ⟨s', by simpa using hs', rfl, hst'⟩
  | started hc hu hnew hroles =>
    rcases List.mem_append.1 hs' with hs' | hs'
    · exact .inl ⟨s', hs', rfl, hst'⟩
    · rw [(hnew s' hs').stage_eq] at hst'
      cases hst'
  | @expired k w _ _ role _ cause' =>
    rw [setWait_supervisors] at hs'
    rcases (p.transition w.runId role .timedOut cause').1.stopLate_eq w role with heq | ⟨j, heq⟩
    · rw [heq, transition_supervisors] at hs'
      exact .inl ⟨s', hs', rfl, hst'⟩
    · rw [heq] at hs'
      obtain ⟨s, hs, hadv, hst⟩ := of_mem_stopReviewer hs'
      rw [transition_supervisors] at hs
      exact .inl (hsame s hs hadv hst)
  | returned j =>
    obtain ⟨s, hs, hadv, hst⟩ := of_mem_reviewerReturns hs'
    exact .inl (hsame s hs hadv hst)
  | observed =>
    rcases mem_of_mem_modify hs' with hs' | ⟨s, hs, rfl⟩
    · exact .inl ⟨s', hs', rfl, hst'⟩
    · cases hst'
  | @published j s fs phase hs hst hphase =>
    rw [setStage_supervisors, publish_supervisors] at hs'
    rcases mem_of_mem_modify hs' with hs' | ⟨s₁, hs₁, rfl⟩
    · exact .inl ⟨s', hs', rfl, hst'⟩
    · obtain rfl : s = s₁ := Option.some.inj (hs.symm.trans hs₁)
      cases hst'
      rcases hphase with ⟨-, hok⟩ | habs
      · exact .inr ⟨s, fs, List.mem_of_getElem? hs, rfl, hok, rfl, rfl⟩
      · cases habs
  | @withheld j s r phase hs hst hphase =>
    rw [setStage_supervisors, withhold_fst, modifyIncarnation_supervisors] at hs'
    rcases mem_of_mem_modify hs' with hs' | ⟨s₁, hs₁, rfl⟩
    · exact .inl ⟨s', hs', rfl, hst'⟩
    · cases hst'
      rcases hphase with habs | habs <;> cases habs
  | settled =>
    rw [setStage_supervisors, transition_supervisors] at hs'
    rcases mem_of_mem_modify hs' with hs' | ⟨s₁, hs₁, rfl⟩
    · exact .inl ⟨s', hs', rfl, hst'⟩
    · cases hst'

theorem Move.done_of_complete {p q : Panel} {e : Event} (h : Move p e q) (hw : p.Wired) {i : Nat}
    {id : RunId} (hi : i < p.incarnations.length) (hsole : q.Sole i id) {x' : LedgerEntry}
    (hx' : q.ledger.entries.get? id = some x') :
    ∃ x, p.ledger.entries.get? id = some x ∧ ∀ role status, x'.roles.get? role = some status →
      status.phase = .complete → p.Done i x role := by
  have hsole₀ := hsole.of_advances h.advances
  have hch := h.change id
  rw [hx'] at hch
  generalize hxp : p.ledger.entries.get? id = y at hch
  -- the role that has moved is done because of its supervisor, the others were finished before
  have hmove : ∀ {x : LedgerEntry} {role : Role} {status : Status},
      (status.phase = .complete → p.Done i x role) → ∀ role' status',
      (x.move role status).roles.get? role' = some status' → status'.phase = .complete →
        p.Done i x role' := by
    intro x role status hdone role' status' hr hc
    rw [LedgerEntry.move, Table.get?_set] at hr
    split_ifs at hr with heq
    · obtain rfl := Option.some.inj hr
      exact heq ▸ hdone hc
    · exact .inl ⟨status', hr, hc⟩
  cases hch with
  | same => exact ⟨x', rfl, fun role status hr hc => .inl ⟨status, hr, hc⟩⟩
  | @reported j s phase cause x status hs hst hid =>
    have hmem := List.mem_of_getElem? hs
    obtain ⟨inc₀, hinc₀, hid₀, -⟩ := hw.supervisors s hmem
    have hinc : s.incarnation = i := hsole₀ _ _ hinc₀ (hid₀.trans hid)
    refine ⟨x, rfl, hmove fun hc => .inr ⟨s, hmem, by rw [Supervisor.post, hinc], cause, ?_⟩⟩
    obtain rfl : phase = .complete := hc
    exact hst
  | forced _ _ _ hphase => exact ⟨_, rfl, hmove fun hc => absurd hc hphase⟩
  | judged => exact ⟨_, rfl, fun role status hr hc => .inl ⟨status, hr, hc⟩⟩
  | restarted hlast hid =>
    have heq := hsole _ _ hlast hid
    omega

theorem Done.shut {p : Panel} (hp : Reachable p) {i : Nat} {inc : Incarnation} {x : LedgerEntry}
    (hinc : p.incarnations[i]? = some inc) (hsole : p.Sole i inc.runId)
    (hx : p.ledger.entries.get? inc.runId = some x) {role : Role} (h : p.Done i x role) :
    inc.slots.Shut role := by
  rcases h with ⟨status, hr, hc⟩ | ⟨s, hs, hpost, cause, hst⟩
  · exact (hp.agrees hinc hsole hx).shut role status hr (by rw [Status.isTerminal, hc]; rfl)
  · obtain ⟨inc₀, hinc₀, -, -, hback⟩ := hp.wired.supervisors s hs
    obtain ⟨hi, hrole⟩ := Prod.mk.inj hpost
    obtain rfl : inc₀ = inc := Option.some.inj ((hi ▸ hinc₀).symm.trans hinc)
    exact hrole ▸ (hback.decided _ cause hst).2

theorem not_done_of_launched {p q : Panel} {e : Event} (h : Move p e q) (hq : q.Wired) {i : Nat}
    {inc : Incarnation} (hinc : q.incarnations[i]? = some inc) (hnew : p.incarnations.length ≤ i)
    {x : LedgerEntry} (hx : q.ledger.entries.get? inc.runId = some x) (role : Role) :
    ¬ q.Done i x role := by
  obtain ⟨-, item, roles, -, hslots, -, x', hx', -, hrun⟩ := h.launched hinc hnew
  obtain rfl := Option.some.inj (hx'.symm.trans hx)
  rintro (⟨status, hr, hc⟩ | ⟨s, hs, hpost, cause, hst⟩)
  · have hphase := hrun role
    rw [hr, Option.map_some, hc] at hphase
    split_ifs at hphase
    cases hphase
  · obtain ⟨inc₀, hinc₀, -, -, hback⟩ := hq.supervisors s hs
    obtain ⟨hi, hrole⟩ := Prod.mk.inj hpost
    obtain rfl : inc₀ = inc := Option.some.inj ((hi ▸ hinc₀).symm.trans hinc)
    obtain ⟨fs, -, -, hcell⟩ := hback.complete cause hst
    rw [hslots, Slots.ofRoles, Table.get?_ofKeys] at hcell
    split_ifs at hcell
    cases hcell

/-- **After a successful publication the slot is written.** -/
theorem written_of_publish {p q : Panel} {i : Nat} {inc inc' : Incarnation} {role : Role}
    {fs : List Finding} (hinc : p.incarnations[i]? = some inc)
    (hinc' : q.incarnations[i]? = some inc') (hok : (p.publish i role fs).2 = .ok ())
    (hdisk : q.disk = (p.publish i role fs).1.disk)
    (hincs : q.incarnations = (p.publish i role fs).1.incarnations) : q.Written inc' role := by
  rw [hincs, publish_incarnations, List.getElem?_modify_eq, hinc] at hinc'
  obtain rfl := Option.some.inj hinc'
  rw [publish_snd hinc] at hok
  obtain ⟨hcell, hwrite⟩ := Slots.publish_eq_ok hok
  intro w fs' hw hcell'
  have hgrow := (inc.slots.grows_publish p.disk role fs).1
  obtain rfl : fs = fs' := by
    have := hcell.symm.trans hcell'
    simpa using this
  have hdisk' : q.disk = (inc.slots.publish p.disk role fs).2.1 := by
    rw [hdisk]
    simp only [publish, hinc]
  rw [hdisk']
  exact (Workspace.writeSlot_eq_ok (hwrite w (hgrow.workspace_eq ▸ hw))).2

theorem Written.step {p : Panel} (hp : Reachable p) {i : Nat} {inc inc' : Incarnation} {role : Role}
    (h : p.Written inc role) (hinc : p.incarnations[i]? = some inc) (hgrow : inc.Grows inc')
    (hshut : inc.slots.Shut role) {e : Event}
    (hapart : p.config.workspaceRoot ≠ none → p.Apart inc.runId ∧ e.KeepsApart inc.runId)
    (hsole : (p.step e).Sole i inc.runId)
    (hx : (p.step e).ledger.entries.get? inc.runId ≠ none) : (p.step e).Written inc' role := by
  intro w fs hw hcell
  rw [hgrow.slots.workspace_eq] at hw
  rw [hgrow.slots.cell_eq role hshut] at hcell
  have hcontent := h w fs hw hcell
  -- the workspace is the directory of the run below the root
  rw [hp.wired.workspaces inc (List.mem_of_getElem? hinc), workspaceFor] at hw
  obtain ⟨root, hroot, rfl⟩ := Option.map_eq_some_iff.1 hw
  obtain ⟨hpart, hkeep⟩ := hapart (by rw [hroot]; simp)
  have hkept := step_keeps hp.wired hroot hpart hinc hshut hkeep hsole hx
  rw [hkept.locate_eq]
  exact hkept.2 _ hcontent

/-- **A step keeps the slots filed.** -/
theorem filed_step {p : Panel} (hp : Reachable p) {id : RunId} {e : Event}
    (hapart : p.config.workspaceRoot ≠ none → p.Apart id ∧ e.KeepsApart id) (hfiled : p.Filed id) :
    (p.step e).Filed id := by
  intro i inc' x' hinc' hid' hsole' hx' role hdone'
  subst hid'
  have h := p.step_move e
  rcases h.advances.incarnations.back hinc' with ⟨inc, hinc, hgrow⟩ | hnew
  · rw [hgrow.runId_eq] at hapart hfiled hsole' hx'
    have hsole := hsole'.of_advances h.advances
    have hlt := (List.getElem?_eq_some_iff.1 hinc).1
    obtain ⟨x, hx, hbefore⟩ := h.done_of_complete hp.wired hlt hsole' hx'
    have hstay : p.Done i x role → (p.step e).Written inc' role := by
      intro hdone
      refine Written.step hp (hfiled i inc x hinc rfl hsole hx role hdone) hinc hgrow
        (hdone.shut hp hinc hsole hx) hapart hsole' ?_
      rw [hx']
      simp
    rcases hdone' with ⟨status, hr, hc⟩ | ⟨s', hs', hpost', cause, hst'⟩
    · exact hstay (hbefore role status hr hc)
    · rcases h.decided_cases hs' hst' with ⟨s, hs, hpost, hst⟩ | ⟨s, fs, hs, hpost, hok, hdisk, hincs⟩
      · exact hstay (.inr ⟨s, hs, hpost.trans hpost', cause, hst⟩)
      · obtain ⟨hi, hrole⟩ := Prod.mk.inj (hpost.trans hpost')
        rw [hi, hrole] at hok hdisk hincs
        exact written_of_publish hinc hinc' hok hdisk hincs
  · exact absurd hdone' (not_done_of_launched h (hp.step e).wired hinc' hnew hx' role)

/-- **A schedule keeps the slots filed**, if no other run with a directory of the same name is ever
started. -/
theorem filed_run {id : RunId} {es : List Event} :
    ∀ {p : Panel}, Reachable p → (p.config.workspaceRoot ≠ none → p.Apart id) → p.Filed id →
      (p.config.workspaceRoot ≠ none → ∀ e ∈ es, e.KeepsApart id) → (p.run es).Filed id := by
  induction es with
  | nil => exact fun _ _ hfiled _ => hfiled
  | cons e es ih =>
    intro p hp hapart hfiled hes
    have hconfig := (p.step_advances e).config_eq
    refine ih (hp.step e) ?_ ?_ ?_
    · intro hroot
      rw [hconfig] at hroot
      exact (p.step_move e).apart (hes hroot e List.mem_cons_self) (hapart hroot)
    · exact filed_step hp (fun hroot => ⟨hapart hroot, hes hroot e List.mem_cons_self⟩) hfiled
    · intro hroot e' he'
      rw [hconfig] at hroot
      exact hes hroot e' (List.mem_cons_of_mem _ he')

/-! ### The whole run -/

/-- **The slot comes first, and stays.**  Take a run whose start is accepted at some point of a schedule,
whose identifier is never used for a second incarnation, and, if documents are kept, whose directory no
other run uses.  After the schedule,

* a role that finished on the ledger has a slot with exactly what its own reviewer came back with, and
  so has the document of the slot;
* a role that has ended has a closed slot, and whatever happens later, the findings of the role stay
  what they are. -/
theorem slot_before_end {config : Config} {crew : Crew} {disk : Disk} {now : Timestamp}
    {canSpawn : Bool} {nextStamp : Nat} {p₀ : Panel}
    (h₀ : Panel.ofConfig config crew disk now canSpawn nextStamp = .ok p₀) {id : RunId}
    {item : WorkItem} {roles : List Role} {before after : List Event} {p : Panel}
    (hp : p = p₀.run (before ++ .start id item roles :: after)) {i : Nat}
    (hi : i = (p₀.run before).incarnations.length)
    (hok : ((p₀.run before).start id item roles).2 = .ok id) (hsole : p.Sole i id)
    (hdir : config.workspaceRoot ≠ none → ∀ e ∈ before ++ after, e.KeepsApart id) :
    ∃ inc, p.incarnations[i]? = some inc ∧ inc.runId = id ∧
      inc.slots.workspace = p.workspaceFor id ∧
      ∀ s role status, p.ledger.read id = .ok s → s.roles.get? role = some status →
        (status.phase = .complete →
          ∃ fs, (∃ w ∈ p.supervisors, w.post = (i, role) ∧ w.returned = true) ∧
            (∀ w ∈ p.supervisors, w.post = (i, role) → w.reply = .ok fs) ∧
            inc.slots.cells.get? role = some (.published fs) ∧
            ∀ w, inc.slots.workspace = some w →
              p.disk.fileContent (p.disk.locate (w.slotPath role)) =
                .ok (Utf8.ofString (Finding.listValue fs).prettyText)) ∧
        (status.isTerminal = true →
          inc.slots.isClosed role = true ∧
          ∀ later inc', (p.run later).incarnations[i]? = some inc' →
            inc'.slots.findings role = inc.slots.findings role) := by
  have hreach₀ : Reachable p₀ := .ofConfig h₀
  have hreach : Reachable p := hp ▸ hreach₀.run _
  have hconfig₀ : p₀.config = config ∧ p₀.incarnations = [] := by
    unfold Panel.ofConfig at h₀
    split at h₀
    · cases h₀
    · obtain rfl := Except.ok.inj h₀
      exact ⟨rfl, rfl⟩
  -- the incarnation that the start has made is still there
  obtain ⟨inc₁, hinc₁, hid₁, -⟩ := (launched_of_start hok).incarnation
  obtain ⟨inc, hinc, hgrow⟩ :=
    (((p₀.run before).step (.start id item roles)).run_advances after).incarnations _ _ hinc₁
  rw [← run_cons, ← run_append, ← hp, ← hi] at hinc
  obtain rfl : inc.runId = id := hgrow.runId_eq.trans hid₁
  have hfiled : p.Filed inc.runId := by
    rw [hp]
    refine filed_run hreach₀ ?_ ?_ ?_
    · intro _ inc' hmem
      simp [hconfig₀.2] at hmem
    · intro i' inc' x hinc'
      simp [hconfig₀.2] at hinc'
    · intro hroot e he
      rw [hconfig₀.1] at hroot
      rcases List.mem_append.1 he with he | he
      · exact hdir hroot e (List.mem_append_left _ he)
      · rcases List.mem_cons.1 he with rfl | he
        · exact fun _ => rfl
        · exact hdir hroot e (List.mem_append_right _ he)
  refine ⟨inc, hinc, rfl, hreach.wired.workspaces inc (List.mem_of_getElem? hinc), ?_⟩
  intro s role status hread hr
  obtain ⟨x, hx, rfl⟩ := Ledger.read_eq_ok.1 hread
  have hagree := hreach.agrees hinc hsole hx
  constructor
  · intro hc
    obtain ⟨w, hw, hpost, fs, hret, hreply, hcell⟩ := hagree.delivered role status hr hc
    have hrole : w.role = role := congrArg Prod.snd hpost
    rw [hrole] at hcell
    refine ⟨fs, ⟨w, hw, hpost, hret⟩, fun w' hw' hpost' => ?_, hcell, fun ws hws => ?_⟩
    · rw [hreach.wired.eq_of_post hw' hw (hpost'.trans hpost.symm), hreply]
    · exact hfiled i inc x hinc rfl hsole hx role (.inl ⟨status, hr, hc⟩) ws fs hws hcell
  · intro hterm
    have hshut := hagree.shut role status hr hterm
    refine ⟨Slots.isClosed_iff.2 ⟨?_, hshut⟩, fun later inc' hinc' => ?_⟩
    · rw [← hreach.wired.isSome_slot hinc hsole hx role, show x.roles.get? role = some status from hr]
      rfl
    · obtain ⟨inc'', hinc'', hgrow'⟩ := (p.run_advances later).incarnations i inc hinc
      obtain rfl : inc'' = inc' := Option.some.inj (hinc''.symm.trans hinc')
      exact hgrow'.slots.findings_eq hshut

/-- With documents, on a schedule that finishes one role and runs out of time for the other. -/
theorem slot_before_end_half : ∃ p inc,
    p = (fresh { Config.default with workspaceRoot := some "w" } halfCrew).run
      ([] ++ .start "r" (.ofReference "t") [.security, .build] :: halfSchedule) ∧
    p.incarnations[0]? = some inc ∧
    inc.slots.cells.get? .security = some (.published [openPort]) ∧
    p.disk.fileContent (p.disk.locate "w/r/findings/security.findings.json") =
      .ok (Utf8.ofString (Finding.listValue [openPort]).prettyText) ∧
    inc.slots.isClosed .build = true := by
  obtain ⟨p, hp⟩ : ∃ p, p = (fresh { Config.default with workspaceRoot := some "w" } halfCrew).run
      ([] ++ .start "r" (.ofReference "t") [.security, .build] :: halfSchedule) := ⟨_, rfl⟩
  have hsole : p.Sole 0 "r" := sole_of_length (by rw [hp]; rfl) "r"
  have hread : ∃ s a b, p.ledger.read "r" = .ok s ∧ s.roles.get? .security = some a ∧
      a.phase = .complete ∧ s.roles.get? .build = some b ∧ b.isTerminal = true := by
    rw [hp]
    exact ⟨_, _, _, rfl, rfl, rfl, rfl, rfl⟩
  have hsup : ∃ w ∈ p.supervisors, w.post = (0, .security) ∧ w.reply = .ok [openPort] := by
    rw [hp]
    exact ⟨_, List.mem_cons_self, rfl, rfl⟩
  obtain ⟨inc, hinc, -, hwork, hall⟩ := slot_before_end (ofConfig_blank rfl halfCrew) hp rfl rfl hsole
    (fun _ e he => by
      simp only [halfSchedule, List.nil_append, List.mem_cons, List.not_mem_nil] at he
      rcases he with rfl | rfl | rfl | rfl | rfl | rfl | rfl | rfl | rfl | rfl | he <;> trivial)
  obtain ⟨s, a, b, hs, ha, hfin, hb, hend⟩ := hread
  obtain ⟨fs, -, hreply, hcell, hdoc⟩ := (hall s .security a hs ha).1 hfin
  obtain ⟨w, hw, hpost, hw'⟩ := hsup
  obtain rfl : [openPort] = fs := Except.ok.inj (hw'.symm.trans (hreply w hw hpost))
  refine ⟨p, inc, hp, hinc, hcell, ?_, ((hall s .build b hs hb).2 hend).1⟩
  exact hdoc ⟨"r", "w/r"⟩ (by rw [hwork, hp]; rfl)

end ReviewPanel.Panel
