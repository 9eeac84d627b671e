import ReviewPanel.Proofs.Panel.Directories

/-!
# A start that is refused leaves no trace

A start makes the directory of the run and registers it before the ledger has looked at the roles, so a
refusal of the ledger finds something to undo.  It is undone: nothing is registered that was not before,
the directory is gone, and nothing else has moved.  The registration that was made meanwhile has a writer
that never gets anything to write.

Under a policy that rejects, this is all that a refused start does.  The root itself may have been made on
the way, and stays.

## Main definitions

* `Panel.retired`, `Panel.makeRoom`, `Panel.enter` : the parts of a start, one after the other.
* `Panel.TakenBack` : what a refused start leaves behind.

## Main statements

* `Panel.start_eq`, `Panel.clearPrevious_eq` : a start is made of these parts.
* `Panel.Reachable.unregistered` : only runs on the ledger are registered.
* `Panel.enter_takenBack` : **what was done for a run is undone if the ledger does not take it.**
* `Panel.rejected_start_takenBack` : **a refused start leaves no trace** under a policy that rejects.
-/

namespace ReviewPanel

/-! ### Registrations that come and go -/

namespace Scribe

variable {s : Scribe} {id : RunId}

theorem registration?_unregister (hid : s.current.get? id = none) (a : RunId) :
    (s.unregister id).registration? a = s.registration? a := by
  have hcurrent : (s.current.erase id).get? a = s.current.get? a := by
    rw [Dictionary.get?_erase]
    split_ifs with ha
    · rw [ha, hid]
    · rfl
  simp only [registration?, unregister, hcurrent]

theorem registration?_register_unregister (hid : s.current.get? id = none)
    (hplaced : ∀ a i, s.current.get? a = some i → i < s.registrations.length) (dir : String)
    (background : Bool) (a : RunId) :
    ((s.register ⟨id, dir⟩ background).unregister id).registration? a = s.registration? a := by
  have hcurrent : ((s.current.insert id s.registrations.length).erase id).get? a =
      s.current.get? a := by
    rw [Dictionary.get?_erase, Dictionary.get?_insert]
    split_ifs with ha
    · rw [ha, hid]
    · rfl
  simp only [registration?, unregister, register, hcurrent]
  cases hi : s.current.get? a with
  | none => rfl
  | some i => exact List.getElem?_append_left (hplaced a i hi)

end Scribe

namespace Panel

variable {p q : Panel} {id : RunId} {item : WorkItem} {roles : List Role} {e : PanelError}

/-! ### The parts of a start -/

/-- The panel without a run that has ended. -/
def retired (p : Panel) (id : RunId) : Panel :=
  { p with
    ledger := p.ledger.apply (.retire id), table := p.table.erase id, scribe := p.scribe.unregister id }

/-- Sets aside what is in the place of a run's directory. -/
def makeRoom (p : Panel) (id : RunId) : Panel × Except PanelError Unit :=
  match p.config.workspaceRoot with
  | none => (p, .ok ())
  | some root =>
    match Workspace.archive p.disk root id (stamp p.nextStamp) with
    | .error e => (p, .error (.workspace e))
    | .ok (disk, _) => ({ p with disk, nextStamp := p.nextStamp + 1 }, .ok ())

/-- Makes the directory of a run, enters the run in the ledger and launches it. -/
def enter (p : Panel) (id : RunId) (item : WorkItem) (roles : List Role) :
    Panel × Except PanelError RunId :=
  match p.openWorkspace id with
  | (p, .error e) => (p, .error e)
  | (p, .ok w) =>
    match p.ledger.create id item roles p.now with
    | .error e => (p.closeWorkspace id w, .error (.ofLedger e))
    | .ok u => ((p.accept u).launch id item roles w, .ok id)

theorem start_eq (p : Panel) (id : RunId) (item : WorkItem) (roles : List Role) :
    p.start id item roles =
      if p.canSpawn then
        match p.clearPrevious id with
        | (p, .error e) => (p, .error e)
        | (p, .ok ()) => p.enter id item roles
      else (p, .error .noRuntime) := by
  unfold start
  cases p.canSpawn <;> rfl

/-- **What the rerun policy does.** -/
theorem clearPrevious_eq (p : Panel) (id : RunId) :
    p.clearPrevious id =
      match p.ledger.entries.get? id, p.config.rerunPolicy with
      | none, .reject => (p, .ok ())
      | none, .archive => p.makeRoom id
      | some _, .reject => (p, .error (.duplicateRun id))
      | some x, .archive =>
        if x.isComplete then (p.retired id).makeRoom id else (p, .error (.duplicateRun id)) := by
  unfold clearPrevious
  cases hid : p.ledger.entries.get? id with
  | none =>
    cases p.config.rerunPolicy with
    | reject => rfl
    | archive =>
      simp only [Ledger.retire, hid]
      rfl
  | some x =>
    cases p.config.rerunPolicy with
    | reject => rfl
    | archive =>
      simp only [Ledger.retire, hid]
      split_ifs with hc
      · simp only [retired, Ledger.apply, Ledger.retire, hid, if_pos hc]
        rfl
      · rfl

/-! ### Panels that keep no documents -/

theorem deliver_scribe_of_empty (hs : p.scribe = .empty) (k : Nat) : (p.deliver k).scribe = .empty := by
  unfold deliver
  split
  · exact hs
  · rename_i t _
    simp only [hs, Scribe.receive_of_none (s := .empty) (t := t) rfl]

theorem accept_scribe_of_empty {α : Type} (hs : p.scribe = .empty) (u : Ledger.Update α) :
    (p.accept u).scribe = .empty :=
  deliver_scribe_of_empty (p := p.post u) hs _

theorem Upkeep.scribe_of_empty {root : String} {ev : Event} (h : Upkeep p root ev q)
    (hev : ∀ id item roles, ev ≠ .start id item roles) (hs : p.scribe = .empty) :
    q.scribe = .empty := by
  cases h with
  | nothing _ hq | published _ _ _ _ hq | wrote _ hq => rw [hq, hs]
  | moved _ _ hq => rw [hq, hs]
  | delivered k => exact deliver_scribe_of_empty hs k
  | @judged _ _ q' _ d u _ _ hq' _ hq =>
    have hs' : q'.scribe = .empty := by
      rw [hq']
      exact foldl_deliver_preserves (P := fun q => q.scribe = .empty)
        (fun _ k hq => deliver_scribe_of_empty hq k) p.arrivals
        (accept_scribe_of_empty (p := { p with disk := d }) hs u)
    rw [(Prod.mk.inj hq).1, hs']
    rfl
  | forgotten _ hq =>
    rw [hq, hs]
    rfl
  | took n =>
    simp only [hs, Scribe.take, Scribe.empty, List.modify_nil]
  | persisted n =>
    simp only [hs]
    rfl
  | refusing => exact hs
  | opened => exact absurd rfl (hev _ _ _)

theorem launch_scribe_of_empty (hs : p.scribe = .empty) (id : RunId) (item : WorkItem)
    (roles : List Role) (w : Option Workspace) : (p.launch id item roles w).scribe = .empty := by
  have hspawn : ∀ (q : Panel) (i : Nat) (role : Role), q.scribe = .empty →
      (q.spawn i id item role).scribe = .empty := by
    intro q i role hq
    unfold spawn
    split
    · exact hq
    · exact accept_scribe_of_empty hq _
  have hfold : ∀ (i : Nat) (roles : List Role) (q : Panel), q.scribe = .empty →
      (roles.foldl (fun q role => q.spawn i id item role) q).scribe = .empty := by
    intro i roles
    induction roles with
    | nil => exact fun q hq => hq
    | cons role roles ih => exact fun q hq => ih _ (hspawn q i role hq)
  exact hfold _ roles _ hs

theorem enter_scribe_of_empty (hroot : p.config.workspaceRoot = none) (hs : p.scribe = .empty)
    (id : RunId) (item : WorkItem) (roles : List Role) : (p.enter id item roles).1.scribe = .empty := by
  simp only [enter, openWorkspace, hroot]
  split
  · simp only [closeWorkspace, hs]
    rfl
  · exact launch_scribe_of_empty (accept_scribe_of_empty hs _) id item roles none

theorem start_scribe_of_empty (hroot : p.config.workspaceRoot = none) (hs : p.scribe = .empty)
    (id : RunId) (item : WorkItem) (roles : List Role) : (p.start id item roles).1.scribe = .empty := by
  have hs' : (p.retired id).scribe = .empty := by
    simp only [retired, hs]
    rfl
  have hroot' : (p.retired id).config.workspaceRoot = none := hroot
  rw [start_eq, clearPrevious_eq]
  split_ifs
  · cases p.ledger.entries.get? id with
    | none =>
      cases p.config.rerunPolicy with
      | reject => exact enter_scribe_of_empty hroot hs id item roles
      | archive =>
        simp only [makeRoom, hroot]
        exact enter_scribe_of_empty hroot hs id item roles
    | some x =>
      cases p.config.rerunPolicy with
      | reject => exact hs
      | archive =>
        simp only [makeRoom, hroot']
        split_ifs
        · exact enter_scribe_of_empty hroot' hs' id item roles
        · exact hs
  · exact hs

/-- A panel that keeps no documents never registers a run. -/
theorem Reachable.scribe_eq_empty (h : Reachable p) (hroot : p.config.workspaceRoot = none) :
    p.scribe = .empty := by
  induction h with
  | ofConfig h =>
    obtain rfl := eq_of_ofConfig h
    rfl
  | @step p h ev ih =>
    rw [(p.step_advances ev).config_eq] at hroot
    rcases ev.start_or_other with ⟨id, item, roles, rfl⟩ | hev
    · exact start_scribe_of_empty hroot (ih hroot) id item roles
    · exact (p.step_upkeep_of_ne_start "" hev).scribe_of_empty hev (ih hroot)

/-- **Only runs on the ledger are registered.** -/
theorem Reachable.unregistered (h : Reachable p) (hid : ¬ p.Registered id) :
    p.scribe.current.get? id = none := by
  cases hroot : p.config.workspaceRoot with
  | none =>
    rw [h.scribe_eq_empty hroot]
    rfl
  | some root =>
    cases hi : p.scribe.current.get? id with
    | none => rfl
    | some i =>
      obtain ⟨r, t, -, -, hread⟩ := (h.inOrder hroot).current id i hi
      obtain ⟨x, hx, -⟩ := Ledger.read_eq_ok.1 hread
      exact absurd (by rw [Registered, hx]; simp) hid

/-! ### What is undone -/

/-- What a refused start leaves behind: nothing but a writer that has nothing to write, and directories
where `made` allows them. -/
structure TakenBack (p q : Panel) (made : String → Location → Prop) : Prop where
  /-- Neither ledger nor table nor any party has changed, and no party is new. -/
  others : q = { p with scribe := q.scribe, disk := q.disk }
  registration_eq : ∀ a, q.scribe.registration? a = p.scribe.registration? a
  writers : ∃ new, q.scribe.registrations = p.scribe.registrations ++ new ∧
    ∀ r ∈ new, r.latest = none ∧ r.carried = none
  documents : ∀ root, p.config.workspaceRoot = some root → p.disk.Gains (made root) q.disk
  paperless : p.config.workspaceRoot = none → q.disk = p.disk

theorem TakenBack.refl (p : Panel) (made : String → Location → Prop) : TakenBack p p made :=
  ⟨rfl, fun _ => rfl, ⟨[], by simp, by simp⟩, fun _ _ => .refl _ _, fun _ => rfl⟩

theorem TakenBack.mono {made made' : String → Location → Prop} (h : TakenBack p q made)
    (hmade : ∀ root l, p.config.workspaceRoot = some root → made root l → made' root l) :
    TakenBack p q made' where
  others := h.others
  registration_eq := h.registration_eq
  writers := h.writers
  documents root hroot := (h.documents root hroot).mono fun l => hmade root l hroot
  paperless := h.paperless

theorem TakenBack.of_gains {root : String} {made : String → Location → Prop} {d : Disk}
    (hroot : p.config.workspaceRoot = some root) (hgains : p.disk.Gains (made root) d) :
    TakenBack p { p with disk := d } made where
  others := rfl
  registration_eq _ := rfl
  writers := ⟨[], by simp, by simp⟩
  documents root' hroot' := by
    obtain rfl := Option.some.inj (hroot.symm.trans hroot')
    exact hgains
  paperless hnone := by
    rw [hroot] at hnone
    cases hnone

theorem TakenBack.of_registered {root : String} {made : String → Location → Prop} {d : Disk}
    (hroot : p.config.workspaceRoot = some root) (hp : p.scribe.InOrder p.ledger root)
    (hid : p.scribe.current.get? id = none) (hgains : p.disk.Gains (made root) d) (dir : String)
    (background : Bool) :
    TakenBack p
      { p with scribe := (p.scribe.register ⟨id, dir⟩ background).unregister id, disk := d } made where
  others := rfl
  registration_eq :=
    Scribe.registration?_register_unregister hid (fun _ _ hi => hp.placed hi) dir background
  writers := by
    refine ⟨[.ofWorkspace ⟨id, dir⟩ background], rfl, fun r hr => ?_⟩
    obtain rfl := List.mem_singleton.1 hr
    exact ⟨rfl, rfl⟩
  documents := (TakenBack.of_gains hroot hgains).documents
  paperless := (TakenBack.of_gains hroot hgains).paperless

/-- **What was done for a run is undone if the ledger does not take it.** -/
theorem enter_takenBack (hid : p.scribe.current.get? id = none)
    (hp : ∀ root, p.config.workspaceRoot = some root → p.scribe.InOrder p.ledger root)
    (h : (p.enter id item roles).2 = .error e) :
    TakenBack p (p.enter id item roles).1 fun root => Workspace.Leftover p.disk root id := by
  unfold enter openWorkspace at h ⊢
  cases hroot : p.config.workspaceRoot with
  | none =>
    simp only [hroot] at h ⊢
    cases hledger : p.ledger.create id item roles p.now with
    | ok u =>
      simp only [hledger] at h
      cases h
    | error err =>
      refine ⟨rfl, Scribe.registration?_unregister hid, ⟨[], (List.append_nil _).symm, by simp⟩,
        fun root hsome => ?_, fun _ => rfl⟩
      cases hroot.symm.trans hsome
  | some root =>
    simp only [hroot] at h ⊢
    cases hcreate : Workspace.create p.disk root id with
    | mk d r =>
      cases r with
      | error err =>
        cases err <;> exact TakenBack.of_gains hroot (Workspace.create_gains hcreate)
      | ok w =>
        have hremoved := Workspace.removeTree_created hcreate
        obtain ⟨rfl, -⟩ := Workspace.create_eq_ok hcreate
        simp only [hcreate] at h ⊢
        cases hledger : p.ledger.create id item roles p.now with
        | ok u =>
          simp only [hledger] at h
          cases h
        | error err =>
          rcases hremoved with ⟨d', hremove, hgains⟩ | ⟨⟨err, hremove⟩, hgains⟩
          · simp only [closeWorkspace, hremove]
            exact TakenBack.of_registered hroot (hp root hroot) hid hgains _ _
          · simp only [closeWorkspace, hremove]
            exact TakenBack.of_registered hroot (hp root hroot) hid hgains _ _

/-! ### Starts that are rejected -/

theorem roles_of_start (h : (p.start id item roles).2 = .ok id) : roles ≠ [] ∧ roles.Nodup := by
  rcases p.start_eq_launch id item roles with
    ⟨_, heq⟩ | ⟨_, _, _, _, _, -, ⟨_, heq⟩ | ⟨u, hu, -⟩⟩
  · rw [heq] at h
    cases h
  · rw [heq] at h
    cases h
  · obtain ⟨hroles, hnodup, -⟩ := Ledger.create_eq_ok.1 hu
    exact ⟨hroles, hnodup⟩

theorem eq_of_start {a : RunId} (h : (p.start id item roles).2 = .ok a) : a = id := by
  rcases p.start_eq_launch id item roles with ⟨_, heq⟩ | ⟨_, _, _, _, _, -, ⟨_, heq⟩ | ⟨_, -, heq⟩⟩
  all_goals
    rw [heq] at h
    cases h
  rfl

/-- Under a policy that rejects, a run is started only if nothing speaks against it. -/
theorem start_ok_of_reject (hp : Reachable p) (hreject : p.config.rerunPolicy = .reject)
    (h : (p.start id item roles).2 = .ok id) :
    p.canSpawn = true ∧ ¬ p.Registered id ∧
      (∀ root n, p.config.workspaceRoot = some root →
        p.disk.reach (p.disk.locate (Workspace.dirFor root id)) ≠ .ok n) ∧
      roles ≠ [] ∧ roles.Nodup := by
  refine ⟨?_, fun hreg => ?_, fun root n hroot hn => ?_, roles_of_start h⟩
  · rw [start_eq] at h
    split_ifs at h with hspawn
    exact hspawn
  · obtain ⟨x, hx⟩ := Option.ne_none_iff_exists'.1 hreg
    rw [start_eq, clearPrevious_eq, hx, hreject] at h
    split_ifs at h
  · rw [Workspace.locate_dirFor] at hn
    obtain ⟨harchive, -⟩ := (start_opening hroot id item roles).created (hp.inOrder hroot) h hn
    rw [hreject] at harchive
    cases harchive

/-- **A refused start leaves no trace** under a policy that rejects, if the calls of the system fail only
by reporting a directory that is there: the directory of the run can be made, and removed again.  It is
refused if supervisors cannot be started, if the identifier or the directory is taken, and if there are no
roles or one is listed twice. -/
theorem rejected_start_takenBack (hp : Reachable p) (hreject : p.config.rerunPolicy = .reject)
    (hio : ∀ root path err, p.config.workspaceRoot = some root →
      (Workspace.create p.disk root id).2 ≠ .error (.io path err))
    (hremovable : ∀ root, p.config.workspaceRoot = some root →
      p.disk.retention (p.disk.locate (Workspace.dirFor root id)) = none) (item : WorkItem)
    (roles : List Role) :
    (p.canSpawn = false ∨ p.Registered id ∨
        (∃ root n, p.config.workspaceRoot = some root ∧
          p.disk.reach (p.disk.locate (Workspace.dirFor root id)) = .ok n) ∨
        roles = [] ∨ ¬ roles.Nodup → ∃ e, (p.start id item roles).2 = .error e) ∧
      ∀ e, (p.start id item roles).2 = .error e →
        TakenBack p (p.start id item roles).1 fun root l => l <+: p.disk.locate root := by
  refine ⟨fun hreason => ?_, fun e he => ?_⟩
  · cases hstart : (p.start id item roles).2 with
    | error e => exact ⟨e, rfl⟩
    | ok a =>
      obtain rfl := eq_of_start hstart
      obtain ⟨hspawn, hfree, hdir, hroles, hnodup⟩ := start_ok_of_reject hp hreject hstart
      rcases hreason with h | h | ⟨root, n, hroot, hn⟩ | h | h
      · rw [hspawn] at h
        cases h
      · exact absurd h hfree
      · exact absurd hn (hdir root n hroot)
      · exact absurd h hroles
      · exact absurd hnodup h
  · rw [start_eq, clearPrevious_eq, hreject] at he ⊢
    split_ifs at he ⊢
    · cases hid : p.ledger.entries.get? id with
      | some x => exact .refl p _
      | none =>
        simp only [hid] at he ⊢
        have hfree : ¬ p.Registered id := fun hreg => hreg hid
        refine (enter_takenBack (hp.unregistered hfree) (fun _ => hp.inOrder) he).mono ?_
        rintro root l hroot (hl | ⟨⟨path, err, hfailed⟩, -⟩ | ⟨hretained, -⟩)
        · exact hl
        · exact absurd hfailed (hio root path err hroot)
        · rw [← Workspace.locate_dirFor] at hretained
          exact absurd (hremovable root hroot) hretained
    · exact .refl p _

/-- Documents are kept, and a taken identifier is rejected. -/
def rejectConfig : Config := { Config.default with workspaceRoot := some "runs" }

/-- Beside a run that is under way, another one is refused that lists a role twice. -/
theorem rejected_start_takenBack_twice : ∃ p,
    p = (fresh rejectConfig halfCrew).run [.start "a" (.ofReference "first") [.build]] ∧
    (p.start "b" (.ofReference "second") [.build, .build]).2 =
      .error (.ledger (.duplicateRole .build)) ∧
    TakenBack p (p.start "b" (.ofReference "second") [.build, .build]).1
      fun root l => l <+: p.disk.locate root := by
  obtain ⟨p, hp⟩ : ∃ p, p = (fresh rejectConfig halfCrew).run
    [.start "a" (.ofReference "first") [.build]] := ⟨_, rfl⟩
  have hvalid : rejectConfig.validate = .ok () := rfl
  have hreach : Reachable p := hp ▸ (Reachable.ofConfig (ofConfig_blank hvalid halfCrew)).run _
  have hconfig : p.config = rejectConfig := by
    rw [hp]
    rfl
  have hmade : (Workspace.create p.disk "runs" "b").2 = .ok ⟨"b", "runs/b"⟩ := by
    rw [hp]
    decide +kernel
  have hrefused : (p.start "b" (.ofReference "second") [.build, .build]).2 =
      .error (.ledger (.duplicateRole .build)) := by
    rw [hp]
    decide +kernel
  have hremovable : ∀ l, p.disk.retention l = none := by
    rw [hp]
    exact fun _ => rfl
  refine ⟨p, hp, hrefused, (rejected_start_takenBack hreach (by rw [hconfig]; rfl) ?_
    (fun _ _ => hremovable _) _ _).2 _ hrefused⟩
  intro root path err hroot hfailed
  rw [hconfig] at hroot
  obtain rfl := Option.some.inj hroot
  rw [hmade] at hfailed
  cases hfailed

end Panel

end ReviewPanel
