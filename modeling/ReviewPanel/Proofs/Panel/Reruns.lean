import ReviewPanel.Proofs.Panel.Refusals

/-!
# What a refused start costs the previous run

Under a policy that sets directories aside, a start gives the previous run of its identifier up before
anything else is looked at: the run is removed from the ledger and the table, it is no longer registered,
and its directory gets another name.  Only then is the new directory made, and only then does the ledger
look at the roles.  A start that is refused after that point has cost the previous run its place, and puts
nothing in it (`Panel.Dropped`).  Two refusals come before it: that supervisors cannot be started, and that
the previous run has not ended.

The documents survive as a whole, where they were if the directory could not be renamed, and under the new
name if it could.  That they move together takes a disk that is a tree, which every step keeps.

## Main definitions

* `Panel.Retained` : nothing of a run is lost.
* `Panel.Dropped` : the run is gone, and where its documents are.

## Main statements

* `Panel.rooted_run` : the disk of a panel stays a tree.
* `Panel.dropped_of_finished` : **a refused start gives up a run that has ended.**
* `Panel.refused_rerun_retained_iff` : **a refused start retains the previous run exactly if it was refused
  before that run was given up.**
-/

namespace ReviewPanel

/-- What was found at a location of `d` is found at another one of `d'`, and nothing but perhaps an empty
directory is at the old one, or one with an empty directory in it if the system refuses to remove it. -/
structure Disk.SetAside (d d' : Disk) (old new : Location) : Prop where
  found : ∀ t n, d.reach (old ++ t) = .ok n → d'.reach (new ++ t) = .ok n
  emptied : ∀ l n, old <+: l → d'.node? l = some n → n = .directory ∧
    (l = old ∨ d.retention old ≠ none ∧ l = old ++ [Workspace.findingsName])

namespace Panel

variable {p q : Panel} {id : RunId} {item : WorkItem} {roles : List Role} {e : PanelError}
  {root : String} {x : LedgerEntry}

/-! ### The disk stays a tree -/

theorem RoomOnDisk.rooted {d : Disk} (h : RoomOnDisk p root id d) (hd : p.disk.Rooted) : d.Rooted := by
  rcases h with ⟨-, rfl⟩ | ⟨-, path, harch⟩
  · exact hd
  · exact Workspace.archive_rooted hd harch

theorem RoomOnDisk.create_rooted {d d' : Disk} (h : RoomOnDisk p root id d) (hd : p.disk.Rooted)
    {r : Except WorkspaceError Workspace} (hcreate : Workspace.create d root id = (d', r)) :
    d'.Rooted := by
  have hmade := Workspace.create_rooted (h.rooted hd) root id
  rwa [hcreate] at hmade

theorem Opening.rooted {y : Panel × Except PanelError RunId} (h : Opening p root id item roles y)
    (hp : p.scribe.InOrder p.ledger root) (hd : p.disk.Rooted) : y.1.disk.Rooted := by
  cases h with
  | refused | stuck => exact hd
  | blocked _ hdisk hcreate => exact hdisk.create_rooted hd hcreate
  | undone _ hdisk hcreate hremove =>
    have hmade := hdisk.create_rooted hd hcreate
    rcases hremove with rfl | hremove
    · exact hmade
    · rw [Workspace.locate_dirFor] at hremove
      rw [Disk.removeTree_eq_ok hremove]
      exact hmade.pruned _ _
  | launched hroom hdisk hcreate hu nextStamp =>
    rw [(opened_hears hp hroom hu nextStamp rfl rfl).2.1.disk_eq]
    exact hdisk.create_rooted hd hcreate

theorem step_rooted (hp : Reachable p) (hroot : p.config.workspaceRoot = some root)
    (hd : p.disk.Rooted) (ev : Event) : (p.step ev).disk.Rooted := by
  rcases ev.start_or_other with ⟨id, item, roles, rfl⟩ | hev
  · exact (start_opening hroot id item roles).rooted (hp.inOrder hroot) hd
  · rcases (step_upkeep hroot ev).writes (hp.inOrder hroot) hev with hwrites | ⟨refusal, retention, heq⟩
    · exact hd.writes hwrites
    · rw [heq]
      exact hd

/-- **The disk of a panel stays a tree.** -/
theorem rooted_run (hp : Reachable p) (hroot : p.config.workspaceRoot = some root)
    (hd : p.disk.Rooted) (es : List Event) : (p.run es).disk.Rooted := by
  induction es generalizing p with
  | nil => exact hd
  | cons ev es ih =>
    have hconfig := (p.step_advances ev).config_eq
    exact ih (hp.step ev) (hconfig ▸ hroot) (step_rooted hp hroot hd ev)

/-! ### A run that is given up -/

/-- Nothing of the run is lost between `p` and `q`. -/
structure Retained (p q : Panel) (id : RunId) : Prop where
  read_eq : q.ledger.read id = p.ledger.read id
  finalize_eq : (q.finalize id).2 = (p.finalize id).2
  forget_eq : (q.forget id).2 = (p.forget id).2
  registration_eq : q.scribe.registration? id = p.scribe.registration? id
  documents : ∀ root t n, p.config.workspaceRoot = some root →
    p.disk.reach (p.disk.locate (Workspace.dirFor root id) ++ t) = .ok n →
    q.disk.reach (p.disk.locate (Workspace.dirFor root id) ++ t) = .ok n

theorem Retained.refl (p : Panel) (id : RunId) : Retained p p id :=
  ⟨rfl, rfl, rfl, rfl, fun _ _ _ _ h => h⟩

/-- Where the documents of a run are that was given up: where they were if the directory could not be set
aside, else under the other name. -/
def DocumentsSaved (p : Panel) (d : Disk) (root : String) (id : RunId) : Prop :=
  (∃ err, Workspace.archive p.disk root id (stamp p.nextStamp) = .error err) ∧ d = p.disk ∨
    Disk.SetAside p.disk d (p.disk.locate (Workspace.dirFor root id))
      (p.disk.locate root ++ [Workspace.archiveName id (stamp p.nextStamp)])

/-- Between `p` and `q` the run was given up, and nothing was put in its place. -/
structure Dropped (p q : Panel) (id : RunId) : Prop where
  read_eq : q.ledger.read id = .error (.unknownRun id)
  finalize_eq : q.finalize id = (q, .error (.unknownRun id))
  forget_eq : q.forget id = (q, .error (.unknownRun id))
  registration_eq : q.scribe.registration? id = none
  others : q.supervisors = p.supervisors ∧ q.incarnations = p.incarnations ∧ q.waiters = p.waiters
  documents : ∀ root n, p.config.workspaceRoot = some root →
    p.disk.reach (p.disk.locate (Workspace.dirFor root id)) = .ok n → DocumentsSaved p q.disk root id

theorem Dropped.not_retained (h : Dropped p q id) (hx : p.ledger.entries.get? id = some x) :
    ¬ Retained p q id := by
  intro hkept
  have hread := hkept.read_eq
  rw [h.read_eq, Ledger.read_eq_ok.2 ⟨x, hx, rfl⟩] at hread
  cases hread

theorem get?_retired (hx : p.ledger.entries.get? id = some x) (hdone : x.isComplete = true) :
    (p.retired id).ledger.entries.get? id = none := by
  have hret := Ledger.retire_eq_ok.2 ⟨x, hx, hdone, rfl, rfl⟩
  simp only [retired, Ledger.apply, hret]
  exact Ledger.get?_of_retire hret

theorem TakenBack.dropped {p₁ : Panel} {made : String → Location → Prop} (h : TakenBack p₁ q made)
    {d : Disk} {nextStamp : Nat} (hp₁ : p₁ = { p.retired id with disk := d, nextStamp })
    (hx : p.ledger.entries.get? id = some x) (hdone : x.isComplete = true)
    (hdocuments : ∀ root n, p.config.workspaceRoot = some root →
      p.disk.reach (p.disk.locate (Workspace.dirFor root id)) = .ok n →
      DocumentsSaved p q.disk root id) : Dropped p q id := by
  subst hp₁
  have hledger : q.ledger = (p.retired id).ledger := by rw [h.others]
  have htable : q.table = p.table.erase id := by
    rw [h.others]
    rfl
  have hactive : q.active id = .error (.unknownRun id) := by
    simp only [active, htable, Dictionary.get?_erase, if_pos, Option.bind_none]
  refine ⟨?_, ?_, ?_, ?_, ?_, hdocuments⟩
  · simp only [Ledger.read, Ledger.entry, hledger, get?_retired hx hdone]
    rfl
  · simp only [finalize, hactive]
  · simp only [forget, hactive]
  · rw [h.registration_eq]
    simp only [retired, Scribe.registration?, Scribe.unregister, Dictionary.get?_erase, if_pos,
      Option.bind_none]
  · rw [h.others]
    exact ⟨rfl, rfl, rfl⟩

/-- The documents of a run moved with its directory, and a start that was refused afterwards left nothing
in its place but perhaps empty directories. -/
theorem setAside_of_archive {d d' : Disk} {path : Option String} {n : Node} (hrooted : p.disk.Rooted)
    (hthere : p.disk.reach (p.disk.locate (Workspace.dirFor root id)) = .ok n)
    (harch : Workspace.archive p.disk root id (stamp p.nextStamp) = .ok (d, path))
    (hgains : d.Gains (Workspace.Leftover d root id) d') :
    Disk.SetAside p.disk d' (p.disk.locate (Workspace.dirFor root id))
      (p.disk.locate root ++ [Workspace.archiveName id (stamp p.nextStamp)]) := by
  have hcontains : p.disk.contains (p.disk.locate (Workspace.dirFor root id)) = true := by
    rw [Disk.contains, hthere]
  obtain ⟨hnew, rfl⟩ := Workspace.archive_eq_moved hcontains harch
  rw [Workspace.locate_dirFor]
  refine ⟨fun t m hm => hgains.kept _ _ (hrooted.reach_moved hnew hm), fun l m hl hm => ?_⟩
  rcases hgains.gained l m hm with hnode | ⟨hdir, hroot | ⟨-, hplace⟩ | ⟨hretained, hplace⟩⟩
  · rw [Disk.node?_rename_old (Workspace.archiveName_ne id _).symm hl] at hnode
    cases hnode
  · exact absurd hl (Disk.not_isPrefix_base _ _ hroot)
  · exact ⟨hdir, .inl hplace⟩
  · exact ⟨hdir, hplace.imp_right fun hplace => ⟨hretained, hplace⟩⟩

/-- **A refused start gives up a run that has ended**, if supervisors can be started. -/
theorem dropped_of_finished (hp : Reachable p)
    (hrooted : ∀ root, p.config.workspaceRoot = some root → p.disk.Rooted)
    (harchive : p.config.rerunPolicy = .archive) (hspawn : p.canSpawn = true)
    (hx : p.ledger.entries.get? id = some x) (hdone : x.isComplete = true)
    (h : (p.start id item roles).2 = .error e) : Dropped p (p.start id item roles).1 id := by
  rw [start_eq, clearPrevious_eq, hx, harchive] at h ⊢
  simp only [hspawn, hdone, if_true] at h ⊢
  have hin : ∀ root, p.config.workspaceRoot = some root →
      (p.retired id).scribe.InOrder (p.retired id).ledger root := fun root hroot =>
    (hp.inOrder hroot).unregister fun _ hne => Ledger.read_retire_of_ne hne
  have hfree : (p.retired id).scribe.current.get? id = none := by
    simp only [retired, Scribe.unregister, Dictionary.get?_erase, if_pos]
  unfold makeRoom at h ⊢
  cases hroot : p.config.workspaceRoot with
  | none =>
    have hroot' : (p.retired id).config.workspaceRoot = none := hroot
    simp only [hroot'] at h ⊢
    refine (enter_takenBack hfree hin h).dropped rfl hx hdone fun root n hsome => ?_
    cases hroot.symm.trans hsome
  | some root =>
    have hroot' : (p.retired id).config.workspaceRoot = some root := hroot
    simp only [hroot'] at h ⊢
    cases harch : Workspace.archive p.disk root id (stamp p.nextStamp) with
    | error err =>
      have harch' : Workspace.archive (p.retired id).disk root id (stamp (p.retired id).nextStamp) =
          .error err := harch
      simp only [harch']
      refine (TakenBack.refl (p.retired id) fun _ _ => True).dropped rfl hx hdone
        fun root' n hsome _ => .inl ⟨⟨err, ?_⟩, rfl⟩
      obtain rfl := Option.some.inj (hroot.symm.trans hsome)
      exact harch
    | ok r =>
      have harch' : Workspace.archive (p.retired id).disk root id (stamp (p.retired id).nextStamp) =
          .ok (r.1, r.2) := harch
      simp only [harch'] at h ⊢
      have htaken := enter_takenBack
        (p := { p.retired id with disk := r.1, nextStamp := (p.retired id).nextStamp + 1 }) hfree hin h
      refine htaken.dropped rfl hx hdone fun root' n hsome hthere => .inr ?_
      obtain rfl := Option.some.inj (hroot.symm.trans hsome)
      exact setAside_of_archive (hrooted root hroot) hthere harch (htaken.documents root hroot)

/-- **A refused start retains the previous run exactly if it was refused before that run was given up**:
because supervisors cannot be started, or because the run has not ended.  In any other case the run is
gone. -/
theorem refused_rerun_retained_iff {config : Config} {crew : Crew} {disk : Disk} {now : Timestamp}
    {canSpawn : Bool} {nextStamp : Nat}
    (h : Panel.ofConfig config crew disk now canSpawn nextStamp = .ok p) (hdisk : disk.Rooted)
    (harchive : config.rerunPolicy = .archive) (es : List Event)
    (hx : (p.run es).ledger.entries.get? id = some x)
    (hrefused : ((p.run es).start id item roles).2 = .error e) :
    (Retained (p.run es) ((p.run es).start id item roles).1 id ↔
        (p.run es).canSpawn = false ∨ x.isComplete = false) ∧
      (¬ Retained (p.run es) ((p.run es).start id item roles).1 id →
        Dropped (p.run es) ((p.run es).start id item roles).1 id) := by
  have hp : Reachable p := .ofConfig h
  obtain ⟨hconfig, hdisk'⟩ : p.config = config ∧ p.disk = disk := by
    unfold Panel.ofConfig at h
    split at h
    · cases h
    · obtain rfl := Except.ok.inj h
      exact ⟨rfl, rfl⟩
  have hconfig' : (p.run es).config = p.config := (p.run_advances es).config_eq
  have hkept : (p.run es).canSpawn = false ∨ x.isComplete = false →
      Retained (p.run es) ((p.run es).start id item roles).1 id := by
    rintro (hspawn | hout)
    · rw [start_eq, hspawn]
      exact .refl _ id
    · obtain ⟨_, heq⟩ := start_of_outstanding hx hout item roles
      rw [heq]
      exact .refl _ id
  have hlost : ¬ ((p.run es).canSpawn = false ∨ x.isComplete = false) →
      Dropped (p.run es) ((p.run es).start id item roles).1 id := by
    intro hnot
    simp only [not_or, Bool.not_eq_false] at hnot
    refine dropped_of_finished (hp.run es) (fun root hroot => ?_) ?_ hnot.1 hx hnot.2 hrefused
    · rw [hconfig'] at hroot
      exact rooted_run hp hroot (hdisk' ▸ hdisk) es
    · rw [hconfig', hconfig, harchive]
  refine ⟨⟨fun hret => ?_, hkept⟩, fun hnot => hlost fun hearly => hnot (hkept hearly)⟩
  by_contra hnot
  exact (hlost hnot).not_retained hx hret

/-- The steps in which a run of one role is started and finishes, and its state is written. -/
def finishedSchedule : List Event :=
  [.start "r" (.ofReference "first") [.security], .comeBack 0, .observe 0, .decide 0, .settle 0,
    .take 0, .persist 0]

/-- A run that has ended, with documents on disk, is given up by a start without roles. -/
theorem refused_rerun_retained_iff_empty : ∃ p,
    p = (fresh archiveConfig halfCrew).run finishedSchedule ∧
    (∃ x, p.ledger.entries.get? "r" = some x ∧ x.isComplete = true) ∧
    p.disk.contains ["runs", "r", "status.json"] = true ∧
    (p.start "r" (.ofReference "second") []).2 = .error (.ledger .noRoles) ∧
    ¬ Retained p (p.start "r" (.ofReference "second") []).1 "r" ∧
    Dropped p (p.start "r" (.ofReference "second") []).1 "r" := by
  obtain ⟨p, hp⟩ : ∃ p, p = (fresh archiveConfig halfCrew).run finishedSchedule := ⟨_, rfl⟩
  have hvalid : archiveConfig.validate = .ok () := rfl
  have hfinished : (p.ledger.entries.get? "r").any LedgerEntry.isComplete = true := by
    rw [hp]
    decide +kernel
  have hrefused : (p.start "r" (.ofReference "second") []).2 = .error (.ledger .noRoles) := by
    rw [hp]
    decide +kernel
  have hspawn : p.canSpawn = true := by
    rw [hp]
    decide +kernel
  have hthere : p.disk.contains ["runs", "r", "status.json"] = true := by
    rw [hp]
    decide +kernel
  obtain ⟨x, hx, hdone⟩ := (Option.any_eq_true _ _).1 hfinished
  obtain ⟨hiff, hlost⟩ := refused_rerun_retained_iff (ofConfig_blank hvalid halfCrew)
    Disk.rooted_blank rfl finishedSchedule (hp ▸ hx) (hp ▸ hrefused)
  rw [← hp] at hiff hlost
  have hnot : ¬ Retained p (p.start "r" (.ofReference "second") []).1 "r" := by
    rw [hiff, hspawn, hdone]
    simp
  exact ⟨p, hp, ⟨x, hx, hdone⟩, hthere, hrefused, hnot, hlost hnot⟩

end Panel

end ReviewPanel
