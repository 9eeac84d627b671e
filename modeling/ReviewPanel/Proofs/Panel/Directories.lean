import ReviewPanel.Proofs.Panel.Documents
import ReviewPanel.Proofs.Panel.Upkeep

/-!
# Whose directory it is

A run gets a directory when it is started and keeps it as long as it is on the ledger.  The ledger knows
a run by its identifier, the disk by the name of its directory, and several identifiers may come down to
one name.  What this means depends on the rerun policy.

* If a taken name is rejected, the directory that is there is in the way of the second run, so different
  runs have different directories and no start touches the directory of another run.
* If what is there is set aside, the ledger is asked whether the *identifier* is free, and the directory
  of another run of the same name, on the ledger and perhaps with roles that have not ended, is set aside.

An identifier whose directory has no underscore in its name shares it with no other, so under either
policy it is safe (`Panel.Secluded`).

## Main definitions

* `Panel.OwnsDirectory` : the directory of a run is there, no other run on the ledger has it, and starts
  leave it alone.
* `Panel.Displaced` : what happens to a run whose directory is set aside for another one.

## Main statements

* `Panel.Housed.step`, `Panel.Alone.step`, `Panel.Exclusive.step` : one step keeps directories in place
  and runs apart.
* `Panel.directory_owned` : **a run owns its directory unless another one of the same name was started
  under a policy that sets directories aside**, and then it loses it.
-/

namespace ReviewPanel.Panel

variable {p q : Panel} {root : String} {a b : RunId} {e : Event}

/-! ### Directories that stay -/

theorem Upkeep.writes (h : Upkeep p root e q) (hp : p.scribe.InOrder p.ledger root)
    (he : ∀ id item roles, e ≠ .start id item roles) :
    Disk.Writes (fun _ => True) p.disk q.disk ∨
      ∃ refusal retention, q.disk = { p.disk with refusal, retention } := by
  have hverdict : ∀ {id : RunId} {d : Disk}, VerdictOnDisk p id d →
      Disk.Writes (fun _ => True) p.disk d := by
    rintro id d (rfl | ⟨w, v, -, hd⟩)
    · exact .refl
    · exact (Workspace.writeDocument_writes hd).mono fun _ _ => trivial
  cases h with
  | nothing _ _ hd | forgotten _ _ hd | moved _ _ _ hd =>
    rw [hd]
    exact .inl .refl
  | delivered k =>
    rw [(inOrder_deliver hp k).2.1]
    exact .inl .refl
  | @published _ _ inc _ role fs _ _ hd =>
    rw [hd]
    rcases inc.slots.publish_disk p.disk role fs with hsame | ⟨-, w, -, hwrite⟩
    · rw [hsame]
      exact .inl .refl
    · exact .inl ((Workspace.writeDocument_writes hwrite).mono fun _ _ => trivial)
  | wrote _ _ hd => exact .inl (hverdict hd)
  | @judged id _ _ v d u hd hu hq' _ hq =>
    rw [(Prod.mk.inj hq).2, (inOrder_judged hp hu hq').2.2]
    refine .inl ((hverdict hd).trans ?_)
    exact Scribe.updateRun_writes fun _ r _ _ => (r.flush_writes d).mono fun _ _ => trivial
  | took => exact .inl .refl
  | persisted n =>
    exact .inl (Scribe.update_writes fun r _ => (r.writeCarried_writes _).mono fun _ _ => trivial)
  | refusing refusal retention => exact .inr ⟨refusal, retention, rfl⟩
  | opened => exact absurd rfl (he _ _ _)

theorem Upkeep.reach_directory (h : Upkeep p root e q) (hp : p.scribe.InOrder p.ledger root)
    (he : ∀ id item roles, e ≠ .start id item roles) {loc : Location}
    (hloc : p.disk.reach loc = .ok .directory) :
    q.disk.here = p.disk.here ∧ q.disk.reach loc = .ok .directory := by
  rcases h.writes hp he with hwrites | ⟨refusal, retention, hd⟩
  · exact ⟨hwrites.here_eq, hwrites.reach_directory hloc⟩
  · rw [hd]
    exact ⟨rfl, Disk.reach_congr hloc fun _ _ => rfl⟩

theorem RoomOnDisk.untouched {d : Disk} (h : RoomOnDisk p root b d) {x : String}
    (hx : x ≠ sanitize b) {n : Node} (hthere : p.disk.reach (p.disk.locate root ++ [x]) = .ok n) :
    Disk.Untouched (p.disk.locate root ++ [x]) p.disk d := by
  rcases h with ⟨-, rfl⟩ | ⟨-, path, harch⟩
  · exact .refl _ _
  · exact Workspace.archive_untouched harch hx hthere

theorem RoomOnDisk.create_untouched {d d' : Disk} (h : RoomOnDisk p root b d) {x : String}
    (hx : x ≠ sanitize b) {n : Node} (hthere : p.disk.reach (p.disk.locate root ++ [x]) = .ok n)
    {r : Except WorkspaceError Workspace} (hcreate : Workspace.create d root b = (d', r)) :
    Disk.Untouched (p.disk.locate root ++ [x]) p.disk d' := by
  have hroom := h.untouched hx hthere
  have hroot : d.reach (d.locate root) = .ok .directory := by
    rw [hroom.locate_eq]
    exact Disk.reach_of_concat (hroom.reach_eq.trans hthere)
  have hmade : Disk.Untouched (d.locate root ++ [x]) d (Workspace.create d root b).1 :=
    Workspace.create_untouched hroot hx
  rw [hroom.locate_eq, hcreate] at hmade
  exact hroom.trans hmade

/-- **A start leaves alone what else is in the root.** -/
theorem Opening.untouched {item : WorkItem} {roles : List Role} {y : Panel × Except PanelError RunId}
    (h : Opening p root b item roles y) (hp : p.scribe.InOrder p.ledger root) {x : String}
    (hx : x ≠ sanitize b) {n : Node} (hthere : p.disk.reach (p.disk.locate root ++ [x]) = .ok n) :
    Disk.Untouched (p.disk.locate root ++ [x]) p.disk y.1.disk := by
  cases h with
  | refused | stuck => exact .refl _ _
  | blocked _ hdisk hcreate => exact hdisk.create_untouched hx hthere hcreate
  | undone _ hdisk hcreate hremove =>
    have hmade := hdisk.create_untouched hx hthere hcreate
    rcases hremove with rfl | hremove
    · exact hmade
    · rw [Workspace.locate_dirFor, hmade.locate_eq] at hremove
      exact hmade.trans (Disk.removeTree_untouched hx hremove)
  | launched hroom hdisk hcreate hu nextStamp =>
    have hmade := hdisk.create_untouched hx hthere hcreate
    rw [(opened_hears hp hroom hu nextStamp rfl rfl).2.1.disk_eq]
    exact hmade

/-! ### Runs on the ledger -/

/-- A run is on the ledger. -/
def Registered (p : Panel) (id : RunId) : Prop := p.ledger.entries.get? id ≠ none

instance (p : Panel) (id : RunId) : Decidable (p.Registered id) :=
  inferInstanceAs (Decidable (_ ≠ none))

theorem Move.registered (h : Move p e q) (hb : q.Registered b) :
    p.Registered b ∨ ∃ item roles, e = .start b item roles := by
  have hchange := h.change b
  unfold Registered at hb ⊢
  revert hb hchange
  generalize p.ledger.entries.get? b = x
  generalize q.ledger.entries.get? b = x'
  intro hb hchange
  cases hchange with
  | same => exact .inl hb
  | reported | forced | judged => exact .inl (by simp)
  | removed => exact absurd rfl hb
  | restarted => exact .inr ⟨_, _, rfl⟩

/-- A start is refused at once, or the run is not on the ledger afterwards, or a directory was made for
it and it was launched. -/
theorem Opening.outcome {item : WorkItem} {roles : List Role} {y : Panel × Except PanelError RunId}
    (h : Opening p root b item roles y) (hp : p.scribe.InOrder p.ledger root) :
    (∃ e, y = (p, .error e)) ∨ (¬ y.1.Registered b ∧ ∃ e, y.2 = .error e) ∨
      ∃ d d', RoomOnDisk p root b d ∧
        Workspace.create d root b = (d', .ok ⟨b, Workspace.dirFor root b⟩) ∧ y.1.disk = d' := by
  cases h with
  | refused e => exact .inl ⟨e, rfl⟩
  | stuck hroom e => exact .inr (.inl ⟨fun hb => hb hroom.1, e, rfl⟩)
  | blocked hroom _ _ _ e => exact .inr (.inl ⟨fun hb => hb hroom.1, e, rfl⟩)
  | undone hroom _ _ _ _ e => exact .inr (.inl ⟨fun hb => hb hroom.1, e, rfl⟩)
  | launched hroom hdisk hcreate hu nextStamp =>
    exact .inr (.inr ⟨_, _, hdisk, hcreate,
      (opened_hears hp hroom hu nextStamp rfl rfl).2.1.disk_eq⟩)

/-- A start that was not refused although there was something in its place: that was set aside, and a
directory was made. -/
theorem Opening.created {item : WorkItem} {roles : List Role} {y : Panel × Except PanelError RunId}
    (h : Opening p root b item roles y) (hp : p.scribe.InOrder p.ledger root) (hok : y.2 = .ok b)
    {n : Node} (hthere : p.disk.reach (p.disk.locate root ++ [sanitize b]) = .ok n) :
    p.config.rerunPolicy = .archive ∧ ∃ d path,
      Workspace.archive p.disk root b (stamp p.nextStamp) = .ok (d, path) ∧
      Workspace.create d root b = (y.1.disk, .ok ⟨b, Workspace.dirFor root b⟩) := by
  rcases h.outcome hp with ⟨e, heq⟩ | ⟨-, e, heq⟩ | ⟨d, d', hdisk, hcreate, hd'⟩
  · rw [heq] at hok
    cases hok
  · rw [heq] at hok
    cases hok
  · rcases hdisk with ⟨-, rfl⟩ | ⟨harchive, path, harch⟩
    · rw [Workspace.create_of_reach hthere] at hcreate
      cases hcreate
    · exact ⟨harchive, d, path, harch, hd' ▸ hcreate⟩

theorem start_get?_of_ne (p : Panel) (hab : a ≠ b) (item : WorkItem) (roles : List Role) :
    (p.start b item roles).1.ledger.entries.get? a = p.ledger.entries.get? a := by
  have h := Move.start p b item roles
  generalize (p.start b item roles).1 = q at h ⊢
  cases h with
  | idle => rfl
  | aside he => cases he
  | refused hc => exact (hc.get?_of_ne hab).2
  | started hc hu => exact get?_started_of_ne hc hu hab

theorem RoomOnDisk.not_create {d d' : Disk} (h : RoomOnDisk p root b d)
    (hreject : p.config.rerunPolicy = .reject) {n : Node}
    (hthere : p.disk.reach (p.disk.locate root ++ [sanitize b]) = .ok n) {w : Workspace}
    (hcreate : Workspace.create d root b = (d', .ok w)) : False := by
  rcases h with ⟨-, rfl⟩ | ⟨harch, -⟩
  · rw [Workspace.create_of_reach hthere] at hcreate
    cases hcreate
  · rw [hreject] at harch
    cases harch

theorem Opening.disk_of_reject {item : WorkItem} {roles : List Role}
    {y : Panel × Except PanelError RunId} (h : Opening p root b item roles y)
    (hreject : p.config.rerunPolicy = .reject) {n : Node}
    (hthere : p.disk.reach (p.disk.locate root ++ [sanitize b]) = .ok n) : y.1.disk = p.disk := by
  cases h with
  | refused | stuck => rfl
  | blocked _ hdisk hcreate =>
    rcases hdisk with ⟨-, rfl⟩ | ⟨harch, -⟩
    · rw [Workspace.create_of_reach hthere] at hcreate
      exact (Prod.mk.inj hcreate).1.symm
    · rw [hreject] at harch
      cases harch
  | undone _ hdisk hcreate | launched _ hdisk hcreate =>
    exact (hdisk.not_create hreject hthere hcreate).elim

/-! ### What one step preserves -/

/-- If the run is on the ledger, its directory is there. -/
def Housed (p : Panel) (root : String) (a : RunId) : Prop :=
  p.Registered a → p.disk.reach (p.disk.locate root ++ [sanitize a]) = .ok .directory

/-- No other run on the ledger has a directory of the same name. -/
def Alone (p : Panel) (a : RunId) : Prop := ∀ b, p.Registered b → sanitize b = sanitize a → b = a

/-- Runs on the ledger have directories of different names. -/
def Exclusive (p : Panel) : Prop := ∀ a, p.Registered a → p.Alone a

theorem Housed.start_self (h : p.Housed root a) (hroot : p.config.workspaceRoot = some root)
    (hp : p.scribe.InOrder p.ledger root) (item : WorkItem) (roles : List Role) :
    (p.start a item roles).1.Housed root a := by
  intro hreg
  rcases (start_opening hroot a item roles).outcome hp with
    ⟨e, hsame⟩ | ⟨hnot, -⟩ | ⟨d, d', -, hcreate, hd'⟩
  · rw [hsame] at hreg ⊢
    exact h hreg
  · exact absurd hreg hnot
  · obtain ⟨-, hhere, hreach, -⟩ := Workspace.create_eq_ok hcreate
    rw [hd']
    simp only [Disk.locate, hhere] at hreach ⊢
    exact hreach

/-- The start of another run leaves the directory of a run where it is, unless it is set aside. -/
theorem Housed.start_other (h : p.Housed root a) (hroot : p.config.workspaceRoot = some root)
    (hp : p.scribe.InOrder p.ledger root) (hab : b ≠ a)
    (he : p.config.rerunPolicy = .reject ∨ sanitize b ≠ sanitize a) (item : WorkItem)
    (roles : List Role) : (p.start b item roles).1.Housed root a := by
  intro hreg
  -- the run was on the ledger before, so its directory was there
  have hthere := h (by rwa [Registered, p.start_get?_of_ne (Ne.symm hab)] at hreg)
  have hopen := start_opening hroot b item roles
  by_cases hname : sanitize a = sanitize b
  · have hreject := he.resolve_right fun hne => hne hname.symm
    rw [hopen.disk_of_reject hreject (hname ▸ hthere)]
    exact hthere
  · have huntouched := hopen.untouched hp hname hthere
    rw [huntouched.locate_eq, huntouched.reach_eq]
    exact hthere

/-- **The directory of a run stays where it is**, unless it is set aside for another run. -/
theorem Housed.step (h : p.Housed root a) (hroot : p.config.workspaceRoot = some root)
    (hp : p.scribe.InOrder p.ledger root) (he : p.config.rerunPolicy = .reject ∨ e.KeepsApart a) :
    (p.step e).Housed root a := by
  rcases e.start_or_other with ⟨b, item, roles, rfl⟩ | hnot
  · by_cases hab : b = a
    · subst hab
      exact h.start_self hroot hp item roles
    · exact h.start_other hroot hp hab (he.imp_right fun hkeep hname => hab (hkeep hname)) item roles
  · intro hreg
    have hbefore : p.Registered a := by
      rcases (p.step_move e).registered hreg with hbefore | ⟨item, roles, heq⟩
      · exact hbefore
      · exact absurd heq (hnot a item roles)
    obtain ⟨hhere, hreach⟩ := (step_upkeep hroot e).reach_directory hp hnot (h hbefore)
    simp only [Disk.locate, hhere] at hreach ⊢
    exact hreach

theorem Alone.step (h : p.Alone a) (he : e.KeepsApart a) : (p.step e).Alone a := by
  intro b hb hname
  rcases (p.step_move e).registered hb with hbefore | ⟨item, roles, rfl⟩
  · exact h b hbefore hname
  · exact he hname

theorem Exclusive.step (h : p.Exclusive) (hhoused : ∀ a, p.Housed root a)
    (hroot : p.config.workspaceRoot = some root) (hp : p.scribe.InOrder p.ledger root)
    (hreject : p.config.rerunPolicy = .reject) (e : Event) : (p.step e).Exclusive := by
  -- a run that gets on the ledger finds no directory of its name
  have hnew : ∀ {a b}, (p.step e).Registered a → (p.step e).Registered b → p.Registered b →
      ¬ p.Registered a → sanitize b = sanitize a → False := by
    intro a b ha hb hbefore hnot hname
    rcases (p.step_move e).registered ha with habs | ⟨item, roles, rfl⟩
    · exact hnot habs
    · have hthere := hname ▸ hhoused b hbefore
      rcases (start_opening hroot a item roles).outcome hp with
        ⟨_, hsame⟩ | ⟨hnot', -⟩ | ⟨d, d', hdisk, hcreate, -⟩
      · rw [Panel.step, hsame] at ha
        exact hnot ha
      · exact hnot' ha
      · exact hdisk.not_create hreject hthere hcreate
  intro a ha b hb hname
  by_cases hbefore : p.Registered a
  · by_cases hbefore' : p.Registered b
    · exact h a hbefore b hbefore' hname
    · exact (hnew hb ha hbefore hbefore' hname.symm).elim
  · by_cases hbefore' : p.Registered b
    · exact (hnew ha hb hbefore' hbefore hname).elim
    · rcases (p.step_move e).registered ha with habs | ⟨item, roles, heq⟩
      · exact absurd habs hbefore
      · rcases (p.step_move e).registered hb with habs | ⟨item', roles', heq'⟩
        · exact absurd habs hbefore'
        · rw [heq] at heq'
          cases heq'
          rfl

/-! ### Every schedule -/

theorem Housed.run (hreach : Reachable p) (hroot : p.config.workspaceRoot = some root)
    (es : List Event) (h : p.Housed root a)
    (hes : p.config.rerunPolicy = .reject ∨ ∀ e ∈ es, e.KeepsApart a) :
    (p.run es).Housed root a := by
  induction es generalizing p with
  | nil => exact h
  | cons e es ih =>
    have hconfig := (p.step_advances e).config_eq
    have he := hes.imp_right fun hes => hes e List.mem_cons_self
    refine ih (hreach.step e) (hconfig ▸ hroot) (h.step hroot (hreach.inOrder hroot) he) ?_
    rw [hconfig]
    exact hes.imp_right fun hes e' he' => hes e' (List.mem_cons_of_mem _ he')

theorem Alone.run (es : List Event) (h : p.Alone a) (hes : ∀ e ∈ es, e.KeepsApart a) :
    (p.run es).Alone a :=
  run_preserves (P := (·.Alone a)) (fun he hq => hq.step he) hes h

theorem Exclusive.run (hreach : Reachable p) (hroot : p.config.workspaceRoot = some root)
    (hreject : p.config.rerunPolicy = .reject) (es : List Event) (h : p.Exclusive)
    (hhoused : ∀ a, p.Housed root a) : (p.run es).Exclusive := by
  induction es generalizing p with
  | nil => exact h
  | cons e es ih =>
    have hconfig := (p.step_advances e).config_eq
    have hin := hreach.inOrder hroot
    exact ih (hreach.step e) (hconfig ▸ hroot) (hconfig ▸ hreject)
      (h.step hhoused hroot hin hreject e)
      fun a => (hhoused a).step hroot hin (.inl hreject)

/-! ### Whose directory it is -/

/-- No other run can get the directory: it would be rejected, or no other identifier comes down to the
name. -/
def Secluded (config : Config) (a : RunId) : Prop :=
  config.rerunPolicy = .reject ∨ '_' ∉ (sanitize a).toList

theorem keepsApart_of_notMem (h : '_' ∉ (sanitize a).toList) (e : Event) : e.KeepsApart a := by
  cases e with
  | start b => exact sanitize_injOn h
  | _ => trivial

/-- The directory of a run is there, no other run on the ledger has it, the start of another run leaves
it alone as long as it cannot get it, and so does another start of the run itself while some role has not
ended. -/
structure OwnsDirectory (q : Panel) (root : String) (a : RunId) : Prop where
  there : q.disk.reach (q.disk.locate (Workspace.dirFor root a)) = .ok .directory
  apart : ∀ b, b ≠ a → q.Registered b → Workspace.dirFor root b ≠ Workspace.dirFor root a
  untouched : ∀ b item roles, b ≠ a →
    Secluded q.config a ∨ Workspace.dirFor root b ≠ Workspace.dirFor root a →
    Disk.Untouched (q.disk.locate (Workspace.dirFor root a)) q.disk (q.start b item roles).1.disk
  outstanding : ∀ x, q.ledger.entries.get? a = some x → x.isComplete = false →
    ∀ item roles, ∃ e, q.start a item roles = (q, .error e)

/-- Between `q` and `q'` the directory of the run `a` was set aside for the run `b`: both are on the
ledger, what was in the directory stands under a name that was free, and in its place is an empty one. -/
structure Displaced (q q' : Panel) (root : String) (a b : RunId) : Prop where
  policy : q.config.rerunPolicy = .archive
  registered : q'.Registered a ∧ q'.Registered b
  free : q.disk.node? (q.disk.locate root ++ [Workspace.archiveName b (stamp q.nextStamp)]) = none
  aside : q'.disk.node? (q.disk.locate root ++ [Workspace.archiveName b (stamp q.nextStamp)]) =
    some .directory
  emptied : ∀ x, x ≠ Workspace.findingsName →
    q'.disk.node? (q.disk.locate (Workspace.dirFor root a) ++ [x]) = none

theorem start_of_outstanding {x : LedgerEntry} (hx : p.ledger.entries.get? a = some x)
    (hout : x.isComplete = false) (item : WorkItem) (roles : List Role) :
    ∃ e, p.start a item roles = (p, .error e) := by
  have hclear : p.clearPrevious a = (p, .error (.duplicateRun a)) := by
    unfold clearPrevious
    cases p.config.rerunPolicy with
    | reject => simp [hx]
    | archive => simp [Ledger.retire, hx, hout]
  unfold start
  split_ifs
  · exact ⟨_, rfl⟩
  · exact ⟨_, by rw [hclear]⟩

/-- The start of another run leaves alone a directory that it cannot get. -/
theorem Housed.untouched (h : p.Housed root a) (hreg : p.Registered a)
    (hroot : p.config.workspaceRoot = some root) (hp : p.scribe.InOrder p.ledger root) (hab : b ≠ a)
    (hsafe : Secluded p.config a ∨ sanitize b ≠ sanitize a) (item : WorkItem) (roles : List Role) :
    Disk.Untouched (p.disk.locate root ++ [sanitize a]) p.disk (p.start b item roles).1.disk := by
  have hopen := start_opening hroot b item roles
  by_cases hname : sanitize b = sanitize a
  · have hreject : p.config.rerunPolicy = .reject := by
      rcases hsafe with (hreject | hclean) | hne
      · exact hreject
      · exact absurd (sanitize_injOn hclean hname) hab
      · exact absurd hname hne
    rw [hopen.disk_of_reject hreject (hname.symm ▸ h hreg)]
  · exact hopen.untouched hp (Ne.symm hname) (h hreg)

theorem Housed.displaced (h : p.Housed root a) (hreg : p.Registered a)
    (hroot : p.config.workspaceRoot = some root) (hp : p.scribe.InOrder p.ledger root) (hab : b ≠ a)
    (hname : sanitize b = sanitize a) {item : WorkItem} {roles : List Role}
    (hok : (p.start b item roles).2 = .ok b) :
    Displaced p (p.start b item roles).1 root a b := by
  have hthere := h hreg
  rw [← hname] at hthere
  have hb : (p.start b item roles).1.Registered b := by
    obtain ⟨x, hx, -⟩ := (launched_of_start hok).running
    rw [Registered, hx]
    exact Option.some_ne_none x
  have ha : (p.start b item roles).1.Registered a := by
    rwa [Registered, p.start_get?_of_ne (Ne.symm hab)]
  obtain ⟨harchive, d, path, harch, hcreate⟩ :=
    (start_opening hroot b item roles).created hp hok hthere
  obtain ⟨-, -, hfree, haside, hempty⟩ := Workspace.create_of_archive hthere harch hcreate
  refine ⟨harchive, ⟨ha, hb⟩, hfree, ?_, fun x hx => ?_⟩
  · rw [haside]
    exact (Disk.reach_eq_ok.1 hthere).2.2
  · rw [Workspace.locate_dirFor, ← hname]
    exact hempty x hx

theorem not_registered_ofConfig {config : Config} {crew : Crew} {disk : Disk} {now : Timestamp}
    {canSpawn : Bool} {nextStamp : Nat}
    (h : Panel.ofConfig config crew disk now canSpawn nextStamp = .ok p) :
    p.config = config ∧ ∀ a, ¬ p.Registered a := by
  obtain rfl := eq_of_ofConfig h
  exact ⟨rfl, fun a ha => ha rfl⟩

/-- **Whose directory it is.**  A run on the ledger owns its directory if no other run can get it, or if
none of the same name was ever started.  If another run of the same name is started nevertheless, and is
not refused, then the policy is to set directories aside, and the run is displaced.  An identifier that is
not secluded always has such a rival. -/
theorem directory_owned {config : Config} {crew : Crew} {disk : Disk} {now : Timestamp}
    {canSpawn : Bool} {nextStamp : Nat}
    (h : Panel.ofConfig config crew disk now canSpawn nextStamp = .ok p)
    (hroot : config.workspaceRoot = some root) (es : List Event) (a : RunId)
    (hreg : (p.run es).Registered a)
    (hsafe : Secluded config a ∨ ∀ e ∈ es, e.KeepsApart a) :
    (p.run es).OwnsDirectory root a ∧
      (∀ b item roles, b ≠ a → Workspace.dirFor root b = Workspace.dirFor root a →
        ((p.run es).start b item roles).2 = .ok b →
        Displaced (p.run es) ((p.run es).start b item roles).1 root a b) ∧
      (¬ Secluded config a → ∃ b, b ≠ a ∧ Workspace.dirFor root b = Workspace.dirFor root a) := by
  obtain ⟨hconfig, hnone⟩ := not_registered_ofConfig h
  have hreach : Reachable p := .ofConfig h
  have hroot₀ : p.config.workspaceRoot = some root := hconfig ▸ hroot
  have hconfig' : (p.run es).config = config := (p.run_advances es).config_eq.trans hconfig
  have hroot' : (p.run es).config.workspaceRoot = some root := hconfig' ▸ hroot
  have hin := (hreach.run es).inOrder hroot'
  -- without underscores no event brings two runs together
  have hkeeps : config.rerunPolicy = .reject ∨ ∀ e ∈ es, e.KeepsApart a := by
    rcases hsafe with (hreject | hclean) | hkeeps
    · exact .inl hreject
    · exact .inr fun e _ => keepsApart_of_notMem hclean e
    · exact .inr hkeeps
  have hhoused : (p.run es).Housed root a :=
    Housed.run hreach hroot₀ es (fun ha => absurd ha (hnone a)) (hconfig ▸ hkeeps)
  have halone : (p.run es).Alone a := by
    rcases hkeeps with hreject | hkeeps
    · exact Exclusive.run hreach hroot₀ (hconfig ▸ hreject) es (fun b hb => absurd hb (hnone b))
        (fun b hb => absurd hb (hnone b)) a hreg
    · exact Alone.run es (fun b hb => absurd hb (hnone b)) hkeeps
  refine ⟨⟨?_, fun b hb hregb => ?_, fun b item roles hb hfree => ?_, fun x hx hout => ?_⟩,
    fun b item roles hb hdir hok => ?_, fun hnot => ?_⟩
  · rw [Workspace.locate_dirFor]
    exact hhoused hreg
  · rw [Ne, Workspace.dirFor_inj]
    exact fun hname => hb (halone b hregb hname)
  · rw [Ne, Workspace.dirFor_inj] at hfree
    rw [Workspace.locate_dirFor]
    exact hhoused.untouched hreg hroot' hin hb hfree item roles
  · exact fun item roles => start_of_outstanding hx hout item roles
  · exact hhoused.displaced hreg hroot' hin hb (Workspace.dirFor_inj.1 hdir) hok
  · obtain ⟨b, hb, hname⟩ := exists_ne_sanitize_eq
      (Classical.not_not.1 fun hclean => hnot (.inr hclean))
    exact ⟨b, hb, Workspace.dirFor_inj.2 hname⟩

/-- Documents are kept, and directories are set aside. -/
def archiveConfig : Config :=
  { Config.default with rerunPolicy := .archive, workspaceRoot := some "runs" }

/-- The run that is started as `a/b`. -/
def slashStart : List Event := [.start "a/b" (.ofReference "first") [.build]]

/-- The run `a/b` owns its directory, until the run `a_b` is started. -/
theorem directory_owned_slash : ∃ q, q = (fresh archiveConfig halfCrew).run slashStart ∧
    (∀ e ∈ slashStart, e.KeepsApart "a/b") ∧ q.Registered "a/b" ∧ q.OwnsDirectory "runs" "a/b" ∧
    (q.start "a_b" (.ofReference "second") [.build]).2 = .ok "a_b" ∧
    Displaced q (q.start "a_b" (.ofReference "second") [.build]).1 "runs" "a/b" "a_b" := by
  obtain ⟨q, hq⟩ : ∃ q, q = (fresh archiveConfig halfCrew).run slashStart := ⟨_, rfl⟩
  have hvalid : archiveConfig.validate = .ok () := rfl
  have hkeeps : ∀ e ∈ slashStart, e.KeepsApart "a/b" := List.forall_mem_singleton.2 fun _ => rfl
  have hreg : q.Registered "a/b" := by
    rw [hq]
    decide
  have hok : (q.start "a_b" (.ofReference "second") [.build]).2 = .ok "a_b" := by
    rw [hq]
    decide +kernel
  obtain ⟨howns, hdisplaced, -⟩ := directory_owned (ofConfig_blank hvalid halfCrew) rfl slashStart
    "a/b" (hq ▸ hreg) (.inr hkeeps)
  rw [← hq] at howns hdisplaced
  exact ⟨q, hq, hkeeps, hreg, howns, hok,
    hdisplaced "a_b" (.ofReference "second") [.build] (by decide) (by decide) hok⟩

end ReviewPanel.Panel
