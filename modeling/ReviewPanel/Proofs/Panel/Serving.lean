import ReviewPanel.Proofs.Panel.Directories
import ReviewPanel.Proofs.Scribe.AtRest

/-!
# A state document with a sole writer

The state document of a run has a sole writer if no registration but one has the directory of the run and
anything left to write.  Snapshots reach that one late and in any order, and it takes notice only of what is
newer than all it knows.  So the document is never given back to an older snapshot, as long as nothing that
is on its way is both news to the writer and of another run; that is the case if all of it was published by
this run, or is no newer than what the writer knows (`Panel.Serving`).

## Main definitions

* `Panel.Serving` : the invariant.
* `Panel.Renewal` : what one step does to it, and to the document.
* `Panel.Enrolled` : what a run that was launched leaves in the scribe.

## Main statements

* `Panel.Serving.deliver`, `Panel.Serving.post` : **snapshots may set out and arrive in any order.**
* `Panel.Serving.renewal` : **one step keeps the invariant, and may renew the document.**
-/

namespace ReviewPanel

theorem Ledger.read_of_retire {l : Ledger} {id b : RunId} {t : RunState}
    (h : (l.apply (.retire b)).read id = .ok t) : l.read id = .ok t := by
  by_cases hid : id = b
  · subst hid
    cases hret : l.retire id with
    | error e => rwa [show l.apply (.retire id) = l by simp only [Ledger.apply, hret]] at h
    | ok r =>
      obtain ⟨x, hx, -⟩ := Ledger.read_eq_ok.1 h
      rw [show l.apply (.retire id) = r.1 by simp only [Ledger.apply, hret],
        Ledger.get?_of_retire hret] at hx
      cases hx
  · rwa [Ledger.read_retire_of_ne hid] at h

namespace Panel

open Workspace (dirFor)
open Registration (Follows Idle)

variable {q q' : Panel} {root : String} {id b : RunId} {n : Nat} {xs : List RunState} {e : Event}

/-- What is in the state document of a run. -/
def document? (p : Panel) (root : String) (id : RunId) : Except OsError (List Symbol) :=
  Workspace.statusContent ⟨id, dirFor root id⟩ p.disk

/-- If the event is the start of a run with the directory, it leaves the disk as it is. -/
def SparesDirectory (p : Panel) (root : String) (id : RunId) : Event → Prop
  | .start b item roles => dirFor root b = dirFor root id → (p.start b item roles).1.disk = p.disk
  | _ => True

/-! ### The invariant -/

/-- The directory of the run is there, and its document has a sole writer, which follows some of the
snapshots `xs`.  What is on its way to that writer is one of them too, or is no news to it. -/
structure Serving (q : Panel) (root : String) (id : RunId) (n : Nat) (xs : List RunState) : Prop where
  serves : ∃ ds, q.scribe.Serves q.disk root id n ds ∧ ∀ s ∈ ds, s ∈ xs
  there : q.disk.reach (q.disk.locate root ++ [sanitize id]) = .ok .directory
  pending : ∀ s ∈ q.inFlight, s.runId = id → s ∈ xs ∨ q.scribe.Knows n s.revision
  /-- None of them is newer than the run as it is on the ledger. -/
  bounded : ∀ t, q.ledger.read id = .ok t → ∀ s ∈ xs, s.revision ≤ t.revision

/-- What a step does to a document with a sole writer: it may add to the snapshots that the writer
follows, and it may renew the document, if it is the turn of the writer or if the run is finalized. -/
structure Renewal (q q' : Panel) (root : String) (id : RunId) (n : Nat) (e : Event)
    (xs xs' : List RunState) : Prop where
  serving : q'.Serving root id n xs'
  mem : ∀ s ∈ xs', s ∈ xs ∨ q'.ledger.read id = .ok s
  renewed : q'.document? root id ≠ q.document? root id → (e = .persist n ∨ e = .finalize id) ∧
    ∃ x ∈ xs', Workspace.Renews ⟨id, dirFor root id⟩ q.disk q'.disk xs x

namespace Serving

/-- What neither tells the writer anything nor takes what it knows from it, and leaves the document
alone. -/
theorem frame (h : q.Serving root id n xs)
    (hserves : ∀ ds, q.scribe.Serves q.disk root id n ds → q'.scribe.Serves q'.disk root id n ds)
    (hthere : q'.disk.reach (q'.disk.locate root ++ [sanitize id]) = .ok .directory)
    (hflight : q'.inFlight = q.inFlight)
    (hknows : ∀ k, q.scribe.Knows n k → q'.scribe.Knows n k)
    (hread : ∀ t, q'.ledger.read id = .ok t → q.ledger.read id = .ok t) :
    q'.Serving root id n xs where
  serves := by
    obtain ⟨ds, hds, hmem⟩ := h.serves
    exact ⟨ds, hserves ds hds, hmem⟩
  there := hthere
  pending s hs hid := (h.pending s (hflight ▸ hs) hid).imp_right (hknows s.revision)
  bounded t ht := h.bounded t (hread t ht)

/-- **A snapshot arrives.**  If it is news to the writer, it is one of those that it may follow. -/
theorem deliver (h : q.Serving root id n xs) (hin : q.scribe.InOrder q.ledger root) (k : Nat) :
    (q.deliver k).Serving root id n xs := by
  cases hk : q.inFlight[k]? with
  | none =>
    rw [show q.deliver k = q by simp only [Panel.deliver, hk]]
    exact h
  | some s =>
    obtain ⟨ds, hds, hmem⟩ := h.serves
    obtain ⟨ds', hds', hnew⟩ := hds.receive hin s
    have hdisk := hin.receive_disk q.disk s
    rw [deliver_eq_of_getElem? hk, hdisk]
    refine ⟨⟨ds', hds', fun x hx => ?_⟩, h.there, fun t ht hid => ?_, h.bounded⟩
    · rcases hnew x hx with hold | ⟨rfl, hid, hnews⟩
      · exact hmem x hold
      · exact (h.pending _ (List.mem_of_getElem? hk) hid).resolve_right hnews
    · exact (h.pending t (List.mem_of_mem_eraseIdx ht) hid).imp_right fun hknows =>
        hknows.onward (q.scribe.onward_receive q.disk s)

theorem foldl_deliver (h : q.Serving root id n xs) (hin : q.scribe.InOrder q.ledger root)
    (ks : List Nat) : (ks.foldl Panel.deliver q).Serving root id n xs :=
  (inOrder_foldl_deliver (P := fun q => q.Serving root id n xs) (fun _ k hin h => h.deliver hin k) hin
    ks h).2

/-- **A snapshot of an accepted change sets out**, and is one that the writer may follow. -/
theorem post {α : Type} {u : Ledger.Update α} (h : q.Serving root id n xs)
    (ha : q.ledger.Advance b u.ledger u.published) (hold : ∃ t, q.ledger.read b = .ok t) :
    ∃ xs', (q.post u).Serving root id n xs' ∧ ∀ s ∈ xs', s ∈ xs ∨ u.ledger.read id = .ok s := by
  have hflight : ∀ s ∈ (q.post u).inFlight, s ∈ q.inFlight ∨ s = u.published := fun s hs => by
    simpa [Panel.post] using hs
  obtain ⟨ds, hds, hmem⟩ := h.serves
  by_cases hid : id = b
  · subst hid
    obtain ⟨t₀, ht₀⟩ := hold
    refine ⟨xs ++ [u.published], ⟨⟨ds, hds, fun s hs => List.mem_append_left _ (hmem s hs)⟩, h.there,
      fun s hs hrun => ?_, fun t ht s hs => ?_⟩, fun s hs => ?_⟩
    · rcases hflight s hs with hs | rfl
      · exact (h.pending s hs hrun).imp_left (List.mem_append_left _)
      · exact .inl (by simp)
    · obtain rfl := Except.ok.inj (ha.read_eq.symm.trans ht)
      rcases List.mem_append.1 hs with hs | hs
      · exact (h.bounded t₀ ht₀ s hs).trans (Nat.le_of_lt (ha.newer t₀ ht₀))
      · rw [List.mem_singleton.1 hs]
    · rcases List.mem_append.1 hs with hs | hs
      · exact .inl hs
      · exact .inr (List.mem_singleton.1 hs ▸ ha.read_eq)
  · refine ⟨xs, ⟨⟨ds, hds, hmem⟩, h.there, fun s hs hrun => ?_, fun t ht => ?_⟩, fun s hs => .inl hs⟩
    · rcases hflight s hs with hs | rfl
      · exact h.pending s hs hrun
      · exact absurd (hrun.symm.trans ha.runId_eq) hid
    · exact h.bounded t ((ha.read_of_ne id hid).symm.trans ht)

end Serving

/-! ### Steps of parties that keep documents -/

theorem VerdictOnDisk.statusContent_eq {d : Disk} (h : VerdictOnDisk q b d)
    (hin : q.scribe.InOrder q.ledger root) :
    Workspace.statusContent ⟨id, dirFor root id⟩ d = q.document? root id := by
  rcases h with rfl | ⟨w, v, hw, hwrite⟩
  · rfl
  · obtain ⟨r, hr, rfl⟩ := Option.map_eq_some_iff.1 hw
    obtain ⟨i, -, hi⟩ := Option.bind_eq_some_iff.1 hr
    refine Workspace.statusContent_of_writes (Workspace.writeDocument_writes hwrite) ?_
    rintro _ rfl
    rw [hin.dir_eq i r hi, Workspace.locate_dirFor]
    exact Workspace.not_isPrefix_statusPath q.disk (.inr (by decide))

theorem publish_statusContent {inc : Incarnation} (hwired : q.Wired) (hinc : inc ∈ q.incarnations)
    (hroot : q.config.workspaceRoot = some root) (role : Role) (fs : List Finding) :
    Workspace.statusContent ⟨id, dirFor root id⟩ (inc.slots.publish q.disk role fs).2.1 =
      q.document? root id := by
  rcases inc.slots.publish_disk q.disk role fs with hsame | ⟨-, w, hw, hwrite⟩
  · rw [hsame]
    rfl
  · rw [hwired.workspaces inc hinc, workspaceFor, hroot] at hw
    obtain rfl := Option.some.inj hw
    refine Workspace.statusContent_of_writes (Workspace.writeDocument_writes hwrite) ?_
    intro l hl hpre
    have hlen := hpre.length_le
    rw [hl, Workspace.locate_findingsDir, Workspace.locate_statusPath] at hlen
    simp only [List.length_append, List.length_singleton] at hlen
    omega

theorem VerdictOnDisk.reach_directory {d : Disk} (h : VerdictOnDisk q b d)
    (hthere : q.disk.reach (q.disk.locate root ++ [sanitize id]) = .ok .directory) :
    d.reach (d.locate root ++ [sanitize id]) = .ok .directory := by
  rcases h with rfl | ⟨w, v, -, hwrite⟩
  · exact hthere
  · have hwrites := Workspace.writeDocument_writes hwrite
    rw [Disk.locate_congr hwrites.here_eq]
    exact hwrites.reach_directory hthere

/-- **What the writer may follow when a verdict is flushed**: the snapshot that shows the verdict has
arrived by then, and with it whatever others have sent. -/
theorem Serving.judged (h : q.Serving root id n xs) (hin : q.scribe.InOrder q.ledger root)
    {v : VerdictRef} {d : Disk} {u : Ledger.Update RunState} (hd : VerdictOnDisk q b d)
    (hu : q.ledger.attach b v = .ok u)
    (hq' : q' = q.arrivals.foldl Panel.deliver (({ q with disk := d }).accept u)) :
    ∃ xs', q'.Serving root id n xs' ∧ ∀ s ∈ xs', s ∈ xs ∨ u.ledger.read id = .ok s := by
  have ha := Ledger.attach_advance hu
  obtain ⟨x, hx, -⟩ := Ledger.attach_eq_ok.1 hu
  have hwritten : ({ q with disk := d } : Panel).Serving root id n xs :=
    h.frame (fun ds hds => hds.congr (hd.statusContent_eq hin)) (hd.reach_directory h.there) rfl
      (fun _ hk => hk) fun _ ht => ht
  obtain ⟨xs', hposted, hmem⟩ := hwritten.post ha ⟨_, Ledger.read_eq_ok.2 ⟨x, hx, rfl⟩⟩
  refine ⟨xs', ?_, hmem⟩
  rw [hq']
  exact (hposted.deliver (hin.advance ha) _).foldl_deliver
    (inOrder_accept (p := { q with disk := d }) hin ha).1 _

theorem knows_judged (hin : q.scribe.InOrder q.ledger root) {v : VerdictRef} {d : Disk}
    {u : Ledger.Update RunState} (hu : q.ledger.attach b v = .ok u)
    (hq' : q' = q.arrivals.foldl Panel.deliver (({ q with disk := d }).accept u))
    (hn : q.scribe.current.get? b = some n) : q'.scribe.Knows n u.published.revision := by
  have ha := Ledger.attach_advance hu
  have haccepted : (({ q with disk := d } : Panel).accept u).scribe.Knows n u.published.revision := by
    rw [accept_eq]
    exact hin.knows_receive (ha.runId_eq ▸ hn) d
  rw [hq']
  exact (inOrder_foldl_deliver (P := fun q => q.scribe.Knows n u.published.revision)
    (fun _ k hin hk => hk.onward (inOrder_deliver hin k).2.2)
    (inOrder_accept (p := { q with disk := d }) hin ha).1 _ haccepted).2

/-! ### Starts -/

section Start

variable {ds : List RunState} {item : WorkItem} {roles : List Role}
  {y : Panel × Except PanelError RunId}

theorem Room.serves {ledger : Ledger} {table : Dictionary Nat} {scribe : Scribe}
    (h : Room q b ledger table scribe) {d : Disk} (hs : q.scribe.Serves d root id n ds) :
    scribe.Serves d root id n ds := by
  rcases h.2 with ⟨-, -, rfl⟩ | ⟨-, -, rfl⟩
  · exact hs
  · exact hs.unregister b

theorem Room.read {ledger : Ledger} {table : Dictionary Nat} {scribe : Scribe}
    (h : Room q b ledger table scribe) {t : RunState} (ht : ledger.read id = .ok t) :
    q.ledger.read id = .ok t := by
  rcases h.2 with ⟨rfl, -, -⟩ | ⟨rfl, -, -⟩
  · exact ht
  · exact Ledger.read_of_retire ht

/-- What a run that was launched leaves in the scribe: it has a new registration, which has written
nothing yet, and all else is as it was. -/
structure Enrolled (p q : Panel) (root : String) (b : RunId) : Prop where
  own : ∃ r, q.scribe.registrations[p.scribe.registrations.length]? = some r ∧
    r.workspace = ⟨b, dirFor root b⟩ ∧ r.carried = none ∧ r.written = none
  others : ∀ j, j ≠ p.scribe.registrations.length →
    q.scribe.registrations[j]? = p.scribe.registrations[j]?
  current : ∀ b', q.scribe.current.get? b' =
    if b' = b then some p.scribe.registrations.length else p.scribe.current.get? b'
  /-- The new registration has heard all that the start itself has to say. -/
  abreast : q.scribe.Abreast q.ledger b p.scribe.registrations.length

theorem Opening.enrolled (hopen : Opening q root b item roles y)
    (hin : q.scribe.InOrder q.ledger root) (hok : y.2 = .ok b) : Enrolled q y.1 root b := by
  cases hopen with
  | refused | stuck | blocked | undone => cases hok
  | @launched ledger table scribe _ d' _ hroom hdisk hcreate hu nextStamp =>
    obtain ⟨-, hears, habreast⟩ := opened_hears (d := d') hin hroom hu nextStamp rfl rfl
    have hregs := scribe.getElem?_register ⟨b, dirFor root b⟩ true
    rw [hroom.registrations_eq] at hregs
    refine ⟨?_, fun j hj => ?_, fun b' => ?_, habreast⟩
    · exact hears.own _ ((hregs _).trans (if_pos rfl))
    · exact (hears.others j hj).trans ((hregs j).trans (if_neg hj))
    · rw [hears.current_eq]
      simp only [Scribe.register, Dictionary.get?_insert, hroom.registrations_eq]
      split_ifs with hb
      · rfl
      · exact hroom.current_of_ne hb

/-- A run of the same name that is launched sets the directory aside, which changes the disk. -/
theorem RoomOnDisk.ne_of_create {d d' : Disk} (h : RoomOnDisk q root b d) {k : Node}
    (hthere : q.disk.reach (q.disk.locate root ++ [sanitize b]) = .ok k) {w : Workspace}
    (hcreate : Workspace.create d root b = (d', .ok w)) : d' ≠ q.disk := by
  rintro rfl
  rcases h with ⟨-, rfl⟩ | ⟨-, path, harch⟩
  · rw [Workspace.create_of_reach hthere] at hcreate
    cases hcreate
  · obtain ⟨-, -, hfree, haside, -⟩ := Workspace.create_of_archive hthere harch hcreate
    rw [haside, (Disk.reach_eq_ok.1 hthere).2.2] at hfree
    cases hfree

theorem Opening.dir_ne (hopen : Opening q root b item roles y)
    (hin : q.scribe.InOrder q.ledger root) (hok : y.2 = .ok b)
    (hthere : q.disk.reach (q.disk.locate root ++ [sanitize id]) = .ok .directory)
    (hspares : dirFor root b = dirFor root id → y.1.disk = q.disk) :
    dirFor root b ≠ dirFor root id := by
  intro hdir
  rw [← Workspace.dirFor_inj.1 hdir] at hthere
  rcases hopen.outcome hin with ⟨e, heq⟩ | ⟨-, e, heq⟩ | ⟨d, d', hdisk, hcreate, hd'⟩
  · rw [heq] at hok
    cases hok
  · rw [heq] at hok
    cases hok
  · exact hdisk.ne_of_create hthere hcreate (hd'.symm.trans (hspares hdir))

/-- **A start that does not lay hands on the directory** leaves the documents in it as they are. -/
theorem Opening.leaves (hopen : Opening q root b item roles y)
    (hin : q.scribe.InOrder q.ledger root)
    (hthere : q.disk.reach (q.disk.locate root ++ [sanitize id]) = .ok .directory)
    (hspares : dirFor root b = dirFor root id → y.1.disk = q.disk) :
    Disk.Leaves (q.disk.locate root ++ [sanitize id]) q.disk y.1.disk := by
  by_cases hdir : dirFor root b = dirFor root id
  · rw [hspares hdir]
  · rw [Workspace.dirFor_inj] at hdir
    exact .of_untouched (hopen.untouched hin (Ne.symm hdir) hthere)

theorem Enrolled.serves (h : Enrolled q q' root b) (hdir : dirFor root b ≠ dirFor root id)
    {d : Disk} (hs : q.scribe.Serves d root id n ds) : q'.scribe.Serves d root id n ds := by
  obtain ⟨⟨r', hr', hw, -⟩, hothers, hcurrent⟩ := h
  obtain ⟨⟨r, hr, hfollows⟩, hsole⟩ := hs
  have hlt := (List.getElem?_eq_some_iff.1 hr).1
  refine ⟨⟨r, (hothers n (Nat.ne_of_lt hlt)).trans hr, hfollows⟩, hsole.grow hothers ?_ ?_⟩
  · intro r'' hr''
    rw [← Option.some.inj (hr'.symm.trans hr''), hw]
    exact .inl hdir
  · intro b' i hi
    rw [hcurrent] at hi
    split_ifs at hi with hb
    · exact .inr ⟨(Option.some.inj hi).symm, fun heq => hdir (by rw [← hb, heq])⟩
    · exact .inl hi

theorem Opening.serves (hopen : Opening q root b item roles y)
    (hin : q.scribe.InOrder q.ledger root) (h : q.scribe.Serves q.disk root id n ds)
    (hthere : q.disk.reach (q.disk.locate root ++ [sanitize id]) = .ok .directory)
    (hspares : dirFor root b = dirFor root id → y.1.disk = q.disk)
    (hdoc : y.1.document? root id = q.document? root id) :
    y.1.scribe.Serves y.1.disk root id n ds := by
  have hserves := h.congr hdoc
  cases hopen with
  | refused => exact hserves
  | stuck hroom | blocked hroom => exact hroom.serves hserves
  | undone hroom => exact (hroom.serves hserves).register_unregister (hroom.inOrder hin) _
  | launched hroom hdisk hcreate hu nextStamp =>
    have hopen := Opening.launched hroom hdisk hcreate hu nextStamp
    exact (hopen.enrolled hin rfl).serves (hopen.dir_ne hin rfl hthere hspares) hserves

/-- A start leaves the registrations that there are, apart from what it tells that of its own run. -/
theorem Opening.registrations_eq (hopen : Opening q root b item roles y)
    (hin : q.scribe.InOrder q.ledger root) (hn : n < q.scribe.registrations.length) :
    y.1.scribe.registrations[n]? = q.scribe.registrations[n]? := by
  cases hopen with
  | refused => rfl
  | stuck hroom | blocked hroom => rw [hroom.registrations_eq]
  | @undone _ _ scribe _ _ _ hroom =>
    have hreg := scribe.getElem?_register ⟨b, dirFor root b⟩ true n
    rw [hroom.registrations_eq, if_neg (Nat.ne_of_lt hn)] at hreg
    exact hreg
  | launched hroom hdisk hcreate hu nextStamp =>
    have hopen := Opening.launched hroom hdisk hcreate hu nextStamp
    exact (hopen.enrolled hin rfl).others n (Nat.ne_of_lt hn)

theorem start_inFlight (q : Panel) (b : RunId) (item : WorkItem) (roles : List Role) :
    (q.start b item roles).1.inFlight = q.inFlight := by
  rcases q.start_cases b item roles with
    ⟨_, h⟩ | ⟨_, _, _, _, _, -, ⟨_, h⟩ | ⟨_, _, _, -, -, -, h⟩⟩ <;> rw [h]

theorem read_of_start (hopen : Opening q root b item roles (q.start b item roles))
    (hdir : (q.start b item roles).2 = .ok b → b ≠ id) {t : RunState}
    (ht : (q.start b item roles).1.ledger.read id = .ok t) : q.ledger.read id = .ok t := by
  by_cases hb : id = b
  · subst hb
    generalize q.start id item roles = y at hopen hdir ht
    cases hopen with
    | refused => exact ht
    | stuck hroom | blocked hroom | undone hroom => exact hroom.read ht
    | launched => exact absurd rfl (hdir rfl)
  · rwa [Ledger.read_congr (start_get?_of_ne q hb item roles)] at ht

end Start

/-! ### Every step -/

/-- A verdict is written down, attached and flushed. -/
theorem Serving.renewal_of_judged (h : q.Serving root id n xs) (hin : q.scribe.InOrder q.ledger root)
    (hthere : q'.disk.reach (q'.disk.locate root ++ [sanitize id]) = .ok .directory) {v : Verdict}
    {d : Disk} {u : Ledger.Update RunState} {q₂ : Panel} (hd : VerdictOnDisk q b d)
    (hu : q.ledger.attach b v.toRef = .ok u)
    (hq₂ : q₂ = q.arrivals.foldl Panel.deliver (({ q with disk := d }).accept u))
    (hl : q'.ledger = q₂.ledger) (hq : (q'.scribe, q'.disk) = q₂.scribe.flush q₂.disk b)
    (hf : q'.inFlight = q₂.inFlight) : ∃ xs', Renewal q q' root id n (.finalize b) xs xs' := by
  obtain ⟨xs', hserving, hmem⟩ := h.judged hin hd hu hq₂
  obtain ⟨hin₂, hl₂, hd₂⟩ := inOrder_judged hin hu hq₂
  obtain ⟨ds, hds, hmem₂⟩ := hserving.serves
  obtain ⟨hflushed, hrenews⟩ := hds.flush hin₂ b
  rw [← hq] at hflushed hrenews
  rw [← hl₂, ← hl] at hmem
  have hcontent : Workspace.statusContent ⟨id, dirFor root id⟩ q₂.disk = q.document? root id := by
    rw [hd₂]
    exact hd.statusContent_eq hin
  have hserving' : q'.Serving root id n xs' := {
    serves := ⟨ds, hflushed, hmem₂⟩
    there := hthere
    pending := fun s hs hid => (hserving.pending s (hf ▸ hs) hid).imp_right fun hk => by
      rw [show q'.scribe = (q₂.scribe.flush q₂.disk b).1 from congrArg Prod.fst hq]
      exact hk.onward (q₂.scribe.onward_flush _ _)
    bounded := fun t ht => hserving.bounded t (hl ▸ ht) }
  refine ⟨xs', hserving', hmem, fun hne => ?_⟩
  obtain ⟨rfl, x, hx, hnew, hold⟩ := hrenews (by rw [hcontent]; exact hne)
  rw [hcontent] at hold
  refine ⟨.inr rfl, x, hmem₂ x hx, hnew, hold.imp_right ?_⟩
  -- the snapshot that the document showed is older than another one, so it was there before
  rintro ⟨s, hs, hdoc, hlt⟩
  refine ⟨s, (hmem s (hmem₂ s hs)).resolve_right fun hread => ?_, hdoc, hlt⟩
  exact absurd (hserving'.bounded s hread x (hmem₂ x hx)) (Nat.not_le.2 hlt)

theorem Serving.renewal_of_ne_start (h : q.Serving root id n xs) (hin : q.scribe.InOrder q.ledger root)
    (hwired : q.Wired) (hroot : q.config.workspaceRoot = some root)
    (he : ∀ b item roles, e ≠ .start b item roles) :
    ∃ xs', Renewal q (q.step e) root id n e xs xs' := by
  have hup := step_upkeep hroot e
  obtain ⟨hhere, hreach⟩ := hup.reach_directory hin he h.there
  generalize q.step e = q' at hup hhere hreach ⊢
  have hthere : q'.disk.reach (q'.disk.locate root ++ [sanitize id]) = .ok .directory := by
    simp only [Disk.locate, hhere] at hreach ⊢
    exact hreach
  -- what leaves the document as it is, and does not concern its writer
  have hquiet : q'.document? root id = q.document? root id → q'.inFlight = q.inFlight →
      (∀ ds, q.scribe.Serves q.disk root id n ds → q'.scribe.Serves q.disk root id n ds) →
      (∀ k, q.scribe.Knows n k → q'.scribe.Knows n k) →
      (∀ t, q'.ledger.read id = .ok t → q.ledger.read id = .ok t) →
      ∃ xs', Renewal q q' root id n e xs xs' := fun hdoc hflight hserves hknows hread =>
    ⟨xs, h.frame (fun ds hds => (hserves ds hds).congr hdoc) hthere hflight hknows hread,
      fun s hs => .inl hs, fun hne => absurd hdoc hne⟩
  cases hup with
  | nothing hl hs hd hf =>
    exact hquiet (by rw [document?, hd]; rfl) hf (fun _ hds => hs ▸ hds) (fun _ hk => hs ▸ hk)
      fun _ ht => hl ▸ ht
  | @moved _ _ _ _ _ _ u hu hl hs hd hf =>
    obtain ⟨x, -, hx, -⟩ := Ledger.transition_eq_ok.1 hu
    obtain ⟨xs', hposted, hmem⟩ :=
      h.post (Ledger.transition_advance hu) ⟨_, Ledger.read_eq_ok.2 ⟨x, hx, rfl⟩⟩
    have hdoc : q'.document? root id = q.document? root id := by rw [document?, hd]; rfl
    refine ⟨xs', hposted.frame (fun ds hds => ?_) hthere hf (fun _ hk => hs ▸ hk) (fun t ht => ?_),
      fun s hs => hl ▸ hmem s hs, fun hne => absurd hdoc hne⟩
    · rw [hs, hd]
      exact hds
    · rwa [hl] at ht
  | delivered k =>
    have hdisk := (inOrder_deliver hin k).2.1
    have hdoc : (q.deliver k).document? root id = q.document? root id := by rw [document?, hdisk]; rfl
    exact ⟨xs, h.deliver hin k, fun s hs => .inl hs, fun hne => absurd hdoc hne⟩
  | published hinc role fs hl hs hd hf =>
    refine hquiet ?_ hf (fun _ hds => hs ▸ hds) (fun _ hk => hs ▸ hk) fun _ ht => hl ▸ ht
    rw [document?, hd]
    exact publish_statusContent hwired hinc hroot role fs
  | wrote hl hs hd hf =>
    exact hquiet (hd.statusContent_eq hin) hf (fun _ hds => hs ▸ hds) (fun _ hk => hs ▸ hk)
      fun _ ht => hl ▸ ht
  | judged hd hu hq₂ hl hq hf => exact h.renewal_of_judged hin hthere hd hu hq₂ hl hq hf
  | forgotten hl hs hd hf =>
    refine hquiet (by rw [document?, hd]; rfl) hf (fun _ hds => hs ▸ hds.unregister _)
      (fun _ hk => ?_) fun _ ht => Ledger.read_of_retire (hl ▸ ht)
    rw [hs]
    exact hk
  | took m =>
    exact hquiet rfl rfl (fun _ hds => hds.take m) (fun _ hk => hk.onward (q.scribe.onward_take m))
      fun _ ht => ht
  | persisted m =>
    obtain ⟨ds, hds, hmem⟩ := h.serves
    obtain ⟨-, hrenews⟩ := hds.persist hin m
    refine ⟨xs, ?_, fun s hs => .inl hs, fun hne => ?_⟩
    · exact h.frame (fun ds hds => (hds.persist hin m).1) hthere rfl
        (fun _ hk => hk.onward (q.scribe.onward_persist q.disk m)) fun _ ht => ht
    · obtain ⟨rfl, x, hx, hnew, hold⟩ := hrenews hne
      refine ⟨.inl rfl, x, hmem x hx, hnew, hold.imp_right ?_⟩
      rintro ⟨s, hs, hdoc, hlt⟩
      exact ⟨s, hmem s hs, hdoc, hlt⟩
  | refusing refusal retention =>
    exact hquiet (Workspace.statusContent_refusing _ _ _ _) rfl (fun _ hds => hds) (fun _ hk => hk)
      fun _ ht => ht
  | opened => exact absurd rfl (he _ _ _)

theorem Serving.renewal_of_start (h : q.Serving root id n xs) (hin : q.scribe.InOrder q.ledger root)
    (hroot : q.config.workspaceRoot = some root) {item : WorkItem} {roles : List Role}
    (hspares : q.SparesDirectory root id (.start b item roles)) :
    Renewal q (q.start b item roles).1 root id n (.start b item roles) xs xs := by
  have hopen := start_opening hroot b item roles
  have hleaves := hopen.leaves hin h.there hspares
  have hdoc : (q.start b item roles).1.document? root id = q.document? root id := by
    refine Workspace.statusContent_of_reach hleaves.here_eq ?_
    rw [Workspace.locate_statusPath]
    exact hleaves.reach_eq [_] (Nat.le_refl 1)
  refine ⟨?_, fun s hs => .inl hs, fun hne => absurd hdoc hne⟩
  refine h.frame (fun ds hds => hopen.serves hin hds h.there hspares hdoc)
    (hleaves.reach_directory h.there) (q.start_inFlight b item roles) ?_ fun t ht => ?_
  · rintro k ⟨r, l, hr, hl, hle⟩
    have hlt := (List.getElem?_eq_some_iff.1 hr).1
    exact ⟨r, l, (hopen.registrations_eq hin hlt).trans hr, hl, hle⟩
  · refine read_of_start hopen (fun hok => ?_) ht
    rintro rfl
    exact hopen.dir_ne hin hok h.there hspares rfl

/-- **One step**, as long as the directory lasts, keeps the sole writer, and may renew the document. -/
theorem Serving.renewal (h : q.Serving root id n xs) (hin : q.scribe.InOrder q.ledger root)
    (hwired : q.Wired) (hroot : q.config.workspaceRoot = some root)
    (hspares : q.SparesDirectory root id e) : ∃ xs', Renewal q (q.step e) root id n e xs xs' := by
  rcases e.start_or_other with ⟨b, item, roles, rfl⟩ | he
  · exact ⟨xs, h.renewal_of_start hin hroot hspares⟩
  · exact h.renewal_of_ne_start hin hwired hroot he

end Panel

end ReviewPanel
