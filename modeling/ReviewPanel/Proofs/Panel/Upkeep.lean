import ReviewPanel.Proofs.Panel.Agreement
import ReviewPanel.Proofs.Scribe.InOrder
import ReviewPanel.Proofs.Workspace.Directories

/-!
# What a step does to the papers of a panel

The papers of a panel are its ledger, its scribe and its disk.  `Panel.Move` says what a step does to the
parties and leaves the papers open; here it is the other way round.  A step makes an accepted change, whose
snapshot sets out, tells the scribe about one that is on its way, writes one kind of document, or is one of
the calls of a client, of which a start does most: it may set a directory aside, makes one, takes the run on
and launches it (`Panel.Opening`).

## Main definitions

* `Panel.Opening` : how a start can end, and what it has done by then.
* `Panel.Upkeep` : what a step does to the papers.

## Main statements

* `Panel.start_opening`, `Panel.step_upkeep` : **there are no other cases.**
* `Panel.launch_hears` : launching a run concerns no registration but its own, and no document.
* `Panel.Reachable.inOrder` : the books of the scribe are in order at all times.
-/

namespace ReviewPanel.Panel

/-! ### Starting a run -/

/-- Ledger, table and scribe after the rerun policy has made room for a run. -/
def Room (p : Panel) (id : RunId) (ledger : Ledger) (table : Dictionary Nat) (scribe : Scribe) :
    Prop :=
  ledger.entries.get? id = none ∧
    (ledger = p.ledger ∧ table = p.table ∧ scribe = p.scribe ∨
      ledger = p.ledger.apply (.retire id) ∧ table = p.table.erase id ∧
        scribe = p.scribe.unregister id)

/-- The disk after the rerun policy has made room for the directory of a run. -/
def RoomOnDisk (p : Panel) (root : String) (id : RunId) (d : Disk) : Prop :=
  p.config.rerunPolicy = .reject ∧ d = p.disk ∨
    p.config.rerunPolicy = .archive ∧
      ∃ path, Workspace.archive p.disk root id (stamp p.nextStamp) = .ok (d, path)

/-- How a start can end, and what it has done by then. -/
inductive Opening (p : Panel) (root : String) (id : RunId) (item : WorkItem) (roles : List Role) :
    Panel × Except PanelError RunId → Prop
  /-- It is refused at once. -/
  | refused (e : PanelError) : Opening p root id item roles (p, .error e)
  /-- The directory could not be set aside. -/
  | stuck {ledger : Ledger} {table : Dictionary Nat} {scribe : Scribe}
      (hroom : Room p id ledger table scribe) (e : PanelError) :
      Opening p root id item roles ({ p with ledger, table, scribe }, .error e)
  /-- No directory could be made. -/
  | blocked {ledger : Ledger} {table : Dictionary Nat} {scribe : Scribe} {d d' : Disk}
      {e' : WorkspaceError} (hroom : Room p id ledger table scribe) (hdisk : RoomOnDisk p root id d)
      (hcreate : Workspace.create d root id = (d', .error e')) (nextStamp : Nat) (e : PanelError) :
      Opening p root id item roles ({ p with ledger, table, scribe, disk := d', nextStamp }, .error e)
  /-- The ledger does not take the run, so the directory is removed, if the system lets it be. -/
  | undone {ledger : Ledger} {table : Dictionary Nat} {scribe : Scribe} {d d' d'' : Disk}
      (hroom : Room p id ledger table scribe) (hdisk : RoomOnDisk p root id d)
      (hcreate : Workspace.create d root id = (d', .ok ⟨id, Workspace.dirFor root id⟩))
      (hremove : d'' = d' ∨ d'.removeTree (d'.locate (Workspace.dirFor root id)) = .ok d'')
      (nextStamp : Nat) (e : PanelError) :
      Opening p root id item roles
        ({ p with
            ledger, table, disk := d'', nextStamp
            scribe := (scribe.register ⟨id, Workspace.dirFor root id⟩ true).unregister id },
          .error e)
  | launched {ledger : Ledger} {table : Dictionary Nat} {scribe : Scribe} {d d' : Disk}
      {u : Ledger.Update RunState} (hroom : Room p id ledger table scribe)
      (hdisk : RoomOnDisk p root id d)
      (hcreate : Workspace.create d root id = (d', .ok ⟨id, Workspace.dirFor root id⟩))
      (hu : ledger.create id item roles p.now = .ok u) (nextStamp : Nat) :
      Opening p root id item roles
        ((({ p with
            ledger, table, disk := d', nextStamp
            scribe := scribe.register ⟨id, Workspace.dirFor root id⟩ true }).accept u).launch id item
              roles (some ⟨id, Workspace.dirFor root id⟩), .ok id)

section Start

variable {p : Panel} {root : String}

theorem clearPrevious_room (hroot : p.config.workspaceRoot = some root) (id : RunId) :
    (∃ e, p.clearPrevious id = (p, .error e)) ∨
      ∃ ledger table scribe, Room p id ledger table scribe ∧
        ((∃ e, p.clearPrevious id = ({ p with ledger, table, scribe }, .error e)) ∨
          ∃ d nextStamp, RoomOnDisk p root id d ∧
            p.clearPrevious id = ({ p with ledger, table, scribe, disk := d, nextStamp }, .ok ())) := by
  unfold clearPrevious RoomOnDisk
  cases hpolicy : p.config.rerunPolicy with
  | reject =>
    cases hid : p.ledger.entries.get? id with
    | some e => exact .inl ⟨.duplicateRun id, rfl⟩
    | none =>
      exact .inr ⟨p.ledger, p.table, p.scribe, ⟨hid, .inl ⟨rfl, rfl, rfl⟩⟩,
        .inr ⟨p.disk, p.nextStamp, .inl ⟨rfl, rfl⟩, rfl⟩⟩
  | archive =>
    cases hret : p.ledger.retire id with
    | ok r =>
      have hl : r.1 = p.ledger.apply (.retire id) := by simp only [Ledger.apply, hret]
      have hroom : Room p id r.1 (p.table.erase id) (p.scribe.unregister id) :=
        ⟨Ledger.get?_of_retire hret, .inr ⟨hl, rfl, rfl⟩⟩
      refine .inr ⟨_, _, _, hroom, ?_⟩
      simp only [hroot]
      cases harch : Workspace.archive p.disk root id (stamp p.nextStamp) with
      | error e => exact .inl ⟨_, rfl⟩
      | ok x => exact .inr ⟨x.1, p.nextStamp + 1, .inr ⟨trivial, x.2, rfl⟩, rfl⟩
    | error e =>
      rcases Ledger.retire_eq_error hret with rfl | hid
      · exact .inl ⟨.duplicateRun id, rfl⟩
      · have hroom : Room p id p.ledger p.table p.scribe := ⟨hid, .inl ⟨rfl, rfl, rfl⟩⟩
        simp only
        split
        · exact .inl ⟨_, rfl⟩
        · refine .inr ⟨_, _, _, hroom, ?_⟩
          simp only [hroot]
          cases harch : Workspace.archive p.disk root id (stamp p.nextStamp) with
          | error e => exact .inl ⟨_, rfl⟩
          | ok x => exact .inr ⟨x.1, p.nextStamp + 1, .inr ⟨trivial, x.2, rfl⟩, rfl⟩

theorem openWorkspace_room (hroot : p.config.workspaceRoot = some root) (hspawn : p.canSpawn = true)
    (id : RunId) :
    (∃ d e' e, Workspace.create p.disk root id = (d, .error e') ∧
        p.openWorkspace id = ({ p with disk := d }, .error e)) ∨
      ∃ d, Workspace.create p.disk root id = (d, .ok ⟨id, Workspace.dirFor root id⟩) ∧
        p.openWorkspace id =
          ({ p with disk := d, scribe := p.scribe.register ⟨id, Workspace.dirFor root id⟩ true },
            .ok (some ⟨id, Workspace.dirFor root id⟩)) := by
  unfold openWorkspace
  simp only [hroot, hspawn]
  cases hcreate : Workspace.create p.disk root id with
  | mk d r =>
    cases r with
    | ok w =>
      obtain ⟨rfl, -⟩ := Workspace.create_eq_ok hcreate
      exact .inr ⟨d, rfl, rfl⟩
    | error e' => cases e' <;> exact .inl ⟨d, _, _, rfl, rfl⟩

theorem closeWorkspace_room (p : Panel) (id : RunId) (w : Workspace) :
    ∃ d, (d = p.disk ∨ p.disk.removeTree (p.disk.locate w.dir) = .ok d) ∧
      p.closeWorkspace id (some w) = { p with scribe := p.scribe.unregister id, disk := d } := by
  unfold closeWorkspace
  simp only
  cases hremove : p.disk.removeTree (p.disk.locate w.dir) with
  | error e => exact ⟨p.disk, .inl rfl, rfl⟩
  | ok d => exact ⟨d, .inr rfl, rfl⟩

/-- **How a start ends**, and what it has done by then. -/
theorem start_opening (hroot : p.config.workspaceRoot = some root) (id : RunId) (item : WorkItem)
    (roles : List Role) : Opening p root id item roles (p.start id item roles) := by
  unfold start
  split_ifs with hspawn
  · exact .refused _
  · have hspawn' : p.canSpawn = true := by simpa using hspawn
    rcases clearPrevious_room hroot id with
      ⟨e, h⟩ | ⟨ledger, table, scribe, hroom, ⟨e, h⟩ | ⟨d, nextStamp, hdisk, h⟩⟩
    · simp only [h]
      exact .refused e
    · simp only [h]
      exact .stuck hroom e
    · simp only [h]
      rcases openWorkspace_room
        (p := { p with ledger, table, scribe, disk := d, nextStamp }) hroot hspawn' id with
        ⟨d', e', e, hcreate, h'⟩ | ⟨d', hcreate, h'⟩
      · simp only [h']
        exact .blocked hroom hdisk hcreate nextStamp e
      · simp only [h']
        cases hu : ledger.create id item roles p.now with
        | error e =>
          obtain ⟨d'', hremove, h''⟩ := closeWorkspace_room
            { p with ledger, table, disk := d', nextStamp
                     scribe := scribe.register ⟨id, Workspace.dirFor root id⟩ true } id
            ⟨id, Workspace.dirFor root id⟩
          simp only [h'']
          exact .undone hroom hdisk hcreate hremove nextStamp _
        | ok u => exact .launched hroom hdisk hcreate hu nextStamp

end Start

/-- Making room leaves the registrations alone. -/
theorem Room.registrations_eq {p : Panel} {id : RunId} {ledger : Ledger} {table : Dictionary Nat}
    {scribe : Scribe} (h : Room p id ledger table scribe) :
    scribe.registrations = p.scribe.registrations := by
  rcases h.2 with ⟨-, -, rfl⟩ | ⟨-, -, rfl⟩ <;> rfl

theorem Room.current_of_ne {p : Panel} {id id' : RunId} {ledger : Ledger} {table : Dictionary Nat}
    {scribe : Scribe} (h : Room p id ledger table scribe) (hne : id' ≠ id) :
    scribe.current.get? id' = p.scribe.current.get? id' := by
  rcases h.2 with ⟨-, -, rfl⟩ | ⟨-, -, rfl⟩
  · rfl
  · rw [Scribe.unregister, Dictionary.get?_erase, if_neg hne]

theorem Room.inOrder {p : Panel} {id : RunId} {ledger : Ledger} {table : Dictionary Nat}
    {scribe : Scribe} (h : Room p id ledger table scribe) {root : String}
    (hp : p.scribe.InOrder p.ledger root) : scribe.InOrder ledger root := by
  rcases h.2 with ⟨rfl, -, rfl⟩ | ⟨rfl, -, rfl⟩
  · exact hp
  · exact hp.unregister fun id' hne => Ledger.read_retire_of_ne hne

/-! ### Telling the scribe about accepted changes -/

theorem transition_cases (p : Panel) (id : RunId) (role : Role) (phase : Phase)
    (cause : Option String) : (p.transition id role phase cause).1 = p ∨
      ∃ u, p.ledger.transition id role phase cause p.now = .ok u ∧
        (p.transition id role phase cause).1 = p.post u := by
  unfold transition
  cases hu : p.ledger.transition id role phase cause p.now with
  | error e => exact .inl rfl
  | ok u => exact .inr ⟨u, rfl, rfl⟩

/-- The step from `p` to `q` tells the registration at position `n` something, and does nothing else to
scribe and disk. -/
structure Hears (n : Nat) (p q : Panel) : Prop where
  disk_eq : q.disk = p.disk
  current_eq : q.scribe.current = p.scribe.current
  others : ∀ j, j ≠ n → q.scribe.registrations[j]? = p.scribe.registrations[j]?
  own : ∀ r, p.scribe.registrations[n]? = some r → ∃ r', q.scribe.registrations[n]? = some r' ∧
    r'.workspace = r.workspace ∧ r'.carried = r.carried ∧ r'.written = r.written

namespace Hears

variable {n : Nat} {p q q' : Panel}

theorem of_eq (hs : q.scribe = p.scribe) (hd : q.disk = p.disk) : Hears n p q :=
  ⟨hd, by rw [hs], fun _ _ => by rw [hs], fun r hr => ⟨r, by rw [hs, hr], rfl, rfl, rfl⟩⟩

theorem trans (h : Hears n p q) (h' : Hears n q q') : Hears n p q' where
  disk_eq := h'.disk_eq.trans h.disk_eq
  current_eq := h'.current_eq.trans h.current_eq
  others j hj := (h'.others j hj).trans (h.others j hj)
  own r hr := by
    obtain ⟨r', hr', hw, hc, hwr⟩ := h.own r hr
    obtain ⟨r'', hr'', hw', hc', hwr'⟩ := h'.own r' hr'
    exact ⟨r'', hr'', hw'.trans hw, hc'.trans hc, hwr'.trans hwr⟩

end Hears

section Hearing

variable {p : Panel} {root : String} {id : RunId}

theorem deliver_eq_of_getElem? {p : Panel} {k : Nat} {s : RunState} (h : p.inFlight[k]? = some s) :
    p.deliver k = { p with
      scribe := (p.scribe.receive p.disk s).1
      disk := (p.scribe.receive p.disk s).2
      inFlight := p.inFlight.eraseIdx k } := by
  simp only [deliver, h]

/-- A snapshot that reaches the scribe leaves the books in order, and the disk as it is. -/
theorem inOrder_deliver (hp : p.scribe.InOrder p.ledger root) (k : Nat) :
    (p.deliver k).scribe.InOrder p.ledger root ∧ (p.deliver k).disk = p.disk ∧
      p.scribe.Onward (p.deliver k).scribe := by
  cases hk : p.inFlight[k]? with
  | none =>
    have hsame : p.deliver k = p := by simp only [deliver, hk]
    rw [hsame]
    exact ⟨hp, rfl, .refl _⟩
  | some s =>
    rw [deliver_eq_of_getElem? hk]
    have honward := p.scribe.onward_receive p.disk s
    exact ⟨hp.of_onward honward, hp.receive_disk _ _, honward⟩

/-- What a snapshot that arrives preserves as long as the books are in order, any number of them
preserve, and the books stay in order. -/
theorem inOrder_foldl_deliver {P : Panel → Prop}
    (hstep : ∀ q k, q.scribe.InOrder q.ledger root → P q → P (q.deliver k))
    (hp : p.scribe.InOrder p.ledger root) (ks : List Nat) (h : P p) :
    (ks.foldl deliver p).scribe.InOrder (ks.foldl deliver p).ledger root ∧ P (ks.foldl deliver p) := by
  refine foldl_deliver_preserves (P := fun q => q.scribe.InOrder q.ledger root ∧ P q)
    (fun q k ⟨hin, hq⟩ => ⟨?_, hstep q k hin hq⟩) ks ⟨hp, h⟩
  rw [deliver_ledger]
  exact (inOrder_deliver hin k).1

theorem inOrder_accept {α : Type} (hp : p.scribe.InOrder p.ledger root) {u : Ledger.Update α}
    (ha : p.ledger.Advance id u.ledger u.published) :
    (p.accept u).scribe.InOrder (p.accept u).ledger root ∧ (p.accept u).ledger = u.ledger ∧
      (p.accept u).disk = p.disk := by
  obtain ⟨hin, hdisk, -⟩ := inOrder_deliver (p := p.post u) (hp.advance ha) p.inFlight.length
  exact ⟨by rw [accept_ledger]; exact hin, p.accept_ledger u, hdisk⟩

/-- Before the flush the books are in order, and nothing but the verdict has been written. -/
theorem inOrder_judged (hp : p.scribe.InOrder p.ledger root) {v : VerdictRef} {u : Ledger.Update RunState}
    (hu : p.ledger.attach id v = .ok u) {d : Disk} {q : Panel}
    (hq : q = p.arrivals.foldl deliver (({ p with disk := d }).accept u)) :
    q.scribe.InOrder q.ledger root ∧ q.ledger = u.ledger ∧ q.disk = d := by
  obtain ⟨hin, hl, hd⟩ := inOrder_accept (p := { p with disk := d }) hp (Ledger.attach_advance hu)
  obtain ⟨hin', hd'⟩ := inOrder_foldl_deliver (P := fun q => q.disk = d)
    (fun q k hin hq => (inOrder_deliver hin k).2.1.trans hq) hin p.arrivals hd
  rw [hq]
  exact ⟨hin', (foldl_deliver_ledger _ _).trans hl, hd'⟩

theorem accept_hears {α : Type} {u : Ledger.Update α} (hp : p.scribe.InOrder u.ledger root)
    (ha : p.ledger.Advance id u.ledger u.published) {n : Nat} {r : Registration}
    (hn : p.scribe.current.get? id = some n) (hr : p.scribe.registrations[n]? = some r)
    (hold : r.latest = none ∨ p.scribe.Abreast p.ledger id n) :
    (p.accept u).scribe.InOrder u.ledger root ∧ Hears n p (p.accept u) ∧
      (p.accept u).scribe.Abreast u.ledger id n := by
  have hregs := Scribe.receive_of_current (ha.runId_eq ▸ hn) hr (hp.background n r hr) p.disk
  obtain ⟨hin, hdisk, honward⟩ := inOrder_deliver (p := p.post u) hp p.inFlight.length
  refine ⟨hin, ⟨hdisk, honward.current_eq, fun j hj => ?_, fun r₀ hr₀ => ?_⟩, ?_⟩
  · rw [accept_eq]
    exact (hregs j).trans (if_neg hj)
  · obtain rfl := Option.some.inj (hr.symm.trans hr₀)
    rw [accept_eq]
    refine ⟨_, (hregs n).trans (if_pos rfl), ?_⟩
    simp only [Registration.note]
    split_ifs <;> exact ⟨rfl, rfl, rfl⟩
  · rw [accept_eq]
    exact hp.abreast ha hn hr hold p.disk

/-- Starting a role concerns no registration but that of its run, which stays abreast of the ledger. -/
theorem spawn_hears (hp : p.scribe.InOrder p.ledger root) {n : Nat}
    (hn : p.scribe.current.get? id = some n) (hold : p.scribe.Abreast p.ledger id n) (i : Nat)
    (item : WorkItem) (role : Role) :
    (p.spawn i id item role).scribe.InOrder (p.spawn i id item role).ledger root ∧
      Hears n p (p.spawn i id item role) ∧
      (p.spawn i id item role).scribe.Abreast (p.spawn i id item role).ledger id n := by
  unfold spawn
  cases hu : p.ledger.transition id role .running none p.now with
  | error e => exact ⟨hp, .of_eq rfl rfl, hold⟩
  | ok u =>
    obtain ⟨r, -, hr, -⟩ := hp.current id n hn
    have ha := Ledger.transition_advance hu
    obtain ⟨hin, hears, habreast⟩ := accept_hears (hp.advance ha) ha hn hr (.inr hold)
    rw [← p.accept_ledger u] at hin habreast
    exact ⟨hin, ⟨hears.disk_eq, hears.current_eq, hears.others, hears.own⟩, habreast⟩

/-- **Launching a run concerns no registration but its own**, and no document. -/
theorem launch_hears (hp : p.scribe.InOrder p.ledger root) {n : Nat}
    (hn : p.scribe.current.get? id = some n) (hold : p.scribe.Abreast p.ledger id n) (item : WorkItem)
    (roles : List Role) (w : Option Workspace) :
    (p.launch id item roles w).scribe.InOrder (p.launch id item roles w).ledger root ∧
      Hears n p (p.launch id item roles w) ∧
      (p.launch id item roles w).scribe.Abreast (p.launch id item roles w).ledger id n := by
  have hfold : ∀ (i : Nat) (roles : List Role) (q : Panel), q.scribe.InOrder q.ledger root →
      q.scribe.current.get? id = some n → q.scribe.Abreast q.ledger id n →
      (roles.foldl (fun q role => q.spawn i id item role) q).scribe.InOrder
          (roles.foldl (fun q role => q.spawn i id item role) q).ledger root ∧
        Hears n q (roles.foldl (fun q role => q.spawn i id item role) q) ∧
        (roles.foldl (fun q role => q.spawn i id item role) q).scribe.Abreast
          (roles.foldl (fun q role => q.spawn i id item role) q).ledger id n := by
    intro i roles
    induction roles with
    | nil => exact fun q hq _ hold => ⟨hq, .of_eq rfl rfl, hold⟩
    | cons role roles ih =>
      intro q hq hn hold
      obtain ⟨hq', hears, hold'⟩ := spawn_hears hq hn hold i item role
      obtain ⟨hin, hrest, habreast⟩ := ih _ hq' (by rw [hears.current_eq, hn]) hold'
      exact ⟨hin, hears.trans hrest, habreast⟩
  let inc : Incarnation :=
    { runId := id, slots := .ofRoles roles w, handles := [], startedAt := p.clock, verdict := none }
  obtain ⟨hin, hears, habreast⟩ := hfold p.incarnations.length roles
    { p with incarnations := p.incarnations ++ [inc] } hp hn hold
  exact ⟨hin, ⟨hears.disk_eq, hears.current_eq, hears.others, hears.own⟩, habreast⟩

end Hearing

/-! ### Every step -/

/-- The disk after a verdict of the run was written, or not. -/
def VerdictOnDisk (p : Panel) (id : RunId) (d : Disk) : Prop :=
  d = p.disk ∨ ∃ w v, p.scribe.workspace? id = some w ∧ w.writeVerdict p.disk v = .ok d

/-- What a step does to ledger, scribe and disk, and to the snapshots on their way. -/
inductive Upkeep (p : Panel) (root : String) : Event → Panel → Prop
  | nothing {e : Event} {q : Panel} (hl : q.ledger = p.ledger) (hs : q.scribe = p.scribe)
      (hd : q.disk = p.disk) (hf : q.inFlight = p.inFlight) : Upkeep p root e q
  /-- A role moves, and a snapshot sets out. -/
  | moved {e : Event} {q : Panel} {id : RunId} {role : Role} {phase : Phase} {cause : Option String}
      {u : Ledger.Update Status} (hu : p.ledger.transition id role phase cause p.now = .ok u)
      (hl : q.ledger = u.ledger) (hs : q.scribe = p.scribe) (hd : q.disk = p.disk)
      (hf : q.inFlight = p.inFlight ++ [u.published]) : Upkeep p root e q
  | delivered (k : Nat) : Upkeep p root (.deliver k) (p.deliver k)
  /-- The findings of a role are written. -/
  | published {j : Nat} {q : Panel} {inc : Incarnation} (hinc : inc ∈ p.incarnations) (role : Role)
      (fs : List Finding) (hl : q.ledger = p.ledger) (hs : q.scribe = p.scribe)
      (hd : q.disk = (inc.slots.publish p.disk role fs).2.1) (hf : q.inFlight = p.inFlight) :
      Upkeep p root (.decide j) q
  /-- A verdict is written, and the ledger does not take it. -/
  | wrote {id : RunId} {q : Panel} (hl : q.ledger = p.ledger) (hs : q.scribe = p.scribe)
      (hd : VerdictOnDisk p id q.disk) (hf : q.inFlight = p.inFlight) : Upkeep p root (.finalize id) q
  /-- A verdict is written and attached, other snapshots arrive, and the state document is flushed. -/
  | judged {id : RunId} {q q' : Panel} {v : Verdict} {d : Disk} {u : Ledger.Update RunState}
      (hd : VerdictOnDisk p id d) (hu : p.ledger.attach id v.toRef = .ok u)
      (hq' : q' = p.arrivals.foldl deliver (({ p with disk := d }).accept u))
      (hl : q.ledger = q'.ledger) (hq : (q.scribe, q.disk) = q'.scribe.flush q'.disk id)
      (hf : q.inFlight = q'.inFlight) : Upkeep p root (.finalize id) q
  | forgotten {id : RunId} {q : Panel} (hl : q.ledger = p.ledger.apply (.retire id))
      (hs : q.scribe = p.scribe.unregister id) (hd : q.disk = p.disk) (hf : q.inFlight = p.inFlight) :
      Upkeep p root (.forget id) q
  | took (n : Nat) : Upkeep p root (.take n) { p with scribe := p.scribe.take n }
  | persisted (n : Nat) : Upkeep p root (.persist n)
      { p with scribe := (p.scribe.persist p.disk n).1, disk := (p.scribe.persist p.disk n).2 }
  /-- The system refuses other things than before. -/
  | refusing {e : Event} (refusal retention : Location → Option OsError) :
      Upkeep p root e { p with disk := { p.disk with refusal, retention } }
  | opened {id : RunId} {item : WorkItem} {roles : List Role} {x : Panel × Except PanelError RunId}
      (h : Opening p root id item roles x) : Upkeep p root (.start id item roles) x.1

namespace Upkeep

variable {p q : Panel} {root : String} {e : Event}

theorem of_transition {id : RunId} {role : Role} {phase : Phase} {cause : Option String}
    (hl : q.ledger = (p.transition id role phase cause).1.ledger)
    (hs : q.scribe = (p.transition id role phase cause).1.scribe)
    (hd : q.disk = (p.transition id role phase cause).1.disk)
    (hf : q.inFlight = (p.transition id role phase cause).1.inFlight) : Upkeep p root e q := by
  rcases p.transition_cases id role phase cause with h | ⟨u, hu, h⟩
  · rw [h] at hl hs hd hf
    exact .nothing hl hs hd hf
  · rw [h] at hl hs hd hf
    exact .moved hu hl hs hd hf

theorem writeVerdict {id : RunId} {v : Verdict} (h : p.writeVerdict id v = .ok q) :
    ∃ d, VerdictOnDisk p id d ∧ q = { p with disk := d } := by
  unfold Panel.writeVerdict at h
  split at h
  · exact ⟨p.disk, .inl rfl, (Except.ok.inj h).symm⟩
  · rename_i w hw
    split at h
    · rename_i d hd
      exact ⟨d, .inr ⟨w, v, hw, hd⟩, (Except.ok.inj h).symm⟩
    · cases h

theorem finalize (p : Panel) (root : String) (id : RunId) :
    Upkeep p root (.finalize id) (p.finalize id).1 := by
  unfold Panel.finalize
  split
  · exact .nothing rfl rfl rfl rfl
  · split
    · exact .nothing rfl rfl rfl rfl
    · split
      · exact .nothing rfl rfl rfl rfl
      · split
        · exact .nothing rfl rfl rfl rfl
        · split
          · exact .nothing rfl rfl rfl rfl
          · rename_i hwrite
            obtain ⟨d, hd, rfl⟩ := writeVerdict hwrite
            split
            · exact .wrote rfl rfl hd rfl
            · rename_i q hattach
              unfold attachVerdict at hattach
              split at hattach
              · cases hattach
              · rename_i u hu
                obtain rfl := Except.ok.inj hattach
                exact .judged hd hu rfl rfl rfl rfl

theorem forget (p : Panel) (root : String) (id : RunId) :
    Upkeep p root (.forget id) (p.forget id).1 := by
  unfold Panel.forget
  split
  · exact .nothing rfl rfl rfl rfl
  · split_ifs
    · exact .nothing rfl rfl rfl rfl
    · split
      · exact .nothing rfl rfl rfl rfl
      · rename_i hret
        exact .forgotten (by simp only [Ledger.apply, hret]) rfl rfl rfl

theorem wait (p : Panel) (root : String) (k : Nat) : Upkeep p root (.wait k) (p.stepWaiter k) := by
  have h := Move.stepWaiter p k
  generalize p.stepWaiter k = q at h ⊢
  cases h with
  | aside he => cases he
  | idle | polled | turned | finished | joined | skipped => exact .nothing rfl rfl rfl rfl
  | closed =>
    rw [withhold_fst]
    exact .nothing rfl rfl rfl rfl
  | began | gaveUp => exact .of_transition rfl rfl rfl rfl
  | @expired _ w _ _ role _ cause =>
    rcases (p.transition w.runId role .timedOut cause).1.stopLate_eq w role with h | ⟨j, h⟩
    · rw [h]
      exact .of_transition rfl rfl rfl rfl
    · rw [h]
      exact .of_transition rfl rfl rfl rfl

theorem decide (p : Panel) (root : String) (j : Nat) : Upkeep p root (.decide j) (p.decide j) := by
  have h := Move.decide p j
  generalize p.decide j = q at h ⊢
  cases h with
  | aside he => cases he
  | idle => exact .nothing rfl rfl rfl rfl
  | @published _ s fs =>
    unfold publish
    cases hinc : p.incarnations[s.incarnation]? with
    | none => exact .nothing rfl rfl rfl rfl
    | some inc => exact .published (List.mem_of_getElem? hinc) s.role fs rfl rfl rfl rfl
  | withheld =>
    rw [withhold_fst]
    exact .nothing rfl rfl rfl rfl

theorem settle (p : Panel) (root : String) (j : Nat) : Upkeep p root (.settle j) (p.settle j) := by
  have h := Move.settle p j
  generalize p.settle j = q at h ⊢
  cases h with
  | aside he => cases he
  | idle => exact .nothing rfl rfl rfl rfl
  | settled => exact .of_transition rfl rfl rfl rfl

theorem observe (p : Panel) (root : String) (j : Nat) : Upkeep p root (.observe j) (p.observe j) := by
  have h := Move.observe p j
  generalize p.observe j = q at h ⊢
  cases h with
  | aside he => cases he
  | idle | observed => exact .nothing rfl rfl rfl rfl

end Upkeep

/-- What a step other than a start does, whether documents are kept or not. -/
theorem step_upkeep_of_ne_start (p : Panel) (root : String) {e : Event}
    (he : ∀ id item roles, e ≠ .start id item roles) : Upkeep p root e (p.step e) := by
  cases e with
  | start id item roles => exact absurd rfl (he id item roles)
  | finalize id => exact .finalize p root id
  | forget id => exact .forget p root id
  | await id poll limit =>
    simp only [step, enterWait]
    split <;> exact .nothing rfl rfl rfl rfl
  | wait k => exact .wait p root k
  | comeBack j => exact .nothing rfl rfl rfl rfl
  | observe j => exact .observe p root j
  | decide j => exact .decide p root j
  | settle j => exact .settle p root j
  | take n => exact .took n
  | persist n => exact .persisted n
  | draw => exact .nothing rfl rfl rfl rfl
  | pass ms now => exact .nothing rfl rfl rfl rfl
  | refuse refusal => exact .refusing refusal p.disk.retention
  | retain retention => exact .refusing p.disk.refusal retention
  | deliver k => exact .delivered k
  | arrange arrivals => exact .nothing rfl rfl rfl rfl

/-- **What every step does to the papers.** -/
theorem step_upkeep {p : Panel} {root : String} (hroot : p.config.workspaceRoot = some root)
    (e : Event) : Upkeep p root e (p.step e) := by
  rcases e.start_or_other with ⟨id, item, roles, rfl⟩ | he
  · exact .opened (start_opening hroot id item roles)
  · exact p.step_upkeep_of_ne_start root he

/-! ### The books are in order -/

/-- A run that has just been taken on has the newest registration, before and after it is launched, and the
registration is abreast of the ledger when that is done. -/
theorem opened_hears {p : Panel} {root : String} (hp : p.scribe.InOrder p.ledger root) {id : RunId}
    {item : WorkItem} {roles : List Role} {ledger : Ledger} {table : Dictionary Nat} {scribe : Scribe}
    {d : Disk} {u : Ledger.Update RunState} (hroom : Room p id ledger table scribe)
    (hu : ledger.create id item roles p.now = .ok u) (nextStamp : Nat) {q q' : Panel}
    (hq : q = { p with
      ledger, table, disk := d, nextStamp
      scribe := scribe.register ⟨id, Workspace.dirFor root id⟩ true })
    (hq' : q' = (q.accept u).launch id item roles (some ⟨id, Workspace.dirFor root id⟩)) :
    q'.scribe.InOrder q'.ledger root ∧ Hears p.scribe.registrations.length q q' ∧
      q'.scribe.Abreast q'.ledger id p.scribe.registrations.length := by
  have ha := Ledger.create_advance hu
  obtain ⟨hreg, hcur⟩ := scribe.holds_register ⟨id, Workspace.dirFor root id⟩ true
  rw [hroom.registrations_eq] at hreg hcur
  -- the books are in order as soon as the ledger has the run
  obtain ⟨hin, hears, habreast⟩ := accept_hears (p := q) (r := .ofWorkspace _ true)
    (by rw [hq]; exact (hroom.inOrder hp).enter ha) (by rw [hq]; exact ha) (by rw [hq]; exact hcur)
    (by rw [hq]; exact hreg) (.inl rfl)
  rw [show u.ledger = (q.accept u).ledger by rw [accept_eq]] at hin habreast
  have hcur' : (q.accept u).scribe.current.get? id = some p.scribe.registrations.length := by
    rw [hears.current_eq, hq]
    exact hcur
  obtain ⟨hin', hears', habreast'⟩ := launch_hears hin hcur' habreast item roles
    (some ⟨id, Workspace.dirFor root id⟩)
  rw [hq']
  exact ⟨hin', hears.trans hears', habreast'⟩
/-! ### The books are in order -/

theorem Opening.inOrder {p : Panel} {root : String} {id : RunId} {item : WorkItem} {roles : List Role}
    {x : Panel × Except PanelError RunId} (h : Opening p root id item roles x)
    (hp : p.scribe.InOrder p.ledger root) : x.1.scribe.InOrder x.1.ledger root := by
  cases h with
  | refused => exact hp
  | stuck hroom => exact hroom.inOrder hp
  | blocked hroom => exact hroom.inOrder hp
  | undone hroom => exact (hroom.inOrder hp).register_unregister fun _ _ => rfl
  | launched hroom hdisk hcreate hu nextStamp =>
    exact (opened_hears hp hroom hu nextStamp rfl rfl).1

theorem Upkeep.inOrder {p q : Panel} {root : String} {e : Event} (h : Upkeep p root e q)
    (hp : p.scribe.InOrder p.ledger root) : q.scribe.InOrder q.ledger root := by
  cases h with
  | nothing hl hs | published _ _ _ hl hs | wrote hl hs =>
    rw [hl, hs]
    exact hp
  | moved hu hl hs =>
    rw [hl, hs]
    exact hp.advance (Ledger.transition_advance hu)
  | delivered k =>
    rw [deliver_ledger]
    exact (inOrder_deliver hp k).1
  | @judged id _ _ v d u hd hu hq' hl hq =>
    rw [hl, (Prod.mk.inj hq).1]
    exact (inOrder_judged hp hu hq').1.of_onward (Scribe.onward_flush _ _ id)
  | forgotten hl hs =>
    rw [hl, hs]
    exact hp.unregister fun id' hne => Ledger.read_retire_of_ne hne
  | took n => exact hp.of_onward (p.scribe.onward_take n)
  | persisted n => exact hp.of_onward (p.scribe.onward_persist p.disk n)
  | refusing => exact hp
  | opened hopen => exact hopen.inOrder hp

/-- **The books of the scribe are in order at all times.** -/
theorem Reachable.inOrder {p : Panel} (h : Reachable p) {root : String}
    (hroot : p.config.workspaceRoot = some root) : p.scribe.InOrder p.ledger root := by
  induction h with
  | ofConfig h =>
    obtain rfl := eq_of_ofConfig h
    exact Scribe.inOrder_empty _ root
  | step h e ih =>
    rw [(step_advances _ e).config_eq] at hroot
    exact (step_upkeep hroot e).inOrder (ih hroot)

end ReviewPanel.Panel
