import ReviewPanel.Proofs.Scribe.Deliveries
import ReviewPanel.Proofs.Workspace.Directories

/-!
# A scribe whose books are in order

Snapshots of accepted changes reach the scribe late and in any order, so what a registration knows may be
behind the ledger.  Three things can be relied on all the same.  The registration that a run has at present
is its own, and the run is on the ledger.  Registrations with a writer in the background only take note of
what arrives: it is their writers that touch the disk, whenever they get to it.  And what a registration
knows only gets newer, because it takes no notice of a snapshot that is no newer than the newest one.

## Main definitions

* `Ledger.Advance` : an accepted change of one run, as observers see it.
* `Registration.Onward`, `Scribe.Onward` : what a registration, or the whole scribe, becomes in time.
* `Scribe.InOrder` : the invariant.
* `Scribe.Knows` : what a registration knows is no older than a revision.

## Main statements

* `Scribe.onward_receive`, `Scribe.onward_flush`, `Scribe.onward_take`, `Scribe.onward_persist` : **a
  registration never knows less than before.**
* `Scribe.InOrder.onward`, `Scribe.InOrder.enter` : the books stay in order.
-/

namespace ReviewPanel

/-! ### Accepted changes -/

namespace Ledger

/-- An accepted change of the run `id`: the snapshot `t` for observers is the run as it is afterwards,
which is newer than it was before, and no other run is concerned. -/
structure Advance (l : Ledger) (id : RunId) (l' : Ledger) (t : RunState) : Prop where
  runId_eq : t.runId = id
  read_eq : l'.read id = .ok t
  read_of_ne : ∀ id', id' ≠ id → l'.read id' = l.read id'
  newer : ∀ s, l.read id = .ok s → s.revision < t.revision

variable {l : Ledger} {id : RunId}

theorem read_congr {l' : Ledger} {id' : RunId} (h : l'.entries.get? id' = l.entries.get? id') :
    l'.read id' = l.read id' := by
  simp only [read, entry, h]

/-- A new entry of a higher revision. -/
theorem advance_put {e : LedgerEntry}
    (hnewer : ∀ e₀, l.entries.get? id = some e₀ → e₀.revision < e.revision) :
    l.Advance id (l.put id e) (e.snapshot id) where
  runId_eq := rfl
  read_eq := read_eq_ok.2 ⟨e, by simp, rfl⟩
  read_of_ne id' hne := read_congr (by simp [hne])
  newer s hs := by
    obtain ⟨e₀, he₀, rfl⟩ := read_eq_ok.1 hs
    exact hnewer e₀ he₀

theorem create_advance {item : WorkItem} {roles : List Role} {time : Timestamp} {u : Update RunState}
    (h : l.create id item roles time = .ok u) : l.Advance id u.ledger u.published := by
  obtain ⟨-, -, hnone, rfl⟩ := create_eq_ok.1 h
  refine advance_put fun e₀ he₀ => ?_
  rw [hnone] at he₀
  cases he₀

theorem transition_advance {role : Role} {phase : Phase} {cause : Option String} {time : Timestamp}
    {u : Update Status} (h : l.transition id role phase cause time = .ok u) :
    l.Advance id u.ledger u.published := by
  obtain ⟨e, s, he, -, -, -, rfl⟩ := transition_eq_ok.1 h
  refine advance_put fun e₀ he₀ => ?_
  obtain rfl := Option.some.inj (he.symm.trans he₀)
  exact Nat.lt_succ_self _

theorem attach_advance {verdict : VerdictRef} {u : Update RunState}
    (h : l.attach id verdict = .ok u) : l.Advance id u.ledger u.published := by
  obtain ⟨e, he, -, -, rfl⟩ := attach_eq_ok.1 h
  refine advance_put fun e₀ he₀ => ?_
  obtain rfl := Option.some.inj (he.symm.trans he₀)
  exact Nat.lt_succ_self _

/-- Removing a run is no change of another one. -/
theorem read_retire_of_ne {l : Ledger} {id id' : RunId} (hne : id' ≠ id) :
    (l.apply (.retire id)).read id' = l.read id' :=
  read_congr (l.get?_apply_of_ne fun h => hne (Option.some.inj h).symm)

end Ledger

namespace Registration

/-- What a registration becomes in time: it is for the same run, has the same kind of writer, and the
snapshot that it knows is no older. -/
structure Onward (r r' : Registration) : Prop where
  workspace_eq : r'.workspace = r.workspace
  background_eq : r'.background = r.background
  latest : ∀ l, r.latest = some l → ∃ l', r'.latest = some l' ∧ l.revision ≤ l'.revision

namespace Onward

variable {r r' r'' : Registration}

theorem of_latest_eq (hw : r'.workspace = r.workspace) (hb : r'.background = r.background)
    (hl : r'.latest = r.latest) : Onward r r' :=
  ⟨hw, hb, fun l h => ⟨l, hl.trans h, Nat.le_refl _⟩⟩

@[refl] theorem refl (r : Registration) : Onward r r := of_latest_eq rfl rfl rfl

theorem trans (h : Onward r r') (h' : Onward r' r'') : Onward r r'' where
  workspace_eq := h'.workspace_eq.trans h.workspace_eq
  background_eq := h'.background_eq.trans h.background_eq
  latest l hl := by
    obtain ⟨l', hl', hle⟩ := h.latest l hl
    obtain ⟨l'', hl'', hle'⟩ := h'.latest l' hl'
    exact ⟨l'', hl'', hle.trans hle'⟩

theorem persist (r : Registration) (d : Disk) (s : RunState) : Onward r (r.persist d s).1 := by
  rw [persist_eq]
  split <;> exact of_latest_eq rfl rfl rfl

theorem flush (r : Registration) (d : Disk) : Onward r (r.flush d).1 := by
  unfold Registration.flush
  split
  · exact refl r
  · exact persist r d _

theorem writeCarried (r : Registration) (d : Disk) : Onward r (r.writeCarried d).1 := by
  unfold Registration.writeCarried
  split
  · exact refl r
  · exact (of_latest_eq rfl rfl rfl : Onward r { r with carried := none }).trans (persist _ d _)

theorem take (r : Registration) : Onward r r.take := by
  rcases r.note_take with h | h
  · rw [h]
  · rw [h]
    exact of_latest_eq rfl rfl rfl

/-- **Only news takes the place of the newest snapshot.** -/
theorem receive (r : Registration) (d : Disk) (t : RunState) : Onward r (r.receive d t).1 := by
  unfold Registration.receive
  split_ifs with hnews
  · have hnoted : Onward r { r with latest := some t, unseen := true } := by
      refine ⟨rfl, rfl, fun l hl => ⟨t, rfl, ?_⟩⟩
      simp only [isNews, hl, decide_eq_true_eq] at hnews
      exact Nat.le_of_lt hnews
    dsimp only
    split_ifs
    · exact hnoted
    · exact hnoted.trans (persist _ d t)
  · exact refl r

end Onward

/-- With a writer in the background, a snapshot that arrives is only taken note of. -/
theorem receive_of_background {r : Registration} (h : r.background = true) (d : Disk) (t : RunState) :
    r.receive d t = (r.note (.deliver t), d) := by
  rw [note]
  unfold receive
  split_ifs with hnews
  · exact if_pos h
  · rfl

/-- A snapshot that is newer than all before is the newest. -/
theorem latest_note {r : Registration} {t : RunState}
    (h : ∀ s, r.latest = some s → s.revision < t.revision) :
    (r.note (.deliver t)).latest = some t := by
  have hnews : r.isNews t = true := by
    unfold Registration.isNews
    cases hl : r.latest with
    | none => rfl
    | some s => exact decide_eq_true (h s hl)
  rw [Registration.note, if_pos hnews]

theorem le_latest_note (r : Registration) (t : RunState) :
    ∃ l, (r.note (.deliver t)).latest = some l ∧ t.revision ≤ l.revision := by
  by_cases h : ∀ s, r.latest = some s → s.revision < t.revision
  · exact ⟨t, latest_note h, Nat.le_refl _⟩
  · simp only [not_forall, Nat.not_lt] at h
    obtain ⟨l, hl, hle⟩ := h
    have hold : ¬ r.isNews t = true := by simp [isNews, hl, hle]
    exact ⟨l, by rw [Registration.note, if_neg hold, hl], hle⟩

/-! ### The document that a registration writes -/

/-- The location of the state document of a registration. -/
def statusLocation (r : Registration) (d : Disk) : Location :=
  d.locate r.workspace.dir ++ [Workspace.statusName]

theorem persist_writes (r : Registration) (d : Disk) (s : RunState) :
    Disk.Writes (· = r.statusLocation d) d (r.persist d s).2 := by
  rw [persist_eq]
  split
  · rename_i hattempt
    exact Workspace.writeDocument_writes (attempt?_eq_some.1 hattempt).2
  · exact .refl

theorem flush_writes (r : Registration) (d : Disk) :
    Disk.Writes (· = r.statusLocation d) d (r.flush d).2 := by
  unfold Registration.flush
  split
  · exact .refl
  · exact r.persist_writes d _

theorem writeCarried_writes (r : Registration) (d : Disk) :
    Disk.Writes (· = r.statusLocation d) d (r.writeCarried d).2 := by
  unfold Registration.writeCarried
  split
  · exact .refl
  · exact persist_writes { r with carried := none } d _

end Registration

/-! ### Scribes -/

namespace Scribe

variable {s s' : Scribe} {l l' : Ledger} {root : String} {d : Disk} {id : RunId} {t : RunState}

theorem getElem?_update (s : Scribe) (d : Disk) (i : Nat)
    (f : Registration → Disk → Registration × Disk) (j : Nat) :
    (s.update d i f).1.registrations[j]? =
      if j = i then s.registrations[i]?.map fun r => (f r d).1 else s.registrations[j]? := by
  unfold update
  cases hr : s.registrations[i]? with
  | none =>
    split_ifs with hj
    · rw [hj, hr]
      rfl
    · rfl
  | some r =>
    have hlt := (List.getElem?_eq_some_iff.1 hr).1
    rw [List.getElem?_set]
    split_ifs with hj hj' hj'
    · rfl
    · exact absurd hj.symm hj'
    · exact absurd hj'.symm hj
    · rfl

@[simp] theorem update_current (s : Scribe) (d : Disk) (i : Nat)
    (f : Registration → Disk → Registration × Disk) : (s.update d i f).1.current = s.current := by
  unfold update
  split <;> rfl

theorem updateRun_current (s : Scribe) (d : Disk) (id : RunId)
    (f : Registration → Disk → Registration × Disk) : (s.updateRun d id f).1.current = s.current := by
  unfold updateRun
  split
  · rfl
  · exact update_current _ _ _ _

theorem update_of_registration {r : Registration} {i : Nat} (hr : s.registrations[i]? = some r)
    (d : Disk) (f : Registration → Disk → Registration × Disk) : (s.update d i f).2 = (f r d).2 := by
  simp only [update, hr]

theorem update_writes {P : Location → Prop} {i : Nat} {f : Registration → Disk → Registration × Disk}
    (hf : ∀ r, s.registrations[i]? = some r → Disk.Writes P d (f r d).2) :
    Disk.Writes P d (s.update d i f).2 := by
  unfold update
  split
  · exact .refl
  · rename_i r hr
    exact hf r hr

theorem updateRun_writes {P : Location → Prop} {f : Registration → Disk → Registration × Disk}
    (hf : ∀ i r, s.current.get? id = some i → s.registrations[i]? = some r →
      Disk.Writes P d (f r d).2) :
    Disk.Writes P d (s.updateRun d id f).2 := by
  unfold updateRun
  split
  · exact .refl
  · rename_i i hi
    exact update_writes fun r hr => hf i r hi hr

/-! ### Time -/

/-- What a scribe becomes in time, as long as no run is taken on or let go. -/
structure Onward (s s' : Scribe) : Prop where
  current_eq : s'.current = s.current
  length_eq : s'.registrations.length = s.registrations.length
  onward : ∀ (i : Nat) (r : Registration), s.registrations[i]? = some r →
    ∃ r', s'.registrations[i]? = some r' ∧ r.Onward r'

@[refl] theorem Onward.refl (s : Scribe) : s.Onward s := ⟨rfl, rfl, fun _ r hr => ⟨r, hr, .refl r⟩⟩

/-- Where there is a registration later on there is one before. -/
theorem Onward.exists_before (h : s.Onward s') {i : Nat} {r' : Registration}
    (hr' : s'.registrations[i]? = some r') :
    ∃ r, s.registrations[i]? = some r ∧ r.Onward r' := by
  have hlt : i < s.registrations.length := h.length_eq ▸ (List.getElem?_eq_some_iff.1 hr').1
  obtain ⟨r'', hr'', honward⟩ := h.onward i _ (List.getElem?_eq_getElem hlt)
  obtain rfl := Option.some.inj (hr'.symm.trans hr'')
  exact ⟨_, List.getElem?_eq_getElem hlt, honward⟩

theorem onward_update {f : Registration → Disk → Registration × Disk}
    (hf : ∀ (r : Registration) d, r.Onward (f r d).1) (s : Scribe) (d : Disk) (i : Nat) :
    s.Onward (s.update d i f).1 := by
  refine ⟨s.update_current d i f, ?_, fun j r hr => ?_⟩
  · unfold update
    split <;> simp
  · rw [getElem?_update]
    split_ifs with hj
    · subst hj
      exact ⟨(f r d).1, by rw [hr]; rfl, hf r d⟩
    · exact ⟨r, hr, .refl r⟩

theorem onward_updateRun {f : Registration → Disk → Registration × Disk}
    (hf : ∀ (r : Registration) d, r.Onward (f r d).1) (s : Scribe) (d : Disk) (id : RunId) :
    s.Onward (s.updateRun d id f).1 := by
  unfold updateRun
  split
  · exact .refl s
  · exact onward_update hf s d _

theorem onward_persist (s : Scribe) (d : Disk) (i : Nat) : s.Onward (s.persist d i).1 :=
  onward_update Registration.Onward.writeCarried s d i

theorem onward_flush (s : Scribe) (d : Disk) (id : RunId) : s.Onward (s.flush d id).1 :=
  onward_updateRun Registration.Onward.flush s d id

theorem onward_receive (s : Scribe) (d : Disk) (t : RunState) : s.Onward (s.receive d t).1 :=
  onward_updateRun (fun r d => Registration.Onward.receive r d t) s d t.runId

theorem onward_take (s : Scribe) (i : Nat) : s.Onward (s.take i) := by
  refine ⟨rfl, List.length_modify _ _ _, fun j r hr => ?_⟩
  simp only [Scribe.take, List.getElem?_modify, hr]
  split_ifs
  · exact ⟨r.take, rfl, .take r⟩
  · exact ⟨r, rfl, .refl r⟩

/-- The registration at position `n` knows a snapshot of the revision `k` or of a later one. -/
def Knows (s : Scribe) (n k : Nat) : Prop :=
  ∃ r l, s.registrations[n]? = some r ∧ r.latest = some l ∧ k ≤ l.revision

theorem Knows.onward {n k : Nat} (h : s.Knows n k) (hs : s.Onward s') : s'.Knows n k := by
  obtain ⟨r, l, hr, hl, hk⟩ := h
  obtain ⟨r', hr', honward⟩ := hs.onward n r hr
  obtain ⟨l', hl', hle⟩ := honward.latest l hl
  exact ⟨r', l', hr', hl', hk.trans hle⟩

theorem Knows.mono {n k k' : Nat} (h : s.Knows n k) (hk : k' ≤ k) : s.Knows n k' := by
  obtain ⟨r, l, hr, hl, hle⟩ := h
  exact ⟨r, l, hr, hl, hk.trans hle⟩

/-! ### Books in order -/

/-- Every registration has a writer in the background and the directory of its run.  The registration that
a run has at present is one of that run, and the run is on the ledger. -/
structure InOrder (s : Scribe) (l : Ledger) (root : String) : Prop where
  background : ∀ (i : Nat) (r : Registration), s.registrations[i]? = some r → r.background = true
  dir_eq : ∀ (i : Nat) (r : Registration), s.registrations[i]? = some r →
    r.workspace.dir = Workspace.dirFor root r.workspace.runId
  current : ∀ (id : RunId) (i : Nat), s.current.get? id = some i →
    ∃ r t, s.registrations[i]? = some r ∧ r.workspace.runId = id ∧ l.read id = .ok t

theorem inOrder_empty (l : Ledger) (root : String) : empty.InOrder l root where
  background _ _ h := by cases h
  dir_eq _ _ h := by cases h
  current _ _ h := by cases h

namespace InOrder

/-- **The books stay in order** in time, as long as no run disappears from the ledger. -/
theorem onward (h : s.InOrder l root) (hs : s.Onward s')
    (hl : ∀ id t, l.read id = .ok t → ∃ t', l'.read id = .ok t') : s'.InOrder l' root where
  background i r' hr' := by
    obtain ⟨r, hr, honward⟩ := hs.exists_before hr'
    rw [honward.background_eq]
    exact h.background i r hr
  dir_eq i r' hr' := by
    obtain ⟨r, hr, honward⟩ := hs.exists_before hr'
    rw [honward.workspace_eq]
    exact h.dir_eq i r hr
  current id i hi := by
    rw [hs.current_eq] at hi
    obtain ⟨r, t, hr, hid, hread⟩ := h.current id i hi
    obtain ⟨r', hr', honward⟩ := hs.onward i r hr
    obtain ⟨t', hread'⟩ := hl id t hread
    exact ⟨r', t', hr', by rw [honward.workspace_eq, hid], hread'⟩

theorem of_onward (h : s.InOrder l root) (hs : s.Onward s') : s'.InOrder l root :=
  h.onward hs fun _ t ht => ⟨t, ht⟩

/-- An accepted change leaves the runs on the ledger. -/
theorem advance (h : s.InOrder l root) (ha : l.Advance id l' t) : s.InOrder l' root := by
  refine h.onward (.refl s) fun id' t' ht' => ?_
  by_cases hne : id' = id
  · exact ⟨t, hne ▸ ha.read_eq⟩
  · exact ⟨t', (ha.read_of_ne id' hne).trans ht'⟩

/-- A snapshot that arrives leaves the disk alone. -/
theorem receive_disk (h : s.InOrder l root) (d : Disk) (t : RunState) : (s.receive d t).2 = d := by
  unfold receive updateRun
  split
  · rfl
  · unfold update
    split
    · rfl
    · rename_i r hr
      simp only [Registration.receive_of_background (h.background _ r hr)]

/-- A run that is let go may be removed from the ledger. -/
theorem unregister (h : s.InOrder l root)
    (hl : ∀ id', id' ≠ id → l'.read id' = l.read id') : (s.unregister id).InOrder l' root where
  background := h.background
  dir_eq := h.dir_eq
  current id' i hi := by
    rw [Scribe.unregister, Dictionary.get?_erase] at hi
    split_ifs at hi with hne
    obtain ⟨r, t, hr, hid, hread⟩ := h.current id' i hi
    exact ⟨r, t, hr, hid, (hl id' hne).trans hread⟩

theorem placed (h : s.InOrder l root) {i : Nat} (hi : s.current.get? id = some i) :
    i < s.registrations.length := by
  obtain ⟨r, -, hr, -⟩ := h.current id i hi
  exact (List.getElem?_eq_some_iff.1 hr).1

end InOrder

/-- The registration of a run, before and after a snapshot of it has arrived. -/
theorem receive_of_current {i : Nat} {r : Registration} (hi : s.current.get? t.runId = some i)
    (hr : s.registrations[i]? = some r) (hbg : r.background = true) (d : Disk) (j : Nat) :
    (s.receive d t).1.registrations[j]? =
      if j = i then some (r.note (.deliver t)) else s.registrations[j]? := by
  simp only [Scribe.receive, updateRun, hi]
  rw [getElem?_update, hr, Option.map_some, Registration.receive_of_background hbg]

theorem receive_of_none (hi : s.current.get? t.runId = none) (d : Disk) :
    s.receive d t = (s, d) := by
  simp only [Scribe.receive, updateRun, hi]

/-- **After a snapshot has arrived**, the registration of its run knows that one, or a later one. -/
theorem InOrder.knows_receive (h : s.InOrder l root) {n : Nat} (hn : s.current.get? t.runId = some n)
    (d : Disk) : (s.receive d t).1.Knows n t.revision := by
  obtain ⟨r, -, hr, -⟩ := h.current _ n hn
  obtain ⟨l', hl', hle⟩ := r.le_latest_note t
  refine ⟨_, l', ?_, hl', hle⟩
  rw [receive_of_current hn hr (h.background n r hr), if_pos rfl]

/-- A run that is taken on has its registration at the end. -/
theorem getElem?_register (s : Scribe) (w : Workspace) (background : Bool) (j : Nat) :
    (s.register w background).registrations[j]? =
      if j = s.registrations.length then some (.ofWorkspace w background)
      else s.registrations[j]? := by
  simp only [Scribe.register]
  split_ifs with hj
  · rw [hj, List.getElem?_concat_length]
  · rcases Nat.lt_or_gt_of_ne hj with hlt | hgt
    · rw [List.getElem?_append_left hlt]
    · rw [List.getElem?_eq_none (by simp; omega), List.getElem?_eq_none (by omega)]

/-- A run that is taken on and let go again leaves a registration behind that no run has. -/
theorem InOrder.register_unregister (h : s.InOrder l root)
    (hl : ∀ id', id' ≠ id → l'.read id' = l.read id') :
    ((s.register ⟨id, Workspace.dirFor root id⟩ true).unregister id).InOrder l' root where
  background i r hr := by
    rw [Scribe.unregister, getElem?_register] at hr
    split_ifs at hr
    · rw [← Option.some.inj hr]
      rfl
    · exact h.background i r hr
  dir_eq i r hr := by
    rw [Scribe.unregister, getElem?_register] at hr
    split_ifs at hr
    · rw [← Option.some.inj hr]
      rfl
    · exact h.dir_eq i r hr
  current id' i hi := by
    rw [Scribe.unregister, Scribe.register, Dictionary.get?_erase, Dictionary.get?_insert] at hi
    split_ifs at hi with hne
    obtain ⟨r, t, hr, hid, hread⟩ := h.current id' i hi
    have hlt := (List.getElem?_eq_some_iff.1 hr).1
    refine ⟨r, t, ?_, hid, (hl id' hne).trans hread⟩
    rw [Scribe.unregister, getElem?_register, if_neg (by omega), hr]

/-- **A run is taken on and then entered in the ledger.** -/
theorem InOrder.enter (h : s.InOrder l root) (ha : l.Advance id l' t) :
    (s.register ⟨id, Workspace.dirFor root id⟩ true).InOrder l' root where
  background i r hr := by
    rw [getElem?_register] at hr
    split_ifs at hr
    · rw [← Option.some.inj hr]
      rfl
    · exact h.background i r hr
  dir_eq i r hr := by
    rw [getElem?_register] at hr
    split_ifs at hr
    · rw [← Option.some.inj hr]
      rfl
    · exact h.dir_eq i r hr
  current id' i hi := by
    rw [Scribe.register, Dictionary.get?_insert] at hi
    split_ifs at hi with hne
    · obtain rfl := Option.some.inj hi
      exact ⟨_, t, (getElem?_register s _ true _).trans (if_pos rfl), hne.symm, hne ▸ ha.read_eq⟩
    · obtain ⟨r, t', hr, hid, hread⟩ := (h.advance ha).current id' i hi
      have hlt := (List.getElem?_eq_some_iff.1 hr).1
      exact ⟨r, t', by rw [getElem?_register, if_neg (by omega), hr], hid, hread⟩

/-! ### Registrations that are abreast of the ledger -/

/-- The registration at position `n` knows the run as it is on the ledger. -/
def Abreast (s : Scribe) (l : Ledger) (id : RunId) (n : Nat) : Prop :=
  ∃ r t, s.registrations[n]? = some r ∧ r.latest = some t ∧ l.read id = .ok t

/-- A registration that knows nothing, or is abreast, is so after a change that it hears of at once. -/
theorem InOrder.abreast (h : s.InOrder l' root) (ha : l.Advance id l' t) {n : Nat}
    (hn : s.current.get? id = some n) {r : Registration} (hr : s.registrations[n]? = some r)
    (hold : r.latest = none ∨ s.Abreast l id n) (d : Disk) :
    (s.receive d t).1.Abreast l' id n := by
  have hreg := receive_of_current (ha.runId_eq ▸ hn) hr (h.background n r hr) d n
  rw [if_pos rfl] at hreg
  refine ⟨_, t, hreg, Registration.latest_note fun s' hs' => ?_, ha.read_eq⟩
  rcases hold with hnone | ⟨r', t', hr', hl, hread⟩
  · rw [hnone] at hs'
    cases hs'
  · obtain rfl := Option.some.inj (hr.symm.trans hr')
    obtain rfl := Option.some.inj (hl.symm.trans hs')
    exact ha.newer t' hread

end Scribe

end ReviewPanel
