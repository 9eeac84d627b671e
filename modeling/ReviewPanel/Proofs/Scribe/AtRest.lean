import ReviewPanel.Proofs.Scribe.SoleWriter

/-!
# A directory whose documents are finished

A run hands its last snapshot over when it gets its verdict, and has the document flushed.  If the document
has a sole writer and the system lets it be written, no registration with the directory has anything left to
write from then on (`Scribe.AtRest`), and whatever the scribe does next, it writes elsewhere.  Snapshots that
come later than the last one are no news, so they leave the directory at rest.

## Main definitions

* `Disk.Beside`, `Disk.Leaves` : locations apart from a directory and the documents in it, and disks that
  do not differ there.
* `Scribe.AtRest` : no registration with the directory has anything left to write, and no other run has
  one of them.

## Main statements

* `Scribe.Serves.atRest` : **after a flush that succeeds, the directory is at rest.**
* `Scribe.AtRest.take`, `Scribe.AtRest.persist`, `Scribe.AtRest.updateRun`, `Scribe.AtRest.grow` : it stays
  so, and what is written is written elsewhere.
* `Scribe.AtRest.receive` : **it stays so when snapshots arrive that are no news.**
-/

namespace ReviewPanel

/-! ### Documents of other directories -/

namespace Disk

variable {d d' d'' : Disk} {loc base l : Location} {x y : String}

/-- The location is not that of the directory or of something right in it, and not on the way there. -/
def Beside (loc l : Location) : Prop := ∀ t : Location, t.length ≤ 1 → ¬ l <+: loc ++ t

theorem beside_of_ne (hxy : y ≠ x) (base : Location) (z : String) :
    Beside (base ++ [x]) (base ++ [y] ++ [z]) := by
  intro t _ hpre
  rw [List.append_assoc, List.append_assoc, List.prefix_append_right_inj] at hpre
  exact hxy (List.cons_prefix_cons.1 hpre).1

theorem beside_of_length (h : loc.length + 1 < l.length) : Beside loc l := by
  intro t ht hpre
  have hlen := hpre.length_le
  rw [List.length_append] at hlen
  omega

/-- What can be found at the location and right below it is the same on both disks. -/
structure Leaves (loc : Location) (d d' : Disk) : Prop where
  here_eq : d'.here = d.here
  reach_eq : ∀ t : Location, t.length ≤ 1 → d'.reach (loc ++ t) = d.reach (loc ++ t)

namespace Leaves

@[refl] theorem refl (loc : Location) (d : Disk) : Leaves loc d d := ⟨rfl, fun _ _ => rfl⟩

theorem trans (h : Leaves loc d d') (h' : Leaves loc d' d'') : Leaves loc d d'' :=
  ⟨h'.here_eq.trans h.here_eq, fun t ht => (h'.reach_eq t ht).trans (h.reach_eq t ht)⟩

theorem of_writes (h : Writes (Beside loc) d d') : Leaves loc d d' :=
  ⟨h.here_eq, fun t ht => h.reach_eq fun _ hl => hl t ht⟩

theorem of_untouched (h : Untouched loc d d') : Leaves loc d d' :=
  ⟨h.1, fun _ _ => h.reach_below (List.prefix_append _ _)⟩

theorem of_refusing (loc : Location) (d : Disk) (refusal retention : Location → Option OsError) :
    Leaves loc d { d with refusal, retention } :=
  ⟨rfl, fun _ _ => reachFrom_refusing d refusal retention _ _⟩

theorem reach_directory {root name : String} (h : Leaves (d.locate root ++ [name]) d d')
    (hthere : d.reach (d.locate root ++ [name]) = .ok .directory) :
    d'.reach (d'.locate root ++ [name]) = .ok .directory := by
  have hreach := h.reach_eq [] (Nat.zero_le 1)
  rw [List.append_nil] at hreach
  rw [locate_congr h.here_eq, hreach, hthere]

theorem fileContent_eq (h : Leaves loc d d') (name : String) :
    d'.fileContent (loc ++ [name]) = d.fileContent (loc ++ [name]) := by
  simp only [fileContent, h.reach_eq [name] (Nat.le_refl 1)]

end Leaves

end Disk

namespace Scribe

open Workspace (dirFor)

variable {s s' : Scribe} {l l' : Ledger} {root : String} {id b : RunId} {d : Disk} {n : Nat}
  {ds : List RunState} {t : RunState}

/-- No registration with the directory of the run has anything left to write, and no other run has one of
them at present. -/
structure AtRest (s : Scribe) (root : String) (id : RunId) : Prop where
  idle : ∀ (i : Nat) (r : Registration), s.registrations[i]? = some r →
    r.workspace.dir = dirFor root id → r.Idle
  own : ∀ (b : RunId) (i : Nat) (r : Registration), s.current.get? b = some i →
    s.registrations[i]? = some r → r.workspace.dir = dirFor root id → b = id

/-- The document of another directory is not in that of the run. -/
theorem InOrder.beside (hin : s.InOrder l root) {i : Nat} {r : Registration}
    (hr : s.registrations[i]? = some r) (hdir : r.workspace.dir ≠ dirFor root id) (d : Disk)
    (name : String) :
    Disk.Beside (d.locate root ++ [sanitize id]) (d.locate r.workspace.dir ++ [name]) := by
  rw [hin.dir_eq i r hr, Ne, Workspace.dirFor_inj] at hdir
  rw [hin.dir_eq i r hr, Workspace.locate_dirFor]
  exact Disk.beside_of_ne hdir _ _

namespace AtRest

/-! ### What keeps a directory at rest -/

theorem unregister (h : s.AtRest root id) (b : RunId) : (s.unregister b).AtRest root id where
  idle := h.idle
  own b' i r hi := by
    rw [Scribe.unregister, Dictionary.get?_erase] at hi
    split_ifs at hi
    exact h.own b' i r hi

/-- Changing one registration keeps a directory at rest, if what is idle stays so. -/
theorem update (h : s.AtRest root id) {i : Nat} {f : Registration → Disk → Registration × Disk}
    (hface : ∀ r, (f r d).1.workspace = r.workspace)
    (hidle : ∀ r, s.registrations[i]? = some r → r.workspace.dir = dirFor root id → (f r d).1.Idle) :
    (s.update d i f).1.AtRest root id where
  idle j r' hr' hdir := by
    rw [getElem?_update] at hr'
    split_ifs at hr' with hji
    · obtain ⟨r, hr, rfl⟩ := Option.map_eq_some_iff.1 hr'
      exact hidle r hr (by rwa [hface] at hdir)
    · exact h.idle j r' hr' hdir
  own b' j r' hj hr' hdir := by
    rw [update_current] at hj
    rw [getElem?_update] at hr'
    split_ifs at hr' with hji
    · obtain ⟨r, hr, rfl⟩ := Option.map_eq_some_iff.1 hr'
      exact h.own b' j r hj (hji ▸ hr) (by rwa [hface] at hdir)
    · exact h.own b' j r' hj hr' hdir

theorem updateRun (h : s.AtRest root id) (hb : b ≠ id)
    {f : Registration → Disk → Registration × Disk}
    (hface : ∀ r, (f r d).1.workspace = r.workspace) : (s.updateRun d b f).1.AtRest root id := by
  unfold Scribe.updateRun
  split
  · exact h
  · rename_i i hi
    exact h.update hface fun r hr hdir => absurd (h.own b i r hi hr hdir) hb

theorem take (h : s.AtRest root id) (m : Nat) : (s.take m).AtRest root id := by
  have hface : ∀ r : Registration, r.take.workspace = r.workspace := fun r =>
    (Registration.Onward.take r).workspace_eq
  refine ⟨fun i r' hr' hdir => ?_, fun b i r' hi hr' hdir => ?_⟩
  · simp only [Scribe.take, List.getElem?_modify] at hr'
    obtain ⟨r, hr, rfl⟩ := Option.map_eq_some_iff.1 hr'
    by_cases hm : m = i
    · simp only [if_pos hm, hface] at hdir ⊢
      exact (h.idle i r hr hdir).take
    · simp only [if_neg hm] at hdir ⊢
      exact h.idle i r hr hdir
  · simp only [Scribe.take, List.getElem?_modify] at hr'
    obtain ⟨r, hr, rfl⟩ := Option.map_eq_some_iff.1 hr'
    refine h.own b i r hi hr ?_
    by_cases hm : m = i
    · simpa only [if_pos hm, hface] using hdir
    · simpa only [if_neg hm] using hdir

theorem persist (h : s.AtRest root id) (d : Disk) (m : Nat) : (s.persist d m).1.AtRest root id :=
  h.update (fun r => (Registration.Onward.writeCarried r d).workspace_eq) fun r hr hdir =>
    ((h.idle m r hr hdir).writeCarried d).1

/-- So does one more registration, if it has another directory, or if it is idle and was let go at once. -/
theorem grow (h : s.AtRest root id) {m : Nat}
    (hregs : ∀ j, j ≠ m → s'.registrations[j]? = s.registrations[j]?)
    (hnew : ∀ r, s'.registrations[m]? = some r → r.workspace.dir ≠ dirFor root id ∨
      r.Idle ∧ ∀ b, s'.current.get? b ≠ some m)
    (hcurrent : ∀ b i, i ≠ m → s'.current.get? b = some i → s.current.get? b = some i) :
    s'.AtRest root id where
  idle i r hr hdir := by
    by_cases him : i = m
    · subst him
      exact ((hnew r hr).resolve_left fun hne => hne hdir).1
    · exact h.idle i r ((hregs i him).symm.trans hr) hdir
  own b i r hi hr hdir := by
    by_cases him : i = m
    · subst him
      exact absurd hi (((hnew r hr).resolve_left fun hne => hne hdir).2 b)
    · exact h.own b i r (hcurrent b i him hi) ((hregs i him).symm.trans hr) hdir

/-- A run that is taken on and let go at once. -/
theorem register_unregister (h : s.AtRest root id) (hin : s.InOrder l root) (w : Workspace) :
    ((s.register w true).unregister w.runId).AtRest root id := by
  have hregs := s.getElem?_register w true
  refine h.grow (m := s.registrations.length) (fun j hj => (hregs j).trans (if_neg hj)) ?_
    fun b i _ hi => current_of_register_unregister hi
  intro r hr
  rw [← Option.some.inj (((hregs _).trans (if_pos rfl)).symm.trans hr)]
  refine .inr ⟨Registration.idle_ofWorkspace _ _, fun b hb => ?_⟩
  exact absurd (hin.placed (current_of_register_unregister hb)) (Nat.lt_irrefl _)

/-! ### What is written elsewhere -/

theorem persist_writes (h : s.AtRest root id) (hin : s.InOrder l root) (d : Disk) (m : Nat) :
    Disk.Writes (Disk.Beside (d.locate root ++ [sanitize id])) d (s.persist d m).2 := by
  refine update_writes fun r hr => ?_
  by_cases hdir : r.workspace.dir = dirFor root id
  · rw [((h.idle m r hr hdir).writeCarried d).2]
    exact .refl
  · refine (r.writeCarried_writes d).mono ?_
    rintro _ rfl
    exact hin.beside hr hdir d _

theorem flush_writes (h : s.AtRest root id) (hin : s.InOrder l root) (hb : b ≠ id) (d : Disk) :
    Disk.Writes (Disk.Beside (d.locate root ++ [sanitize id])) d (s.flush d b).2 := by
  refine updateRun_writes fun i r hi hr => (r.flush_writes d).mono ?_
  rintro _ rfl
  exact hin.beside hr (fun hdir => hb (h.own b i r hi hr hdir)) d _

end AtRest

end Scribe

/-! ### How a directory comes to rest -/

/-- **A registration that is flushed is idle**, if the system lets it write the newest snapshot that it
knows, and the document shows that one. -/
theorem Registration.Follows.flush_idle {w : Workspace} {c : Except OsError (List Symbol)}
    {ds : List RunState} {r : Registration} {d d' : Disk} {t : RunState} (h : Follows w c ds r d)
    (hl : r.latest = some t) (hwrite : w.writeStatus d t = .ok d') :
    (r.flush d).1.Idle ∧ ∃ x ∈ ds, t.revision ≤ x.revision ∧
      w.statusContent (r.flush d).2 = .ok x.document := by
  have hflush : r.flush d = r.persist d t := by rw [Registration.flush, hl]
  have hok : ∀ e, r.attempt? d t ≠ some (.error e) := by
    intro e he
    rw [← h.workspace, (attempt?_eq_some.1 he).2] at hwrite
    cases hwrite
  obtain ⟨m, hm, hle⟩ := written_of_not_error hok
  have hafter : Follows w c ds (r.persist d t).1 (r.persist d t).2 := h.persist (h.latest t hl).1
  have hlatest : (r.persist d t).1.latest = some t := (persist_latest r d t).trans hl
  obtain ⟨x, hx, hmax, hdoc⟩ := hafter.shows_newest hlatest hm hle
  rw [hflush]
  refine ⟨⟨fun y hy => ?_, fun _ y hy => ?_⟩, x, hx, hmax t (h.latest t hl).1, hdoc⟩
  · exact isStale_iff.2 ⟨m, hm, ((hafter.latest t hlatest).2 y (hafter.carried y hy)).trans hle⟩
  · obtain rfl := Option.some.inj (hlatest.symm.trans hy)
    exact isStale_iff.2 ⟨m, hm, hle⟩

/-- **After a flush that succeeds, the directory is at rest** and the document shows the newest snapshot:
its sole writer has written it, and the others have nothing left to write. -/
theorem Scribe.Serves.atRest {s : Scribe} {l : Ledger} {root : String} {id : RunId} {d : Disk} {n : Nat}
    {ds : List RunState} {t : RunState} (h : s.Serves d root id n ds) (hin : s.InOrder l root)
    (hn : s.current.get? id = some n) (hknows : s.Knows n t.revision)
    (hnewest : ∀ x ∈ ds, x = t ∨ x.revision < t.revision)
    (hwritable : ∀ x, ∃ d', Workspace.writeStatus ⟨id, Workspace.dirFor root id⟩ d x = .ok d') :
    (s.flush d id).1.AtRest root id ∧
      Workspace.statusContent ⟨id, Workspace.dirFor root id⟩ (s.flush d id).2 = .ok t.document := by
  obtain ⟨r, hr, hfollows⟩ := h.own
  obtain ⟨r', x, hr', hx, hle⟩ := hknows
  obtain rfl := Option.some.inj (hr.symm.trans hr')
  obtain rfl := (hnewest x (hfollows.latest x hx).1).resolve_right (Nat.not_lt.2 hle)
  obtain ⟨d', hwrite⟩ := hwritable x
  obtain ⟨hidle, y, hy, hrev, hdoc⟩ := hfollows.flush_idle hx hwrite
  obtain rfl := (hnewest y hy).resolve_right (Nat.not_lt.2 hrev)
  have hflush : s.flush d id = s.update d n Registration.flush := by
    simp only [Scribe.flush, Scribe.updateRun, hn]
  rw [hflush]
  refine ⟨⟨fun i r₁ hr₁ hdir => ?_, fun b i r₁ hi hr₁ hdir => ?_⟩, ?_⟩
  · rw [getElem?_update] at hr₁
    split_ifs at hr₁ with hi
    · rw [hr, Option.map_some] at hr₁
      exact Option.some.inj hr₁ ▸ hidle
    · exact (h.sole.others i r₁ hi hr₁ hdir).1
  · rw [update_current] at hi
    by_cases hin' : i = n
    · subst hin'
      exact h.runId_eq hin hi
    · rw [getElem?_update, if_neg hin'] at hr₁
      exact absurd hi ((h.sole.others i r₁ hin' hr₁ hdir).2 b)
  · rw [update_of_registration hr, hdoc]

/-- **A directory at rest stays so when snapshots arrive that are no news**, or that are another run's. -/
theorem Scribe.AtRest.receive {s : Scribe} {l : Ledger} {root : String} {id : RunId} {t : RunState}
    (h : s.AtRest root id) (hin : s.InOrder l root) (d : Disk)
    (hold : t.runId = id → ∀ n, s.current.get? id = some n → s.Knows n t.revision) :
    (s.receive d t).1.AtRest root id := by
  by_cases hid : t.runId = id
  · cases hn : s.current.get? t.runId with
    | none =>
      rw [receive_of_none hn]
      exact h
    | some n =>
      obtain ⟨r, x, hr, hx, hle⟩ := hold hid n (hid ▸ hn)
      have hreg := receive_of_current hn hr (hin.background n r hr) d
      have hnews : ¬ r.isNews t = true := by simp [Registration.isNews, hx, hle]
      -- the registration takes no notice
      have hsame : ∀ j : Nat, (s.receive d t).1.registrations[j]? = s.registrations[j]? := by
        intro j
        rw [hreg, Registration.note, if_neg hnews]
        split_ifs with hj
        · rw [hj, hr]
        · rfl
      have hcurrent := (s.onward_receive d t).current_eq
      exact ⟨fun i r' hr' => h.idle i r' ((hsame i).symm.trans hr'), fun b i r' hi hr' =>
        h.own b i r' (hcurrent ▸ hi) ((hsame i).symm.trans hr')⟩
  · exact h.updateRun hid fun r => Registration.receive_workspace r d t

end ReviewPanel
