import ReviewPanel.Proofs.Scribe.InOrder

/-!
# The writers of one document

A registration outlives its run: its writer may hold a snapshot that it has not written, or may not have
taken the newest one yet, and it writes to a path, whatever is there by then.  It is idle if neither is
news to it.  An idle registration that no run has any more never writes again.

If all other registrations with the directory of a run are idle and have been let go, the document of the
run has one writer, and what that writer follows is what the document shows.

## Main definitions

* `Registration.Idle` : nothing is left to write.
* `Scribe.SoleWriter` : all other registrations with the same directory are idle and have been let go.
* `Scribe.Serves` : the document has a sole writer, which follows the snapshots of the run.
* `Workspace.Renews` : a document gives way to that of a newer snapshot.

## Main statements

* `Registration.Idle.take`, `Registration.Idle.writeCarried` : what is idle stays so, and writes nothing.
* `Scribe.SoleWriter.update`, `Scribe.SoleWriter.grow` : so a sole writer stays one.
* `Scribe.Serves.receive`, `Scribe.Serves.persist`, `Scribe.Serves.flush` : **the document of a run with a
  sole writer is renewed by that writer only.**
-/

namespace ReviewPanel

namespace Registration

variable {w : Workspace} {r : Registration} {d : Disk} {s : RunState} {ds : List RunState}
  {c : Except OsError (List Symbol)}

/-- Neither what the writer carries nor what it has not taken yet is newer than what was written. -/
structure Idle (r : Registration) : Prop where
  carried : ∀ s, r.carried = some s → r.isStale s = true
  latest : r.unseen = true → ∀ s, r.latest = some s → r.isStale s = true

instance (r : Registration) : Decidable r.Idle :=
  decidable_of_iff
    (r.carried.all r.isStale = true ∧ (r.unseen = true → r.latest.all r.isStale = true))
    ⟨fun h => ⟨Option.all_eq_true _ _ |>.1 h.1, fun hu => Option.all_eq_true _ _ |>.1 (h.2 hu)⟩,
      fun h => ⟨Option.all_eq_true _ _ |>.2 h.carried,
        fun hu => Option.all_eq_true _ _ |>.2 (h.latest hu)⟩⟩

theorem idle_ofWorkspace (w : Workspace) (background : Bool) : (ofWorkspace w background).Idle where
  carried _ h := by cases h
  latest h := by cases h

theorem Idle.take (h : r.Idle) : r.take.Idle := by
  unfold Registration.take
  split_ifs with htakes
  · exact ⟨fun s hs => h.latest htakes.2.1 s hs, fun hunseen => by cases hunseen⟩
  · exact h

theorem writeCarried_of_stale (h : ∀ s, r.carried = some s → r.isStale s = true) (d : Disk) :
    r.writeCarried d = ({ r with carried := none }, d) := by
  unfold Registration.writeCarried
  split
  · rename_i hnone
    rw [← hnone]
  · rename_i s hs
    exact if_pos (h s hs)

theorem Idle.writeCarried (h : r.Idle) (d : Disk) :
    (r.writeCarried d).1.Idle ∧ (r.writeCarried d).2 = d := by
  rw [writeCarried_of_stale h.carried]
  exact ⟨⟨fun _ hs => (by cases hs), h.latest⟩, rfl⟩

theorem exists_of_not_idle (h : ¬ r.Idle) : ∃ s, r.isStale s = false ∧
    (r.carried = some s ∨ (∀ s', r.carried = some s' → r.isStale s' = true) ∧ r.unseen = true ∧
      r.latest = some s) := by
  by_cases hcarried : ∀ s', r.carried = some s' → r.isStale s' = true
  · have hlatest : ¬ (r.unseen = true → ∀ s, r.latest = some s → r.isStale s = true) :=
      fun hlatest => h ⟨hcarried, hlatest⟩
    simp only [Classical.not_imp, not_forall, Bool.not_eq_true] at hlatest
    obtain ⟨hunseen, s, hs, hnews⟩ := hlatest
    exact ⟨s, hnews, .inr ⟨hcarried, hunseen, hs⟩⟩
  · simp only [not_forall, Bool.not_eq_true] at hcarried
    obtain ⟨s, hs, hnews⟩ := hcarried
    exact ⟨s, hnews, .inl hs⟩

/-- **A write that changes the document goes forward**, from what the document was at first, or from a
delivered snapshot of a lower revision. -/
theorem Follows.persist_change (h : Follows w c ds r d) (r' : Registration)
    (hws : r'.workspace = w) (hwritten : r'.written = r.written)
    (hne : w.statusContent (r'.persist d s).2 ≠ w.statusContent d) :
    w.statusContent (r'.persist d s).2 = .ok s.document ∧
      (w.statusContent d = c ∨
        ∃ t ∈ ds, w.statusContent d = .ok t.document ∧ t.revision < s.revision) := by
  rw [persist_eq] at hne ⊢
  split at hne
  · rename_i d' hattempt
    obtain ⟨hnews, hwrite⟩ := attempt?_eq_some.1 hattempt
    simp only
    refine ⟨Workspace.statusContent_of_writeStatus (hws ▸ hwrite), ?_⟩
    cases hw : r.written with
    | none => exact .inl (h.unwritten hw)
    | some n =>
      obtain ⟨t, ht, rfl, hcontent⟩ := h.written n hw
      refine .inr ⟨t, ht, hcontent, Nat.not_le.1 fun hle => ?_⟩
      have hstale := isStale_iff.2 ⟨t.revision, hwritten.trans hw, hle⟩
      rw [hnews] at hstale
      cases hstale
  · exact absurd rfl hne

theorem receive_workspace (r : Registration) (d : Disk) (t : RunState) :
    (r.receive d t).1.workspace = r.workspace := by
  unfold receive
  split_ifs
  · dsimp only
    split_ifs
    · rfl
    · exact (Onward.persist _ d t).workspace_eq
  · rfl

theorem Follows.act_of_nil (h : Follows w c ds r d) {a : Scribe.Action}
    (ha : Scribe.Action.delivered [a] = []) : Follows w c ds (r.act d a).1 (r.act d a).2 := by
  have hact := h.act a
  rwa [ha, List.append_nil] at hact

theorem Follows.congr {d' : Disk} (h : Follows w c ds r d)
    (hsame : w.statusContent d' = w.statusContent d) : Follows w c ds r d' :=
  ⟨h.workspace, h.latest, h.nothing, h.carried, fun hw => hsame.trans (h.unwritten hw), fun n hn => by
    rw [hsame]
    exact h.written n hn⟩

end Registration

namespace Scribe

open Registration (Idle)

variable {s : Scribe} {root : String} {id : RunId} {n : Nat}

/-- Of all registrations with the directory of the run, only the one at position `n` may still write: it
is the only one that the run may have at present, and the others are idle and have been let go. -/
structure SoleWriter (s : Scribe) (root : String) (id : RunId) (n : Nat) : Prop where
  current : ∀ i, s.current.get? id = some i → i = n
  others : ∀ (i : Nat) (r : Registration), i ≠ n → s.registrations[i]? = some r →
    r.workspace.dir = Workspace.dirFor root id → r.Idle ∧ ∀ b, s.current.get? b ≠ some i

namespace SoleWriter

theorem of_current {s' : Scribe} (h : s.SoleWriter root id n)
    (hregs : s'.registrations = s.registrations)
    (hcurrent : ∀ b i, s'.current.get? b = some i → s.current.get? b = some i) :
    s'.SoleWriter root id n where
  current i hi := h.current i (hcurrent id i hi)
  others i r hi hr hdir := by
    obtain ⟨hidle, hgone⟩ := h.others i r hi (hregs ▸ hr) hdir
    exact ⟨hidle, fun b hb => hgone b (hcurrent b i hb)⟩

theorem unregister (h : s.SoleWriter root id n) (b : RunId) :
    (s.unregister b).SoleWriter root id n := by
  refine h.of_current rfl fun b' i hi => ?_
  rw [Scribe.unregister, Dictionary.get?_erase] at hi
  split_ifs at hi
  exact hi

/-- Changing one registration keeps a sole writer, if what is idle stays so. -/
theorem update (h : s.SoleWriter root id n) {d : Disk} {i : Nat}
    {f : Registration → Disk → Registration × Disk} (hface : ∀ r, (f r d).1.workspace = r.workspace)
    (hidle : ∀ r, (∀ b, s.current.get? b ≠ some i) → r.Idle → (f r d).1.Idle) :
    (s.update d i f).1.SoleWriter root id n where
  current j hj := h.current j (by rwa [update_current] at hj)
  others j r' hj hr' hdir := by
    rw [getElem?_update] at hr'
    rw [update_current]
    split_ifs at hr' with hji
    · subst hji
      obtain ⟨r, hr, rfl⟩ := Option.map_eq_some_iff.1 hr'
      obtain ⟨hr_idle, hgone⟩ := h.others j r hj hr (by rwa [hface] at hdir)
      exact ⟨hidle r hgone hr_idle, hgone⟩
    · exact h.others j r' hj hr' hdir

theorem updateRun (h : s.SoleWriter root id n) {d : Disk} (b : RunId)
    {f : Registration → Disk → Registration × Disk}
    (hface : ∀ r, (f r d).1.workspace = r.workspace) :
    (s.updateRun d b f).1.SoleWriter root id n := by
  unfold Scribe.updateRun
  split
  · exact h
  · rename_i i hi
    exact h.update hface fun r hgone => absurd hi (hgone b)

theorem take (h : s.SoleWriter root id n) (i : Nat) : (s.take i).SoleWriter root id n where
  current := h.current
  others j r' hj hr' hdir := by
    simp only [Scribe.take, List.getElem?_modify] at hr'
    obtain ⟨r, hr, rfl⟩ := Option.map_eq_some_iff.1 hr'
    have hface : r.take.workspace = r.workspace := (Registration.Onward.take r).workspace_eq
    by_cases hij : i = j
    · simp only [if_pos hij, hface] at hdir ⊢
      obtain ⟨hidle, hgone⟩ := h.others j r hj hr hdir
      exact ⟨hidle.take, hgone⟩
    · simp only [if_neg hij] at hdir ⊢
      exact h.others j r hj hr hdir

/-- One more registration keeps a sole writer, if it has another directory, or if it is idle and was let
go at once. -/
theorem grow (h : s.SoleWriter root id n) {s' : Scribe} {m : Nat}
    (hregs : ∀ j, j ≠ m → s'.registrations[j]? = s.registrations[j]?)
    (hnew : ∀ r, s'.registrations[m]? = some r → r.workspace.dir ≠ Workspace.dirFor root id ∨
      r.Idle ∧ ∀ b, s'.current.get? b ≠ some m)
    (hcurrent : ∀ b i, s'.current.get? b = some i → s.current.get? b = some i ∨ i = m ∧ b ≠ id) :
    s'.SoleWriter root id n where
  current i hi := by
    rcases hcurrent id i hi with hold | ⟨-, hne⟩
    · exact h.current i hold
    · exact absurd rfl hne
  others i r hi hr hdir := by
    by_cases him : i = m
    · subst him
      rcases hnew r hr with hother | hgone
      · exact absurd hdir hother
      · exact hgone
    · obtain ⟨hidle, hgone⟩ := h.others i r hi ((hregs i him).symm.trans hr) hdir
      refine ⟨hidle, fun b hb => ?_⟩
      rcases hcurrent b i hb with hold | ⟨heq, -⟩
      · exact hgone b hold
      · exact him heq

end SoleWriter

end Scribe

/-! ### Documents -/

namespace Workspace

variable {d d' : Disk} {root : String} {id : RunId}

/-- The state document of `d` is missing or that of one of the snapshots `ds`, and that of `d'` belongs to
the snapshot `x`, of a higher revision. -/
def Renews (w : Workspace) (d d' : Disk) (ds : List RunState) (x : RunState) : Prop :=
  w.statusContent d' = .ok x.document ∧
    (w.statusContent d = .error .notFound ∨
      ∃ s ∈ ds, w.statusContent d = .ok s.document ∧ s.revision < x.revision)

theorem statusContent_of_reach {w : Workspace} (hhere : d'.here = d.here)
    (hreach : d'.reach (d.locate w.statusPath) = d.reach (d.locate w.statusPath)) :
    w.statusContent d' = w.statusContent d := by
  have hlocate : d'.locate w.statusPath = d.locate w.statusPath := by simp only [Disk.locate, hhere]
  simp only [statusContent, Disk.fileContent, hlocate, hreach]

theorem statusContent_of_writes {w : Workspace} {P : Location → Prop} (h : Disk.Writes P d d')
    (hP : ∀ l, P l → ¬ l <+: d.locate w.statusPath) : w.statusContent d' = w.statusContent d :=
  statusContent_of_reach h.here_eq (h.reach_eq hP)

/-- The document can be written if its directory is there, it is none itself, and the system does not
refuse. -/
theorem exists_writeStatus (hthere : d.reach (d.locate root ++ [sanitize id]) = .ok .directory)
    (hfile : statusContent ⟨id, dirFor root id⟩ d ≠ .error .isDirectory)
    (hrefusal : d.refusal (d.locate (statusPath ⟨id, dirFor root id⟩)) = none) (s : RunState) :
    ∃ d', writeStatus ⟨id, dirFor root id⟩ d s = .ok d' := by
  rw [locate_statusPath] at hrefusal
  have hnode : d.node? (d.locate root ++ [sanitize id] ++ [statusName]) ≠ some .directory := by
    intro hnode
    refine hfile ?_
    rw [statusContent, locate_statusPath, Disk.fileContent, Disk.reach_concat hthere,
      if_neg (by decide), hnode]
  have hreplace := Disk.replaceFile_of_reach hthere hnode hrefusal
    (Utf8.ofString s.toValue.prettyText)
  rw [← locate_dirFor] at hreplace
  exact ⟨_, by rw [writeStatus, writeDocument, hreplace]⟩

theorem not_isPrefix_statusPath (d : Disk) {x y : String} (hxy : x ≠ sanitize id ∨ y ≠ statusName) :
    ¬ d.locate root ++ [x] ++ [y] <+: d.locate (statusPath ⟨id, dirFor root id⟩) := by
  rw [locate_statusPath, List.append_assoc, List.append_assoc, List.prefix_append_right_inj]
  intro hpre
  obtain ⟨hx, hpre⟩ := List.cons_prefix_cons.1 hpre
  obtain ⟨hy, -⟩ := List.cons_prefix_cons.1 hpre
  exact hxy.elim (fun hne => hne hx) fun hne => hne hy

end Workspace

/-! ### A document with a sole writer -/

namespace Scribe

open Registration (Follows)
open Workspace (dirFor)

variable {s : Scribe} {l l' : Ledger} {root : String} {d d' : Disk} {id b : RunId} {n : Nat}
  {ds : List RunState} {t : RunState}

/-- The document of the run has a sole writer, which follows the snapshots `ds`.  At first there was no
document. -/
structure Serves (s : Scribe) (d : Disk) (root : String) (id : RunId) (n : Nat) (ds : List RunState) :
    Prop where
  own : ∃ r, s.registrations[n]? = some r ∧ Follows ⟨id, dirFor root id⟩ (.error .notFound) ds r d
  sole : s.SoleWriter root id n

/-- A run that is taken on and let go again leaves the present registrations as they were. -/
theorem current_of_register_unregister {w : Workspace} {background : Bool} {i : Nat}
    (h : ((s.register w background).unregister w.runId).current.get? b = some i) :
    s.current.get? b = some i := by
  rw [Scribe.unregister, Scribe.register, Dictionary.get?_erase, Dictionary.get?_insert] at h
  split_ifs at h
  exact h

theorem InOrder.not_isPrefix_statusPath (h : s.InOrder l root) {i : Nat} {r : Registration}
    (hr : s.registrations[i]? = some r) (hdir : r.workspace.dir ≠ dirFor root id) (d : Disk) :
    ¬ r.statusLocation d <+: d.locate (Workspace.statusPath ⟨id, dirFor root id⟩) := by
  rw [h.dir_eq i r hr, Ne, Workspace.dirFor_inj] at hdir
  rw [Registration.statusLocation, h.dir_eq i r hr, Workspace.locate_dirFor]
  exact Workspace.not_isPrefix_statusPath d (.inl hdir)

namespace Serves

theorem congr (h : s.Serves d root id n ds)
    (hsame : Workspace.statusContent ⟨id, dirFor root id⟩ d' =
      Workspace.statusContent ⟨id, dirFor root id⟩ d) : s.Serves d' root id n ds := by
  obtain ⟨r, hr, hfollows⟩ := h.own
  exact ⟨⟨r, hr, hfollows.congr hsame⟩, h.sole⟩

/-- If some run has the sole writer at present, it is the one that the document is about. -/
theorem runId_eq (h : s.Serves d root id n ds) (hin : s.InOrder l root)
    (hb : s.current.get? b = some n) : b = id := by
  obtain ⟨r, hr, hfollows⟩ := h.own
  obtain ⟨r', -, hr', hid, -⟩ := hin.current b n hb
  obtain rfl := Option.some.inj (hr.symm.trans hr')
  rw [← hid, hfollows.workspace]

theorem dir_ne (h : s.Serves d root id n ds) {i : Nat} (hb : s.current.get? b = some i) (hi : i ≠ n)
    {r : Registration} (hr : s.registrations[i]? = some r) : r.workspace.dir ≠ dirFor root id :=
  fun hdir => (h.sole.others i r hi hr hdir).2 b hb

theorem unregister (h : s.Serves d root id n ds) (b : RunId) :
    (s.unregister b).Serves d root id n ds :=
  ⟨h.own, h.sole.unregister b⟩

theorem register_unregister (h : s.Serves d root id n ds) (hin : s.InOrder l root) (w : Workspace) :
    ((s.register w true).unregister w.runId).Serves d root id n ds := by
  obtain ⟨⟨r, hr, hfollows⟩, hsole⟩ := h
  have hlt := (List.getElem?_eq_some_iff.1 hr).1
  have hregs := s.getElem?_register w true
  have hcurrent : ∀ b i, ((s.register w true).unregister w.runId).current.get? b = some i →
      s.current.get? b = some i := fun b i hi => current_of_register_unregister hi
  refine ⟨⟨r, ?_, hfollows⟩, hsole.grow (m := s.registrations.length) ?_ ?_ ?_⟩
  · exact (hregs n).trans ((if_neg (Nat.ne_of_lt hlt)).trans hr)
  · exact fun j hj => (hregs j).trans (if_neg hj)
  · intro r' hr'
    rw [← Option.some.inj (((hregs _).trans (if_pos rfl)).symm.trans hr')]
    refine .inr ⟨Registration.idle_ofWorkspace _ _, fun b hb => ?_⟩
    exact absurd (hin.placed (hcurrent b _ hb)) (Nat.lt_irrefl _)
  · exact fun b i hi => .inl (hcurrent b i hi)

/-- **The sole writer takes notice of what is news to it**, and of nothing but snapshots of its run. -/
theorem receive (h : s.Serves d root id n ds) (hin : s.InOrder l root) (t : RunState) :
    ∃ ds', (s.receive d t).1.Serves d root id n ds' ∧
      ∀ x ∈ ds', x ∈ ds ∨ x = t ∧ t.runId = id ∧ ¬ s.Knows n t.revision := by
  have hsole : (s.receive d t).1.SoleWriter root id n :=
    h.sole.updateRun _ fun r => (Registration.receive_workspace r d t)
  obtain ⟨r, hr, hfollows⟩ := h.own
  cases hi : s.current.get? t.runId with
  | none =>
    rw [receive_of_none hi]
    exact ⟨ds, h, fun x hx => .inl hx⟩
  | some i =>
    obtain ⟨r', -, hr', -⟩ := hin.current _ i hi
    have hreg := receive_of_current hi hr' (hin.background i r' hr') d n
    by_cases hin' : n = i
    · subst hin'
      obtain rfl := Option.some.inj (hr.symm.trans hr')
      rw [if_pos rfl, Registration.note] at hreg
      by_cases hnews : r.isNews t = true
      · rw [if_pos hnews] at hreg
        refine ⟨ds ++ [t], ⟨⟨_, hreg, hfollows.news hnews⟩, hsole⟩, fun x hx => ?_⟩
        rcases List.mem_append.1 hx with hx | hx
        · exact .inl hx
        · refine .inr ⟨List.mem_singleton.1 hx, h.runId_eq hin hi, ?_⟩
          -- what is news is newer than what the registration knows
          rintro ⟨r₀, k, hr₀, hk, hle⟩
          obtain rfl := Option.some.inj (hr.symm.trans hr₀)
          rw [Registration.isNews, hk] at hnews
          exact absurd hle (Nat.not_le.2 (of_decide_eq_true hnews))
      · rw [if_neg hnews] at hreg
        exact ⟨ds, ⟨⟨r, hreg, hfollows⟩, hsole⟩, fun x hx => .inl hx⟩
    · exact ⟨ds, ⟨⟨r, by rw [hreg, if_neg hin', hr], hfollows⟩, hsole⟩, fun x hx => .inl hx⟩

theorem take (h : s.Serves d root id n ds) (m : Nat) : (s.take m).Serves d root id n ds := by
  obtain ⟨r, hr, hfollows⟩ := h.own
  refine ⟨?_, h.sole.take m⟩
  simp only [Scribe.take, List.getElem?_modify, hr]
  by_cases hm : m = n
  · exact ⟨r.take, by simp [hm], hfollows.act_of_nil (a := .take) rfl⟩
  · exact ⟨r, by simp [hm], hfollows⟩

/-- **One registration writes.**  The document is renewed only if it is the sole writer that does. -/
theorem update (h : s.Serves d root id n ds) {i : Nat} {f : Registration → Disk → Registration × Disk}
    (hsole : (s.update d i f).1.SoleWriter root id n)
    (hown : ∀ r, Follows ⟨id, dirFor root id⟩ (.error .notFound) ds r d →
      Follows ⟨id, dirFor root id⟩ (.error .notFound) ds (f r d).1 (f r d).2)
    (hother : i ≠ n → ∀ r, s.registrations[i]? = some r →
      Workspace.statusContent ⟨id, dirFor root id⟩ (f r d).2 =
        Workspace.statusContent ⟨id, dirFor root id⟩ d) :
    (s.update d i f).1.Serves (s.update d i f).2 root id n ds ∧
      (Workspace.statusContent ⟨id, dirFor root id⟩ (s.update d i f).2 ≠
          Workspace.statusContent ⟨id, dirFor root id⟩ d →
        i = n ∧ ∃ r, s.registrations[i]? = some r ∧ (s.update d i f).2 = (f r d).2 ∧
          Follows ⟨id, dirFor root id⟩ (.error .notFound) ds r d) := by
  obtain ⟨r, hr, hfollows⟩ := h.own
  by_cases hi : i = n
  · subst hi
    have hdisk := update_of_registration hr d f
    have hreg : (s.update d i f).1.registrations[i]? = some (f r d).1 := by
      rw [getElem?_update, if_pos rfl, hr, Option.map_some]
    exact ⟨⟨⟨_, hreg, hdisk ▸ hown r hfollows⟩, hsole⟩, fun _ => ⟨rfl, r, hr, hdisk, hfollows⟩⟩
  · have hreg : (s.update d i f).1.registrations[n]? = some r := by
      rw [getElem?_update, if_neg (Ne.symm hi), hr]
    have hsame : Workspace.statusContent ⟨id, dirFor root id⟩ (s.update d i f).2 =
        Workspace.statusContent ⟨id, dirFor root id⟩ d := by
      cases hr' : s.registrations[i]? with
      | none => simp only [Scribe.update, hr']
      | some r' =>
        rw [update_of_registration hr']
        exact hother hi r' hr'
    exact ⟨⟨⟨r, hreg, hfollows.congr hsame⟩, hsole⟩, fun hne => absurd hsame hne⟩

/-- **The document is renewed by its writer only**, if it is the writer's turn. -/
theorem persist (h : s.Serves d root id n ds) (hin : s.InOrder l root) (m : Nat) :
    (s.persist d m).1.Serves (s.persist d m).2 root id n ds ∧
      (Workspace.statusContent ⟨id, dirFor root id⟩ (s.persist d m).2 ≠
          Workspace.statusContent ⟨id, dirFor root id⟩ d →
        m = n ∧ ∃ x ∈ ds, Workspace.Renews ⟨id, dirFor root id⟩ d (s.persist d m).2 ds x) := by
  have hsole : (s.persist d m).1.SoleWriter root id n :=
    h.sole.update (fun r => (Registration.Onward.writeCarried r d).workspace_eq)
      fun r _ hidle => (hidle.writeCarried d).1
  have hother : m ≠ n → ∀ r, s.registrations[m]? = some r →
      Workspace.statusContent ⟨id, dirFor root id⟩ (r.writeCarried d).2 =
        Workspace.statusContent ⟨id, dirFor root id⟩ d := by
    intro hm r hr
    by_cases hdir : r.workspace.dir = dirFor root id
    · rw [((h.sole.others m r hm hr hdir).1.writeCarried d).2]
    · refine Workspace.statusContent_of_writes (r.writeCarried_writes d) ?_
      rintro _ rfl
      exact hin.not_isPrefix_statusPath hr hdir d
  obtain ⟨hserves, hrenews⟩ :=
    h.update hsole (fun r hr => hr.act_of_nil (a := .persist) rfl) hother
  refine ⟨hserves, fun hne => ?_⟩
  obtain ⟨hm, r, -, hdisk, hfollows⟩ := hrenews hne
  refine ⟨hm, ?_⟩
  rw [Scribe.persist, hdisk] at hne ⊢
  unfold Registration.writeCarried at hne ⊢
  cases hc : r.carried with
  | none =>
    rw [hc] at hne
    exact absurd rfl hne
  | some x =>
    rw [hc] at hne
    obtain ⟨hnew, hold⟩ := hfollows.persist_change { r with carried := none }
      hfollows.workspace rfl hne
    exact ⟨x, hfollows.carried x hc, hnew, hold⟩

/-- **A flush of the run renews its document**, a flush of another run does not. -/
theorem flush (h : s.Serves d root id n ds) (hin : s.InOrder l root) (b : RunId) :
    (s.flush d b).1.Serves (s.flush d b).2 root id n ds ∧
      (Workspace.statusContent ⟨id, dirFor root id⟩ (s.flush d b).2 ≠
          Workspace.statusContent ⟨id, dirFor root id⟩ d →
        b = id ∧ ∃ x ∈ ds, Workspace.Renews ⟨id, dirFor root id⟩ d (s.flush d b).2 ds x) := by
  have hsole : (s.flush d b).1.SoleWriter root id n :=
    h.sole.updateRun b fun r => (Registration.Onward.flush r d).workspace_eq
  cases hi : s.current.get? b with
  | none =>
    have hflush : s.flush d b = (s, d) := by simp only [Scribe.flush, Scribe.updateRun, hi]
    rw [hflush]
    exact ⟨h, fun hne => absurd rfl hne⟩
  | some i =>
    have hflush : s.flush d b = s.update d i Registration.flush := by
      simp only [Scribe.flush, Scribe.updateRun, hi]
    rw [hflush] at hsole ⊢
    have hother : i ≠ n → ∀ r, s.registrations[i]? = some r →
        Workspace.statusContent ⟨id, dirFor root id⟩ (r.flush d).2 =
          Workspace.statusContent ⟨id, dirFor root id⟩ d := by
      intro hm r hr
      refine Workspace.statusContent_of_writes (r.flush_writes d) ?_
      rintro _ rfl
      exact hin.not_isPrefix_statusPath hr (h.dir_ne hi hm hr) d
    obtain ⟨hserves, hrenews⟩ :=
      h.update hsole (fun r hr => hr.act_of_nil (a := .flush) rfl) hother
    refine ⟨hserves, fun hne => ?_⟩
    obtain ⟨rfl, r, hr, hdisk, hfollows⟩ := hrenews hne
    refine ⟨h.runId_eq hin hi, ?_⟩
    rw [hdisk] at hne ⊢
    unfold Registration.flush at hne ⊢
    cases hl : r.latest with
    | none =>
      rw [hl] at hne
      exact absurd rfl hne
    | some x =>
      rw [hl] at hne
      exact ⟨x, (hfollows.latest x hl).1, hfollows.persist_change r hfollows.workspace rfl hne⟩

end Serves

end Scribe

end ReviewPanel
