import Mathlib.Data.List.Perm.Subperm
import ReviewPanel.Proofs.Panel.Serving

/-!
# The state document of a run that was started again

When a run is started again, the directory of its earlier life is set aside and a new one is made at the
same path, with a new registration that has its own idea of what was written last.  Two things of the
earlier life may outlast this.  Its registration is let go, but the writer is not stopped: one that still
has something to write writes it to the path, over what the new run has written there.  And a snapshot of
it that is still on its way goes to whatever registration the run has when it arrives, which takes it for
news if its revision is high enough.

So the document at the path is not always that of the new run.  It is exactly if no earlier registration
with the directory has anything left to write (`Registration.Idle`) and no snapshot that is on its way from
an earlier life is news to the new one, which after its start has one revision for each role.  Then, for as
long as the new directory is there, the document is written by the new registration only, with snapshots
of the new run and ever higher revisions.

A start is one step here: snapshots arrive before or after it, but not in its midst.

## Main definitions

* `Panel.Lasting` : during a schedule no start lays hands on the directory.
* `Panel.OwnDocument` : the state document is that of the new run, and never goes back.

## Main statements

* `Panel.Serving.run` : every schedule keeps a sole writer.
* `Panel.exists_overwriting` : a registration that is not idle can always get to overwrite the document,
  and `Panel.exists_misleading` : so can a snapshot of an earlier life that is news.
* `Panel.own_document_iff_idle` : **the document of a run that was started again is its own exactly if the
  earlier registrations are idle** and nothing on its way is news.
-/

namespace ReviewPanel.Panel

open Workspace (dirFor)
open Registration (Follows Idle)

variable {p q : Panel} {root : String} {id : RunId} {n : Nat} {xs : List RunState} {e : Event}

/-- At some moment of the schedule the ledger shows the snapshot. -/
def Shown (p : Panel) (id : RunId) (es : List Event) (s : RunState) : Prop :=
  ∃ es', es' <+: es ∧ (p.run es').ledger.read id = .ok s

/-- During the schedule no start lays hands on the directory of the run. -/
def Lasting (p : Panel) (root : String) (id : RunId) (es : List Event) : Prop :=
  ∀ es' e, es' ++ [e] <+: es → (p.run es').SparesDirectory root id e

/-- There is no state document yet.  Whatever happens from now on, as long as the directory lasts: a step
that changes the document is a step of the writer of the registration `n`, or it finalizes the run; the
document then belongs to a snapshot of the run, of a higher revision than the one before.  The run is not
started once more in that time, because that would set the directory aside. -/
structure OwnDocument (p : Panel) (root : String) (id : RunId) (n : Nat) : Prop where
  new : p.document? root id = .error .notFound
  renewed : ∀ es e, p.Lasting root id (es ++ [e]) →
    (p.run (es ++ [e])).document? root id ≠ (p.run es).document? root id →
    (e = .persist n ∨ e = .finalize id) ∧
      ∃ x, p.Shown id (es ++ [e]) x ∧ (p.run (es ++ [e])).document? root id = .ok x.document ∧
        ((p.run es).document? root id = .error .notFound ∨
          ∃ s, p.Shown id es s ∧ (p.run es).document? root id = .ok s.document ∧
            s.revision < x.revision)

/-! ### Every schedule -/

theorem Lasting.of_isPrefix {es es' : List Event} (h : p.Lasting root id es) (hpre : es' <+: es) :
    p.Lasting root id es' :=
  fun es'' e hes => h es'' e (hes.trans hpre)

theorem Shown.of_isPrefix {es es' : List Event} {s : RunState} (h : p.Shown id es' s)
    (hpre : es' <+: es) : p.Shown id es s := by
  obtain ⟨es'', hes, hread⟩ := h
  exact ⟨es'', hes.trans hpre, hread⟩

section Run

variable {es : List Event}

theorem Serving.renewal_run (hp : Reachable p) (hroot : p.config.workspaceRoot = some root)
    (h : (p.run es).Serving root id n xs) (hlasts : p.Lasting root id (es ++ [e])) :
    ∃ xs', Renewal (p.run es) (p.run (es ++ [e])) root id n e xs xs' := by
  have hroot' : (p.run es).config.workspaceRoot = some root := by
    rw [(p.run_advances es).config_eq, hroot]
  rw [run_concat]
  exact h.renewal ((hp.run es).inOrder hroot') (hp.run es).wired hroot'
    (hlasts es e (List.prefix_refl _))

/-- **A sole writer stays one** for as long as the directory lasts, and what it follows are snapshots of
the run. -/
theorem Serving.run (hp : Reachable p) (hroot : p.config.workspaceRoot = some root)
    (h : p.Serving root id n xs) (hxs : ∀ s ∈ xs, p.ledger.read id = .ok s) (es : List Event)
    (hlasts : p.Lasting root id es) :
    ∃ xs', (p.run es).Serving root id n xs' ∧ ∀ s ∈ xs', p.Shown id es s := by
  induction es using List.reverseRecOn with
  | nil => exact ⟨xs, h, fun s hs => ⟨[], List.prefix_refl _, hxs s hs⟩⟩
  | append_singleton es e ih =>
    have hpre : es <+: es ++ [e] := List.prefix_append es [e]
    obtain ⟨xs₁, h₁, hshown⟩ := ih (hlasts.of_isPrefix hpre)
    obtain ⟨xs₂, hrenewal⟩ := h₁.renewal_run hp hroot hlasts
    refine ⟨xs₂, hrenewal.serving, fun s hs => ?_⟩
    rcases hrenewal.mem s hs with hold | hread
    · exact (hshown s hold).of_isPrefix hpre
    · exact ⟨es ++ [e], List.prefix_refl _, hread⟩

theorem Serving.ownDocument (hp : Reachable p) (hroot : p.config.workspaceRoot = some root)
    (h : p.Serving root id n xs) (hxs : ∀ s ∈ xs, p.ledger.read id = .ok s)
    (hnew : p.document? root id = .error .notFound) : p.OwnDocument root id n := by
  refine ⟨hnew, fun es e hlasts hne => ?_⟩
  have hpre : es <+: es ++ [e] := List.prefix_append es [e]
  obtain ⟨xs₁, h₁, hshown⟩ := h.run hp hroot hxs es (hlasts.of_isPrefix hpre)
  obtain ⟨xs₂, hrenewal⟩ := h₁.renewal_run hp hroot hlasts
  obtain ⟨he, x, hx, hdoc, hold⟩ := hrenewal.renewed hne
  refine ⟨he, x, ?_, hdoc, hold.imp_right ?_⟩
  · rcases hrenewal.mem x hx with hold | hread
    · exact (hshown x hold).of_isPrefix hpre
    · exact ⟨es ++ [e], List.prefix_refl _, hread⟩
  · rintro ⟨s, hs, hcontent, hlt⟩
    exact ⟨s, hshown s hs, hcontent, hlt⟩

end Run

/-! ### A directory that was made anew -/

theorem Opening.renewed {item : WorkItem} {roles : List Role} {y : Panel × Except PanelError RunId}
    (hopen : Opening p root id item roles y) (hin : p.scribe.InOrder p.ledger root)
    (hok : y.2 = .ok id) (hthere : p.disk.contains (p.disk.locate (dirFor root id)) = true) :
    y.1.disk.reach (y.1.disk.locate root ++ [sanitize id]) = .ok .directory ∧
      y.1.document? root id = .error .notFound := by
  obtain ⟨k, hk⟩ : ∃ k, p.disk.reach (p.disk.locate root ++ [sanitize id]) = .ok k := by
    rw [Workspace.locate_dirFor, Disk.contains] at hthere
    split at hthere
    · exact ⟨_, by assumption⟩
    · cases hthere
  obtain ⟨-, d, path, harch, hcreate⟩ := hopen.created hin hok hk
  obtain ⟨hhere, hreach, -, -, hempty⟩ := Workspace.create_of_archive hk harch hcreate
  have hlocate : y.1.disk.locate root = p.disk.locate root := by simp only [Disk.locate, hhere]
  rw [hlocate]
  refine ⟨hreach, ?_⟩
  rw [document?, Workspace.statusContent, Workspace.locate_statusPath, hlocate, Disk.fileContent,
    Disk.reach_concat hreach, if_neg (by decide), hempty _ (by decide)]

theorem revision_of_start {item : WorkItem} {roles : List Role}
    (hok : (p.start id item roles).2 = .ok id) {t : RunState}
    (ht : (p.start id item roles).1.ledger.read id = .ok t) :
    t.revision = roles.length ∧ roles.Nodup := by
  rcases p.start_cases id item roles with
    ⟨_, h⟩ | ⟨ledger, _, _, _, _, -, ⟨_, h⟩ | ⟨u, _, _, hu, -, -, h⟩⟩
  · rw [h] at hok
    cases hok
  · rw [h] at hok
    cases hok
  · rw [h] at ht
    obtain ⟨-, hnd, -, rfl⟩ := Ledger.create_eq_ok.1 hu
    obtain ⟨x, hx, -, hrev, -⟩ := get?_launchCalls id p.now hnd
      (l := ledger.put id (.fresh item roles p.now)) (e := .fresh item roles p.now) (by simp) rfl
      (fun role hrole => by simp [LedgerEntry.fresh, Table.get?_ofKeys, hrole])
    obtain ⟨x', hx', rfl⟩ := Ledger.read_eq_ok.1 ht
    obtain rfl := Option.some.inj (hx.symm.trans hx')
    exact ⟨hrev.trans (Nat.zero_add _), hnd⟩

/-- With idle predecessors, and no news of them on its way, the new registration is a sole writer. -/
theorem Enrolled.serving (h : Enrolled p q root id) (hin : p.scribe.InOrder p.ledger root)
    (hthere : q.disk.reach (q.disk.locate root ++ [sanitize id]) = .ok .directory)
    (hnew : q.document? root id = .error .notFound)
    (hapart : ∀ b, b ≠ id → p.Registered b → dirFor root b ≠ dirFor root id)
    (hidle : ∀ r ∈ p.scribe.registrations, r.workspace.dir = dirFor root id → r.Idle)
    (hlate : ∀ t, q.ledger.read id = .ok t → ∀ s ∈ q.inFlight, s.runId = id →
      s.revision ≤ t.revision) :
    ∃ s, q.ledger.read id = .ok s ∧ q.Serving root id p.scribe.registrations.length [s] := by
  obtain ⟨r, hr, hw, hcarried, hwritten⟩ := h.own
  obtain ⟨r', s, hr', hlatest, hread⟩ := h.abreast
  obtain rfl := Option.some.inj (hr.symm.trans hr')
  refine ⟨s, hread, ⟨⟨[s], ⟨⟨r, hr, ⟨hw, ?_, ?_, ?_, fun _ => hnew, ?_⟩⟩, ⟨?_, ?_⟩⟩, fun _ hs => hs⟩, hthere,
    fun s' hs' hid => .inr ⟨r, s, hr, hlatest, hlate s hread s' hs' hid⟩, fun t ht s' hs' => ?_⟩⟩
  · intro l hl
    obtain rfl := Option.some.inj (hlatest.symm.trans hl)
    exact ⟨List.mem_singleton_self s, fun t ht => by rw [List.mem_singleton.1 ht]⟩
  · exact fun hnone => by rw [hlatest] at hnone; cases hnone
  · exact fun s' hs' => by rw [hcarried] at hs'; cases hs'
  · exact fun m hm => by rw [hwritten] at hm; cases hm
  · intro i hi
    rw [h.current, if_pos rfl] at hi
    exact (Option.some.inj hi).symm
  · intro i r₁ hi hr₁ hdir
    rw [h.others i hi] at hr₁
    refine ⟨hidle r₁ (List.mem_of_getElem? hr₁) hdir, fun b hb => ?_⟩
    rw [h.current] at hb
    split_ifs at hb with hbid
    · exact hi (Option.some.inj hb).symm
    · -- an earlier registration that some run still has is that of a run on the ledger
      obtain ⟨r₂, t, hr₂, hrun, ht⟩ := hin.current b i hb
      obtain rfl := Option.some.inj (hr₁.symm.trans hr₂)
      obtain ⟨x, hx, -⟩ := Ledger.read_eq_ok.1 ht
      refine hapart b hbid (fun hnone => ?_) ?_
      · rw [hx] at hnone
        cases hnone
      · rw [← hdir, hin.dir_eq i r₁ hr₁, hrun]
  · rw [List.mem_singleton.1 hs']
    exact Nat.le_of_eq (congrArg RunState.revision (Except.ok.inj (hread.symm.trans ht)))

/-! ### Writers that were left over -/

theorem document?_persist {i : Nat} {r : Registration} {s : RunState}
    (hr : q.scribe.registrations[i]? = some r) (hdir : r.workspace.dir = dirFor root id)
    (hcarried : r.carried = some s) (hnews : r.isStale s = false)
    (hthere : q.disk.reach (q.disk.locate root ++ [sanitize id]) = .ok .directory)
    (hfile : q.document? root id ≠ .error .isDirectory) (hrefusal : ∀ l, q.disk.refusal l = none) :
    (q.step (.persist i)).document? root id = .ok s.document := by
  obtain ⟨d', hwrite⟩ := Workspace.exists_writeStatus hthere hfile (hrefusal _) s
  replace hwrite : r.workspace.writeStatus q.disk s = .ok d' := by
    rw [← hwrite, Workspace.writeStatus, Workspace.writeStatus, hdir]
  have hdisk : (q.step (.persist i)).disk = d' := by
    have hstale : Registration.isStale { r with carried := none } s = false := hnews
    calc (q.step (.persist i)).disk
        = (r.writeCarried q.disk).2 :=
          Scribe.update_of_registration hr q.disk Registration.writeCarried
      _ = d' := by
        simp only [Registration.writeCarried, hcarried, Registration.persist, hstale, hwrite]
        rfl
  calc (q.step (.persist i)).document? root id
      = r.workspace.statusContent d' := by
        rw [document?, hdisk, Workspace.statusContent, Workspace.statusContent, Workspace.statusPath,
          Workspace.statusPath, hdir]
    _ = .ok s.document := Workspace.statusContent_of_writeStatus hwrite

theorem exists_carrying {i : Nat} {r : Registration} (hr : q.scribe.registrations[i]? = some r)
    (hbg : r.background = true) (hidle : ¬ r.Idle) :
    ∃ es, (∀ e ∈ es, ∀ b item roles, e ≠ .start b item roles) ∧
      (q.run es).disk = { q.disk with refusal := fun _ => none } ∧
      ∃ r' s, (q.run es).scribe.registrations[i]? = some r' ∧ r'.workspace = r.workspace ∧
        r'.carried = some s ∧ r'.isStale s = false := by
  obtain ⟨s, hnews, hs | ⟨hstale, hunseen, hs⟩⟩ := Registration.exists_of_not_idle hidle
  · refine ⟨[.refuse fun _ => none], by simp, rfl, r, s, hr, rfl, hs, hnews⟩
  · refine ⟨[.persist i, .take i, .refuse fun _ => none], by simp, ?_,
      { r with carried := some s, unseen := false }, s, ?_, rfl, rfl, hnews⟩
    · have hdisk : (q.step (.persist i)).disk = (r.writeCarried q.disk).2 :=
        Scribe.update_of_registration hr q.disk Registration.writeCarried
      rw [Registration.writeCarried_of_stale hstale] at hdisk
      exact congrArg (fun d : Disk => { d with refusal := fun _ => none }) hdisk
    · have hpersist : (q.scribe.persist q.disk i).1.registrations[i]? =
          some { r with carried := none } := by
        rw [Scribe.persist, Scribe.getElem?_update, if_pos rfl, hr, Option.map_some,
          Registration.writeCarried_of_stale hstale]
      calc (q.run [.persist i, .take i, .refuse fun _ => none]).scribe.registrations[i]?
          = (((q.scribe.persist q.disk i).1.take i).registrations)[i]? := rfl
        _ = some (Registration.take { r with carried := none }) := by
          simp [Scribe.take, hpersist]
        _ = some { r with carried := some s, unseen := false } := by
          simp [Registration.take, hbg, hunseen, hs]

theorem lasting_of_ne_start {es : List Event}
    (h : ∀ e ∈ es, ∀ b item roles, e ≠ .start b item roles) : p.Lasting root id es := by
  intro es' e hpre
  have he := h e (hpre.subset (by simp))
  cases e with
  | start b item roles => exact absurd rfl (he b item roles)
  | _ => trivial

/-- **A registration that is not idle can always get to overwrite the document** of its directory. -/
theorem exists_overwriting (hin : q.scribe.InOrder q.ledger root)
    (hthere : q.disk.reach (q.disk.locate root ++ [sanitize id]) = .ok .directory)
    (hfile : q.document? root id ≠ .error .isDirectory) {i : Nat} {r : Registration}
    (hr : q.scribe.registrations[i]? = some r) (hdir : r.workspace.dir = dirFor root id)
    (hidle : ¬ r.Idle) :
    ∃ (es : List Event) (s : RunState), q.Lasting root id (es ++ [.persist i]) ∧
      (q.run es).document? root id = q.document? root id ∧
      (q.run (es ++ [.persist i])).document? root id = .ok s.document := by
  obtain ⟨es, hes, hdisk, r', s, hr', hw, hcarried, hnews⟩ :=
    exists_carrying hr (hin.background i r hr) hidle
  have hdoc : (q.run es).document? root id = q.document? root id := by
    rw [document?, hdisk]
    exact Workspace.statusContent_refusing _ _ _ _
  refine ⟨es, s, lasting_of_ne_start ?_, hdoc, ?_⟩
  · intro e he b item roles
    rcases List.mem_append.1 he with he | he
    · exact hes e he b item roles
    · rw [List.mem_singleton.1 he]
      exact Event.noConfusion
  · rw [run_concat]
    refine document?_persist hr' (by rw [hw, hdir]) hcarried hnews ?_ (by rwa [hdoc]) fun l => ?_
    · rw [hdisk]
      exact (Disk.reachFrom_refusing q.disk _ _ _ _).trans hthere
    · rw [hdisk]

/-! ### Snapshots that are late -/

/-- A snapshot arrives, the system refuses nothing, and a writer takes what it knows. -/
def misleading (k n : Nat) : List Event := [.deliver k, .refuse fun _ => none, .take n]

/-- **A snapshot that is news to a registration which has nothing in hand** can always get to be the
document.  Nothing happens on the ledger meanwhile. -/
theorem exists_misleading (hin : q.scribe.InOrder q.ledger root)
    (hthere : q.disk.reach (q.disk.locate root ++ [sanitize id]) = .ok .directory)
    (hfile : q.document? root id ≠ .error .isDirectory) {r : Registration} {s : RunState} {k : Nat}
    (hn : q.scribe.current.get? id = some n) (hr : q.scribe.registrations[n]? = some r)
    (hdir : r.workspace.dir = dirFor root id) (hcarried : r.carried = none) (hwritten : r.written = none)
    (hk : q.inFlight[k]? = some s) (hid : s.runId = id) (hnews : r.isNews s = true) :
    (q.run (misleading k n)).document? root id = q.document? root id ∧
      (q.run (misleading k n ++ [.persist n])).document? root id = .ok s.document := by
  have hbg := hin.background n r hr
  have hdisk := (inOrder_deliver hin k).2.1
  have hreg : (q.deliver k).scribe.registrations[n]? =
      some { r with latest := some s, unseen := true } := by
    rw [deliver_eq_of_getElem? hk]
    refine (Scribe.receive_of_current (hid ▸ hn) hr hbg q.disk n).trans ?_
    rw [if_pos rfl, Registration.note, if_pos hnews]
  have hrun : q.run (misleading k n) = { q.deliver k with
      scribe := (q.deliver k).scribe.take n
      disk := { q.disk with refusal := fun _ => none } } := by
    rw [← hdisk]
    rfl
  have htaken : (q.run (misleading k n)).scribe.registrations[n]? =
      some { r with latest := some s, unseen := false, carried := some s } := by
    rw [hrun]
    simp [Scribe.take, hreg, Registration.take, hbg, hcarried]
  have hdoc : (q.run (misleading k n)).document? root id = q.document? root id := by
    rw [hrun]
    exact Workspace.statusContent_refusing _ _ _ _
  refine ⟨hdoc, ?_⟩
  rw [run_concat]
  refine document?_persist htaken hdir rfl ?_ ?_ (by rwa [hdoc]) fun l => by rw [hrun]
  · simp only [Registration.isStale, hwritten]
  · rw [hrun]
    exact (Disk.reachFrom_refusing q.disk _ _ _ _).trans hthere

theorem Shown.of_misleading {k : Nat} {t : RunState}
    (h : q.Shown id (misleading k n ++ [.persist n]) t) : q.ledger.read id = .ok t := by
  obtain ⟨es, hes, hread⟩ := h
  have hledger : (q.run es).ledger = q.ledger := by
    refine run_preserves (P := fun q' => q'.ledger = q.ledger)
      (C := fun e => e ∈ misleading k n ++ [.persist n]) (fun {q' e} he hq => ?_)
      (fun e he => hes.subset he) rfl
    rw [← hq]
    simp only [misleading, List.cons_append, List.nil_append, List.mem_cons, List.not_mem_nil,
      or_false] at he
    rcases he with rfl | rfl | rfl | rfl
    · exact q'.deliver_ledger k
    · rfl
    · rfl
    · rfl
  rwa [hledger] at hread

/-! ### Whose document it is -/

theorem OwnDocument.idle (hown : q.OwnDocument root id n) (hin : q.scribe.InOrder q.ledger root)
    (hmade : q.disk.reach (q.disk.locate root ++ [sanitize id]) = .ok .directory)
    {i : Nat} {r : Registration} (hi : q.scribe.registrations[i]? = some r) (hne : i ≠ n)
    (hdir : r.workspace.dir = dirFor root id) : r.Idle := by
  by_contra hidle
  obtain ⟨es, s, hlasts, hbefore, hafter⟩ :=
    exists_overwriting hin hmade (by rw [hown.new]; simp) hi hdir hidle
  have hchange : (q.run (es ++ [.persist i])).document? root id ≠ (q.run es).document? root id := by
    rw [hafter, hbefore, hown.new]
    simp
  obtain ⟨he | he, -⟩ := hown.renewed es (.persist i) hlasts hchange
  · exact hne (Event.persist.inj he)
  · cases he

theorem OwnDocument.late (henrolled : Enrolled p q root id)
    (hown : q.OwnDocument root id p.scribe.registrations.length) (hin : q.scribe.InOrder q.ledger root)
    (hmade : q.disk.reach (q.disk.locate root ++ [sanitize id]) = .ok .directory) {t : RunState}
    (ht : q.ledger.read id = .ok t) (hbound : t.revision < wordBound) {s : RunState}
    (hs : s ∈ q.inFlight) (hid : s.runId = id) : s.revision ≤ t.revision := by
  by_contra hlt
  obtain ⟨k, hk⟩ := List.mem_iff_getElem?.1 hs
  obtain ⟨r, hr, hw, hcarried, hwritten⟩ := henrolled.own
  obtain ⟨r', t', hr', hlatest, hread⟩ := henrolled.abreast
  obtain rfl := Option.some.inj (hr.symm.trans hr')
  obtain rfl := Except.ok.inj (ht.symm.trans hread)
  have hnews : r.isNews s = true := by
    simp only [Registration.isNews, hlatest, decide_eq_true_eq]
    exact Nat.not_le.1 hlt
  obtain ⟨hbefore, hafter⟩ := exists_misleading hin hmade (by rw [hown.new]; simp)
    ((henrolled.current id).trans (if_pos rfl)) hr (by rw [hw]) hcarried hwritten hk hid hnews
  have hlasts : q.Lasting root id (misleading k p.scribe.registrations.length ++
      [.persist p.scribe.registrations.length]) :=
    lasting_of_ne_start (by simp [misleading])
  obtain ⟨-, x, hshown, hdoc, -⟩ := hown.renewed _ _ hlasts (by
    rw [hafter, hbefore, hown.new]
    simp)
  -- the document would be that of the run as it is on the ledger, which has a lower revision
  obtain rfl := Except.ok.inj (ht.symm.trans hshown.of_misleading)
  rw [hafter] at hdoc
  exact hlt (Nat.le_of_eq (RunState.revision_eq_of_document hbound (Except.ok.inj hdoc)))

/-- **Whose document it is.**  A run is started again and its directory made anew, while no other run on
the ledger has it.  The document in the directory is that of the new run, and never goes back, exactly if
the registrations of earlier lives have nothing left to write and no snapshot of them is on its way that
would be news to the new one. -/
theorem own_document_iff_idle (hp : Reachable p) (hroot : p.config.workspaceRoot = some root)
    {item : WorkItem} {roles : List Role} (hok : (p.start id item roles).2 = .ok id)
    (hthere : p.disk.contains (p.disk.locate (dirFor root id)) = true)
    (hapart : ∀ b, b ≠ id → p.Registered b → dirFor root b ≠ dirFor root id) :
    (p.start id item roles).1.OwnDocument root id p.scribe.registrations.length ↔
      (∀ r ∈ p.scribe.registrations, r.workspace.dir = dirFor root id → r.Idle) ∧
        ∀ s ∈ p.inFlight, s.runId = id → s.revision ≤ roles.length := by
  have hin := hp.inOrder hroot
  have hopen := start_opening hroot id item roles
  have hq : Reachable (p.start id item roles).1 := hp.step (.start id item roles)
  have hroot' : (p.start id item roles).1.config.workspaceRoot = some root := by
    rw [show (p.start id item roles).1.config = p.config from
      (p.step_advances (.start id item roles)).config_eq, hroot]
  obtain ⟨hmade, hnew⟩ := hopen.renewed hin hok hthere
  have henrolled := hopen.enrolled hin hok
  have hflight := p.start_inFlight id item roles
  have hrevision := fun t => revision_of_start (t := t) hok
  have hin' := hq.inOrder hroot'
  generalize (p.start id item roles).1 = q at *
  constructor
  · intro hown
    refine ⟨fun r hr hdir => ?_, fun s hs hid => ?_⟩
    · obtain ⟨i, hi⟩ := List.mem_iff_getElem?.1 hr
      have hne : i ≠ p.scribe.registrations.length :=
        Nat.ne_of_lt (List.getElem?_eq_some_iff.1 hi).1
      exact hown.idle hin' hmade ((henrolled.others i hne).trans hi) hne hdir
    · obtain ⟨-, t, -, -, ht⟩ := henrolled.abreast
      obtain ⟨hrev, hnd⟩ := hrevision t ht
      have hlen : roles.length ≤ Role.all.length :=
        (List.subperm_of_subset hnd fun r _ => Enumerated.mem_all r).length_le
      have hbound : t.revision < wordBound :=
        hrev ▸ Nat.lt_of_le_of_lt hlen (by decide)
      exact hrev ▸ OwnDocument.late henrolled hown hin' hmade ht hbound (hflight ▸ hs) hid
  · rintro ⟨hidle, hlate⟩
    obtain ⟨s, hread, hserving⟩ := henrolled.serving hin hmade hnew hapart hidle
      fun t ht s hs hid => (hrevision t ht).1 ▸ hlate s (hflight ▸ hs) hid
    refine hserving.ownDocument hq hroot' (fun s' hs' => ?_) hnew
    rw [List.mem_singleton.1 hs', hread]

/-- A run is started, a waiter runs out of time and ends its only role.  The writer has not had its turn,
and the snapshot that shows the end of the role is on its way. -/
def lateSchedule : List Event :=
  [.start "r" (.ofReference "first") [.build], .await "r" 1 5,
    .pass 10 ⟨2024, 5, 1, 12, 0, 0, 10⟩, .wait 0, .wait 0, .wait 0, .wait 0]

/-- If the run is started again while the last snapshot of its first life is on its way, the document is not
its own, because that snapshot is news to it; nor is it if that has arrived before, because the writer of
the first life overwrites the document; only if the writer has had its turn after that, it is. -/
theorem own_document_iff_idle_late : ∃ p q r t, p = (fresh archiveConfig halfCrew).run lateSchedule ∧
    q = p.run [.take 0, .persist 0] ∧ r = p.run [.deliver 0] ∧ t = r.run [.take 0, .persist 0] ∧
    (q.start "r" (.ofReference "second") [.build]).2 = .ok "r" ∧
    ¬ (q.start "r" (.ofReference "second") [.build]).1.OwnDocument "runs" "r" 1 ∧
    (r.start "r" (.ofReference "second") [.build]).2 = .ok "r" ∧
    ¬ (r.start "r" (.ofReference "second") [.build]).1.OwnDocument "runs" "r" 1 ∧
    (t.start "r" (.ofReference "second") [.build]).2 = .ok "r" ∧
    (t.start "r" (.ofReference "second") [.build]).1.OwnDocument "runs" "r" 1 := by
  obtain ⟨p, hp⟩ : ∃ p, p = (fresh archiveConfig halfCrew).run lateSchedule := ⟨_, rfl⟩
  obtain ⟨q, hq⟩ : ∃ q, q = p.run [.take 0, .persist 0] := ⟨_, rfl⟩
  obtain ⟨r, hr⟩ : ∃ r, r = p.run [.deliver 0] := ⟨_, rfl⟩
  obtain ⟨t, ht⟩ : ∃ t, t = r.run [.take 0, .persist 0] := ⟨_, rfl⟩
  have hvalid : archiveConfig.validate = .ok () := rfl
  have hreach : Reachable p := hp ▸ (Reachable.ofConfig (ofConfig_blank hvalid halfCrew)).run _
  have hreachq : Reachable q := hq ▸ hreach.run _
  have hreachr : Reachable r := hr ▸ hreach.run _
  have hreacht : Reachable t := ht ▸ hreachr.run _
  -- the directory has no underscore in its name
  have hapart : ∀ b, b ≠ "r" → dirFor "runs" b ≠ dirFor "runs" "r" := fun b hb hdir =>
    hb (sanitize_injOn (by decide) (Workspace.dirFor_inj.1 hdir))
  have hokq : (q.start "r" (.ofReference "second") [.build]).2 = .ok "r" := by
    rw [hq, hp]
    decide +kernel
  have hokr : (r.start "r" (.ofReference "second") [.build]).2 = .ok "r" := by
    rw [hr, hp]
    decide +kernel
  have hokt : (t.start "r" (.ofReference "second") [.build]).2 = .ok "r" := by
    rw [ht, hr, hp]
    decide +kernel
  have hrootq : q.config.workspaceRoot = some "runs" := by rw [hq, hp]; decide +kernel
  have hrootr : r.config.workspaceRoot = some "runs" := by rw [hr, hp]; decide +kernel
  have hroott : t.config.workspaceRoot = some "runs" := by rw [ht, hr, hp]; decide +kernel
  have hiffq := own_document_iff_idle hreachq hrootq hokq (by rw [hq, hp]; decide +kernel)
    fun b hb _ => hapart b hb
  have hiffr := own_document_iff_idle hreachr hrootr hokr (by rw [hr, hp]; decide +kernel)
    fun b hb _ => hapart b hb
  have hifft := own_document_iff_idle hreacht hroott hokt (by rw [ht, hr, hp]; decide +kernel)
    fun b hb _ => hapart b hb
  rw [show q.scribe.registrations.length = 1 by rw [hq, hp]; decide +kernel] at hiffq
  rw [show r.scribe.registrations.length = 1 by rw [hr, hp]; decide +kernel] at hiffr
  rw [show t.scribe.registrations.length = 1 by rw [ht, hr, hp]; decide +kernel] at hifft
  refine ⟨p, q, r, t, hp, hq, hr, ht, hokq, fun hown => ?_, hokr, fun hown => ?_, hokt, hifft.2 ?_⟩
  · have hlate := (hiffq.1 hown).2
    rw [hq, hp] at hlate
    revert hlate
    decide +kernel
  · have hidle := (hiffr.1 hown).1
    rw [hr, hp] at hidle
    revert hidle
    decide +kernel
  · rw [ht, hr, hp]
    decide +kernel

end ReviewPanel.Panel
