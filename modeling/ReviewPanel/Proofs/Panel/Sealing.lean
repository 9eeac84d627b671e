import ReviewPanel.Proofs.Panel.AtRest
import ReviewPanel.Proofs.Panel.Restart
import ReviewPanel.Proofs.RoundTrip

/-!
# How a run is sealed

The call that gives a run its verdict writes the verdict down, attaches a reference to it on the ledger and
has the state document flushed, in this order, and then remembers it.  If the state document has a sole
writer and the system lets it be written, the run is sealed (`Panel.Sealed`): both documents are there, the
ledger shows what they say, and the directory is at rest.

A run that is sealed stays so, as long as it is neither forgotten nor started again and no start lays hands
on its directory.

## Main definitions

* `Verdict.document`, `Workspace.verdictContent` : the document of a verdict.
* `Panel.Sealed` : the run has its verdict, its documents say so, and its directory is at rest.

## Main statements

* `Panel.Serving.sealed` : **the call that gives a run its verdict seals it.**
* `Panel.Sealed.step`, `Panel.Sealed.run` : **a run that is sealed stays so.**
-/

namespace ReviewPanel

/-! ### Verdicts as documents -/

namespace Verdict

/-- The document of a verdict, as a text. -/
def document (v : Verdict) : List Symbol := Utf8.ofString v.toValue.prettyText

end Verdict

namespace Workspace

variable {w : Workspace} {d d' : Disk} {v : Verdict}

/-- What is in the verdict document. -/
def verdictContent (w : Workspace) (d : Disk) : Except OsError (List Symbol) :=
  d.fileContent (d.locate w.verdictPath)

theorem locate_verdictPath (d : Disk) (root : String) (id : RunId) :
    d.locate (verdictPath ⟨id, dirFor root id⟩) = d.locate root ++ [sanitize id] ++ [verdictName] := by
  rw [verdictPath, d.locate_join _ (by decide), locate_dirFor]

theorem verdictContent_of_writeVerdict (h : w.writeVerdict d v = .ok d') :
    w.verdictContent d' = .ok v.document := by
  obtain ⟨hhere, hfile⟩ := Disk.replaceFile_eq_ok (writeDocument_eq_ok h) (by decide)
  rw [verdictContent, verdictPath, d'.locate_join _ (by decide), Disk.locate_congr hhere]
  exact hfile

theorem readVerdict_of_content (h : w.verdictContent d = .ok v.document) (hv : v.Storable) :
    w.readVerdict d = .ok v := by
  have hread : Verdict.reader.runText v.document = .ok v :=
    (Verdict.recovers_toValue hv).roundTrips.pretty
  rw [verdictContent] at h
  simp only [readVerdict, readDocument, h, hread]

theorem verdictContent_of_writes
    (h : Disk.Writes (· = d.locate w.dir ++ [statusName]) d d') :
    w.verdictContent d' = w.verdictContent d := by
  have hlocate := Disk.locate_congr h.here_eq w.verdictPath
  have hreach : d'.reach (d.locate w.verdictPath) = d.reach (d.locate w.verdictPath) := by
    refine h.reach_eq ?_
    rintro _ rfl hpre
    rw [verdictPath, d.locate_join _ (by decide), List.prefix_append_right_inj] at hpre
    exact absurd (List.cons_prefix_cons.1 hpre).1 (by decide)
  rw [verdictContent, verdictContent, Disk.fileContent, Disk.fileContent, hlocate, hreach]

end Workspace

namespace Panel

open Workspace (dirFor)

variable {p q q' : Panel} {root : String} {id : RunId} {e : Event} {i n : Nat} {v : Verdict} {s : RunState}
  {xs : List RunState}

/-- What is in the verdict document of a run. -/
def verdict? (p : Panel) (root : String) (id : RunId) : Except OsError (List Symbol) :=
  Workspace.verdictContent ⟨id, dirFor root id⟩ p.disk

/-! ### Runs that are sealed -/

/-- The incarnation at position `i` has its verdict `v`, the ledger shows the snapshot `s` of it, and both
are in the documents, which nobody will write again, whatever is still on its way. -/
structure Sealed (q : Panel) (root : String) (id : RunId) (i : Nat) (v : Verdict) (s : RunState) : Prop
    where
  table : q.table.get? id = some i
  remembered : ∃ inc, q.incarnations[i]? = some inc ∧ inc.verdict = some v
  reduced : ∃ s lookup, v = Verdict.reduce s lookup
  read : q.ledger.read id = .ok s
  complete : s.allComplete = true
  ref : s.verdict = some v.toRef
  there : q.disk.reach (q.disk.locate root ++ [sanitize id]) = .ok .directory
  resting : q.Resting root id
  status : q.document? root id = .ok s.document
  verdict : q.verdict? root id = .ok v.document

theorem Sealed.finalize_eq (h : q.Sealed root id i v s) : q.finalize id = (q, .ok v) := by
  obtain ⟨inc, hinc, hv⟩ := h.remembered
  exact finalize_of_verdict h.table hinc hv

theorem read_step_of_verdict (htab : q.table.get? id = some i) (hread : q.ledger.read id = .ok s)
    (hs : s.verdict.isSome = true) (hspares : e.Spares id) (hwired : (q.step e).Wired) :
    (q.step e).ledger.read id = .ok s := by
  obtain ⟨x, hx, rfl⟩ := Ledger.read_eq_ok.1 hread
  have hjudged : x.verdict ≠ none := Option.isSome_iff_ne_none.1 hs
  have htable : (q.step e).table.get? id = some i := ((q.step_move e).table_get? hspares).trans htab
  have hchange := (q.step_move e).change id
  rw [hx] at hchange
  refine Ledger.read_eq_ok.2 ⟨x, ?_, rfl⟩
  generalize hx' : (q.step e).ledger.entries.get? id = x' at hchange ⊢
  cases hchange with
  | same => rfl
  | reported _ _ _ hv | forced _ _ _ _ _ hv | judged hv => exact absurd hv hjudged
  | removed =>
    rcases hwired.listed id with ⟨hnone, -⟩ | ⟨_, _, _, _, _, _, hsome, _⟩
    · rw [hnone] at htable
      cases htable
    · rw [hx'] at hsome
      cases hsome
  | restarted => exact absurd rfl hspares

theorem Sealed.read_step (h : q.Sealed root id i v s) (hspares : e.Spares id)
    (hwired : (q.step e).Wired) : (q.step e).ledger.read id = .ok s :=
  read_step_of_verdict h.table h.read (by rw [h.ref]; rfl) hspares hwired

/-- **One step leaves a sealed run sealed**, unless it forgets the run, starts it again or lays hands on
its directory. -/
theorem Sealed.step (h : q.Sealed root id i v s) (hq : Reachable q)
    (hroot : q.config.workspaceRoot = some root) (hspares : e.Spares id)
    (hdir : q.SparesDirectory root id e) : (q.step e).Sealed root id i v s := by
  by_cases hfin : e = .finalize id
  · subst hfin
    rw [Panel.step, h.finalize_eq]
    exact h
  · obtain ⟨inc, hinc, hv⟩ := h.remembered
    obtain ⟨inc', hinc', hgrow⟩ := (q.step_advances e).incarnations i inc hinc
    obtain ⟨hrest, hleaves⟩ := step_atRest h.resting (hq.inOrder hroot) hq.wired hroot h.there h.read
      (by rw [h.ref]; rfl) hfin hspares hdir
    have hlocate := Disk.locate_congr hleaves.here_eq
    exact {
      table := ((q.step_move e).table_get? hspares).trans h.table
      remembered := ⟨inc', hinc', hgrow.verdict v hv⟩
      reduced := h.reduced
      read := h.read_step hspares (hq.step e).wired
      complete := h.complete
      ref := h.ref
      there := hleaves.reach_directory h.there
      resting := hrest
      status := by
        rw [← h.status, document?, document?, Workspace.statusContent, Workspace.statusContent, hlocate,
          Workspace.locate_statusPath, hleaves.fileContent_eq]
      verdict := by
        rw [← h.verdict, verdict?, verdict?, Workspace.verdictContent, Workspace.verdictContent, hlocate,
          Workspace.locate_verdictPath, hleaves.fileContent_eq] }

/-- **A run that is sealed stays so**, for as long as it is neither forgotten nor started again and no
start lays hands on its directory. -/
theorem Sealed.run (h : q.Sealed root id i v s) (hq : Reachable q)
    (hroot : q.config.workspaceRoot = some root) {es : List Event} (hspares : ∀ e ∈ es, e.Spares id)
    (hlasts : q.Lasting root id es) : (q.run es).Sealed root id i v s := by
  induction es using List.reverseRecOn with
  | nil => exact h
  | append_singleton es e ih =>
    rw [run_concat]
    refine (ih (fun e' he' => hspares e' (List.mem_append_left _ he'))
      (hlasts.of_isPrefix (List.prefix_append _ _))).step (hq.run es) ?_ (hspares e (by simp))
      (hlasts es e (List.prefix_refl _))
    rw [(q.run_advances es).config_eq, hroot]

/-! ### The call that seals a run -/

/-- A call that gives a run its verdict writes it down, attaches it, and has the state document flushed
after the scribe has heard of it and of what else has arrived by then. -/
theorem finalize_of_none {inc : Incarnation} (hact : q.active id = .ok (i, inc))
    (hnone : inc.verdict = none) {w : Workspace} (hw : q.scribe.workspace? id = some w)
    (hfin : (q.finalize id).2 = .ok v) :
    ∃ s d u q', q.ledger.read id = .ok s ∧ aggregate s inc.slots = .ok v ∧
      w.writeVerdict q.disk v = .ok d ∧ q.ledger.attach id v.toRef = .ok u ∧
      q' = q.arrivals.foldl deliver (({ q with disk := d }).accept u) ∧
      (q.finalize id).1 =
        ({ q' with
            scribe := (q'.scribe.flush q'.disk id).1
            disk := (q'.scribe.flush q'.disk id).2 }).modifyIncarnation i
          fun inc => { inc with verdict := some v } := by
  unfold finalize at hfin ⊢
  simp only [hact, hnone] at hfin ⊢
  cases hread : q.ledger.read id with
  | error => simp [hread] at hfin
  | ok s =>
    simp only [hread] at hfin ⊢
    cases hagg : aggregate s inc.slots with
    | error => simp [hagg] at hfin
    | ok v' =>
      simp only [hagg, writeVerdict, hw] at hfin ⊢
      cases hwrite : w.writeVerdict q.disk v' with
      | error => simp [hwrite] at hfin
      | ok d =>
        simp only [hwrite, attachVerdict] at hfin ⊢
        cases hatt : q.ledger.attach id v'.toRef with
        | error => simp [hatt] at hfin
        | ok u =>
          simp only [hatt] at hfin ⊢
          obtain rfl := Except.ok.inj hfin
          exact ⟨s, d, u, _, rfl, hagg, hwrite, hatt, rfl, rfl⟩

theorem Serving.not_isDirectory (h : q.Serving root id n xs) :
    q.document? root id ≠ .error .isDirectory := by
  obtain ⟨ds, hserves, -⟩ := h.serves
  obtain ⟨r, -, hfollows⟩ := hserves.own
  cases hwritten : r.written with
  | none =>
    rw [document?, hfollows.unwritten hwritten]
    simp
  | some k =>
    obtain ⟨t, -, -, hdoc⟩ := hfollows.written k hwritten
    rw [document?, hdoc]
    simp

/-- **A flush makes the document show the newest snapshot and brings the directory to rest**, if the sole
writer knows that snapshot and the system lets it be written.  The verdict document stays what it is. -/
theorem Serving.flushed (h : q.Serving root id n xs) (hin : q.scribe.InOrder q.ledger root)
    (hn : q.scribe.current.get? id = some n) {t : RunState} (hread : q.ledger.read id = .ok t)
    (hnewest : ∀ s ∈ xs, s = t ∨ s.revision < t.revision) (hknows : q.scribe.Knows n t.revision)
    (hrefusal : q.disk.refusal (q.disk.locate (Workspace.statusPath ⟨id, dirFor root id⟩)) = none)
    (hs : q'.scribe = (q.scribe.flush q.disk id).1) (hd : q'.disk = (q.scribe.flush q.disk id).2)
    (hf : q'.inFlight = q.inFlight) :
    q'.disk.reach (q'.disk.locate root ++ [sanitize id]) = .ok .directory ∧ q'.Resting root id ∧
      q'.document? root id = .ok t.document ∧ q'.verdict? root id = q.verdict? root id := by
  obtain ⟨ds, hserves, hds⟩ := h.serves
  obtain ⟨hrest, hstatus⟩ := hserves.atRest hin hn hknows (fun s hs => hnewest s (hds s hs))
    fun x => Workspace.exists_writeStatus h.there h.not_isDirectory hrefusal x
  -- nothing but the state document is written
  have hwrites : Disk.Writes (· = q.disk.locate (dirFor root id) ++ [Workspace.statusName]) q.disk
      (q.scribe.flush q.disk id).2 := by
    refine Scribe.updateRun_writes fun i r hi hr => (r.flush_writes q.disk).mono ?_
    rintro _ rfl
    obtain ⟨r', hr', hfollows⟩ := hserves.own
    obtain rfl := Option.some.inj (hn.symm.trans hi)
    obtain rfl := Option.some.inj (hr.symm.trans hr')
    rw [Registration.statusLocation, hfollows.workspace]
  refine ⟨?_, ⟨hs ▸ hrest, fun s hs' hid m hm => ?_⟩, ?_, ?_⟩
  · rw [hd, Disk.locate_congr hwrites.here_eq]
    exact hwrites.reach_directory h.there
  · rw [hs] at hm ⊢
    rw [(q.scribe.onward_flush _ _).current_eq, hn] at hm
    obtain rfl := Option.some.inj hm
    refine Scribe.Knows.onward ?_ (q.scribe.onward_flush _ _)
    rcases h.pending s (hf ▸ hs') hid with hmem | hold
    · exact hknows.mono (h.bounded t hread s hmem)
    · exact hold
  · rw [document?, hd]
    exact hstatus
  · rw [verdict?, verdict?, hd]
    exact Workspace.verdictContent_of_writes hwrites

/-- The sole writer is the present registration of the run, if that is on the ledger. -/
theorem Serving.workspace?_eq (h : q.Serving root id n xs) (hq : Reachable q)
    (hroot : q.config.workspaceRoot = some root) (hreg : q.Registered id) :
    q.scribe.current.get? id = some n ∧ q.scribe.workspace? id = some ⟨id, dirFor root id⟩ := by
  obtain ⟨m, hm⟩ := Option.ne_none_iff_exists'.1 (hq.enlisted hroot hreg)
  obtain ⟨ds, hserves, -⟩ := h.serves
  obtain rfl := hserves.sole.current m hm
  obtain ⟨r, hr, hfollows⟩ := hserves.own
  refine ⟨hm, ?_⟩
  rw [Scribe.workspace?, Scribe.registration?, hm, Option.bind_some, hr, Option.map_some,
    hfollows.workspace]

/-- **The call that gives a run its verdict seals it**, if the state document has a sole writer and the
system lets it be written. -/
theorem Serving.sealed (h : q.Serving root id n xs) (hq : Reachable q)
    (hroot : q.config.workspaceRoot = some root)
    (hrefusal : q.disk.refusal (q.disk.locate (Workspace.statusPath ⟨id, dirFor root id⟩)) = none)
    {inc : Incarnation} (hact : q.active id = .ok (i, inc)) (hnone : inc.verdict = none)
    (hfin : (q.finalize id).2 = .ok v) : ∃ s, (q.step (.finalize id)).Sealed root id i v s := by
  have hin := hq.inOrder hroot
  obtain ⟨htable, hinc⟩ := active_eq_ok.1 hact
  obtain ⟨x, hx⟩ : ∃ x, q.ledger.entries.get? id = some x := by
    rcases hq.wired.listed id with ⟨hgone, -⟩ | ⟨_, _, x, _, _, _, hx, _⟩
    · rw [htable] at hgone
      cases hgone
    · exact ⟨x, hx⟩
  have hreg : q.Registered id := by
    rw [Registered, hx]
    exact Option.some_ne_none _
  obtain ⟨hn, hw⟩ := h.workspace?_eq hq hroot hreg
  obtain ⟨s₀, d, u, q₂, -, hagg, hverdict, hatt, hq₂, heq⟩ := finalize_of_none hact hnone hw hfin
  have ha := Ledger.attach_advance hatt
  -- the verdict document is written first, then the scribe is told
  obtain ⟨xs', hserving, hmem⟩ := h.judged hin (.inr ⟨_, v, hw, hverdict⟩) hatt hq₂
  obtain ⟨hin₂, hl₂, hd₂⟩ := inOrder_judged hin hatt hq₂
  have hread₂ : q₂.ledger.read id = .ok u.published := by rw [hl₂, ha.read_eq]
  have hnewest : ∀ s ∈ xs', s = u.published ∨ s.revision < u.published.revision := by
    intro s hs
    rcases hmem s hs with hold | hread
    · have hread := Ledger.read_eq_ok.2 ⟨x, hx, rfl⟩
      exact .inr (Nat.lt_of_le_of_lt (h.bounded _ hread s hold) (ha.newer _ hread))
    · exact .inl (Except.ok.inj (hread.symm.trans ha.read_eq))
  have hrefusal₂ : q₂.disk.refusal
      (q₂.disk.locate (Workspace.statusPath ⟨id, dirFor root id⟩)) = none := by
    rw [hd₂]
    obtain ⟨-, -, rfl⟩ := Disk.replaceFile_eq_put (Workspace.writeDocument_eq_ok hverdict)
    exact hrefusal
  obtain ⟨scribe, disk, inFlight, hfold⟩ :=
    ({ q with disk := d } : Panel).foldl_deliver_accept_eq u q.arrivals
  have hq₂' := hq₂.trans hfold
  have hn₂ : q₂.scribe.current.get? id = some n := by rw [current_judged hq₂, hn]
  -- and then the state document is flushed
  have hscribe : (q.step (.finalize id)).scribe = (q₂.scribe.flush q₂.disk id).1 := by
    rw [Panel.step, heq]
    rfl
  obtain ⟨hthere, hrest, hstatus, hkept⟩ := hserving.flushed hin₂ hn₂ hread₂ hnewest
    (knows_judged hin hatt hq₂ hn) hrefusal₂ hscribe (by rw [Panel.step, heq]; rfl)
    (by rw [Panel.step, heq]; rfl)
  have hinc' : (q.incarnations.modify i fun inc => { inc with verdict := some v })[i]? =
      some { inc with verdict := some v } := by
    rw [List.getElem?_modify_eq, hinc]
    rfl
  obtain ⟨x', -, hcomplete, -, hu⟩ := Ledger.attach_eq_ok.1 hatt
  refine ⟨u.published, {
    table := by rw [Panel.step, heq, hq₂']; exact htable
    remembered := ⟨{ inc with verdict := some v }, ?_, rfl⟩
    reduced := ⟨s₀, _, (aggregate_eq_ok.1 hagg).2⟩
    read := by rw [Panel.step, heq]; exact hread₂
    complete := by rw [hu]; exact hcomplete
    ref := by rw [hu]; rfl
    there := hthere
    resting := hrest
    status := hstatus
    verdict := ?_ }⟩
  · rw [Panel.step, heq, hq₂']
    exact hinc'
  · rw [hkept, verdict?, hd₂]
    exact Workspace.verdictContent_of_writeVerdict hverdict

end Panel

end ReviewPanel
