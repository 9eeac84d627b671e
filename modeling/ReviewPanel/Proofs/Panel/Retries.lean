import ReviewPanel.Proofs.Panel.Answers
import ReviewPanel.Proofs.Panel.Sealing
import ReviewPanel.Proofs.Panel.Tenure

/-!
# Finalizing again

A call to finalize a run reads the ledger, computes the verdict, writes it down, attaches it and remembers
it.  It may fail half way: a role has not ended, or the document cannot be written.  Then it leaves the panel
as it was, so the client may call again, as often as it likes, while reviewers and other clients go on.  The
first call that succeeds seals the run; all later ones return the verdict that is remembered.

The reason is that what an incarnation remembers and what the ledger shows go together
(`Panel.Reachable.verdict_eq`).  So the last step cannot fail: a run whose verdict has been written down
without one on the ledger is a run that lets a verdict be attached.  Of the steps that may fail, none has
changed anything (`Panel.Finalization`).

## Main definitions

* `Panel.Finalization` : what a call to finalize a run comes to.
* `Panel.Remembering` : the run has its verdict.
* `Panel.SealsWith` : a call gives the run its verdict, computed from what it finds.

## Main statements

* `Panel.finalize_finalization` : **a call that fails leaves everything as it was.**
* `Panel.Remembering.run`, `Panel.Remembering.read_run` : a verdict and its entry stay.
* `Panel.exists_sealsWith`, `Panel.sealed_once` : one call, and no other, has sealed the run.
* `Panel.finalize_until_sealed` : **a failed call can be repeated, and one that succeeds is the last to
  change anything.**
-/

namespace ReviewPanel.Panel

variable {p q r : Panel} {id : RunId} {e : Event} {i : Nat} {inc : Incarnation} {x : LedgerEntry}
  {s : RunState} {v : Verdict} {es : List Event}

/-! ### What is remembered, and what the ledger shows -/

theorem verdict_step (hp : Reachable p) (he : e.Spares id) (htab : p.table.get? id = some i)
    (hinc : p.incarnations[i]? = some inc) (hx : p.ledger.entries.get? id = some x)
    (h : x.verdict = inc.verdict.map Verdict.toRef) {inc' : Incarnation} {x' : LedgerEntry}
    (hinc' : (p.step e).incarnations[i]? = some inc')
    (hx' : (p.step e).ledger.entries.get? id = some x') :
    x'.verdict = inc'.verdict.map Verdict.toRef := by
  rcases (p.step_move e).verdict_cases hinc hinc' with
    hsame | ⟨id', v, y, htab', -, -, -, rfl, hy⟩
  · rw [hsame, ← h]
    have hchange := (p.step_move e).change id
    rw [hx, hx'] at hchange
    cases hchange with
    | same | reported | forced => rfl
    | @judged _ verdict hnone =>
      -- the call would have been remembered
      exfalso
      have hold : p.ledger.entries.get? id ≠ some (x.withVerdict verdict) := fun habs => by
        have hv := congrArg LedgerEntry.verdict (Option.some.inj (hx.symm.trans habs))
        rw [hnone] at hv
        cases hv
      rw [step] at hx' hinc'
      rcases p.finalize_cases id with
        ⟨_, _, hf⟩ | ⟨i', inc₀, v, hact, ⟨-, hf⟩ | ⟨hv, _, _, _, _, -, -, -, hf⟩⟩
      · rw [hf] at hx'
        exact hold hx'
      · rw [hf] at hx'
        exact hold hx'
      · obtain ⟨htab', hinc₀⟩ := active_eq_ok.1 hact
        obtain rfl : i' = i := Option.some.inj (htab'.symm.trans htab)
        obtain rfl : inc₀ = inc := Option.some.inj (hinc₀.symm.trans hinc)
        rw [hf, modifyIncarnation_incarnations, List.getElem?_modify_eq, hinc] at hinc'
        obtain rfl := Option.some.inj hinc'
        rw [hv] at hsame
        cases hsame
    | restarted => exact absurd rfl he
  · obtain rfl : id' = id := ((hp.wired.listed id').runId_eq htab' hinc).symm.trans
      ((hp.wired.listed id).runId_eq htab hinc)
    obtain rfl := Option.some.inj (hx'.symm.trans hy)
    rfl

/-- **What an incarnation remembers is what the ledger shows.** -/
theorem Reachable.verdict_eq (hp : Reachable p) (htab : p.table.get? id = some i)
    (hinc : p.incarnations[i]? = some inc) (hx : p.ledger.entries.get? id = some x) :
    x.verdict = inc.verdict.map Verdict.toRef := by
  induction hp generalizing inc x with
  | ofConfig h =>
    obtain rfl := eq_of_ofConfig h
    cases htab
  | @step p hp e ih =>
    by_cases hi : i < p.incarnations.length
    · by_cases he : e.Spares id
      · have htab₀ := ((p.step_move e).table_get? he).symm.trans htab
        rcases hp.wired.listed id with ⟨hnone, -⟩ | ⟨i₀, inc₀, x₀, htab₁, hinc₀, -, hx₀, -⟩
        · rw [htab₀] at hnone
          cases hnone
        · obtain rfl : i₀ = i := Option.some.inj (htab₁.symm.trans htab₀)
          exact verdict_step hp he htab₀ hinc₀ hx₀ (ih htab₀ hinc₀ hx₀) hinc hx
      · have hsame := step_eq_of_table hp.wired hi he htab
        rw [hsame] at htab hinc hx
        exact ih htab hinc hx
    · obtain ⟨-, _, _, -, -, hv, y, hy, hnone, -⟩ := (p.step_move e).launched hinc (Nat.le_of_not_lt hi)
      rw [((hp.step e).wired.listed id).runId_eq htab hinc, hx] at hy
      rw [hv, Option.some.inj hy, hnone]
      rfl

/-! ### What a call comes to -/

/-- The verdict of the run can be written down, if documents are kept. -/
def Recordable (p : Panel) (id : RunId) (v : Verdict) : Prop :=
  ∀ w, p.scribe.workspace? id = some w → ∃ d, w.writeVerdict p.disk v = .ok d

/-- What a call to finalize a run comes to, whose incarnation is `inc`, and of which the ledger shows `s`. -/
inductive Finalization (p : Panel) (id : RunId) (i : Nat) (inc : Incarnation) (s : RunState) :
    Panel × Except PanelError Verdict → Prop
  /-- The verdict of an earlier call is returned. -/
  | remembered {v : Verdict} (hv : inc.verdict = some v) (hs : s.verdict = some v.toRef) :
      Finalization p id i inc s (p, .ok v)
  /-- Some role has not ended. -/
  | outstanding (hv : inc.verdict = none) (hs : s.verdict = none) (hc : s.allComplete = false) :
      Finalization p id i inc s (p, .error (.runNotComplete id))
  /-- The verdict cannot be written down. -/
  | unwritten (hv : inc.verdict = none) (hs : s.verdict = none) (hc : s.allComplete = true)
      {w : Workspace} {err : WorkspaceError} (hw : p.scribe.workspace? id = some w)
      (hwrite : w.writeVerdict p.disk (.reduce s inc.slots.findings) = .error err) :
      Finalization p id i inc s (p, .error (.workspace err))
  /-- The verdict is written down, attached and remembered. -/
  | accepted (hs : s.verdict = none) (hc : s.allComplete = true) {v : Verdict}
      (hv : v = .reduce s inc.slots.findings) (hwrites : p.Recordable id v) (scribe : Scribe)
      (disk : Disk) (inFlight : List RunState) :
      Finalization p id i inc s
        (({ p with ledger := p.ledger.apply (.attach id v.toRef), scribe, disk, inFlight }
          ).modifyIncarnation i fun inc => { inc with verdict := some v }, .ok v)

theorem writeVerdict_cases (p : Panel) (id : RunId) (v : Verdict) :
    (∃ w err, p.scribe.workspace? id = some w ∧ w.writeVerdict p.disk v = .error err ∧
        p.writeVerdict id v = .error (.workspace err)) ∨
      p.Recordable id v ∧ ∃ disk, p.writeVerdict id v = .ok { p with disk } := by
  simp only [writeVerdict, Recordable]
  cases p.scribe.workspace? id with
  | none => exact .inr ⟨by simp, p.disk, rfl⟩
  | some w =>
    cases hwrite : w.writeVerdict p.disk v with
    | error err => exact .inl ⟨w, err, rfl, hwrite, by simp only [hwrite]⟩
    | ok d => exact .inr ⟨fun w' hw' => Option.some.inj hw' ▸ ⟨d, hwrite⟩, d, by simp only [hwrite]⟩

theorem attachVerdict_eq_ok (hx : p.ledger.entries.get? id = some x) (hc : x.isComplete = true)
    (hnone : x.verdict = none) (v : Verdict) :
    ∃ scribe disk inFlight, p.attachVerdict id v =
      .ok { p with ledger := p.ledger.apply (.attach id v.toRef), scribe, disk, inFlight } := by
  cases hatt : p.attachVerdict id v with
  | error err =>
    obtain ⟨u, hu⟩ : ∃ u, p.ledger.attach id v.toRef = .ok u :=
      ⟨_, Ledger.attach_eq_ok.2 ⟨x, hx, hc, hnone, rfl⟩⟩
    simp only [attachVerdict, hu] at hatt
    cases hatt
  | ok p' =>
    obtain ⟨-, scribe, disk, inFlight, rfl⟩ := attachVerdict_eq hatt
    exact ⟨scribe, disk, inFlight, rfl⟩

/-- **A call that fails leaves everything as it was**, and it fails only where a role has not ended, or where
the verdict cannot be written down. -/
theorem finalize_finalization (hp : Reachable p) (hact : p.active id = .ok (i, inc))
    (hread : p.ledger.read id = .ok s) : Finalization p id i inc s (p.finalize id) := by
  obtain ⟨htab, hinc⟩ := active_eq_ok.1 hact
  obtain ⟨x, hx, rfl⟩ := Ledger.read_eq_ok.1 hread
  have hverdict : (x.snapshot id).verdict = inc.verdict.map Verdict.toRef :=
    hp.verdict_eq htab hinc hx
  unfold finalize
  simp only [hact]
  cases hv : inc.verdict with
  | some v =>
    rw [hv] at hverdict
    exact .remembered hv hverdict
  | none =>
    rw [hv] at hverdict
    simp only [hread]
    cases hc : (x.snapshot id).allComplete with
    | false =>
      simp only [aggregate, hc]
      exact .outstanding hv hverdict hc
    | true =>
      simp only [aggregate_eq_ok.2 ⟨hc, rfl⟩]
      rcases p.writeVerdict_cases id (.reduce (x.snapshot id) inc.slots.findings) with
        ⟨w, err, hw, hwrite, heq⟩ | ⟨hwrites, disk, heq⟩
      · simp only [heq]
        exact .unwritten hv hverdict hc hw hwrite
      · obtain ⟨scribe, disk', inFlight, hatt⟩ :=
          attachVerdict_eq_ok (p := { p with disk }) hx hc hverdict
            (.reduce (x.snapshot id) inc.slots.findings)
        simp only [heq, hatt]
        exact .accepted hverdict hc rfl hwrites scribe disk' inFlight

/-! ### A run that has its verdict -/

/-- The incarnation `i` of the run `id` is still there, and has its verdict. -/
structure Remembering (p : Panel) (id : RunId) (i : Nat) (v : Verdict) : Prop where
  reachable : Reachable p
  table : p.table.get? id = some i
  remembered : ∃ inc, p.incarnations[i]? = some inc ∧ inc.verdict = some v

namespace Remembering

theorem finalize_eq (h : p.Remembering id i v) : p.finalize id = (p, .ok v) := by
  obtain ⟨inc, hinc, hv⟩ := h.remembered
  exact finalize_of_verdict h.table hinc hv

theorem exists_read (h : p.Remembering id i v) :
    ∃ s, p.ledger.read id = .ok s ∧ s.verdict = some v.toRef := by
  obtain ⟨inc, hinc, hv⟩ := h.remembered
  rcases h.reachable.wired.listed id with ⟨hnone, -⟩ | ⟨_, _, x, -, -, -, hx, -⟩
  · rw [h.table] at hnone
    cases hnone
  · refine ⟨x.snapshot id, Ledger.read_eq_ok.2 ⟨x, hx, rfl⟩, ?_⟩
    have hverdict := h.reachable.verdict_eq h.table hinc hx
    rwa [hv] at hverdict

theorem not_isOpen (h : p.Remembering id i v) : ¬ p.ledger.Open id := by
  rintro ⟨x, hx, hnone⟩
  obtain ⟨s, hread, hs⟩ := h.exists_read
  obtain ⟨x', hx', rfl⟩ := Ledger.read_eq_ok.1 hread
  obtain rfl : x' = x := Option.some.inj (hx'.symm.trans hx)
  rw [show (x'.snapshot id).verdict = x'.verdict from rfl, hnone] at hs
  cases hs

/-- **A verdict stays**, as long as the identifier keeps its meaning. -/
theorem run (h : p.Remembering id i v) (htab : (p.run es).table.get? id = some i) :
    (p.run es).Remembering id i v := by
  obtain ⟨inc, hinc, hv⟩ := h.remembered
  obtain ⟨inc', hinc', hgrow⟩ := (p.run_advances es).incarnations i inc hinc
  exact ⟨h.reachable.run es, htab, inc', hinc', hgrow.verdict v hv⟩

/-- **The entry of a run that has its verdict stays** as well. -/
theorem read_run (h : p.Remembering id i v) (hread : p.ledger.read id = .ok s)
    (htab : (p.run es).table.get? id = some i) : (p.run es).ledger.read id = .ok s := by
  obtain ⟨inc, hinc, -⟩ := h.remembered
  obtain ⟨s', hread', hs⟩ := h.exists_read
  obtain rfl : s' = s := Except.ok.inj (hread'.symm.trans hread)
  obtain ⟨es', hes', hrun, -⟩ := exists_spared h.reachable (List.getElem?_eq_some_iff.1 hinc).1 htab
  rw [← hrun]
  refine (run_preserves (P := fun q => q.Remembering id i v ∧ q.ledger.read id = .ok s')
    (fun {q e} he hq => ?_) hes' ⟨h, hread⟩).2
  obtain ⟨hrem, hread⟩ := hq
  have htab' : (q.run [e]).table.get? id = some i :=
    ((q.step_move e).table_get? he).trans hrem.table
  exact ⟨hrem.run htab', read_step_of_verdict hrem.table hread (by rw [hs]; rfl) he
    (hrem.reachable.step e).wired⟩

end Remembering

theorem exists_active (hp : Reachable p) (htab : p.table.get? id = some i) :
    ∃ inc s, p.active id = .ok (i, inc) ∧ p.ledger.read id = .ok s := by
  rcases hp.wired.listed id with ⟨hnone, -⟩ | ⟨i', inc, x, htab', hinc, -, hx, -⟩
  · rw [htab] at hnone
    cases hnone
  · obtain rfl : i' = i := Option.some.inj (htab'.symm.trans htab)
    exact ⟨inc, _, active_eq_ok.2 ⟨htab, hinc⟩, Ledger.read_eq_ok.2 ⟨x, hx, rfl⟩⟩

theorem isOpen_of_read (hread : p.ledger.read id = .ok s) (hs : s.verdict = none) :
    p.ledger.Open id := by
  obtain ⟨x, hx, rfl⟩ := Ledger.read_eq_ok.1 hread
  exact ⟨x, hx, hs⟩

theorem remembering_of_finalize (hp : Reachable p) (htab : p.table.get? id = some i)
    (hfin : (p.finalize id).2 = .ok v) : (p.step (.finalize id)).Remembering id i v := by
  obtain ⟨inc, s, hact, hread⟩ := exists_active hp htab
  obtain ⟨-, hinc⟩ := active_eq_ok.1 hact
  have hreach : Reachable (p.finalize id).1 := hp.step (.finalize id)
  have hcase := finalize_finalization hp hact hread
  rw [step]
  generalize p.finalize id = y at hfin hreach hcase
  cases hcase with
  | remembered hv => exact ⟨hreach, htab, inc, hinc, Except.ok.inj hfin ▸ hv⟩
  | outstanding | unwritten => cases hfin
  | @accepted _ _ v' =>
    obtain rfl : v' = v := Except.ok.inj hfin
    refine ⟨hreach, htab, { inc with verdict := some v' }, ?_, rfl⟩
    rw [modifyIncarnation_incarnations, List.getElem?_modify_eq, hinc]
    rfl

/-! ### The call that seals the run -/

/-- A call to finalize the run gives it the verdict `v`, which is computed from what it finds. -/
structure SealsWith (p : Panel) (id : RunId) (i : Nat) (v : Verdict) : Prop where
  seals : p.Seals id
  returned : (p.finalize id).2 = .ok v
  computed : ∃ inc s, p.active id = .ok (i, inc) ∧ p.ledger.read id = .ok s ∧
    aggregate s inc.slots = .ok v

theorem sealsWith_of_remembering (hp : Reachable p) (htab : p.table.get? id = some i)
    (hopen : p.ledger.Open id) (h : (p.step (.finalize id)).Remembering id i v) :
    p.SealsWith id i v := by
  obtain ⟨inc, s, hact, hread⟩ := exists_active hp htab
  have hseals : p.Seals id := ⟨hopen, h.not_isOpen⟩
  have hcase := finalize_finalization hp hact hread
  have hstep : p.step (.finalize id) = (p.finalize id).1 := rfl
  rw [hstep] at h
  generalize hy : p.finalize id = y at h hcase
  cases hcase with
  | remembered _ hs =>
    obtain ⟨x, hx, hnone⟩ := hopen
    obtain ⟨x', hx', rfl⟩ := Ledger.read_eq_ok.1 hread
    obtain rfl : x' = x := Option.some.inj (hx'.symm.trans hx)
    exact absurd (hs.symm.trans hnone) (by simp)
  | outstanding | unwritten => exact absurd hopen h.not_isOpen
  | @accepted _ hc v' hv _ _ _ _ =>
    -- the verdict that is remembered is the one that was returned
    obtain rfl : v' = v := by
      obtain ⟨-, hinc⟩ := active_eq_ok.1 hact
      obtain ⟨inc', hinc', hv'⟩ := h.remembered
      rw [modifyIncarnation_incarnations, List.getElem?_modify_eq, hinc] at hinc'
      rw [← Option.some.inj hinc'] at hv'
      exact Option.some.inj hv'
    exact ⟨hseals, by rw [hy], inc, s, hact, hread, aggregate_eq_ok.2 ⟨hc, hv⟩⟩

/-- **One call has sealed the run**, if it has its verdict now and had none before. -/
theorem exists_sealsWith (hp : Reachable p) (hopen : p.ledger.Open id)
    (hi : i < p.incarnations.length) (h : (p.run es).Remembering id i v) :
    ∃ before between, es = before ++ .finalize id :: between ∧ (p.run before).SealsWith id i v := by
  induction es using List.reverseRecOn with
  | nil => exact absurd hopen h.not_isOpen
  | append_singleton es e ih =>
    have htab := table_of_run hp hi h.table
    rw [run_concat] at h
    by_cases hopen' : (p.run es).ledger.Open id
    · obtain rfl : e = .finalize id := by
        by_contra hne
        by_cases he : e.Spares id
        · exact h.not_isOpen (isOpen_step_of_ne he hne hopen')
        · rw [step_eq_of_table (hp.run es).wired ((p.run_advances es).lt_length hi) he h.table] at h
          exact h.not_isOpen hopen'
      exact ⟨es, [], rfl, sealsWith_of_remembering (hp.run es) htab hopen' h⟩
    · -- it was sealed before
      obtain ⟨v', hrem⟩ : ∃ v', (p.run es).Remembering id i v' := by
        obtain ⟨inc, s, hact, hread⟩ := exists_active (hp.run es) htab
        obtain ⟨-, hinc⟩ := active_eq_ok.1 hact
        obtain ⟨x, hx, -⟩ := Ledger.read_eq_ok.1 hread
        have hverdict := (hp.run es).verdict_eq htab hinc hx
        cases hv : inc.verdict with
        | none =>
          rw [hv] at hverdict
          exact absurd ⟨x, hx, hverdict⟩ hopen'
        | some v' => exact ⟨v', hp.run es, htab, inc, hinc, hv⟩
      obtain rfl : v' = v := by
        have hnext : ((p.run es).run [e]).Remembering id i v' := hrem.run h.table
        exact Except.ok.inj (congrArg Prod.snd (hnext.finalize_eq.symm.trans h.finalize_eq))
      obtain ⟨before, between, rfl, hseals⟩ := ih hrem
      exact ⟨before, between ++ [e], by simp, hseals⟩

theorem not_isOpen_of_table (hp : Reachable p) (hi : i < p.incarnations.length)
    (htab : (p.run es).table.get? id = some i) (h : ¬ p.ledger.Open id) :
    ¬ (p.run es).ledger.Open id := by
  obtain ⟨es', hes', hrun, -⟩ := exists_spared hp hi htab
  rw [← hrun]
  exact not_isOpen_run hes' h

/-- **No run is sealed twice**: of two events that seal it none comes before the other. -/
theorem sealed_once (hp : Reachable p) (hi : i < p.incarnations.length)
    (htab : (p.run es).table.get? id = some i) {es₁ es₁' es₂ es₂' : List Event} {e₁ e₂ : Event}
    (h₁ : es = es₁ ++ e₁ :: es₁') (hclosed : ¬ ((p.run es₁).step e₁).ledger.Open id)
    (h₂ : es = es₂ ++ e₂ :: es₂') (hopen : (p.run es₂).ledger.Open id) : es₂.length ≤ es₁.length := by
  by_contra hlt
  rcases List.append_eq_append_iff.1 (h₁.symm.trans h₂) with ⟨m, rfl, hm⟩ | ⟨m, rfl, -⟩
  · cases m with
    | nil => simp at hlt
    | cons e m =>
      obtain ⟨rfl, rfl⟩ := List.cons_eq_cons.1 hm
      rw [h₂] at htab
      have htab' := table_of_run hp hi htab
      rw [run_append, run_cons] at htab' hopen
      exact not_isOpen_of_table ((hp.run es₁).step e₁)
        (((p.run es₁).step_advances e₁).lt_length ((p.run_advances es₁).lt_length hi)) htab' hclosed
        hopen
  · simp at hlt

/-! ### Calls that fail, and calls that succeed -/

/-- A call to finalize the run, which fails with `err`, leaves no trace, and can be repeated. -/
structure Traceless (p : Panel) (id : RunId) (i : Nat) (err : PanelError) : Prop where
  unchanged : (p.finalize id).1 = p
  forget_eq : p.forget id = (p, .error (.runNotComplete id))
  cause : ∃ inc s, p.active id = .ok (i, inc) ∧ p.ledger.read id = .ok s ∧ s.verdict = none ∧
    (s.allComplete = false ∧ err = .runNotComplete id ∨
      s.allComplete = true ∧ ∃ w werr, p.scribe.workspace? id = some w ∧
        w.writeVerdict p.disk (.reduce s inc.slots.findings) = .error werr ∧ err = .workspace werr)
  /-- Later on, when every role has ended and the verdict can be written down, a call succeeds.  It returns
  what the first call returned that succeeded, and was computed from what that one found; this is what it
  finds itself, if it is the first or if the identifier has not been used twice. -/
  repeatable : ∀ later inc s, (p.run later).active id = .ok (i, inc) →
    (p.run later).ledger.read id = .ok s → s.allComplete = true →
    (p.run later).Recordable id (.reduce s inc.slots.findings) →
    ∃ v, ((p.run later).finalize id).2 = .ok v ∧
      (∃ before between, later ++ [.finalize id] = before ++ .finalize id :: between ∧
        (p.run before).SealsWith id i v) ∧
      (s.verdict = none ∨ (p.run later).Sole i id → aggregate s inc.slots = .ok v)

/-- After the schedule `es`, a call to finalize the run has returned `v`, and nothing will come of further
calls. -/
structure Conclusive (p : Panel) (id : RunId) (i : Nat) (es : List Event) (v : Verdict) : Prop where
  /-- One call has sealed the run, and no other event has. -/
  sealed_once : ∃ before between, es ++ [.finalize id] = before ++ .finalize id :: between ∧
    (p.run before).SealsWith id i v ∧
    ∀ before' e between', es ++ [.finalize id] = before' ++ e :: between' →
      (p.run before').ledger.Open id → ¬ ((p.run before').step e).ledger.Open id → before' = before
  /-- All further calls return the verdict and change nothing, and the ledger shows what it has shown. -/
  stays : ∃ s, (p.run (es ++ [.finalize id])).ledger.read id = .ok s ∧ s.verdict = some v.toRef ∧
    ∀ later, (p.run (es ++ .finalize id :: later)).table.get? id = some i →
      (p.run (es ++ .finalize id :: later)).finalize id =
          (p.run (es ++ .finalize id :: later), .ok v) ∧
        (p.run (es ++ .finalize id :: later)).ledger.read id = .ok s

theorem finalize_of_recordable (hp : Reachable p) (hact : p.active id = .ok (i, inc))
    (hread : p.ledger.read id = .ok s) (hc : s.allComplete = true)
    (hw : p.Recordable id (.reduce s inc.slots.findings)) :
    ∃ v, (p.finalize id).2 = .ok v ∧
      (s.verdict = none ∨ p.Sole i id → aggregate s inc.slots = .ok v) := by
  have hcase := finalize_finalization hp hact hread
  generalize hy : p.finalize id = y at hcase
  cases hcase with
  | @remembered v _ hs =>
    refine ⟨v, rfl, ?_⟩
    rintro (hnone | hsole)
    · rw [hnone] at hs
      cases hs
    · obtain ⟨inc', x, hinc', hx, -, -, hcomp, hv, -⟩ :=
        finalize_spec hp hsole (congrArg Prod.snd hy)
      obtain ⟨-, hinc⟩ := active_eq_ok.1 hact
      obtain ⟨x', hx', rfl⟩ := Ledger.read_eq_ok.1 hread
      obtain rfl : inc' = inc := Option.some.inj (hinc'.symm.trans hinc)
      obtain rfl : x = x' := Option.some.inj (hx.symm.trans hx')
      exact aggregate_eq_ok.2 ⟨hcomp, hv⟩
  | outstanding _ _ hopen =>
    rw [hc] at hopen
    cases hopen
  | unwritten _ _ _ hworkspace hwrite =>
    obtain ⟨d, hok⟩ := hw _ hworkspace
    rw [hwrite] at hok
    cases hok
  | @accepted _ _ v hv => exact ⟨v, rfl, fun _ => aggregate_eq_ok.2 ⟨hc, hv⟩⟩

/-- **A call that fails leaves no trace.** -/
theorem traceless_of_error (hp : Reachable p) (htab : p.table.get? id = some i) {err : PanelError}
    (hfin : (p.finalize id).2 = .error err) : p.Traceless id i err := by
  obtain ⟨inc, s, hact, hread⟩ := exists_active hp htab
  have hcase := finalize_finalization hp hact hread
  -- there was no verdict, so nothing was done
  obtain ⟨hsame, hv, hs, hcause⟩ : (p.finalize id).1 = p ∧ inc.verdict = none ∧ s.verdict = none ∧
      (s.allComplete = false ∧ err = .runNotComplete id ∨
        s.allComplete = true ∧ ∃ w werr, p.scribe.workspace? id = some w ∧
          w.writeVerdict p.disk (.reduce s inc.slots.findings) = .error werr ∧
          err = .workspace werr) := by
    generalize p.finalize id = y at hfin hcase
    cases hcase with
    | remembered | accepted => cases hfin
    | outstanding hv hs hc => exact ⟨rfl, hv, hs, .inl ⟨hc, (Except.error.inj hfin).symm⟩⟩
    | unwritten hv hs hc hw hwrite =>
      exact ⟨rfl, hv, hs, .inr ⟨hc, _, _, hw, hwrite, (Except.error.inj hfin).symm⟩⟩
  refine ⟨hsame, ?_, ⟨inc, s, hact, hread, hs, hcause⟩, fun later inc' s' hact' hread' hc' hw => ?_⟩
  · simp only [forget, hact, hv, Option.isNone_none, if_true]
  · obtain ⟨htab', -⟩ := active_eq_ok.1 hact'
    obtain ⟨v, hok, hagg⟩ := finalize_of_recordable (hp.run later) hact' hread' hc' hw
    have hrem := remembering_of_finalize (hp.run later) htab' hok
    rw [← run_concat] at hrem
    refine ⟨v, hok, exists_sealsWith hp (isOpen_of_read hread hs) ?_ hrem, hagg⟩
    exact (List.getElem?_eq_some_iff.1 (active_eq_ok.1 hact).2).1

/-- **A call that succeeds is the last one to change anything.** -/
theorem conclusive_of_ok (hp : Reachable p) (hopen : p.ledger.Open id)
    (hi : i < p.incarnations.length) (htab : (p.run es).table.get? id = some i)
    (hfin : ((p.run es).finalize id).2 = .ok v) : p.Conclusive id i es v := by
  have hrem := remembering_of_finalize (hp.run es) htab hfin
  rw [← run_concat] at hrem
  constructor
  · obtain ⟨before, between, heq, hseals⟩ := exists_sealsWith hp hopen hi hrem
    refine ⟨before, between, heq, hseals, fun before' e between' heq' hopen' hclosed => ?_⟩
    have hle := sealed_once hp hi hrem.table heq hseals.seals.2 heq' hopen'
    have hge := sealed_once hp hi hrem.table heq' hclosed heq hseals.seals.1
    exact List.append_inj_left (heq'.symm.trans heq) (Nat.le_antisymm hle hge)
  · obtain ⟨s, hread, hs⟩ := hrem.exists_read
    refine ⟨s, hread, hs, fun later hlater => ?_⟩
    rw [List.append_cons, run_append] at hlater ⊢
    exact ⟨(hrem.run hlater).finalize_eq, hrem.read_run hread hlater⟩

/-- **A failed call can be repeated, and one that succeeds is the last to change anything.**  Let a run be
started, and let anybody do anything, as long as the identifier means this run in the end; in particular
let clients finalize the run as often as they like, and let the system refuse to write whenever it likes.

Then a call to finalize the run fails only where some role has not ended, or where the verdict cannot be
written down.  In either case it leaves the panel as it was, the run has no verdict and is not forgotten,
and a call at any later moment at which every role has ended and the verdict can be written down returns the
verdict of the run.  If the call succeeds, it or one before it has sealed the run, and nothing else has;
every further call returns the same verdict and leaves the panel, and with it the ledger and all documents,
as it finds them. -/
theorem finalize_until_sealed {item : WorkItem} {roles : List Role} (hp : Reachable p)
    (hok : (p.start id item roles).2 = .ok id) (hq : q = (p.start id item roles).1)
    (hi : i = p.incarnations.length) (htab : (q.run es).table.get? id = some i) :
    (∀ err, ((q.run es).finalize id).2 = .error err → (q.run es).Traceless id i err) ∧
      ∀ v, ((q.run es).finalize id).2 = .ok v → q.Conclusive id i es v := by
  subst hq hi
  have hlaunched := launched_of_start hok
  have hreach : Reachable (p.start id item roles).1 := hp.step (.start id item roles)
  generalize (p.start id item roles).1 = q at hlaunched hreach htab ⊢
  obtain ⟨inc, hinc, -⟩ := hlaunched.incarnation
  obtain ⟨x, hx, hnone, -⟩ := hlaunched.running
  exact ⟨fun err hfin => traceless_of_error (hreach.run es) htab hfin, fun v hfin =>
    conclusive_of_ok hreach ⟨x, hx, hnone⟩ (List.getElem?_eq_some_iff.1 hinc).1 htab hfin⟩

/-- A client finalizes a run too early; then the only role ends, and the system refuses to write. -/
def tooEarly : List Event :=
  [.finalize "r", .comeBack 0, .observe 0, .decide 0, .settle 0, .refuse fun _ => some .permissionDenied]

theorem finalize_until_sealed_refused : ∃ p q err v, Reachable p ∧
    (p.start "r" (.ofReference "t") [.security]).2 = .ok "r" ∧
    q = (p.start "r" (.ofReference "t") [.security]).1 ∧
    (q.finalize "r").2 = .error (.runNotComplete "r") ∧
    ((q.run tooEarly).finalize "r").2 = .error (.workspace err) ∧
    (q.run tooEarly).Traceless "r" 0 (.workspace err) ∧
    ((q.run (tooEarly ++ [.finalize "r", .refuse fun _ => none])).finalize "r").2 = .ok v ∧
    q.Conclusive "r" 0 (tooEarly ++ [.finalize "r", .refuse fun _ => none]) v := by
  obtain ⟨p, hp⟩ : ∃ p, p = fresh { Config.default with workspaceRoot := some "w" } halfCrew := ⟨_, rfl⟩
  have hreach : Reachable p := hp ▸ Reachable.ofConfig (ofConfig_blank rfl halfCrew)
  have hok : (p.start "r" (.ofReference "t") [.security]).2 = .ok "r" := by
    rw [hp]
    decide +kernel
  obtain ⟨q, hq⟩ : ∃ q, q = (p.start "r" (.ofReference "t") [.security]).1 := ⟨_, rfl⟩
  have hi : 0 = p.incarnations.length := by
    rw [hp]
    rfl
  have hearly : (q.finalize "r").2 = .error (.runNotComplete "r") := by
    rw [hq, hp]
    decide +kernel
  have htab : (q.run tooEarly).table.get? "r" = some 0 := by
    rw [hq, hp]
    decide +kernel
  have htab' : (q.run (tooEarly ++ [.finalize "r", .refuse fun _ => none])).table.get? "r" =
      some 0 := by
    rw [hq, hp]
    decide +kernel
  obtain ⟨err, herr⟩ : ∃ err, ((q.run tooEarly).finalize "r").2 = .error (.workspace err) := by
    rw [hq, hp]
    exact ⟨_, rfl⟩
  obtain ⟨v, hv⟩ : ∃ v, ((q.run (tooEarly ++ [.finalize "r", .refuse fun _ => none])).finalize
      "r").2 = .ok v := by
    rw [hq, hp]
    exact ⟨_, rfl⟩
  exact ⟨p, q, err, v, hreach, hok, hq, hearly, herr,
    (finalize_until_sealed hreach hok hq hi htab).1 _ herr, hv,
    (finalize_until_sealed hreach hok hq hi htab').2 v hv⟩

end ReviewPanel.Panel
