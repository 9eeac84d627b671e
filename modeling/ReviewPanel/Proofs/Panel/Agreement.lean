import ReviewPanel.Proofs.Panel.Wiring
import ReviewPanel.Proofs.Reduction

/-!
# Ledger and slots agree

A role ends on the ledger in one step and its slot is closed in another, by a supervisor or by a waiter,
and either may lose the race for one of the two.  Still, as long as the identifier of the run is not used
for a second incarnation (`Panel.Sole`), the ledger never says more than the slots:

* a role that has ended has a slot that is shut;
* a role that finished has a slot with what its own reviewer came back with;
* a verdict that the incarnation remembers is the verdict of what is on the ledger and in the slots now.

The proof: whoever changes a role on the ledger (`Panel.Change`) is a supervisor or a waiter of the run,
hence of its only incarnation, and has shut the slot before (`Panel.Wired`).

## Main definitions

* `Panel.Sole` : the run has one incarnation.
* `Panel.Agrees` : the three facts above.

## Main statements

* `Panel.Move.linked` : what one step preserves.
* `Panel.Reachable.agrees` : **ledger and slots agree on every reachable panel.**
-/

namespace ReviewPanel.Panel

/-- Of all incarnations, only the one at `i` is of the run `id`. -/
def Sole (p : Panel) (i : Nat) (id : RunId) : Prop :=
  ∀ j inc, p.incarnations[j]? = some inc → inc.runId = id → j = i

theorem sole_of_length {p : Panel} (h : p.incarnations.length = 1) (id : RunId) : p.Sole 0 id := by
  intro j inc hj _
  have hlt := (List.getElem?_eq_some_iff.1 hj).1
  omega

theorem Sole.of_advances {p q : Panel} {i : Nat} {id : RunId} (h : q.Sole i id)
    (hadv : p.Advances q) : p.Sole i id := by
  intro j inc hinc hid
  obtain ⟨inc', hinc', hgrow⟩ := hadv.incarnations j inc hinc
  exact h j inc' hinc' (hgrow.runId_eq.trans hid)

theorem Wired.isSome_slot {p : Panel} (h : p.Wired) {i : Nat} {inc : Incarnation} {x : LedgerEntry}
    (hinc : p.incarnations[i]? = some inc) (hsole : p.Sole i inc.runId)
    (hx : p.ledger.entries.get? inc.runId = some x) (role : Role) :
    (x.roles.get? role).isSome = (inc.slots.cells.get? role).isSome := by
  rcases h.listed inc.runId with ⟨-, hnone⟩ | ⟨i', inc', x', -, hinc', hid, hx', hroles⟩
  · rw [hx] at hnone
    cases hnone
  · obtain rfl : i' = i := hsole _ _ hinc' hid
    obtain rfl : inc' = inc := Option.some.inj (hinc'.symm.trans hinc)
    obtain rfl : x' = x := Option.some.inj (hx'.symm.trans hx)
    exact hroles role

/-- What the ledger says about an incarnation is backed by its slots. -/
structure Agrees (supervisors : List Supervisor) (i : Nat) (inc : Incarnation) (x : LedgerEntry) :
    Prop where
  shut : ∀ role status, x.roles.get? role = some status → status.isTerminal = true →
    inc.slots.Shut role
  delivered : ∀ role status, x.roles.get? role = some status → status.phase = .complete →
    ∃ s ∈ supervisors, s.post = (i, role) ∧ s.Delivered inc
  verdict : ∀ v, inc.verdict = some v → x.verdict = some v.toRef ∧ x.isComplete = true ∧
    v = Verdict.reduce (x.snapshot inc.runId) inc.slots.findings

namespace Agrees

variable {supervisors supervisors' : List Supervisor} {i : Nat} {inc inc' : Incarnation}
  {x : LedgerEntry}

theorem mono (h : Agrees supervisors i inc x) (hgrow : inc.Grows inc')
    (hv : inc'.verdict = inc.verdict)
    (hs : Extends Supervisor.Advances supervisors supervisors') : Agrees supervisors' i inc' x where
  shut role status hr ht := hgrow.slots.shut (h.shut role status hr ht)
  delivered role status hr hc := by
    obtain ⟨s, hmem, hpost, hdel⟩ := h.delivered role status hr hc
    obtain ⟨s', hmem', hadv⟩ := hs.exists_mem hmem
    refine ⟨s', hmem', ?_, hdel.mono hadv hgrow⟩
    rw [← hpost, Supervisor.post, Supervisor.post, hadv.incarnation_eq, hadv.role_eq]
  verdict v hv' := by
    obtain ⟨href, hcomp, hred⟩ := h.verdict v (hv ▸ hv')
    refine ⟨href, hcomp, hred.trans ?_⟩
    -- the slots of all roles that finished are shut, so the findings have not changed
    refine Verdict.reduce_congr hgrow.runId_eq.symm rfl fun role status hr hc => ?_
    exact (hgrow.slots.findings_eq (h.shut role status hr (by rw [Status.isTerminal, hc]; rfl))).symm

/-- One role moves on.  If that ends it, its slot has to be shut before, and if it finishes, the findings
have to be there. -/
theorem move (h : Agrees supervisors i inc x) (hv : x.verdict = none) {role : Role}
    {status : Status} (hshut : status.isTerminal = true → inc.slots.Shut role)
    (hdel : status.phase = .complete → ∃ s ∈ supervisors, s.post = (i, role) ∧ s.Delivered inc) :
    Agrees supervisors i inc (x.move role status) where
  shut role' status' hr ht := by
    rw [LedgerEntry.move, Table.get?_set] at hr
    split_ifs at hr with heq
    · obtain rfl := Option.some.inj hr
      exact heq ▸ hshut ht
    · exact h.shut role' status' hr ht
  delivered role' status' hr hc := by
    rw [LedgerEntry.move, Table.get?_set] at hr
    split_ifs at hr with heq
    · obtain rfl := Option.some.inj hr
      exact heq ▸ hdel hc
    · exact h.delivered role' status' hr hc
  verdict v hv' := by
    have := (h.verdict v hv').1
    rw [hv] at this
    cases this

theorem withVerdict (h : Agrees supervisors i inc x) (hv : x.verdict = none) (ref : VerdictRef) :
    Agrees supervisors i inc (x.withVerdict ref) where
  shut := h.shut
  delivered := h.delivered
  verdict v hv' := by
    have := (h.verdict v hv').1
    rw [hv] at this
    cases this

theorem finalize (h : Agrees supervisors i inc x) (hc : x.isComplete = true) {v : Verdict}
    (hred : v = Verdict.reduce (x.snapshot inc.runId) inc.slots.findings) :
    Agrees supervisors i { inc with verdict := some v } (x.withVerdict v.toRef) where
  shut := h.shut
  delivered := h.delivered
  verdict v' hv' := by
    obtain rfl := Option.some.inj hv'
    exact ⟨rfl, hc, hred.trans (Verdict.reduce_congr rfl rfl fun _ _ _ _ => rfl)⟩

end Agrees

/-! ### What one step preserves -/

theorem aggregate_eq_ok {s : RunState} {slots : Slots} {v : Verdict} :
    aggregate s slots = .ok v ↔ s.allComplete = true ∧ v = Verdict.reduce s slots.findings := by
  unfold aggregate
  split_ifs with h
  · simp [h, eq_comm]
  · simp [h]

theorem verdict_of_modify {incs : List Incarnation} {i j : Nat} {f : Incarnation → Incarnation}
    {inc inc' : Incarnation} (hinc : incs[i]? = some inc)
    (hinc' : (incs.modify j f)[i]? = some inc') (hf : ∀ a, (f a).verdict = a.verdict) :
    inc'.verdict = inc.verdict := by
  rw [List.getElem?_modify, hinc] at hinc'
  obtain rfl := Option.some.inj hinc'
  split_ifs
  · exact hf inc
  · rfl

/-- **Only finalizing gives an incarnation a verdict.** -/
theorem Move.verdict_cases {p q : Panel} {e : Event} (h : Move p e q) {i : Nat}
    {inc inc' : Incarnation} (hinc : p.incarnations[i]? = some inc)
    (hinc' : q.incarnations[i]? = some inc') :
    inc'.verdict = inc.verdict ∨
      ∃ id v x, p.table.get? id = some i ∧ p.ledger.entries.get? id = some x ∧
        x.isComplete = true ∧ v = Verdict.reduce (x.snapshot id) inc.slots.findings ∧
        inc' = { inc with verdict := some v } ∧
        q.ledger.entries.get? id = some (x.withVerdict v.toRef) := by
  cases h with
  | idle | aside | refused | forgotten | entered | polled | turned | finished | skipped | returned
    | observed =>
    obtain rfl := Option.some.inj (hinc.symm.trans hinc')
    exact .inl rfl
  | began | expired | gaveUp | settled =>
    simp only [setWait_incarnations, setStage_incarnations, stopLate_incarnations,
      transition_incarnations] at hinc'
    obtain rfl := Option.some.inj (hinc.symm.trans hinc')
    exact .inl rfl
  | started =>
    have hlt := (List.getElem?_eq_some_iff.1 hinc).1
    rw [List.getElem?_append_left hlt] at hinc'
    obtain rfl := Option.some.inj (hinc.symm.trans hinc')
    exact .inl rfl
  | joined => exact .inl (verdict_of_modify hinc hinc' fun _ => rfl)
  | closed =>
    rw [setWait_incarnations, withhold_fst] at hinc'
    exact .inl (verdict_of_modify hinc hinc' fun _ => rfl)
  | published =>
    rw [setStage_incarnations, publish_incarnations] at hinc'
    exact .inl (verdict_of_modify hinc hinc' fun _ => rfl)
  | withheld =>
    rw [setStage_incarnations, withhold_fst] at hinc'
    exact .inl (verdict_of_modify hinc hinc' fun _ => rfl)
  | @finalized id i₀ inc₀ s v hact hv hs hagg hatt =>
    obtain ⟨htab, hinc₀⟩ := active_eq_ok.1 hact
    rw [modifyIncarnation_incarnations, List.getElem?_modify, hinc] at hinc'
    by_cases hi : i₀ = i
    · subst hi
      obtain rfl : inc₀ = inc := Option.some.inj (hinc₀.symm.trans hinc)
      obtain rfl := Option.some.inj hinc'
      obtain ⟨x, hx, rfl⟩ := Ledger.read_eq_ok.1 hs
      obtain ⟨hcomp, hred⟩ := aggregate_eq_ok.1 hagg
      obtain ⟨u, hu⟩ := hatt
      obtain ⟨x', hx', -, -, rfl⟩ := Ledger.attach_eq_ok.1 hu
      obtain rfl : x = x' := Option.some.inj (hx.symm.trans hx')
      refine .inr ⟨id, v, x, htab, hx, hcomp, hred, by simp, ?_⟩
      simp [Ledger.apply, hu]
    · obtain rfl := Option.some.inj hinc'
      exact .inl (by simp [hi])

/-- Ledger and slots agree about every run with one incarnation. -/
def Linked (p : Panel) : Prop :=
  ∀ i inc x, p.incarnations[i]? = some inc → p.Sole i inc.runId →
    p.ledger.entries.get? inc.runId = some x → Agrees p.supervisors i inc x

/-- **One step keeps ledger and slots in agreement.** -/
theorem Move.linked {p q : Panel} {e : Event} (h : Move p e q) (hw : p.Wired) (hp : p.Linked) :
    q.Linked := by
  intro i inc' x' hinc' hsole' hx'
  have hadv := h.advances
  rcases hadv.incarnations.back hinc' with ⟨inc, hinc, hgrow⟩ | hnew
  · rw [hgrow.runId_eq] at hsole' hx'
    have hsole := hsole'.of_advances hadv
    have hold := fun x hx => hp i inc x hinc hsole hx
    rcases h.verdict_cases hinc hinc' with hv | ⟨id, v, x, htab, hx, hcomp, hred, rfl, hxq⟩
    · -- the entry as it is now, with the slots as they were before
      suffices hbefore : Agrees p.supervisors i inc x' from hbefore.mono hgrow hv hadv.supervisors
      have hch := h.change inc.runId
      rw [hx'] at hch
      generalize hxp : p.ledger.entries.get? inc.runId = y at hch
      cases hch with
      | same => exact hold x' hxp
      | @reported j s phase cause x status hs hst hid hvx hr ha =>
        have hmem := List.mem_of_getElem? hs
        obtain ⟨inc₀, hinc₀, hid₀, -, hback⟩ := hw.supervisors s hmem
        obtain hi : s.incarnation = i := hsole _ _ hinc₀ (hid₀.trans hid)
        obtain rfl : inc₀ = inc := Option.some.inj (hinc₀.symm.trans (hi ▸ hinc))
        refine (hold x hxp).move hvx (fun _ => (hback.decided phase cause hst).2) fun hc => ?_
        obtain rfl : phase = .complete := hc
        exact ⟨s, hmem, by rw [Supervisor.post, hi], hback.complete cause hst⟩
      | @forced k w snapshot late role rest next phase cause x status hwk hst hnext hphase hid hvx =>
        obtain ⟨inc₀, hinc₀, hid₀, hshut⟩ := hw.waiters w (List.mem_of_getElem? hwk)
        obtain hi : w.incarnation = i := hsole _ _ hinc₀ (hid₀.trans hid)
        obtain rfl : inc₀ = inc := Option.some.inj (hinc₀.symm.trans (hi ▸ hinc))
        exact (hold x hxp).move hvx (fun _ => hshut _ _ _ _ _ hst hnext) fun hc => absurd hc hphase
      | judged hvx => exact (hold _ hxp).withVerdict hvx _
      | restarted hlast hid =>
        -- the new incarnation would be the only one
        have hi := hsole' _ _ hlast hid
        have hlt := (List.getElem?_eq_some_iff.1 hinc).1
        omega
    · obtain rfl : inc.runId = id := (hw.listed id).runId_eq htab hinc
      obtain rfl := Option.some.inj (hxq.symm.trans hx')
      have hfin := (hold x hx).finalize hcomp hred
      exact hfin.mono (Incarnation.Grows.refl _) rfl hadv.supervisors
  · obtain ⟨rfl, item, roles, rfl, -, hnone, x, hx, hxv, hrun⟩ := h.launched hinc' hnew
    obtain rfl := Option.some.inj (hx.symm.trans hx')
    -- all roles are running, and there is no verdict
    have hphase : ∀ role status, x.roles.get? role = some status → status.phase = .running := by
      intro role status hr
      have := hrun role
      rw [hr] at this
      split_ifs at this
      · exact Option.some.inj this
      · cases this
    refine ⟨fun role status hr ht => ?_, fun role status hr hc => ?_, fun v hv => ?_⟩
    · rw [Status.isTerminal, hphase role status hr] at ht
      cases ht
    · rw [hphase role status hr] at hc
      cases hc
    · rw [hnone] at hv
      cases hv

theorem Reachable.linked {p : Panel} (h : Reachable p) : p.Linked := by
  induction h with
  | @ofConfig config crew disk now canSpawn nextStamp p h =>
    obtain rfl := eq_of_ofConfig h
    intro i inc x hinc
    cases hinc
  | @step p h e ih => exact (p.step_move e).linked h.wired ih

/-- **Ledger and slots agree on every reachable panel** about every run with one incarnation. -/
theorem Reachable.agrees {p : Panel} (h : Reachable p) {i : Nat} {inc : Incarnation}
    {x : LedgerEntry} (hinc : p.incarnations[i]? = some inc) (hsole : p.Sole i inc.runId)
    (hx : p.ledger.entries.get? inc.runId = some x) : Agrees p.supervisors i inc x :=
  h.linked i inc x hinc hsole hx

end ReviewPanel.Panel
