import ReviewPanel.Proofs.Panel.Agreement

/-!
# No finding is lost on the way to a verdict

A run is finalized from what the ledger and the slots show at that moment.  On every panel that can be
reached, and whatever the reviewers of the run did, a run whose identifier is not used twice gets a
verdict only after all its roles have ended, and the verdict accounts for every one of them: it counts
exactly what the reviewers of the finished roles came back with, and lists all other roles as missing.
So a blocking finding either blocks the task or its perspective is reported as missing.  From then on the
verdict stays what it is, whoever acts on the panel.

## Main statements

* `Panel.finalize_spec` : what a verdict is computed from.
* `Panel.run_finalize` : a verdict stays until the run is forgotten or started again.
* `Panel.verdict_accounts_for_all` : **no finding is lost, and no verdict is partial.**
-/

namespace ReviewPanel.Panel

/-! ### Verdicts that are remembered -/

/-- The event neither forgets the run nor starts it again. -/
def Event.Spares (id : RunId) : Event → Prop
  | .start id' _ _ | .forget id' => id' ≠ id
  | _ => True

theorem Move.table_get? {p q : Panel} {e : Event} (h : Move p e q) {id : RunId}
    (he : e.Spares id) : q.table.get? id = p.table.get? id := by
  cases h with
  | idle | aside | finalized | entered | polled | turned | finished | joined | skipped | returned
    | observed => rfl
  | closed | began | expired | gaveUp | published | withheld | settled => simp
  | refused hc => exact (hc.get?_of_ne he.symm).1
  | started hc => rw [Dictionary.get?_insert, if_neg he.symm, (hc.get?_of_ne he.symm).1]
  | forgotten => rw [Dictionary.get?_erase, if_neg he.symm]

theorem run_table_get? {p : Panel} {id : RunId} {es : List Event} (hes : ∀ e ∈ es, e.Spares id) :
    (p.run es).table.get? id = p.table.get? id :=
  run_preserves (P := fun q => q.table.get? id = p.table.get? id)
    (fun he hq => ((step_move _ _).table_get? he).trans hq) hes rfl

theorem finalize_of_verdict {p : Panel} {id : RunId} {i : Nat} {inc : Incarnation} {v : Verdict}
    (htab : p.table.get? id = some i) (hinc : p.incarnations[i]? = some inc)
    (hv : inc.verdict = some v) : p.finalize id = (p, .ok v) := by
  have hact : p.active id = .ok (i, inc) := active_eq_ok.2 ⟨htab, hinc⟩
  simp only [finalize, hact, hv]

/-- **What a verdict is computed from**: the entry of the run, all of whose roles have ended, and the
slots of its incarnation, which remembers the verdict from then on. -/
theorem finalize_spec {p : Panel} (hp : Reachable p) {i : Nat} {id : RunId} (hsole : p.Sole i id)
    {v : Verdict} (hfin : (p.finalize id).2 = .ok v) :
    ∃ inc x, p.incarnations[i]? = some inc ∧ p.ledger.entries.get? id = some x ∧
      (∀ role, (x.roles.get? role).isSome = (inc.slots.cells.get? role).isSome) ∧
      Agrees p.supervisors i inc x ∧ x.isComplete = true ∧
      v = Verdict.reduce (x.snapshot id) inc.slots.findings ∧
      (p.finalize id).1.table.get? id = some i ∧
      ∃ inc', (p.finalize id).1.incarnations[i]? = some inc' ∧ inc'.verdict = some v := by
  rcases p.finalize_cases id with ⟨e, disk, hf⟩ | ⟨i', inc, v', hact, hcase⟩
  · rw [hf] at hfin
    cases hfin
  · obtain ⟨htab, hinc⟩ := active_eq_ok.1 hact
    obtain ⟨hnone, -⟩ | ⟨i'', inc'', x, htab', hinc', hid, hx, hroles⟩ := hp.wired.listed id
    · rw [htab] at hnone
      cases hnone
    · obtain rfl : i'' = i' := Option.some.inj (htab'.symm.trans htab)
      obtain rfl : inc'' = inc := Option.some.inj (hinc'.symm.trans hinc)
      obtain rfl : i'' = i := hsole _ _ hinc hid
      subst hid
      have hagree := hp.agrees hinc hsole hx
      refine ⟨inc'', x, hinc, hx, hroles, hagree, ?_⟩
      rcases hcase with ⟨hv, hf⟩ | ⟨hv, s, scribe, disk, inFlight, hs, hagg, -, hf⟩
      · -- the verdict is a remembered one
        rw [hf] at hfin ⊢
        obtain rfl := Except.ok.inj hfin
        obtain ⟨-, hcomp, hred⟩ := hagree.verdict v' hv
        exact ⟨hcomp, hred, htab, inc'', hinc, hv⟩
      · rw [hf] at hfin ⊢
        obtain rfl := Except.ok.inj hfin
        obtain ⟨x', hx', rfl⟩ := Ledger.read_eq_ok.1 hs
        obtain rfl : x = x' := Option.some.inj (hx.symm.trans hx')
        obtain ⟨hcomp, hred⟩ := aggregate_eq_ok.1 hagg
        refine ⟨hcomp, hred, htab, { inc'' with verdict := some v' }, ?_, rfl⟩
        rw [modifyIncarnation_incarnations, List.getElem?_modify_eq, hinc]
        rfl

/-- **A verdict stays**: as long as the run is neither forgotten nor started again, finalizing it
gives the same verdict; and as long as it has one incarnation, it never gives another one. -/
theorem run_finalize {p : Panel} {i : Nat} {id : RunId} {inc : Incarnation} {v : Verdict}
    (hp : Reachable p) (htab : p.table.get? id = some i) (hinc : p.incarnations[i]? = some inc)
    (hv : inc.verdict = some v) (es : List Event) :
    ((∀ e ∈ es, e.Spares id) → ((p.run es).finalize id).2 = .ok v) ∧
      ((p.run es).Sole i id → ∀ v', ((p.run es).finalize id).2 = .ok v' → v' = v) := by
  obtain ⟨inc', hinc', hgrow⟩ := (p.run_advances es).incarnations i inc hinc
  have hv' := hgrow.verdict v hv
  constructor
  · intro hes
    rw [finalize_of_verdict ((run_table_get? hes).trans htab) hinc' hv']
  · intro hsole v' hfin
    obtain ⟨inc₀, x, hinc₀, hx, -, hagree, -, hred, -, -⟩ := finalize_spec (hp.run es) hsole hfin
    obtain rfl : inc₀ = inc' := Option.some.inj (hinc₀.symm.trans hinc')
    obtain ⟨-, -, hred'⟩ := hagree.verdict v hv'
    have hid : inc₀.runId = id := by
      rw [hgrow.runId_eq]
      exact (hp.wired.listed id).runId_eq htab hinc
    rw [hred, hred', hid]

/-! ### The reviewers behind a verdict -/

/-- A role that finished has a reviewer who came back with the findings in its slot. -/
theorem Agrees.exists_reply {supervisors : List Supervisor} {i : Nat} {inc : Incarnation}
    {x : LedgerEntry} (h : Agrees supervisors i inc x) {role : Role} {status : Status}
    (hr : x.roles.get? role = some status) (hc : status.phase = .complete) :
    ∃ s ∈ supervisors, s.post = (i, role) ∧ s.returned = true ∧
      s.reply = .ok ((inc.slots.findings role).getD []) ∧
      inc.slots.findings role = some ((inc.slots.findings role).getD []) := by
  obtain ⟨s, hs, hpost, fs, hret, hreply, hcell⟩ := h.delivered role status hr hc
  have hrole : s.role = role := congrArg Prod.snd hpost
  have hfind : inc.slots.findings role = some fs := by
    rw [Slots.findings, ← hrole, hcell]
    rfl
  exact ⟨s, hs, hpost, hret, by rw [hfind, hreply]; rfl, by rw [hfind]; rfl⟩

theorem rolesWhere_eq_filter (s : RunState) (P : Phase → Bool) :
    s.rolesWhere P =
      Role.all.filter fun role => ((s.roles.get? role).map Status.phase).any P := by
  unfold RunState.rolesWhere Table.entries
  change ((Role.all.filterMap _).filter _).map _ = _
  induction Role.all with
  | nil => rfl
  | cons role rs ih =>
    cases h : s.roles.get? role with
    | none => simp [h, ih]
    | some status => by_cases hP : P status.phase = true <;> simp [h, hP, ih]

theorem completed_eq_filter (s : RunState) :
    s.completed = Role.all.filter fun role =>
      (s.roles.get? role).map Status.phase = some .complete := by
  rw [RunState.completed, rolesWhere_eq_filter]
  refine List.filter_congr fun role _ => ?_
  cases (s.roles.get? role).map Status.phase <;> simp [beq_eq_decide]

theorem missing_eq_filter (s : RunState) :
    s.missing = Role.all.filter fun role => (s.roles.get? role).map Status.phase = some .failed ∨
      (s.roles.get? role).map Status.phase = some .timedOut := by
  rw [RunState.missing, rolesWhere_eq_filter]
  refine List.filter_congr fun role _ => ?_
  cases (s.roles.get? role).map Status.phase <;> simp [beq_eq_decide]

theorem mem_completed {s : RunState} {role : Role} :
    role ∈ s.completed ↔ ∃ status, s.roles.get? role = some status ∧ status.phase = .complete := by
  simp [RunState.completed, RunState.rolesWhere, Table.mem_entries]

theorem mem_missing {s : RunState} {role : Role} :
    role ∈ s.missing ↔ ∃ status, s.roles.get? role = some status ∧
      (status.phase = .failed ∨ status.phase = .timedOut) := by
  simp [RunState.missing, RunState.rolesWhere, Table.mem_entries]

theorem mem_outstanding {s : RunState} {role : Role} :
    role ∈ s.outstanding ↔ ∃ status, s.roles.get? role = some status ∧ status.isTerminal = false := by
  simp [RunState.outstanding, RunState.rolesWhere, Table.mem_entries, Status.isTerminal]

/-- **No finding is lost, and no verdict is partial.**  Let a reachable panel have one incarnation of
the run `id`, and let finalizing it give the verdict `v`.  Then all its roles have ended; `v` consulted
those that finished and names the others as missing, in their order; it is the verdict of exactly what
the reviewers of the finished roles came back with; a blocking finding of any reviewer of the run is
among the blockers, or the role is missing; and `v` stays the answer, whatever happens next. -/
theorem verdict_accounts_for_all {p : Panel} (hp : Reachable p) {i : Nat} {id : RunId}
    (hsole : p.Sole i id) {v : Verdict} (hfin : (p.finalize id).2 = .ok v) :
    ∃ (s : RunState) (answers : Role → List Finding), p.ledger.read id = .ok s ∧
      (∀ role status, s.roles.get? role = some status → status.isTerminal = true) ∧
      (∀ role ∈ s.completed, ∃ w ∈ p.supervisors, w.post = (i, role) ∧ w.returned = true ∧
        w.reply = .ok (answers role)) ∧
      v.consulted = Role.all.filter (fun role =>
        (s.roles.get? role).map Status.phase = some .complete) ∧
      v.missingPerspectives = Role.all.filter (fun role =>
        (s.roles.get? role).map Status.phase = some .failed ∨
          (s.roles.get? role).map Status.phase = some .timedOut) ∧
      v = Verdict.ofRecords id s.completed s.missing
        (s.completed.flatMap fun role => (answers role).map fun f => (role, f)) ∧
      (∀ w ∈ p.supervisors, w.incarnation = i → w.returned = true →
        ∀ fs f, w.reply = .ok fs → f ∈ fs → f.isBlocking = true →
          f ∈ v.blockers ∧ v.recommendation = .blocked ∨ w.role ∈ v.missingPerspectives) ∧
      ∀ es, ((∀ e ∈ es, e.Spares id) →
          (((p.step (.finalize id)).run es).finalize id).2 = .ok v) ∧
        (((p.step (.finalize id)).run es).Sole i id →
          ∀ v', (((p.step (.finalize id)).run es).finalize id).2 = .ok v' → v' = v) := by
  obtain ⟨inc, x, hinc, hx, hroles, hagree, hcomp, hred, htab, inc', hinc', hv'⟩ :=
    finalize_spec hp hsole hfin
  have hend := LedgerEntry.isComplete_iff.1 hcomp
  let answers : Role → List Finding := fun role => (inc.slots.findings role).getD []
  have hrecords : v = Verdict.ofRecords id (x.snapshot id).completed (x.snapshot id).missing
      ((x.snapshot id).completed.flatMap fun role => (answers role).map fun f => (role, f)) := by
    refine hred.trans (Verdict.reduce_of_ended hend fun role status hr hc => ?_)
    obtain ⟨w, -, -, -, -, hfind⟩ := hagree.exists_reply hr hc
    exact hfind
  refine ⟨x.snapshot id, answers, Ledger.read_eq_ok.2 ⟨x, hx, rfl⟩, hend, ?_, ?_, ?_, hrecords, ?_, ?_⟩
  · intro role hrole
    obtain ⟨status, hr, hc⟩ := mem_completed.1 hrole
    obtain ⟨w, hw, hpost, hret, hreply, -⟩ := hagree.exists_reply hr hc
    exact ⟨w, hw, hpost, hret, hreply⟩
  · rw [hrecords]
    exact completed_eq_filter _
  · rw [hrecords]
    exact missing_eq_filter _
  · intro w hw hwi hret fs f hreply hf hblock
    -- the role of the supervisor has a slot, hence a status on the ledger, and has ended there
    obtain ⟨inc₀, hinc₀, -, hslot, -⟩ := hp.wired.supervisors w hw
    obtain rfl : inc₀ = inc := Option.some.inj ((hwi ▸ hinc₀).symm.trans hinc)
    obtain ⟨status, hr⟩ := Option.isSome_iff_exists.1 ((hroles w.role).trans hslot)
    by_cases hc : status.phase = .complete
    · left
      obtain ⟨w', hw', hpost, -, hreply', -⟩ := hagree.exists_reply hr hc
      obtain rfl : w' = w := hp.wired.eq_of_post hw' hw (by rw [hpost, Supervisor.post, hwi])
      obtain rfl : fs = answers w'.role := Except.ok.inj (hreply.symm.trans hreply')
      have hmem : f ∈ v.blockers := by
        rw [hrecords, Verdict.mem_blockers]
        refine ⟨hblock, w'.role, List.mem_flatMap.2 ⟨w'.role, mem_completed.2 ⟨status, hr, hc⟩, ?_⟩⟩
        exact List.mem_map_of_mem hf
      refine ⟨hmem, ?_⟩
      rw [hrecords] at hmem ⊢
      exact Verdict.recommendation_eq_blocked.2 ⟨f, hmem⟩
    · right
      have hterm := hend w.role status hr
      rw [hrecords]
      refine mem_missing.2 ⟨status, hr, ?_⟩
      unfold Status.isTerminal at hterm
      revert hterm hc
      cases status.phase <;> decide
  · exact run_finalize (hp.step (.finalize id)) htab hinc' hv'

/-- One role finishes with a blocking finding, the other one runs out of time. -/
theorem verdict_accounts_for_all_half : ∃ p v,
    p = (fresh .default halfCrew).run
      (.start "r" (.ofReference "t") [.security, .build] :: halfSchedule) ∧
    (p.finalize "r").2 = .ok v ∧ v.consulted = [.security] ∧ v.missingPerspectives = [.build] ∧
    openPort ∈ v.blockers ∧ v.recommendation = .blocked ∧
    ((p.run [.finalize "r", .observe 1, .decide 1, .settle 1]).finalize "r").2 = .ok v := by
  obtain ⟨p, hp⟩ : ∃ p, p = (fresh .default halfCrew).run
      (.start "r" (.ofReference "t") [.security, .build] :: halfSchedule) := ⟨_, rfl⟩
  have hreach : Reachable p := hp ▸ (Reachable.ofConfig (ofConfig_blank rfl halfCrew)).run _
  have hsole : p.Sole 0 "r" := sole_of_length (by rw [hp]; rfl) "r"
  obtain ⟨v, hfin, hcons, hmiss⟩ : ∃ v, (p.finalize "r").2 = .ok v ∧ v.consulted = [.security] ∧
      v.missingPerspectives = [.build] := by
    rw [hp]
    exact ⟨_, rfl, rfl, rfl⟩
  obtain ⟨w, hw, hinc, hret, hreply, hrole⟩ : ∃ w ∈ p.supervisors, w.incarnation = 0 ∧
      w.returned = true ∧ w.reply = .ok [openPort] ∧ w.role = .security := by
    rw [hp]
    exact ⟨_, List.mem_cons_self, rfl, rfl, rfl, rfl⟩
  obtain ⟨s, answers, -, -, -, -, -, -, hblock, hstay⟩ := verdict_accounts_for_all hreach hsole hfin
  have hlater := (hstay [.observe 1, .decide 1, .settle 1]).1 (by simp [Event.Spares])
  rcases hblock w hw hinc hret _ openPort hreply List.mem_cons_self rfl with ⟨hmem, hrec⟩ | hmem
  · exact ⟨p, v, hp, hfin, hcons, hmiss, hmem, hrec, hlater⟩
  · rw [hmiss, hrole] at hmem
    simp at hmem

end ReviewPanel.Panel
