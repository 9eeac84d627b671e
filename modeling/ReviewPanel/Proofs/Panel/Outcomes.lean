import ReviewPanel.Proofs.Panel.Joining
import ReviewPanel.Proofs.Panel.Tenure

/-!
# What a supervisor returns

A supervisor learns how its review went, decides about the slot, and tells the ledger how its role has
ended.  It may be late: a waiter whose run is out of time may have closed the slot, so that a reviewer who
was successful counts as failed, or may have ended the role itself, so that the ledger refuses what the
supervisor reports.  A supervisor that is refused looks at the ledger and returns what it finds there.

Whoever was first, and whatever came of the review, there is one attempt to end the role that the ledger
accepts, and the supervisor returns the phase to which that attempt has brought the role.

The proof: a role of a run that was started is running or has ended, so the ledger refuses an attempt to end
it only where it has ended before (`Panel.Reachable.isTerminal_of_refused`).  Accepted or refused, the
supervisor therefore settles on the phase of a role that has ended (`Panel.settle_returns`), and no phase
follows an end.

## Main definitions

* `Panel.Returning` : the supervisors of an incarnation that have told the ledger returned what is there.

## Main statements

* `Panel.exists_supervisor_of_start` : an accepted start gives every role its supervisor.
* `Panel.Move.settled_back` : how a supervisor came to return something.
* `Panel.Returning.step`, `Panel.Returning.run` : what one step and a whole schedule preserve.
* `Panel.supervisor_returns_outcome` : **a supervisor returns how its role has ended.**
-/

namespace ReviewPanel.Panel

variable {p q : Panel} {id : RunId} {role : Role} {e : Event} {i j : Nat} {s : Supervisor}
  {phase : Phase} {cause : Option String}

/-! ### Every role gets a supervisor -/

theorem spawn_posts (item : WorkItem)
    (h : p.ledger.outlook (id, role) = some ⟨false, some .pending⟩) :
    (p.spawn i id item role).supervisors.map Supervisor.post =
      p.supervisors.map Supervisor.post ++ [(i, role)] := by
  obtain ⟨u, hu⟩ := transition_of_pending h
  simp only [spawn, hu, accept_eq, modifyIncarnation_supervisors, List.map_append]
  rfl

theorem foldl_spawn_posts (item : WorkItem) {roles : List Role} (hnd : roles.Nodup) :
    ∀ {p : Panel}, (∀ role ∈ roles, p.ledger.outlook (id, role) = some ⟨false, some .pending⟩) →
      (roles.foldl (fun p role => p.spawn i id item role) p).supervisors.map Supervisor.post =
        p.supervisors.map Supervisor.post ++ roles.map (i, ·) := by
  induction roles with
  | nil => exact fun _ => (List.append_nil _).symm
  | cons role roles ih =>
    intro p h
    obtain ⟨hnotin, hnd⟩ := List.nodup_cons.1 hnd
    have hrest : ∀ role' ∈ roles, (p.spawn i id item role).ledger.outlook (id, role') =
        some ⟨false, some .pending⟩ := by
      intro role' hr
      have hne : role' ≠ role := fun heq => hnotin (heq ▸ hr)
      rw [p.outlook_spawn_of_ne i id item hne]
      exact h role' (List.mem_cons_of_mem _ hr)
    rw [List.foldl_cons, ih hnd hrest, spawn_posts item (h role List.mem_cons_self), List.append_assoc]
    rfl

/-- **An accepted start gives every role its supervisor.** -/
theorem exists_supervisor_of_start {item : WorkItem} {roles : List Role}
    (hok : (p.start id item roles).2 = .ok id) (hrole : role ∈ roles) :
    ∃ (j : Nat) (s : Supervisor), (p.start id item roles).1.supervisors[j]? = some s ∧
      s.incarnation = p.incarnations.length ∧ s.role = role := by
  rcases p.start_eq_launch id item roles with
    ⟨_, h⟩ | ⟨_, _, _, _, _, -, ⟨_, h⟩ | ⟨u, hu, h⟩⟩
  · rw [h] at hok
    cases hok
  · rw [h] at hok
    cases hok
  · have hnd := (Ledger.create_eq_ok.1 hu).2.1
    have hposts : (p.start id item roles).1.supervisors.map Supervisor.post =
        p.supervisors.map Supervisor.post ++ roles.map (p.incarnations.length, ·) := by
      rw [h]
      exact foldl_spawn_posts item hnd fun _ hr => Ledger.outlook_of_create hu hr
    have hmem := List.mem_append_right (p.supervisors.map Supervisor.post)
      (List.mem_map_of_mem (f := (p.incarnations.length, ·)) hrole)
    rw [← hposts] at hmem
    obtain ⟨s, hs, hpost⟩ := List.mem_map.1 hmem
    obtain ⟨j, hj⟩ := List.mem_iff_getElem?.1 hs
    exact ⟨j, s, hj, Prod.mk.inj hpost⟩

/-! ### Attempts that are refused -/

theorem Reachable.isTerminal_of_sealed (hp : Reachable p) (hsealed : ¬ p.ledger.Open id) {t : Status}
    (ht : p.ledger.status? (id, role) = some t) : t.isTerminal = true := by
  obtain ⟨cs, hcs⟩ := hp.ledger_eq
  rw [Ledger.status?_eq] at ht
  obtain ⟨x, hx, hrole⟩ := Option.bind_eq_some_iff.1 ht
  rw [hcs] at hx hsealed
  by_contra hterm
  refine hsealed (Ledger.open_of_incomplete hx (Bool.eq_false_iff.2 fun hc => hterm ?_))
  exact LedgerEntry.isComplete_iff.1 hc role t hrole

/-- **An attempt to end a role is refused only where the role has ended.** -/
theorem Reachable.isTerminal_of_refused (hp : Reachable p) {a : Attempt}
    (hphase : a.phase.isTerminal = true) {t : Status} (ht : p.ledger.status? a.seat = some t)
    {err : LedgerError} (hres : p.ledger.respond a = .error err) : t.isTerminal = true := by
  rcases Ledger.respond_of_status? ht with ⟨-, hans⟩ | ⟨hsealed, -⟩
  · rw [hres] at hans
    split_ifs at hans with hallows
    exact isTerminal_of_not_allows (hp.ne_pending ht) hphase hallows
  · exact hp.isTerminal_of_sealed hsealed ht

/-! ### Telling the ledger -/

theorem phaseOf_of_status? {t : Status} (ht : p.ledger.status? (id, role) = some t) :
    p.phaseOf id role = t.phase := by
  obtain ⟨st, hread⟩ := Ledger.read_of_status? ht
  rw [Ledger.status?_of_read hread] at ht
  simp only [phaseOf, hread, ht, Option.map_some, Option.getD_some]

theorem settle_supervisor (hs : p.supervisors[j]? = some s) (hst : s.stage = .decided phase cause) :
    (p.settle j).supervisors[j]? = some { s with
      stage := .settled (match p.ledger.respond ⟨s.runId, s.role, phase, cause, p.now⟩ with
        | .ok t => t.phase
        | .error _ => p.phaseOf s.runId s.role) } := by
  rw [← transition_snd]
  simp only [Panel.settle, hs, hst, transition]
  cases p.ledger.transition s.runId s.role phase cause p.now with
  | ok u =>
    simp only [setStage_supervisors, List.getElem?_modify_eq, post, hs]
    rfl
  | error err =>
    simp only [setStage_supervisors, List.getElem?_modify_eq, hs]
    rfl

theorem Wired.exists_status (hp : p.Wired) (htab : p.table.get? id = some i)
    (hs : p.supervisors[j]? = some s) (hi : s.incarnation = i) :
    s.runId = id ∧ ∃ t, p.ledger.status? (id, s.role) = some t := by
  obtain ⟨inc, hinc, hid, hslot, -⟩ := hp.supervisors s (List.mem_of_getElem? hs)
  rcases hp.listed id with ⟨hnone, -⟩ | ⟨i', inc', x, htab', hinc', hid', hx, hroles⟩
  · rw [htab] at hnone
    cases hnone
  · obtain rfl : i' = i := Option.some.inj (htab'.symm.trans htab)
    obtain rfl : inc' = inc := Option.some.inj (hinc'.symm.trans (hi ▸ hinc))
    refine ⟨hid.symm.trans hid', ?_⟩
    rw [Ledger.status?_eq, hx]
    exact Option.isSome_iff_exists.1 ((hroles s.role).trans hslot)

/-- **A supervisor that tells the ledger returns how its role has ended.** -/
theorem settle_returns (hp : Reachable p) (htab : p.table.get? id = some i)
    (hs : p.supervisors[j]? = some s) (hi : s.incarnation = i)
    (hst : s.stage = .decided phase cause) :
    ∃ t, (p.settle j).ledger.status? (id, s.role) = some t ∧ t.isTerminal = true ∧
      (p.settle j).supervisors[j]? = some { s with stage := .settled t.phase } := by
  obtain ⟨rfl, t, ht⟩ := hp.wired.exists_status htab hs hi
  obtain ⟨inc, -, -, -, hback⟩ := hp.wired.supervisors s (List.mem_of_getElem? hs)
  have hterm := (hback.decided phase cause hst).1
  have hsup := settle_supervisor hs hst
  have hledger : (p.settle j).ledger =
      p.ledger.apply (Attempt.call ⟨s.runId, s.role, phase, cause, p.now⟩) := by
    simp only [settle_ledger, attempt?, hs, Option.bind_some, Supervisor.attempt?, hst,
      Option.elim_some]
  rw [hledger]
  cases hres : p.ledger.respond ⟨s.runId, s.role, phase, cause, p.now⟩ with
  | ok t' =>
    rcases Ledger.status?_apply ht with ⟨-, -, hans, hnext⟩ | ⟨hmoves, -⟩
    · obtain rfl := Except.ok.inj (hres.symm.trans hans)
      rw [hres] at hsup
      exact ⟨_, hnext, hterm, hsup⟩
    · exact absurd ⟨rfl, by rw [hres]; rfl⟩ hmoves
  | error err =>
    rcases Ledger.status?_apply ht with ⟨-, -, hans, -⟩ | ⟨-, hnext⟩
    · rw [hres] at hans
      cases hans
    · rw [hres] at hsup
      refine ⟨t, hnext, hp.isTerminal_of_refused (a := ⟨_, _, phase, _, _⟩) hterm ht hres, ?_⟩
      rw [hsup, phaseOf_of_status? ht]

/-! ### What has been returned stays -/

/-- **How a supervisor came to return something**: it had returned it before, or has just told the
ledger. -/
theorem Move.settled_back (h : Move p e q) {s' : Supervisor} (hs : p.supervisors[j]? = some s)
    (hs' : q.supervisors[j]? = some s') (hst : s'.stage = .settled phase) :
    s.stage = .settled phase ∨ e = .settle j ∧ ∃ phase' cause, s.stage = .decided phase' cause := by
  have hsame : ∀ {sups : List Supervisor}, sups = p.supervisors → q.supervisors = sups → s' = s := by
    rintro sups rfl hq
    exact Option.some.inj (hs'.symm.trans (hq ▸ hs))
  have hmod : ∀ {sups : List Supervisor} {j' : Nat} {f : Supervisor → Supervisor},
      sups = p.supervisors → q.supervisors = sups.modify j' f → s' = s ∨ j' = j ∧ s' = f s := by
    rintro sups j' f rfl hq
    rw [hq, List.getElem?_modify, hs] at hs'
    obtain rfl := Option.some.inj hs'
    by_cases hj : j' = j
    · exact .inr ⟨hj, if_pos hj⟩
    · exact .inl (if_neg hj)
  cases h with
  | idle | aside | refused | finalized | forgotten | entered | polled | turned | finished | joined
    | skipped => exact .inl (hsame rfl rfl ▸ hst)
  | closed | began | gaveUp => exact .inl (hsame (by simp) rfl ▸ hst)
  | started =>
    rw [List.getElem?_append_left (List.getElem?_eq_some_iff.1 hs).1, hs] at hs'
    exact .inl (Option.some.inj hs' ▸ hst)
  | returned =>
    left
    rcases hmod rfl rfl with rfl | ⟨-, rfl⟩
    · exact hst
    · revert hst
      split
      · split_ifs <;> exact fun hst => hst
      · exact fun hst => hst
  | @expired _ w _ _ role _ cause =>
    left
    rcases (p.transition w.runId role .timedOut cause).1.stopLate_eq w role with heq | ⟨j', heq⟩
    · exact hsame (p.transition_supervisors _ _ _ _) (by rw [setWait_supervisors, heq]) ▸ hst
    · rcases hmod (p.transition_supervisors _ _ _ _) (by rw [setWait_supervisors, heq]; rfl) with
        rfl | ⟨-, rfl⟩
      · exact hst
      · revert hst
        split_ifs <;> exact fun hst => hst
  | observed =>
    rcases hmod rfl rfl with rfl | ⟨-, rfl⟩
    · exact .inl hst
    · cases hst
  | published | withheld =>
    rcases hmod (by simp) rfl with rfl | ⟨-, rfl⟩
    · exact .inl hst
    · cases hst
  | settled hs₀ hst₀ =>
    rcases hmod (p.transition_supervisors _ _ _ _) rfl with rfl | ⟨rfl, -⟩
    · exact .inl hst
    · obtain rfl := Option.some.inj (hs₀.symm.trans hs)
      exact .inr ⟨rfl, _, _, hst₀⟩

theorem settled_run {es : List Event} : ∀ {p : Panel} {s : Supervisor},
    p.supervisors[j]? = some s → s.stage = .settled phase →
    ∃ s', (p.run es).supervisors[j]? = some s' ∧ s'.stage = .settled phase := by
  induction es with
  | nil => exact fun hs hst => ⟨_, hs, hst⟩
  | cons e es ih =>
    intro p s hs hst
    obtain ⟨s', hs', hadv⟩ := (p.step_advances e).supervisors j s hs
    have hset := hadv.settled (by rw [Supervisor.isSettled, hst])
    cases hst' : s'.stage with
    | settled phase' =>
      rcases (p.step_move e).settled_back hs hs' hst' with h | ⟨-, _, _, h⟩
      · exact ih hs' (hst'.trans (h.symm.trans hst))
      · rw [hst] at h
        cases h
    | waiting | informed | decided => simp [Supervisor.isSettled, hst'] at hset

/-! ### The supervisors of an incarnation -/

/-- The incarnation `i` of the run `id` is still there, and its supervisors that have told the ledger
returned how their roles have ended. -/
structure Returning (p : Panel) (id : RunId) (i : Nat) : Prop where
  reachable : Reachable p
  table : p.table.get? id = some i
  returned : ∀ (j : Nat) (s : Supervisor) (phase : Phase), p.supervisors[j]? = some s →
    s.incarnation = i → s.stage = .settled phase →
    ∃ t, p.ledger.status? (id, s.role) = some t ∧ t.isTerminal = true ∧ t.phase = phase

namespace Returning

/-- **One step** leaves alone what was returned, and what it adds is so. -/
theorem step (h : p.Returning id i) (he : e.Spares id) : (p.step e).Returning id i where
  reachable := h.reachable.step e
  table := ((p.step_move e).table_get? he).trans h.table
  returned j s' phase hs' hi hst := by
    rcases (p.step_move e).supervisor_cases hs' with ⟨s, hs, hadv⟩ | ⟨_, _, _, -, hnew, -⟩
    · have hi' := hadv.incarnation_eq.symm.trans hi
      rcases (p.step_move e).settled_back hs hs' hst with hst' | ⟨rfl, phase', cause, hdec⟩
      · obtain ⟨t, ht, hterm, hphase⟩ := h.returned j s phase hs hi' hst'
        obtain ⟨t', ht', -, hsame⟩ := status_onward he ht
        obtain rfl := hsame hterm
        exact ⟨t', hadv.role_eq ▸ ht', hterm, hphase⟩
      · obtain ⟨t, ht, hterm, hsup⟩ := settle_returns h.reachable h.table hs hi' hdec
        obtain rfl := Option.some.inj (hs'.symm.trans hsup)
        exact ⟨t, ht, hterm, Stage.settled.inj hst⟩
    · rw [hnew.stage_eq] at hst
      cases hst

/-- **A whole schedule** does. -/
theorem run (h : p.Returning id i) {es : List Event} (hes : ∀ e ∈ es, e.Spares id) :
    (p.run es).Returning id i :=
  run_preserves (P := (·.Returning id i)) (fun he hq => hq.step he) hes h

theorem of_start {item : WorkItem} {roles : List Role} (hp : Reachable p)
    (hok : (p.start id item roles).2 = .ok id) :
    (p.start id item roles).1.Returning id p.incarnations.length where
  reachable := hp.step (.start id item roles)
  table := (launched_of_start hok).table
  returned j s' phase hs' hi hst := by
    rcases (p.step_move (.start id item roles)).supervisor_cases hs' with
      ⟨s, hs, hadv⟩ | ⟨_, _, _, -, hnew, -⟩
    · have hlt := (hp.wired.supervisors s (List.mem_of_getElem? hs)).lt
      rw [← hadv.incarnation_eq, hi] at hlt
      exact absurd hlt (Nat.lt_irrefl _)
    · rw [hnew.stage_eq] at hst
      cases hst

end Returning

/-! ### How often a role ends -/

theorem Leads.filter_eq_nil {s t : Status} {ds : List Deed} (h : Leads s ds t)
    (ht : t.isTerminal = false) : ds.filter (fun d => d.attempt.phase.isTerminal) = [] := by
  induction h with
  | nil => rfl
  | @cons s t d ds _ _ hrest ih =>
    cases hterm : d.attempt.phase.isTerminal with
    | false =>
      rw [List.filter_cons_of_neg (by simp [hterm])]
      exact ih ht
    | true =>
      obtain ⟨-, rfl⟩ := hrest.of_isTerminal hterm
      exact absurd (ht.symm.trans hterm) Bool.false_ne_true

/-- As long as the identifier keeps its meaning, the status of a role is the work of the accepted
attempts. -/
theorem leads_of_table {es : List Event} (hp : Reachable p) (hi : i < p.incarnations.length)
    (htab : (p.run es).table.get? id = some i) {t : Status}
    (ht : p.ledger.status? (id, role) = some t) :
    ∃ t', (p.run es).ledger.status? (id, role) = some t' ∧
      Leads t ((p.deeds es).filter (·.moves (id, role))) t' := by
  obtain ⟨es', hes', hrun, hdeeds⟩ := exists_spared hp hi htab
  obtain ⟨t', ht', hleads⟩ := leads_run hes' ht
  exact ⟨t', hrun ▸ ht', hdeeds ▸ hleads⟩

theorem ends_eq_nil_of_isTerminal {es : List Event} (hp : Reachable p)
    (hi : i < p.incarnations.length) (htab : (p.run es).table.get? id = some i) {t : Status}
    (ht : p.ledger.status? (id, role) = some t) (hterm : t.isTerminal = true) :
    (p.run es).ledger.status? (id, role) = some t ∧
      (p.deeds es).filter (·.ends (id, role)) = [] := by
  obtain ⟨t', ht', hleads⟩ := leads_of_table hp hi htab ht
  obtain ⟨hnil, rfl⟩ := hleads.of_isTerminal hterm
  rw [filter_ends, hnil]
  exact ⟨ht', rfl⟩

/-- **A role ends at most once**: no attempt to end it was accepted until it has ended, and one after
that. -/
theorem ends_cases {es : List Event} (hp : Reachable p) (hi : i < p.incarnations.length)
    (htab : (p.run es).table.get? id = some i) {t₀ : Status}
    (ht₀ : p.ledger.status? (id, role) = some t₀) (hrun : t₀.isTerminal = false) :
    ∃ t, (p.run es).ledger.status? (id, role) = some t ∧
      (t.isTerminal = false ∧ (p.deeds es).filter (·.ends (id, role)) = [] ∨
        t.isTerminal = true ∧ ∃ d, (p.deeds es).filter (·.ends (id, role)) = [d] ∧
          d.answer = .ok t) := by
  obtain ⟨t, ht, hleads⟩ := leads_of_table hp hi htab ht₀
  refine ⟨t, ht, ?_⟩
  rw [filter_ends]
  cases hterm : t.isTerminal with
  | false => exact .inl ⟨rfl, hleads.filter_eq_nil hterm⟩
  | true =>
    obtain ⟨d, hd, hans, -⟩ := hleads.ends hrun hterm
    exact .inr ⟨rfl, d, hd, hans⟩

/-- **A supervisor returns how its role has ended.**  Let a run be started, which makes every role running
and starts one supervisor for each, and let anybody do anything, as long as the identifier means this run in
the end; in particular let waiters end the role whenever they like, and let the reviewer come back with
findings or an error, be stopped, or never come back.

Then the ledger accepts at most one attempt to end the role.  The supervisor does return, once the time of
the role is over and it has had its three turns.  When it has returned, exactly one attempt to end the role
was accepted, the phase that it has returned is the one to which this attempt has brought the role, and so
it remains: the status on the ledger, the attempt and what the supervisor has returned stay the same for as
long as the identifier means this run. -/
theorem supervisor_returns_outcome {item : WorkItem} {roles : List Role} (hp : Reachable p)
    (hok : (p.start id item roles).2 = .ok id) (hq : q = (p.start id item roles).1)
    (hrole : role ∈ roles) {es : List Event}
    (htab : (q.run es).table.get? id = some p.incarnations.length) :
    (∃ t, q.ledger.status? (id, role) = some t ∧ t.phase = .running) ∧
      ((q.deeds es).filter (·.ends (id, role))).length ≤ 1 ∧
      ∃ (j : Nat) (s : Supervisor), q.supervisors[j]? = some s ∧ s.incarnation = p.incarnations.length ∧
        s.role = role ∧
        (∀ (j' : Nat) (s' : Supervisor), q.supervisors[j']? = some s' →
          s'.incarnation = p.incarnations.length → s'.role = role → j' = j) ∧
        (∀ es₁ es₂, es = es₁ ++ es₂ → s.dueAt ≤ (q.run es₁).clock →
          [Event.observe j, .decide j, .settle j].Sublist es₂ → (q.run es).isSettled j = true) ∧
        ∀ s' phase, (q.run es).supervisors[j]? = some s' → s'.stage = .settled phase →
          phase.isTerminal = true ∧ ∃ d t, (q.deeds es).filter (·.ends (id, role)) = [d] ∧
            d.answer = .ok t ∧ t.phase = phase ∧
            ∀ later, (q.run (es ++ later)).table.get? id = some p.incarnations.length →
              (q.run (es ++ later)).ledger.status? (id, role) = some t ∧
              (q.deeds (es ++ later)).filter (·.ends (id, role)) = [d] ∧
              ∃ s'', (q.run (es ++ later)).supervisors[j]? = some s'' ∧
                s''.stage = .settled phase := by
  subst hq
  have hlaunched := launched_of_start hok
  have hreturning := Returning.of_start hp hok
  obtain ⟨j, s, hs, hi, rfl⟩ := exists_supervisor_of_start hok hrole
  generalize (p.start id item roles).1 = q at hlaunched hreturning hs htab ⊢
  have hlt : p.incarnations.length < q.incarnations.length := by
    obtain ⟨inc, hinc, -⟩ := hlaunched.incarnation
    exact (List.getElem?_eq_some_iff.1 hinc).1
  obtain ⟨t₀, ht₀, hrun⟩ := hlaunched.running_of_mem hrole
  obtain ⟨t, ht, hcase⟩ := ends_cases hreturning.reachable hlt htab ht₀
    (by rw [Status.isTerminal, hrun]; rfl)
  refine ⟨⟨t₀, ht₀, hrun⟩, ?_, j, s, hs, hi, rfl, ?_, ?_, ?_⟩
  · rcases hcase with ⟨-, hnil⟩ | ⟨-, d, hd, -⟩
    · rw [hnil]
      exact Nat.zero_le 1
    · rw [hd]
      exact Nat.le_refl 1
  · intro j' s' hs' hi' hrole'
    exact hreturning.reachable.wired.index_eq_of_post hs' hs
      (Prod.ext (hi'.trans hi.symm) hrole')
  · rintro es₁ es₂ rfl hdue hturns
    obtain ⟨s₁, hs₁, hadv⟩ := (q.run_advances es₁).supervisors j s hs
    rw [run_append]
    exact Reached.isSettled ⟨s₁, hs₁, hadv.dueAt_eq ▸ hdue, Nat.zero_le _⟩ hturns
  · intro s' phase hs' hst
    obtain ⟨s₁, hs₁, hadv⟩ := (q.run_advances es).supervisors j s hs
    obtain rfl : s₁ = s' := Option.some.inj (hs₁.symm.trans hs')
    -- nobody has forgotten the run or started it again, so all its supervisors return what is there
    obtain ⟨es', hes', hsame, -⟩ := exists_spared hreturning.reachable hlt htab
    obtain ⟨t', ht', hterm, hphase⟩ := (hsame ▸ hreturning.run hes').returned j s₁ phase hs'
      (hadv.incarnation_eq.trans hi) hst
    rw [hadv.role_eq] at ht'
    obtain rfl : t' = t := Option.some.inj (ht'.symm.trans ht)
    rcases hcase with ⟨habs, -⟩ | ⟨-, d, hd, hans⟩
    · rw [hterm] at habs
      cases habs
    · refine ⟨hphase ▸ hterm, d, t', hd, hans, hphase, fun later hlater => ?_⟩
      rw [run_append] at hlater ⊢
      obtain ⟨hstays, hnil⟩ := ends_eq_nil_of_isTerminal (hreturning.reachable.run es)
        ((q.run_advances es).lt_length hlt) hlater ht' hterm
      refine ⟨hstays, ?_, settled_run hs' hst⟩
      rw [deeds_append, List.filter_append, hd, hnil, List.append_nil]

/-- The reviewer of the only role comes back with findings, but the run is out of time: a waiter closes the
slot before they are published, and ends the role before the supervisor tells the ledger. -/
def overruled : List Event :=
  [.await "r" 1 0, .comeBack 0, .observe 0, .wait 0, .wait 0, .decide 0, .wait 0, .wait 0, .settle 0]

theorem supervisor_returns_outcome_overruled : ∃ p q s s' d t, Reachable p ∧
    (p.start "r" (.ofReference "t") [.security]).2 = .ok "r" ∧
    q = (p.start "r" (.ofReference "t") [.security]).1 ∧ q.supervisors[0]? = some s ∧
    s.reply = .ok [openPort] ∧ (q.run (.pass 300000 p.now :: overruled)).isSettled 0 = true ∧
    (q.run (.pass 300000 p.now :: overruled)).supervisors[0]? = some s' ∧
    s'.stage = .settled .timedOut ∧
    (q.deeds (.pass 300000 p.now :: overruled)).filter (·.ends ("r", .security)) = [d] ∧
    d.event = .wait 0 ∧ d.answer = .ok t ∧ t.phase = .timedOut ∧
    (q.run (.pass 300000 p.now :: overruled ++ [.finalize "r"])).ledger.status? ("r", .security) =
      some t := by
  obtain ⟨p, hp⟩ : ∃ p, p = fresh .default halfCrew := ⟨_, rfl⟩
  have hreach : Reachable p := hp ▸ Reachable.ofConfig (ofConfig_blank rfl halfCrew)
  have hok : (p.start "r" (.ofReference "t") [.security]).2 = .ok "r" := by
    rw [hp]
    rfl
  obtain ⟨q, hq⟩ : ∃ q, q = (p.start "r" (.ofReference "t") [.security]).1 := ⟨_, rfl⟩
  obtain ⟨s₀, hs₀, hi, hrole, hreply, hdue⟩ : ∃ s, q.supervisors[0]? = some s ∧
      s.incarnation = p.incarnations.length ∧ s.role = .security ∧ s.reply = .ok [openPort] ∧
      s.dueAt = 300000 := by
    rw [hq, hp]
    exact ⟨_, rfl, rfl, rfl, rfl, rfl⟩
  have htab : ∀ later, later = [] ∨ later = [.finalize "r"] →
      (q.run (.pass 300000 p.now :: overruled ++ later)).table.get? "r" =
        some p.incarnations.length := by
    rw [hq, hp]
    rintro _ (rfl | rfl) <;> rfl
  obtain ⟨-, -, j, s, hs, -, -, hsole, hturns, hreturns⟩ := supervisor_returns_outcome hreach hok hq
    (List.mem_singleton_self Role.security) (List.append_nil _ ▸ htab [] (.inl rfl))
  obtain rfl : 0 = j := hsole 0 s₀ hs₀ hi hrole
  obtain rfl : s = s₀ := Option.some.inj (hs.symm.trans hs₀)
  have hset := hturns [.pass 300000 p.now] overruled rfl
    (by rw [hdue, hq, hp]; exact Nat.le_refl _)
    (by simp [overruled, List.cons_sublist_cons'])
  obtain ⟨s', hs', hst⟩ : ∃ s', (q.run (.pass 300000 p.now :: overruled)).supervisors[0]? = some s' ∧
      s'.stage = .settled .timedOut := by
    rw [hq, hp]
    exact ⟨_, rfl, rfl⟩
  obtain ⟨-, d, t, hd, hans, hphase, hlater⟩ := hreturns s' .timedOut hs' hst
  obtain ⟨hstays, -, -⟩ := hlater [.finalize "r"] (htab _ (.inr rfl))
  refine ⟨p, q, s, s', d, t, hreach, hok, hq, hs, hreply, hset, hs', hst, hd, ?_, hans, hphase,
    hstays⟩
  have hevents : ((q.deeds (.pass 300000 p.now :: overruled)).filter
      (·.ends ("r", .security))).map Deed.event = [.wait 0] := by
    rw [hq, hp]
    rfl
  rw [hd] at hevents
  exact List.head_eq_of_cons_eq hevents

end ReviewPanel.Panel
