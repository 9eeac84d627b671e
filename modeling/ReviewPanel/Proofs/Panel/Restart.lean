import ReviewPanel.Proofs.Panel.Verdicts

/-!
# Who touches a run that was started again

Supervisors and waiters find a run on the ledger by its identifier, and some of them outlive their
incarnation: the supervisor of a role that a waiter has ended, and a client that still waits.  If the
identifier is used again, they meet the new incarnation.

So a run that was started again is not always isolated from the parties of its earlier incarnations.
It is exactly if none of them is left that could still act on one of its roles (`Panel.Quiet`):
every supervisor of such a role has told the ledger, no waiter is still looking at the ledger, and no
waiter is about to end such a role.

One direction is an invariant (`Panel.Guarded`): what is quiet stays so.  For the other one, a leftover
party is led to the step in which it touches the ledger, while all runs stay as they are
(`Panel.SameRuns`).

## Main definitions

* `Panel.Isolated` : the roles of an incarnation are changed by its own supervisors and waiters only.
* `Panel.Quiet` : no party of an earlier incarnation is left that could act on the roles.

## Main statements

* `Panel.Move.guarded`, `Panel.Guarded.run` : one step, and so every schedule, keeps leftover parties
  away.
* `Panel.exists_decided`, `Panel.exists_expiring` : a leftover party can always get to the step in which
  it touches the ledger.
* `Panel.isolated_iff_quiet` : **a run that was started again is isolated exactly if its identifier was
  quiet.**
-/

namespace ReviewPanel

/-- The waiter has nothing to do with any of the roles. -/
def Waiter.Harmless (roles : List Role) (w : Waiter) : Prop :=
  match w.stage with
  | .polling _ => False
  | .forcing _ _ (role :: _) _ => role ∉ roles
  | .forcing _ _ [] _ | .joining _ | .done _ => True

namespace Panel

/-- The event is the step of a supervisor or of a waiter of the incarnation `i`. -/
def ByPartyOf (p : Panel) (i : Nat) : Event → Prop
  | .settle j => ∃ s, p.supervisors[j]? = some s ∧ s.incarnation = i
  | .wait k => ∃ w, p.waiters[k]? = some w ∧ w.incarnation = i
  | _ => False

/-- Whatever happens after `q`: as long as the identifier means the incarnation `i`, a step that changes
a role of the run on the ledger is the step of a supervisor or of a waiter of that incarnation. -/
def Isolated (q : Panel) (i : Nat) (id : RunId) : Prop :=
  ∀ es e s s', (q.run es).table.get? id = some i → ((q.run es).step e).table.get? id = some i →
    (q.run es).ledger.read id = .ok s → ((q.run es).step e).ledger.read id = .ok s' →
    s'.roles ≠ s.roles → (q.run es).ByPartyOf i e

/-- No party of the run is left that could still act on one of the roles. -/
structure Quiet (p : Panel) (id : RunId) (roles : List Role) : Prop where
  supervisors : ∀ s ∈ p.supervisors, s.runId = id → s.role ∈ roles → s.isSettled = true
  waiters : ∀ w ∈ p.waiters, w.runId = id → w.Harmless roles

/-! ### Keeping leftover parties away -/

/-- While the identifier means the incarnation `i`, which has the given roles, the parties of other
incarnations have nothing to do with them. -/
structure Guarded (p : Panel) (i : Nat) (id : RunId) (roles : List Role) : Prop where
  slots : ∃ inc, p.incarnations[i]? = some inc ∧
    ∀ role, (inc.slots.cells.get? role).isSome = true ↔ role ∈ roles
  supervisors : p.table.get? id = some i → ∀ s ∈ p.supervisors, s.runId = id →
    s.incarnation ≠ i → s.role ∈ roles → s.isSettled = true
  waiters : p.table.get? id = some i → ∀ w ∈ p.waiters, w.runId = id → w.incarnation ≠ i →
    w.Harmless roles

theorem Guarded.mem_roles {p : Panel} {i : Nat} {id : RunId} {roles : List Role}
    (h : p.Guarded i id roles) (hw : p.Wired) (htab : p.table.get? id = some i) {x : LedgerEntry}
    (hx : p.ledger.entries.get? id = some x) (role : Role) :
    (x.roles.get? role).isSome = true ↔ role ∈ roles := by
  obtain ⟨inc, hinc, hslots⟩ := h.slots
  rcases hw.listed id with ⟨hnone, -⟩ | ⟨i', inc', x', htab', hinc', -, hx', hroles⟩
  · rw [htab] at hnone
    cases hnone
  · obtain rfl : i' = i := Option.some.inj (htab'.symm.trans htab)
    obtain rfl : inc' = inc := Option.some.inj (hinc'.symm.trans hinc)
    obtain rfl : x' = x := Option.some.inj (hx'.symm.trans hx)
    rw [hroles, hslots]

theorem Move.table_of_some {p q : Panel} {e : Event} (h : Move p e q) (hw : p.Wired) {i : Nat}
    {id : RunId} (hi : i < p.incarnations.length) (htab : q.table.get? id = some i) :
    p.table.get? id = some i := by
  by_cases hsp : e.Spares id
  · rwa [h.table_get? hsp] at htab
  · cases h with
    | idle => exact htab
    | @refused id' _ _ _ _ hc =>
      obtain rfl : id' = id := Classical.not_not.1 hsp
      rw [hc.table_get? (hw.listed id')] at htab
      cases htab
    | @started id' =>
      obtain rfl : id' = id := Classical.not_not.1 hsp
      rw [Dictionary.get?_insert_self] at htab
      have := Option.some.inj htab
      omega
    | @forgotten id' =>
      obtain rfl : id' = id := Classical.not_not.1 hsp
      rw [Dictionary.get?_erase, if_pos rfl] at htab
      cases htab
    | aside he =>
      cases e with
      | start | forget => cases he
      | _ => exact absurd trivial hsp
    | _ => exact absurd trivial hsp

theorem Move.supervisor_cases {p q : Panel} {e : Event} (h : Move p e q) {j : Nat} {s' : Supervisor}
    (hj : q.supervisors[j]? = some s') : (∃ s, p.supervisors[j]? = some s ∧ s.Advances s') ∨
      ∃ id item roles, e = .start id item roles ∧ IsNew p.incarnations.length id s' ∧
        q.table.get? id = some p.incarnations.length := by
  rcases h.advances.supervisors.back hj with hold | hnew
  · exact .inl hold
  · have hlt := (List.getElem?_eq_some_iff.1 hj).1
    by_cases hlen : p.incarnations.length = q.incarnations.length
    · rw [h.length_supervisors hlen] at hlt
      omega
    · cases h with
      | @started id item roles _ _ _ new hc hu hisnew hroles =>
        rw [List.getElem?_append_right hnew] at hj
        exact .inr ⟨id, item, roles, rfl, hisnew s' (List.mem_of_getElem? hj),
          Dictionary.get?_insert_self _ _ _⟩
      | returned => exact absurd rfl hlen
      | _ => simp at hlen

theorem isSome_of_unlessRaced {p : Panel} {id : RunId} {role : Role} {phase : Phase}
    {cause : Option String} (h : unlessRaced (p.transition id role phase cause).2 = .ok ()) :
    ∃ x, p.ledger.entries.get? id = some x ∧ (x.roles.get? role).isSome = true := by
  unfold transition Ledger.transition at h
  cases hx : p.ledger.entries.get? id with
  | none =>
    simp only [hx] at h
    cases h
  | some x =>
    refine ⟨x, rfl, ?_⟩
    cases hr : x.roles.get? role with
    | some status => rfl
    | none =>
      simp only [hx, hr] at h
      split_ifs at h <;> cases h

/-- A waiter that has nothing to do with the roles may go to a stage in which that is still so. -/
theorem harmless_setWait {p : Panel} {k : Nat} {w₀ : Waiter} {stage : WaitStage} {i : Nat}
    {id : RunId} {roles : List Role} (hw₀ : p.waiters[k]? = some w₀)
    (hp : ∀ w ∈ p.waiters, w.runId = id → w.incarnation ≠ i → w.Harmless roles)
    (hst : w₀.runId = id → w₀.Harmless roles → Waiter.Harmless roles { w₀ with stage }) :
    ∀ w ∈ (p.setWait k stage).waiters, w.runId = id → w.incarnation ≠ i → w.Harmless roles := by
  intro w hw hid hne
  rw [setWait_waiters] at hw
  rcases mem_of_mem_modify hw with hw | ⟨w₁, hw₁, rfl⟩
  · exact hp w hw hid hne
  · obtain rfl : w₀ = w₁ := Option.some.inj (hw₀.symm.trans hw₁)
    exact hst hid (hp w₀ (List.mem_of_getElem? hw₀) hid hne)

theorem Move.harmless {p q : Panel} {e : Event} (h : Move p e q) (hw : p.Wired) {i : Nat}
    {id : RunId} {roles : List Role} (hp : p.Guarded i id roles) (htab : p.table.get? id = some i) :
    ∀ w ∈ q.waiters, w.runId = id → w.incarnation ≠ i → w.Harmless roles := by
  have hold := hp.waiters htab
  cases h with
  | idle | aside | refused | started | forgotten | finalized | returned | observed => exact hold
  | published | withheld | settled => exact fun w hw => hold w (by simpa using hw)
  | @entered id' i' inc hact =>
    intro w hw hid hne
    rcases List.mem_append.1 hw with hw | hw
    · exact hold w hw hid hne
    · obtain rfl := List.mem_singleton.1 hw
      obtain rfl : id' = id := hid
      exact absurd (Option.some.inj ((active_eq_ok.1 hact).1.symm.trans htab)) hne
  | polled hw₀ hst | turned hw₀ hst =>
    refine harmless_setWait hw₀ hold fun _ h => ?_
    simp only [Waiter.Harmless, hst] at h
  | finished hw₀ => exact harmless_setWait hw₀ hold fun _ _ => trivial
  | joined hw₀ =>
    exact harmless_setWait (by simpa using hw₀) (by simpa using hold) fun _ _ => trivial
  | closed hw₀ hst =>
    refine harmless_setWait (by simpa using hw₀) (by simpa using hold) fun _ h => ?_
    simpa only [Waiter.Harmless, hst] using h
  | skipped hw₀ hst =>
    refine harmless_setWait hw₀ hold fun _ h => ?_
    simpa only [Waiter.Harmless, hst] using h
  | began hw₀ hst hstage =>
    refine harmless_setWait (by simpa using hw₀) (by simpa using hold) fun _ h => ?_
    rcases hstage with rfl | ⟨a, rfl⟩
    · simpa only [Waiter.Harmless, hst] using h
    · trivial
  | expired hw₀ hst hr =>
    -- the ledger would not have let the waiter go on, for the role is not one of the run
    refine harmless_setWait (by simpa using hw₀) (by simpa using hold) fun hid h => ?_
    obtain ⟨x, hx, hrole⟩ := isSome_of_unlessRaced hr
    simp only [Waiter.Harmless, hst] at h
    exact absurd ((hp.mem_roles hw htab (hid ▸ hx) _).1 hrole) h
  | gaveUp hw₀ =>
    exact harmless_setWait (by simpa using hw₀) (by simpa using hold) fun _ _ => trivial

/-- **One step keeps leftover parties away.** -/
theorem Move.guarded {p q : Panel} {e : Event} (h : Move p e q) (hw : p.Wired) {i : Nat}
    {id : RunId} {roles : List Role} (hp : p.Guarded i id roles) : q.Guarded i id roles := by
  obtain ⟨inc, hinc, hslots⟩ := hp.slots
  have hi := (List.getElem?_eq_some_iff.1 hinc).1
  refine ⟨?_, fun htab s hs hid hne hrole => ?_, fun htab => ?_⟩
  · obtain ⟨inc', hinc', hgrow⟩ := h.advances.incarnations _ _ hinc
    exact ⟨inc', hinc', fun role => by rw [hgrow.slots.isSome_eq, hslots]⟩
  · obtain ⟨j, hj⟩ := List.mem_iff_getElem?.1 hs
    rcases h.supervisor_cases hj with ⟨s₀, hs₀, hadv⟩ | ⟨id', item, roles', -, hnew, htab'⟩
    · have hset := hp.supervisors (h.table_of_some hw hi htab) s₀ (List.mem_of_getElem? hs₀)
        (hadv.runId_eq ▸ hid) (hadv.incarnation_eq ▸ hne) (hadv.role_eq ▸ hrole)
      exact hadv.settled hset
    · -- a new supervisor belongs to the incarnation that its identifier means
      obtain rfl : id' = id := hnew.runId_eq.symm.trans hid
      exact absurd (hnew.incarnation_eq.trans (Option.some.inj (htab'.symm.trans htab))) hne
  · exact h.harmless hw hp (h.table_of_some hw hi htab)

theorem Guarded.run {p : Panel} {i : Nat} {id : RunId} {roles : List Role} (es : List Event) :
    p.Wired → p.Guarded i id roles → (p.run es).Wired ∧ (p.run es).Guarded i id roles := by
  induction es generalizing p with
  | nil => exact fun hw hp => ⟨hw, hp⟩
  | cons e es ih =>
    exact fun hw hp => ih ((p.step_move e).wired hw) ((p.step_move e).guarded hw hp)

theorem Guarded.byPartyOf {p : Panel} {i : Nat} {id : RunId} {roles : List Role}
    (hp : p.Guarded i id roles) (hw : p.Wired) {e : Event} {s s' : RunState}
    (htab : p.table.get? id = some i) (htab' : (p.step e).table.get? id = some i)
    (hs : p.ledger.read id = .ok s) (hs' : (p.step e).ledger.read id = .ok s')
    (hne : s'.roles ≠ s.roles) : p.ByPartyOf i e := by
  obtain ⟨x, hx, rfl⟩ := Ledger.read_eq_ok.1 hs
  obtain ⟨x', hx', rfl⟩ := Ledger.read_eq_ok.1 hs'
  have hch := (p.step_move e).change id
  rw [hx, hx'] at hch
  have hmem : ∀ {role : Role} {status : Status}, x.roles.get? role = some status → role ∈ roles :=
    fun hr => (hp.mem_roles hw htab hx _).1 (by rw [hr]; rfl)
  generalize hq : p.step e = q at hch htab'
  cases hch with
  | same | judged => exact absurd rfl hne
  | @reported j s phase cause _ status hsup hst hid hv hr ha =>
    refine ⟨s, hsup, Classical.by_contradiction fun hinc => ?_⟩
    have hset := hp.supervisors htab s (List.mem_of_getElem? hsup) hid hinc (hmem hr)
    simp [Supervisor.isSettled, hst] at hset
  | @forced k w snapshot late role rest next phase cause _ status hwait hst _ _ hid hv hr ha =>
    refine ⟨w, hwait, Classical.by_contradiction fun hinc => ?_⟩
    have hharm := hp.waiters htab w (List.mem_of_getElem? hwait) hid hinc
    simp only [Waiter.Harmless, hst] at hharm
    exact hharm (hmem hr)
  | restarted hinc _ htab₂ =>
    -- the identifier would mean the new incarnation
    obtain ⟨inc, hold, -⟩ := hp.slots
    have hlt := (List.getElem?_eq_some_iff.1 hold).1
    have := Option.some.inj (htab₂.symm.trans htab')
    omega

/-! ### What leftover parties can do -/

/-- The runs are the same, on the ledger and in the table. -/
def SameRuns (p q : Panel) : Prop := q.ledger = p.ledger ∧ q.table = p.table

theorem SameRuns.trans {p q r : Panel} (h : p.SameRuns q) (h' : q.SameRuns r) : p.SameRuns r :=
  ⟨h'.1.trans h.1, h'.2.trans h.2⟩

section AllRunning

variable {l : Ledger} {id : RunId} {roles : List Role} {role : Role}

theorem AllRunning.get? (h : AllRunning l id roles) (hr : role ∈ roles) :
    ∃ x status, l.entries.get? id = some x ∧ x.verdict = none ∧
      x.roles.get? role = some status ∧ status.phase = .running := by
  obtain ⟨x, hx, hv, hphase⟩ := h
  have hrole := hphase role
  rw [if_pos hr] at hrole
  obtain ⟨status, hstatus, hrun⟩ := Option.map_eq_some_iff.1 hrole
  exact ⟨x, status, hx, hv, hstatus, hrun⟩

theorem AllRunning.read_apply (h : AllRunning l id roles) (hr : role ∈ roles) {phase : Phase}
    (hterm : phase.isTerminal = true) (cause : Option String) (now : Timestamp) :
    ∃ s s', l.read id = .ok s ∧ (l.apply (.transition id role phase cause now)).read id = .ok s' ∧
      s'.roles ≠ s.roles := by
  obtain ⟨x, status, hx, hv, hstatus, hrun⟩ := h.get? hr
  have hallows : status.phase.allows phase = true := hrun ▸ Phase.allows_of_isTerminal hterm
  have hok : l.transition id role phase cause now =
      .ok ⟨l.put id (x.move role (status.advance phase cause now)), _, _⟩ :=
    Ledger.transition_eq_ok.2 ⟨x, status, hx, hv, hstatus, hallows, rfl⟩
  refine ⟨x.snapshot id, (x.move role (status.advance phase cause now)).snapshot id,
    Ledger.read_eq_ok.2 ⟨x, hx, rfl⟩, ?_, ?_⟩
  · simp only [Ledger.apply, hok]
    exact Ledger.read_eq_ok.2 ⟨_, by simp, rfl⟩
  · intro heq
    have hrole := congrArg (fun t => (t.get? role).map Status.phase) heq
    simp only [LedgerEntry.snapshot, LedgerEntry.move, Table.get?_set, if_pos, Option.map_some,
      hstatus, Status.advance, hrun, Option.some.injEq] at hrole
    rw [hrole] at hterm
    cases hterm

theorem AllRunning.transition_running (h : AllRunning l id roles) (hr : role ∈ roles)
    (now : Timestamp) :
    l.transition id role .running none now = .error (.invalidTransition role .running .running) := by
  obtain ⟨x, status, hx, hv, hstatus, hrun⟩ := h.get? hr
  have hallows : Phase.running.allows .running = false := rfl
  simp [Ledger.transition, hx, hv, hstatus, hrun, hallows]

theorem AllRunning.outstanding (h : AllRunning l id roles) (hroles : roles ≠ []) :
    ∃ x, l.entries.get? id = some x ∧ x.isComplete = false ∧
      ∃ role rest, role ∈ roles ∧ (x.snapshot id).outstanding = role :: rest := by
  obtain ⟨r, hr⟩ := List.exists_mem_of_ne_nil roles hroles
  obtain ⟨x, status, hx, -, hstatus, hrun⟩ := h.get? hr
  have hmem : r ∈ (x.snapshot id).outstanding :=
    mem_outstanding.2 ⟨status, hstatus, by rw [Status.isTerminal, hrun]; rfl⟩
  refine ⟨x, hx, ?_, ?_⟩
  · rw [Bool.eq_false_iff]
    intro hcomp
    have hterm := LedgerEntry.isComplete_iff.1 hcomp r status hstatus
    rw [Status.isTerminal, hrun] at hterm
    cases hterm
  · cases hout : (x.snapshot id).outstanding with
    | nil =>
      rw [hout] at hmem
      cases hmem
    | cons role rest =>
      refine ⟨role, rest, ?_, rfl⟩
      obtain ⟨status', hstatus', -⟩ := mem_outstanding.1 (hout ▸ List.mem_cons_self)
      obtain ⟨x', hx', -, hphase⟩ := h
      obtain rfl : x' = x := Option.some.inj (hx'.symm.trans hx)
      have hrole := hphase role
      rw [show x'.roles.get? role = some status' from hstatus'] at hrole
      by_contra hne
      rw [if_neg hne] at hrole
      cases hrole

end AllRunning

/-! #### Supervisors -/

section Supervisors

variable {p : Panel} {j : Nat} {s : Supervisor}

theorem exists_informed (hs : p.supervisors[j]? = some s) (hst : s.stage = .waiting) :
    ∃ es r, (p.run es).supervisors[j]? = some { s with stage := .informed r } ∧
      p.SameRuns (p.run es) := by
  obtain ⟨r, hr⟩ : ∃ r, s.news? (p.clock + s.dueAt) = some r := by
    unfold Supervisor.news?
    split_ifs with hret hstop hdue
    · exact ⟨_, rfl⟩
    · exact ⟨_, rfl⟩
    · exact ⟨_, rfl⟩
    · exact absurd (Nat.le_add_left _ _) hdue
  have hobs : p.run [.pass s.dueAt p.now, .observe j] =
      (p.step (.pass s.dueAt p.now)).setStage j (.informed r) := by
    simp only [run_cons, run_nil, step, observe, hs, hst, hr]
  refine ⟨[.pass s.dueAt p.now, .observe j], r, ?_, ?_⟩
  · rw [hobs, setStage_supervisors, List.getElem?_modify_eq]
    simp only [step, hs]
    rfl
  · rw [hobs]
    exact ⟨rfl, rfl⟩

/-- A supervisor that knows how the review went decides, whatever the system says to its documents. -/
theorem decide_of_informed {r : Report}
    (hs : p.supervisors[j]? = some { s with stage := .informed r }) :
    ∃ phase cause, (p.decide j).supervisors[j]? = some { s with stage := .decided phase cause } ∧
      p.SameRuns (p.decide j) := by
  -- it touches a slot, and then its own stage
  obtain ⟨q, phase, cause, hq, hsup, hsame⟩ : ∃ q phase cause,
      p.decide j = q.setStage j (.decided phase cause) ∧ q.supervisors = p.supervisors ∧
        p.SameRuns q := by
    have hheld : (p.withhold s.incarnation s.role).1.supervisors = p.supervisors ∧
        p.SameRuns (p.withhold s.incarnation s.role).1 := by simp [SameRuns]
    unfold decide
    simp only [hs]
    cases r with
    | cancelled | overdue => exact ⟨_, _, _, rfl, hheld⟩
    | replied reply =>
      cases reply with
      | error e => exact ⟨_, _, _, rfl, hheld⟩
      | ok fs =>
        have hpub : (p.publish s.incarnation s.role fs).1.supervisors = p.supervisors ∧
            p.SameRuns (p.publish s.incarnation s.role fs).1 := by simp [SameRuns]
        cases h : p.publish s.incarnation s.role fs with
        | mk q r =>
          rw [h] at hpub
          simp only [h]
          cases r <;> exact ⟨q, _, _, rfl, hpub⟩
  refine ⟨phase, cause, ?_, ?_⟩
  · rw [hq, setStage_supervisors, hsup, List.getElem?_modify_eq, hs]
    rfl
  · rw [hq]
    exact hsame

/-- **A supervisor that has not told the ledger can get to the point where it does so next**, without
any run being touched. -/
theorem exists_decided (hs : p.supervisors[j]? = some s) (hset : s.isSettled = false) :
    ∃ es s' phase cause, (p.run es).supervisors[j]? = some s' ∧ s.Advances s' ∧
      s'.stage = .decided phase cause ∧ p.SameRuns (p.run es) := by
  have hadv : ∀ stage, s.Advances { s with stage } := fun stage =>
    ⟨rfl, rfl, rfl, rfl, rfl, fun h => h, fun h => by simp [hset] at h⟩
  have hinformed : ∀ {es : List Event} {r : Report},
      (p.run es).supervisors[j]? = some { s with stage := .informed r } → p.SameRuns (p.run es) →
      ∃ es s' phase cause, (p.run es).supervisors[j]? = some s' ∧ s.Advances s' ∧
        s'.stage = .decided phase cause ∧ p.SameRuns (p.run es) := by
    intro es r hs' hsame
    obtain ⟨phase, cause, hdec, hsame'⟩ := decide_of_informed hs'
    refine ⟨es ++ [.decide j], _, phase, cause, ?_, hadv _, rfl, ?_⟩
    · rw [run_append]
      exact hdec
    · rw [run_append]
      exact hsame.trans hsame'
  cases hst : s.stage with
  | settled phase => simp [Supervisor.isSettled, hst] at hset
  | decided phase cause => exact ⟨[], s, phase, cause, hs, .refl s, hst, rfl, rfl⟩
  | informed r =>
    have hs' : (p.run []).supervisors[j]? = some { s with stage := .informed r } := by
      rw [run_nil, hs, ← hst]
    exact hinformed hs' ⟨rfl, rfl⟩
  | waiting =>
    obtain ⟨es, r, hs', hsame⟩ := exists_informed hs hst
    exact hinformed hs' hsame

theorem settle_of_decided {phase : Phase} {cause : Option String} (hs : p.supervisors[j]? = some s)
    (hst : s.stage = .decided phase cause) :
    (p.settle j).ledger = p.ledger.apply (.transition s.runId s.role phase cause p.now) ∧
      (p.settle j).table = p.table := by
  have hl := p.transition_ledger s.runId s.role phase cause
  have ht := p.transition_table s.runId s.role phase cause
  unfold settle
  simp only [hs, hst]
  cases h : p.transition s.runId s.role phase cause with
  | mk q r =>
    rw [h] at hl ht
    cases r <;> exact ⟨hl, ht⟩

end Supervisors

/-! #### Waiters -/

section Waiters

variable {p : Panel} {k : Nat} {w : Waiter} {id : RunId} {roles : List Role}

/-- A waiter that is about to end a role of the run, or to start or shut it first, can get to the point
where it ends the role next. -/
theorem exists_expiring_of_forcing (hrun : AllRunning p.ledger id roles) {snapshot : RunState}
    {late rest : List Role} {role : Role} (hrole : role ∈ roles) {next : ForceStep}
    (hw : p.waiters[k]? = some { w with stage := .forcing snapshot late (role :: rest) next })
    (hid : w.runId = id) :
    ∃ es, (p.run es).waiters[k]? =
        some { w with stage := .forcing snapshot late (role :: rest) .expire } ∧
      p.SameRuns (p.run es) := by
  have hstart : ∀ {p : Panel}, AllRunning p.ledger id roles →
      p.waiters[k]? = some { w with stage := .forcing snapshot late (role :: rest) .start } →
      p.stepWaiter k = p.setWait k (.forcing snapshot late (role :: rest) .expire) := by
    intro p hrun hw
    have htr : p.transition w.runId role .running none =
        (p, .error (.invalidTransition role .running .running)) := by
      simp only [transition, hid, hrun.transition_running hrole]
    simp only [stepWaiter, hw, force, htr, unlessRaced]
    split_ifs <;> rfl
  cases next with
  | expire => exact ⟨[], hw, rfl, rfl⟩
  | start =>
    refine ⟨[.wait k], ?_⟩
    simp only [run_cons, run_nil, step, hstart hrun hw, setWait_waiters, List.getElem?_modify_eq, hw]
    exact ⟨rfl, rfl, rfl⟩
  | withhold =>
    have hclose : p.stepWaiter k = (p.withhold w.incarnation role).1.setWait k
        (.forcing snapshot late (role :: rest) .start) := by
      simp only [stepWaiter, hw, force]
    have hw' : (p.stepWaiter k).waiters[k]? =
        some { w with stage := .forcing snapshot late (role :: rest) .start } := by
      rw [hclose, setWait_waiters, List.getElem?_modify_eq, withhold_fst, modifyIncarnation_waiters, hw]
      rfl
    have hsame : p.SameRuns (p.stepWaiter k) := by
      rw [hclose]
      simp [SameRuns]
    refine ⟨[.wait k, .wait k], ?_⟩
    simp only [run_cons, run_nil, step, hstart (hsame.1 ▸ hrun) hw', setWait_waiters,
      List.getElem?_modify_eq, hw']
    exact ⟨rfl, hsame⟩

theorem stepWaiter_of_late (hrun : AllRunning p.ledger id roles) (hroles : roles ≠ [])
    (hw : p.waiters[k]? = some w) (hid : w.runId = id) {wakeAt : Nat}
    (hst : w.stage = .polling wakeAt) (hwake : wakeAt ≤ p.clock) (hdead : p.deadline w ≤ p.clock) :
    ∃ snapshot role rest, role ∈ roles ∧ p.stepWaiter k =
      p.setWait k (.forcing snapshot (role :: rest) (role :: rest) .withhold) := by
  obtain ⟨x, hx, hcomp, role, rest, hrole, hlate⟩ := hrun.outstanding hroles
  subst hid
  have hread : p.ledger.read w.runId = .ok (x.snapshot w.runId) := Ledger.read_eq_ok.2 ⟨x, hx, rfl⟩
  have hopen : p.ledger.isComplete w.runId = .ok false := by
    simp only [Ledger.isComplete, Ledger.entry, hx, Except.map, hcomp]
  refine ⟨x.snapshot w.runId, role, rest, hrole, ?_⟩
  simp only [stepWaiter, hw, hst, if_pos hwake, poll, hopen, if_pos hdead, hread, hlate]

/-- **A waiter that is not harmless can get to the point where it ends a role of the run next**, without
any run being touched. -/
theorem exists_expiring (hrun : AllRunning p.ledger id roles) (hroles : roles ≠ [])
    (hw : p.waiters[k]? = some w) (hid : w.runId = id) (hharm : ¬ w.Harmless roles) :
    ∃ es snapshot late role rest, role ∈ roles ∧ (p.run es).waiters[k]? =
        some { w with stage := .forcing snapshot late (role :: rest) .expire } ∧
      p.SameRuns (p.run es) := by
  unfold Waiter.Harmless at hharm
  cases hst : w.stage with
  | joining | done =>
    simp only [hst] at hharm
    exact absurd trivial hharm
  | forcing snapshot late todo next =>
    cases todo with
    | nil =>
      simp only [hst] at hharm
      exact absurd trivial hharm
    | cons role rest =>
      simp only [hst, Classical.not_not] at hharm
      obtain ⟨es, hw', hsame⟩ := exists_expiring_of_forcing (w := w) hrun hharm (by rw [hw, ← hst]) hid
      exact ⟨es, snapshot, late, role, rest, hharm, hw', hsame⟩
  | polling wakeAt =>
    -- time passes until the run is late
    let q := p.step (.pass (wakeAt + p.deadline w) p.now)
    have hclock : q.clock = p.clock + (wakeAt + p.deadline w) := rfl
    have hdead : q.deadline w = p.deadline w := rfl
    obtain ⟨snapshot, role, rest, hrole, hturn⟩ := stepWaiter_of_late (p := q) hrun hroles hw hid hst
      (by omega) (by omega)
    have hw₂ : (q.stepWaiter k).waiters[k]? =
        some { w with stage := .forcing snapshot (role :: rest) (role :: rest) .withhold } := by
      rw [hturn, setWait_waiters, List.getElem?_modify_eq]
      exact congrArg (Option.map _) hw
    obtain ⟨es, hw', hsame⟩ := exists_expiring_of_forcing (p := q.stepWaiter k)
      (by rw [hturn]; exact hrun) hrole hw₂ hid
    refine ⟨.pass (wakeAt + p.deadline w) p.now :: .wait k :: es, _, _, role, rest, hrole, hw', ?_⟩
    refine SameRuns.trans (q := q.stepWaiter k) ?_ hsame
    rw [hturn]
    exact ⟨rfl, rfl⟩

theorem step_of_expiring {snapshot : RunState} {late rest : List Role} {role : Role}
    (hw : p.waiters[k]? = some { w with stage := .forcing snapshot late (role :: rest) .expire }) :
    ∃ cause, (p.stepWaiter k).ledger =
        p.ledger.apply (.transition w.runId role .timedOut cause p.now) ∧
      (p.stepWaiter k).table = p.table := by
  refine ⟨some (deadlineCause w.limit), ?_⟩
  simp only [stepWaiter, hw, force]
  split <;> simp

end Waiters

/-! ### Runs that were started again -/

theorem Quiet.guarded {p q : Panel} {id : RunId} {roles : List Role} (h : p.Quiet id roles)
    (hq : p.Launched q id roles) : q.Guarded p.incarnations.length id roles := by
  obtain ⟨inc, hinc, -, hslots⟩ := hq.incarnation
  refine ⟨⟨inc, hinc, hslots⟩, fun _ s hs hid hne hrole => ?_, fun _ w hw hid _ => ?_⟩
  · obtain ⟨new, hsup, hnew⟩ := hq.supervisors
    rw [hsup] at hs
    rcases List.mem_append.1 hs with hs | hs
    · exact h.supervisors s hs hid hrole
    · exact absurd (hnew s hs) hne
  · rw [hq.waiters] at hw
    exact h.waiters w hw hid

theorem Isolated.byPartyOf {q : Panel} {i : Nat} {id : RunId} {roles : List Role}
    (h : q.Isolated i id) (htab : q.table.get? id = some i) (hrun : AllRunning q.ledger id roles)
    {es : List Event} (hsame : q.SameRuns (q.run es)) {role : Role} (hrole : role ∈ roles)
    {phase : Phase} (hterm : phase.isTerminal = true) {cause : Option String} {now : Timestamp}
    {e : Event} (hl : ((q.run es).step e).ledger =
      (q.run es).ledger.apply (.transition id role phase cause now))
    (ht : ((q.run es).step e).table = (q.run es).table) : (q.run es).ByPartyOf i e := by
  obtain ⟨s, s', hs, hs', hne⟩ := hrun.read_apply hrole hterm cause now
  refine h es e s s' ?_ ?_ ?_ ?_ hne
  · rw [hsame.2, htab]
  · rw [ht, hsame.2, htab]
  · rw [hsame.1, hs]
  · rw [hl, hsame.1, hs']

/-- A leftover supervisor could settle, and so change a role of the new incarnation. -/
theorem Isolated.isSettled {p q : Panel} {id : RunId} {roles : List Role}
    (hiso : q.Isolated p.incarnations.length id) (hp : p.Wired) (hq : p.Launched q id roles)
    (hreach : Reachable q) {s : Supervisor} (hs : s ∈ p.supervisors) (hid : s.runId = id)
    (hrole : s.role ∈ roles) : s.isSettled = true := by
  by_contra hset
  have hlt : s.incarnation < p.incarnations.length := (hp.supervisors s hs).lt
  obtain ⟨j, hj⟩ := List.mem_iff_getElem?.1 hs
  have hjq : q.supervisors[j]? = some s := by
    obtain ⟨new, hsup, -⟩ := hq.supervisors
    rw [hsup, List.getElem?_append_left (List.getElem?_eq_some_iff.1 hj).1, hj]
  obtain ⟨es, s', phase, cause, hs', hadv, hst, hsame⟩ :=
    exists_decided hjq (Bool.eq_false_iff.2 hset)
  obtain ⟨inc, -, -, -, hback⟩ := (hreach.run es).wired.supervisors s' (List.mem_of_getElem? hs')
  obtain ⟨hl, ht⟩ := settle_of_decided hs' hst
  rw [hadv.runId_eq, hid, hadv.role_eq] at hl
  obtain ⟨s'', hs'', hinc⟩ := hiso.byPartyOf hq.table hq.running hsame hrole
    (hback.decided phase cause hst).1 (e := .settle j) hl ht
  obtain rfl : s' = s'' := Option.some.inj (hs'.symm.trans hs'')
  rw [hadv.incarnation_eq] at hinc
  omega

theorem Isolated.harmless {p q : Panel} {id : RunId} {roles : List Role}
    (hiso : q.Isolated p.incarnations.length id) (hp : p.Wired) (hq : p.Launched q id roles)
    {w : Waiter} (hw : w ∈ p.waiters) (hid : w.runId = id) : w.Harmless roles := by
  by_contra hharm
  have hlt : w.incarnation < p.incarnations.length := by
    obtain ⟨inc, hinc, -⟩ := hp.waiters w hw
    exact (List.getElem?_eq_some_iff.1 hinc).1
  obtain ⟨k, hk⟩ := List.mem_iff_getElem?.1 hw
  obtain ⟨es, snapshot, late, role, rest, hrole, hw', hsame⟩ :=
    exists_expiring hq.running hq.ne_nil (by rw [hq.waiters, hk]) hid hharm
  obtain ⟨cause, hl, ht⟩ := step_of_expiring hw'
  rw [hid] at hl
  have hterm : Phase.timedOut.isTerminal = true := rfl
  obtain ⟨w'', hw'', hinc⟩ := hiso.byPartyOf hq.table hq.running hsame hrole hterm
    (e := .wait k) hl ht
  obtain rfl := Option.some.inj (hw'.symm.trans hw'')
  exact absurd hinc (Nat.ne_of_lt hlt)

/-- **A run that was started again is isolated exactly if its identifier was quiet.**  A leftover party
that is not done with one of the roles can always go on until it changes that role of the new
incarnation; if there is none, then nobody but the supervisors and the waiters of the new incarnation
ever does. -/
theorem isolated_iff_quiet {p : Panel} (hp : Reachable p) {id : RunId} {item : WorkItem}
    {roles : List Role} (hok : (p.start id item roles).2 = .ok id) :
    (p.start id item roles).1.Isolated p.incarnations.length id ↔ p.Quiet id roles := by
  have hq : p.Launched (p.start id item roles).1 id roles := launched_of_start hok
  have hreach : Reachable (p.start id item roles).1 := hp.step (.start id item roles)
  constructor
  · intro hiso
    constructor
    · intro s hs hid hrole
      exact hiso.isSettled hp.wired hq hreach hs hid hrole
    · intro w hw hid
      exact hiso.harmless hp.wired hq hw hid
  · intro hquiet es e s s' htab htab' hs hs' hne
    obtain ⟨hwired, hguard⟩ := Guarded.run es hreach.wired (hquiet.guarded hq)
    exact hguard.byPartyOf hwired htab htab' hs hs' hne

/-- The first start of a run is isolated; a second one is not if a supervisor of the first is left. -/
theorem isolated_iff_quiet_half : ∃ p q,
    p = fresh { Config.default with rerunPolicy := .archive } halfCrew ∧
    q = (p.step (.start "r" (.ofReference "t") [.security, .build])).run halfSchedule ∧
    (p.start "r" (.ofReference "t") [.security, .build]).1.Isolated 0 "r" ∧
    (q.start "r" (.ofReference "t") [.build]).2 = .ok "r" ∧
    ¬ (q.start "r" (.ofReference "t") [.build]).1.Isolated 1 "r" := by
  obtain ⟨p, hp⟩ : ∃ p, p = fresh { Config.default with rerunPolicy := .archive } halfCrew := ⟨_, rfl⟩
  obtain ⟨q, hq⟩ : ∃ q, q = (p.step (.start "r" (.ofReference "t") [.security, .build])).run
      halfSchedule := ⟨_, rfl⟩
  have hreach : Reachable p := hp ▸ .ofConfig (ofConfig_blank rfl halfCrew)
  have hreach' : Reachable q := hq ▸ (hreach.step _).run _
  have hok : (p.start "r" (.ofReference "t") [.security, .build]).2 = .ok "r" := by
    rw [hp]
    rfl
  have hok' : (q.start "r" (.ofReference "t") [.build]).2 = .ok "r" := by
    rw [hq, hp]
    rfl
  refine ⟨p, q, hp, hq, ?_, hok', fun hiso => ?_⟩
  · have hzero : p.incarnations.length = 0 := by rw [hp]; rfl
    rw [← hzero]
    refine (isolated_iff_quiet hreach hok).2 ⟨?_, ?_⟩ <;> simp [hp, fresh]
  · have hone : q.incarnations.length = 1 := by rw [hq, hp]; rfl
    rw [← hone] at hiso
    -- the reviewer of the second role never came back, and the supervisor is still waiting
    obtain ⟨s, hs, hid, hrole, hset⟩ : ∃ s ∈ q.supervisors, s.runId = "r" ∧ s.role = .build ∧
        s.isSettled = false := by
      rw [hq, hp]
      exact ⟨_, List.mem_cons_of_mem _ List.mem_cons_self, rfl, rfl, rfl⟩
    have hquiet := (isolated_iff_quiet hreach' hok').1 hiso
    have hdone := hquiet.supervisors s hs hid (by simp [hrole])
    rw [hset] at hdone
    cases hdone

end Panel

end ReviewPanel
