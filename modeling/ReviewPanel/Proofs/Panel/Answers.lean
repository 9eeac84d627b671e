import ReviewPanel.Proofs.Panel.Calls
import ReviewPanel.Proofs.Panel.Progress

/-!
# What a waiter answers

A waiter makes up its mind from what it has seen of the run, while supervisors, other waiters and
clients go on.  As long as the run is neither forgotten nor started again, what it relies on stays true:
a role that has been started is not taken back, and a role that has ended stays so.  So the waiter
answers with a snapshot in which every role has ended.

There is one exception.  Of the races that it may lose, a waiter forgives one: somebody else has ended
the role that it was about to end.  If by then every role has ended, and somebody seals the run at once,
the ledger names the seal as the reason to refuse the same attempt, and this one the waiter does not
forgive.

## Main definitions

* `Panel.Relies` : what a waiter may rely on at its stage.
* `Panel.Attending` : a waiter of a run that is still there.
* `Panel.Overtaken` : the run is sealed between the snapshot of a waiter and its last attempt.

## Main statements

* `Panel.Relies.step`, `Panel.Turn.relies` : what the steps of others, and its own, preserve.
* `Panel.Attending.exists_seals`, `Panel.Attending.exists_overtaken` : how a waiter came to be refused.
* `Panel.await_fails_iff_overtaken` : **a waiter gets an answer, and that is a failure only if it was
  overtaken.**
-/

namespace ReviewPanel

theorem Ledger.respond_of_status? {l : Ledger} {a : Attempt} {t : Status}
    (ht : l.status? a.seat = some t) :
    (l.Open a.runId ∧ l.respond a = if t.phase.allows a.phase
        then .ok (t.advance a.phase a.cause a.time)
        else .error (.invalidTransition a.role t.phase a.phase)) ∨
      ¬ l.Open a.runId ∧ l.respond a = .error (.runSealed a.runId) := by
  by_cases hopen : l.Open a.runId
  · exact .inl ⟨hopen, hopen.respond_eq ht⟩
  · rw [Attempt.seat, Ledger.status?_eq] at ht
    obtain ⟨x, hx, -⟩ := Option.bind_eq_some_iff.1 ht
    have hv : x.verdict.isSome = true :=
      Option.isSome_iff_ne_none.2 fun hv => hopen ⟨x, hx, hv⟩
    refine .inr ⟨hopen, ?_⟩
    rw [Ledger.respond_eq, Ledger.outlook, Attempt.seat, hx]
    simp only [Option.map_some, Attempt.answer, hv, if_true]

namespace Panel

variable {p q : Panel} {id : RunId} {k : Nat} {e : Event} {w : Waiter} {stage : WaitStage}

/-! ### The run -/

theorem status_back {role : Role} {t : Status} (he : e.Spares id)
    (ht : (p.step e).ledger.status? (id, role) = some t) :
    ∃ s, p.ledger.status? (id, role) = some s ∧ (s.isTerminal = true → t = s) := by
  cases hs : p.ledger.status? (id, role) with
  | none =>
    rw [status?_step_of_none he hs] at ht
    cases ht
  | some s =>
    obtain ⟨t', ht', -, hsame⟩ := status_onward he hs
    obtain rfl : t' = t := Option.some.inj (ht'.symm.trans ht)
    exact ⟨s, rfl, hsame⟩

theorem Reachable.ne_pending (hp : Reachable p) {role : Role} {t : Status}
    (ht : p.ledger.status? (id, role) = some t) : t.phase ≠ .pending := by
  induction hp generalizing t with
  | ofConfig h =>
    obtain rfl := eq_of_ofConfig h
    cases ht
  | @step p hp e ih =>
    by_cases he : e.Spares id
    · cases hs : p.ledger.status? (id, role) with
      | none =>
        rw [status?_step_of_none he hs] at ht
        cases ht
      | some s =>
        obtain ⟨t', ht', hpending, -⟩ := status_onward he hs
        obtain rfl : t' = t := Option.some.inj (ht'.symm.trans ht)
        exact hpending (ih hs)
    · -- the run is forgotten or started, unless the call is refused
      have hmove := p.step_move e
      rw [Ledger.status?_eq] at ht
      generalize p.step e = q at hmove ht
      cases hmove with
      | idle => exact ih ((Ledger.status?_eq _ _ _).trans ht)
      | @refused id' _ _ _ _ hc =>
        obtain rfl : id' = id := Classical.not_not.1 he
        rw [hc.1] at ht
        cases ht
      | @started id' item roles _ _ _ _ hc hu =>
        obtain rfl : id' = id := Classical.not_not.1 he
        obtain ⟨x, hx, -, hroles⟩ := allRunning_launched hu
        rw [hx] at ht
        have hrole := hroles role
        rw [show x.roles.get? role = some t from ht] at hrole
        split_ifs at hrole
        · rw [Option.some.inj hrole]
          decide
        · cases hrole
      | @forgotten id' hgone =>
        obtain rfl : id' = id := Classical.not_not.1 he
        rw [hgone] at ht
        cases ht
      | @aside e he' => cases e <;> first | exact absurd trivial he | cases he'
      | _ => exact absurd trivial he

theorem isOpen_of_step (he : e.Spares id) (h : (p.step e).ledger.Open id) : p.ledger.Open id := by
  obtain ⟨x', hx', hv'⟩ := h
  have hch := (p.step_move e).change id
  rw [hx'] at hch
  generalize hx : p.ledger.entries.get? id = x at hch
  generalize p.step e = q at hch
  cases hch with
  | same => exact ⟨x', hx, hv'⟩
  | reported _ _ _ hv | forced _ _ _ _ _ hv => exact ⟨_, hx, hv⟩
  | judged hv => cases hv'
  | restarted => exact absurd rfl he

theorem not_isOpen_run {es : List Event} (hes : ∀ e ∈ es, e.Spares id) (h : ¬ p.ledger.Open id) :
    ¬ (p.run es).ledger.Open id :=
  run_preserves (P := fun q => ¬ q.ledger.Open id)
    (fun he hsealed hopen => hsealed (isOpen_of_step he hopen)) hes h

theorem isOpen_step_of_ne (he : e.Spares id) (hne : e ≠ .finalize id) (h : p.ledger.Open id) :
    (p.step e).ledger.Open id := by
  cases e with
  | wait k => exact isOpen_step (k := k) h rfl
  | finalize id' => exact isOpen_step (k := 0) h fun hid => hne (congrArg _ hid)
  | start | forget => exact isOpen_step (k := 0) h he
  | _ => exact isOpen_step (k := 0) h trivial

/-! ### What a waiter relies on -/

/-- What a waiter of the run `id` may rely on at its stage. -/
inductive Relies (l : Ledger) (id : RunId) : WaitStage → Prop
  | polling (t : Nat) : Relies l id (.polling t)
  | forcing {snapshot : RunState} {late todo : List Role} {next : ForceStep}
      (begun : ∀ role ∈ todo, (snapshot.roles.get? role).map Status.phase ≠ some .pending)
      (known : ∀ role ∈ todo, role ∈ late ∧ (l.status? (id, role)).isSome = true)
      (ended : ∀ role, role ∉ todo → ∀ t, l.status? (id, role) = some t → t.isTerminal = true) :
      Relies l id (.forcing snapshot late todo next)
  | joining {handles : List Nat}
      (ended : ∀ role t, l.status? (id, role) = some t → t.isTerminal = true) :
      Relies l id (.joining handles)
  | complete {s : RunState} (hid : s.runId = id) (hs : s.allComplete = true) :
      Relies l id (.done (.ok s))
  /-- It was refused because the run was sealed. -/
  | refused : Relies l id (.done (.error (.ledger (.runSealed id))))

namespace Relies

/-- **What a waiter relies on stays true.** -/
theorem step (h : Relies p.ledger id stage) (he : e.Spares id) :
    Relies (p.step e).ledger id stage := by
  have hended : ∀ {role : Role} {t : Status}, (p.step e).ledger.status? (id, role) = some t →
      (∀ s, p.ledger.status? (id, role) = some s → s.isTerminal = true) → t.isTerminal = true := by
    intro role t ht hterm
    obtain ⟨s, hs, hsame⟩ := status_back he ht
    exact hsame (hterm s hs) ▸ hterm s hs
  cases h with
  | polling t => exact .polling t
  | forcing begun known ended =>
    refine .forcing begun (fun role hrole => ?_) fun role hrole t ht => hended ht (ended role hrole)
    obtain ⟨hlate, hsome⟩ := known role hrole
    obtain ⟨s, hs⟩ := Option.isSome_iff_exists.1 hsome
    obtain ⟨t, ht, -⟩ := status_onward he hs
    exact ⟨hlate, by rw [ht]; rfl⟩
  | joining ended => exact .joining fun role t ht => hended ht (ended role)
  | complete hid hs => exact .complete hid hs
  | refused => exact .refused

/-- The only attempts of a waiter are those to end a role that the run has. -/
theorem attempt? {l : Ledger} {now : Timestamp} {a : Attempt} (h : Relies l w.runId w.stage)
    (ha : w.attempt? now = some a) :
    (∃ snapshot late rest, w.stage = .forcing snapshot late (a.role :: rest) .expire) ∧
      a.runId = w.runId ∧ a.phase = .timedOut ∧ ∃ t, l.status? a.seat = some t := by
  obtain ⟨snapshot, late, rest, next, hst, -⟩ := Waiter.forcing_of_attempt? ha
  rw [hst] at h
  cases h with
  | forcing begun known =>
    obtain ⟨-, hsome⟩ := known a.role List.mem_cons_self
    cases next with
    | withhold =>
      simp only [Waiter.attempt?, hst] at ha
      cases ha
    | start =>
      simp only [Waiter.attempt?, hst, if_neg (begun a.role List.mem_cons_self)] at ha
      cases ha
    | expire =>
      simp only [Waiter.attempt?, hst] at ha
      have hid := congrArg Attempt.runId (Option.some.inj ha)
      refine ⟨⟨snapshot, late, rest, hst⟩, hid.symm, ?_, Option.isSome_iff_exists.1 ?_⟩
      · exact (congrArg Attempt.phase (Option.some.inj ha)).symm
      · rwa [Attempt.seat, ← hid]

theorem snapshot (hp : Reachable p) {x : LedgerEntry} (hx : p.ledger.entries.get? id = some x) :
    Relies p.ledger id (.forcing (x.snapshot id) (x.snapshot id).outstanding
      (x.snapshot id).outstanding .withhold) := by
  have hstatus : ∀ role, p.ledger.status? (id, role) = x.roles.get? role := fun role => by
    rw [Ledger.status?_eq, hx]
    rfl
  refine .forcing (fun role hrole => ?_) (fun role hrole => ⟨hrole, ?_⟩) fun role hrole t ht => ?_
  · obtain ⟨t, ht, -⟩ := mem_outstanding.1 hrole
    rw [ht, Option.map_some]
    exact fun hpending => hp.ne_pending ((hstatus role).trans ht) (Option.some.inj hpending)
  · obtain ⟨t, ht, -⟩ := mem_outstanding.1 hrole
    rw [hstatus, show x.roles.get? role = some t from ht]
    rfl
  · by_contra hterm
    exact hrole (mem_outstanding.2 ⟨t, (hstatus role).symm.trans ht, by simpa using hterm⟩)

theorem tail {l : Ledger} {snapshot : RunState} {late rest : List Role} {role : Role}
    {next next' : ForceStep} (h : Relies l id (.forcing snapshot late (role :: rest) next))
    (hrole : ∀ t, l.status? (id, role) = some t → t.isTerminal = true) :
    Relies l id (.forcing snapshot late rest next') := by
  cases h with
  | forcing begun known ended =>
    refine .forcing (fun role' hr => begun role' (List.mem_cons_of_mem _ hr))
      (fun role' hr => known role' (List.mem_cons_of_mem _ hr)) fun role' hnot => ?_
    by_cases hr : role' = role
    · exact hr ▸ hrole
    · exact ended role' fun hmem => (List.mem_cons.1 hmem).elim hr hnot

end Relies

/-- A role that has been started, and that may not end in some way, has ended. -/
theorem isTerminal_of_not_allows {t : Status} {phase : Phase} (hbegun : t.phase ≠ .pending)
    (hphase : phase.isTerminal = true) (h : ¬ t.phase.allows phase = true) : t.isTerminal = true := by
  cases ht : t.phase with
  | pending => exact absurd ht hbegun
  | running => exact absurd (Phase.allows_of_isTerminal hphase) (ht ▸ h)
  | complete | failed | timedOut => rw [Status.isTerminal, ht]; rfl

/-- **A role has ended once a waiter has tried to end it**, unless the waiter was refused. -/
theorem isTerminal_of_lets (hp : Reachable p) (hw : p.waiters[k]? = some w) {a : Attempt}
    (ha : w.attempt? p.now = some a) (hphase : a.phase = .timedOut) (hlets : p.Lets w) {s t : Status}
    (hs : p.ledger.status? a.seat = some s)
    (ht : (p.step (.wait k)).ledger.status? a.seat = some t) : t.isTerminal = true := by
  -- the ledger has accepted the attempt, or has refused it because the role had ended
  rcases Ledger.respond_of_status? hs with ⟨hopen, -⟩ | ⟨-, hres⟩
  · have hnext := hopen.status?_apply hs
    rw [step_ledger rfl, attempt?, hw, Option.bind_some, ha, Option.elim_some] at ht
    obtain rfl := Option.some.inj (hnext.symm.trans ht)
    rw [hphase]
    split_ifs with hallows
    · rfl
    · exact isTerminal_of_not_allows (hp.ne_pending hs) rfl hallows
  · have habs := hlets _ _ ha hres
    cases habs

/-- **What a waiter relies on after its own step.** -/
theorem Turn.relies (hturn : Turn p w stage) (hp : Reachable p) (hw : p.waiters[k]? = some w)
    (hx : p.ledger.entries.get? w.runId ≠ none) (h : Relies p.ledger w.runId w.stage) :
    Relies (p.step (.wait k)).ledger w.runId stage := by
  have hspares : Event.Spares w.runId (.wait k) := trivial
  have hold := h.step hspares
  cases hturn with
  | asleep | held | idle => exact hold
  | lost _ hnone => exact absurd hnone hx
  | again => exact .polling _
  | @complete _ x _ hx hc =>
    refine (Relies.joining fun role t ht => ?_).step hspares
    rw [Ledger.status?_eq, hx] at ht
    exact LedgerEntry.isComplete_iff.1 hc role t ht
  | turned _ hx => exact (Relies.snapshot hp hx).step hspares
  | expired hst =>
    rw [hst] at hold
    cases hold with
    | forcing _ _ ended => exact .joining fun role => ended role (by simp)
  | closed hst | begun hst =>
    rw [hst] at hold
    cases hold with
    | forcing begun known ended => exact .forcing begun known ended
  | ended hst hlets =>
    have ha := Waiter.attempt?_of_expire hst p.now
    obtain ⟨-, -, -, t, ht⟩ := h.attempt? ha
    rw [hst] at hold
    exact hold.tail fun _ => isTerminal_of_lets hp hw ha rfl hlets ht
  | @refused a err ha hr he =>
    obtain ⟨-, hid, -, t, ht⟩ := h.attempt? ha
    rcases Ledger.respond_of_status? ht with ⟨-, hres⟩ | ⟨-, hres⟩
    · rw [hr] at hres
      split_ifs at hres
      rw [Except.error.inj hres] at he
      cases he
    · obtain rfl := Except.error.inj (hr.symm.trans hres)
      rw [hid]
      exact .refused
  | joined hst =>
    rw [hst] at h
    cases h with
    | joining ended =>
      obtain ⟨x, hx⟩ := Option.ne_none_iff_exists'.1 hx
      have hread : p.ledger.read w.runId = .ok (x.snapshot w.runId) := Ledger.read_eq_ok.2 ⟨x, hx, rfl⟩
      rw [hread]
      exact .complete rfl (RunState.allComplete_of_read hread fun role t ht =>
        ended role t ((Ledger.status?_of_read hread role).trans ht))

/-! ### A waiter of a run that is still there -/

/-- The waiter `w` at `k` waits for the run `id`, which is still there. -/
structure Attending (p : Panel) (id : RunId) (k : Nat) (w : Waiter) : Prop where
  reachable : Reachable p
  waiter : p.waiters[k]? = some w
  runId_eq : w.runId = id
  listed : p.table.get? id ≠ none
  relies : Relies p.ledger id w.stage

namespace Attending

theorem entry (h : p.Attending id k w) : p.ledger.entries.get? id ≠ none := by
  rcases h.reachable.wired.listed id with ⟨hnone, -⟩ | ⟨_, _, x, -, -, -, hx, -⟩
  · exact absurd hnone h.listed
  · rw [hx]
    exact Option.some_ne_none x

theorem exists_read (h : p.Attending id k w) : ∃ s, p.ledger.read id = .ok s := by
  obtain ⟨x, hx⟩ := Option.ne_none_iff_exists'.1 h.entry
  exact ⟨_, Ledger.read_eq_ok.2 ⟨x, hx, rfl⟩⟩

theorem of_attempt? (h : p.Attending id k w) {now : Timestamp} {a : Attempt}
    (ha : w.attempt? now = some a) :
    (∃ snapshot late rest, w.stage = .forcing snapshot late (a.role :: rest) .expire) ∧
      a.runId = id ∧ a.phase = .timedOut ∧ ∃ t, p.ledger.status? a.seat = some t := by
  have hid := h.runId_eq
  subst hid
  exact h.relies.attempt? ha

theorem listed_step (h : p.Attending id k w) (he : e.Spares id) : (p.step e).table.get? id ≠ none := by
  rw [(p.step_move e).table_get? he]
  exact h.listed

theorem step_other (h : p.Attending id k w) (he : e.Spares id)
    (hw : (p.step e).waiters[k]? = some w) : (p.step e).Attending id k w :=
  ⟨h.reachable.step e, hw, h.runId_eq, h.listed_step he, h.relies.step he⟩

theorem step_own (h : p.Attending id k w) (hturn : Turn p w stage)
    (hw : (p.step (.wait k)).waiters[k]? = some { w with stage }) :
    (p.step (.wait k)).Attending id k { w with stage } where
  reachable := h.reachable.step _
  waiter := hw
  runId_eq := h.runId_eq
  listed := h.listed_step trivial
  relies := by
    have hid := h.runId_eq
    subst hid
    exact hturn.relies h.reachable h.waiter h.entry h.relies

theorem step (h : p.Attending id k w) (he : e.Spares id) : ∃ w', (p.step e).Attending id k w' := by
  rcases step_waiter h.waiter e with ⟨-, hsame⟩ | ⟨rfl, stage, hturn, hnext⟩
  · exact ⟨w, h.step_other he hsame⟩
  · exact ⟨_, h.step_own hturn hnext⟩

theorem run (h : p.Attending id k w) {es : List Event} (hes : ∀ e ∈ es, e.Spares id) :
    ∃ w', (p.run es).Attending id k w' :=
  run_preserves (P := fun q => ∃ w', q.Attending id k w')
    (fun he ⟨_, hw⟩ => hw.step he) hes ⟨w, h⟩

theorem answer_cases (h : p.Attending id k w) {answer : Except PanelError RunState}
    (ha : p.answer? k = some answer) :
    (∃ s, answer = .ok s ∧ s.runId = id ∧ s.allComplete = true) ∨
      answer = .error (.ledger (.runSealed id)) := by
  have hrelies := h.relies
  simp only [answer?, h.waiter] at ha
  cases hst : w.stage with
  | done answer' =>
    simp only [hst] at ha
    obtain rfl := Option.some.inj ha
    rw [hst] at hrelies
    cases hrelies with
    | complete hid hs => exact .inl ⟨_, rfl, hid, hs⟩
    | refused => exact .inr rfl
  | polling | forcing | joining => simp [hst] at ha

end Attending

theorem answer?_run {answer : Except PanelError RunState} {es : List Event} :
    ∀ {p : Panel}, p.answer? k = some answer → (p.run es).answer? k = some answer := by
  induction es with
  | nil => exact fun h => h
  | cons e es ih =>
    intro p h
    refine ih ?_
    cases hw : p.waiters[k]? with
    | none => simp [answer?, hw] at h
    | some w =>
      simp only [answer?, hw] at h
      cases hst : w.stage with
      | done answer' =>
        rcases step_waiter hw e with ⟨-, hsame⟩ | ⟨-, stage, hturn, hnext⟩
        · simpa only [answer?, hsame] using h
        · cases hturn with
          | idle => simpa only [answer?, hnext] using h
          | refused ha =>
            obtain ⟨_, _, _, _, hst', -⟩ := Waiter.forcing_of_attempt? ha
            simp [hst] at hst'
          | asleep hst' | lost hst' | complete hst' | again hst' | turned hst' | expired hst' | closed hst'
            | begun hst' | ended hst' | held hst' | joined hst' => simp [hst] at hst'
      | polling | forcing | joining => simp [hst] at h

/-! ### How a waiter comes to be refused -/

/-- The waiter at `k` has taken its snapshot and is ending the roles that are late. -/
def Ending (p : Panel) (k : Nat) : Prop :=
  ∃ w snapshot late todo next, p.waiters[k]? = some w ∧ w.stage = .forcing snapshot late todo next

/-- The waiter at `k` is about to end a role. -/
def Expiring (p : Panel) (k : Nat) : Prop :=
  ∃ w snapshot late role rest, p.waiters[k]? = some w ∧
    w.stage = .forcing snapshot late (role :: rest) .expire

/-- The call to finalize the run gives it its verdict. -/
def Seals (p : Panel) (id : RunId) : Prop :=
  p.ledger.Open id ∧ ¬ (p.step (.finalize id)).ledger.Open id

namespace Attending

variable {es : List Event}

/-- **If a run gets its verdict while a waiter ends roles**, a client has finalized it after the waiter
took its snapshot. -/
theorem exists_seals (h : p.Attending id k w) (hst : ∃ t, w.stage = .polling t)
    (hes : ∀ e ∈ es, e.Spares id) (hending : (p.run es).Ending k)
    (hsealed : ¬ (p.run es).ledger.Open id) :
    ∃ es₁ es₂, es = es₁ ++ .finalize id :: es₂ ∧ (p.run es₁).Seals id ∧ (p.run es₁).Ending k := by
  induction es using List.reverseRecOn with
  | nil =>
    obtain ⟨t, hst⟩ := hst
    obtain ⟨w', _, _, _, _, hw', hst'⟩ := hending
    obtain rfl : w' = w := Option.some.inj (hw'.symm.trans h.waiter)
    rw [hst] at hst'
    cases hst'
  | append_singleton es e ih =>
    have hes' : ∀ e' ∈ es, e'.Spares id := fun e' he' => hes e' (List.mem_append_left _ he')
    have he : e.Spares id := hes e (by simp)
    have hmore : (p.run es).Ending k → ¬ (p.run es).ledger.Open id → ∃ es₁ es₂,
        es ++ [e] = es₁ ++ .finalize id :: es₂ ∧ (p.run es₁).Seals id ∧ (p.run es₁).Ending k := by
      intro hending hsealed
      obtain ⟨es₁, es₂, rfl, hrest⟩ := ih hes' hending hsealed
      exact ⟨es₁, es₂ ++ [e], by simp, hrest⟩
    obtain ⟨w₁, h₁⟩ := h.run hes'
    rw [run_concat] at hending hsealed
    obtain ⟨w₂, snapshot, late, todo, next, hw₂, hst₂⟩ := hending
    rcases step_waiter h₁.waiter e with ⟨hne, hsame⟩ | ⟨rfl, stage, hturn, hnext⟩
    · obtain rfl : w₂ = w₁ := Option.some.inj (hw₂.symm.trans hsame)
      have hending : (p.run es).Ending k := ⟨_, _, _, _, _, h₁.waiter, hst₂⟩
      by_cases hopen : (p.run es).ledger.Open id
      · -- this step seals the run
        obtain rfl : e = .finalize id := by
          by_contra hne
          exact hsealed (isOpen_step_of_ne he hne hopen)
        exact ⟨es, [], rfl, ⟨hopen, hsealed⟩, hending⟩
      · exact hmore hending hopen
    · obtain rfl := Option.some.inj (hw₂.symm.trans hnext)
      have hbefore : ¬ (p.run es).ledger.Open id := fun hopen =>
        hsealed (isOpen_step_of_ne trivial (by simp) hopen)
      cases hst₂
      generalize hstage : WaitStage.forcing snapshot late todo next = stage at hturn
      cases hturn with
      | turned _ hx hc =>
        -- at the snapshot the run had no verdict
        obtain ⟨cs, hcs⟩ := h₁.reachable.ledger_eq
        rw [h₁.runId_eq, hcs] at hx
        rw [hcs] at hbefore
        exact absurd (Ledger.open_of_incomplete hx hc) hbefore
      | closed hst | begun hst | ended hst => exact hmore ⟨_, _, _, _, _, h₁.waiter, hst⟩ hbefore
      | asleep hst | held hst | idle hst => rw [hst] at hstage; cases hstage
      | _ => cases hstage

theorem answer?_of_sealed (h : p.Attending id k w) (hexpiring : p.Expiring k)
    (hsealed : ¬ p.ledger.Open id) :
    (p.step (.wait k)).answer? k = some (.error (.ledger (.runSealed id))) := by
  obtain ⟨w', snapshot, late, role, rest, hw', hst⟩ := hexpiring
  obtain rfl : w' = w := Option.some.inj (hw'.symm.trans h.waiter)
  obtain ⟨stage, hturn, hnext⟩ := stepWaiter_turn hw'
  have hrelies := (h.step_own hturn hnext).relies
  cases hturn with
  | @refused a err ha hr he =>
    simp only [answer?, Panel.step, hnext]
    generalize PanelError.ofLedger err = err' at hrelies ⊢
    cases hrelies
    rfl
  | ended _ hlets =>
    have ha := Waiter.attempt?_of_expire hst p.now
    obtain ⟨-, hid, -, t, ht⟩ := h.of_attempt? ha
    rcases Ledger.respond_of_status? ht with ⟨hopen, -⟩ | ⟨-, hres⟩
    · exact absurd (hid ▸ hopen) hsealed
    · have habs := hlets _ _ ha hres
      cases habs
  | asleep hst' | lost hst' | complete hst' | again hst' | turned hst' | expired hst' | closed hst'
    | begun hst' | held hst' | joined hst' | idle hst' => simp [hst] at hst'

/-- A waiter is refused only where it wants to end a role of a run with a verdict. -/
theorem of_answer?_step (h : p.Attending id k w) (he : e.Spares id)
    (ha : (p.step e).answer? k = some (.error (.ledger (.runSealed id)))) :
    p.answer? k = some (.error (.ledger (.runSealed id))) ∨
      e = .wait k ∧ p.Expiring k ∧ ¬ p.ledger.Open id := by
  rcases step_waiter h.waiter e with ⟨-, hsame⟩ | ⟨rfl, stage, hturn, hnext⟩
  · simp only [answer?, hsame] at ha
    simp only [answer?, h.waiter]
    exact .inl ha
  · simp only [answer?, hnext] at ha
    cases hturn with
    | asleep | held | idle =>
      simp only [answer?, h.waiter]
      exact .inl ha
    | lost _ hx => exact absurd (h.runId_eq ▸ hx) h.entry
    | @refused a err hatt hr _ =>
      obtain ⟨⟨snapshot, late, rest, hst⟩, haid, -, t, ht⟩ := h.of_attempt? hatt
      refine .inr ⟨rfl, ⟨w, snapshot, late, a.role, rest, h.waiter, hst⟩, fun hopen => ?_⟩
      -- the ledger would have refused the attempt because the role had ended
      rcases Ledger.respond_of_status? ht with ⟨-, hres⟩ | ⟨hsealed, -⟩
      · rw [hr] at hres
        split_ifs at hres
        rw [Except.error.inj hres] at ha
        cases ha
      · exact hsealed (haid ▸ hopen)
    | joined =>
      obtain ⟨s, hread⟩ := h.exists_read
      rw [h.runId_eq, hread] at ha
      cases ha
    | complete | again | turned | expired | closed | begun | ended => cases ha

end Attending

/-- After the first part of the schedule, while the waiter at `k` is ending roles, a client finalizes
the run; and after the second part, with every role ended, the waiter is about to end one. -/
structure Overtaken (p : Panel) (id : RunId) (k : Nat) (es₁ es₂ : List Event) : Prop where
  ending : (p.run es₁).Ending k
  seals : (p.run es₁).Seals id
  expiring : (p.run (es₁ ++ .finalize id :: es₂)).Expiring k
  complete : ∃ s, (p.run (es₁ ++ .finalize id :: es₂)).ledger.read id = .ok s ∧ s.allComplete = true

/-- **A waiter that is refused was overtaken.** -/
theorem Attending.exists_overtaken {es : List Event} (h : p.Attending id k w)
    (hst : ∃ t, w.stage = .polling t) (hes : ∀ e ∈ es, e.Spares id)
    (ha : (p.run es).answer? k = some (.error (.ledger (.runSealed id)))) :
    ∃ es₁ es₂ es₃, es = es₁ ++ .finalize id :: es₂ ++ .wait k :: es₃ ∧ p.Overtaken id k es₁ es₂ := by
  induction es using List.reverseRecOn with
  | nil =>
    obtain ⟨t, hst⟩ := hst
    simp [answer?, h.waiter, hst] at ha
  | append_singleton es e ih =>
    have hes' : ∀ e' ∈ es, e'.Spares id := fun e' he' => hes e' (List.mem_append_left _ he')
    obtain ⟨w₁, h₁⟩ := h.run hes'
    rw [run_concat] at ha
    rcases h₁.of_answer?_step (hes e (by simp)) ha with ha | ⟨rfl, hexpiring, hsealed⟩
    · obtain ⟨es₁, es₂, es₃, rfl, hover⟩ := ih hes' ha
      exact ⟨es₁, es₂, es₃ ++ [e], by simp, hover⟩
    · have hending : (p.run es).Ending k := by
        obtain ⟨w₂, snapshot, late, role, rest, hw₂, hst₂⟩ := hexpiring
        exact ⟨w₂, snapshot, late, role :: rest, .expire, hw₂, hst₂⟩
      have hcomplete : ∃ s, (p.run es).ledger.read id = .ok s ∧ s.allComplete = true := by
        obtain ⟨s, hread⟩ := h₁.exists_read
        refine ⟨s, hread, ?_⟩
        obtain ⟨x, hx, rfl⟩ := Ledger.read_eq_ok.1 hread
        obtain ⟨cs, hcs⟩ := h₁.reachable.ledger_eq
        by_contra hc
        rw [hcs] at hx hsealed
        exact hsealed (Ledger.open_of_incomplete hx (Bool.eq_false_iff.2 hc))
      obtain ⟨es₁, es₂, rfl, hseals, hending₁⟩ := h.exists_seals hst hes' hending hsealed
      exact ⟨es₁, es₂, [], rfl, hending₁, hseals, hexpiring, hcomplete⟩

theorem Attending.answer?_of_overtaken {es₁ es₂ es₃ : List Event} (h : p.Attending id k w)
    (hes : ∀ e ∈ es₁ ++ .finalize id :: es₂ ++ .wait k :: es₃, e.Spares id)
    (hover : p.Overtaken id k es₁ es₂) :
    (p.run (es₁ ++ .finalize id :: es₂ ++ .wait k :: es₃)).answer? k =
      some (.error (.ledger (.runSealed id))) := by
  have hes₁ : ∀ e ∈ es₁ ++ .finalize id :: es₂, e.Spares id := fun e he =>
    hes e (List.mem_append_left _ he)
  have hsealed : ¬ (p.run (es₁ ++ .finalize id :: es₂)).ledger.Open id := by
    rw [run_append, run_cons]
    exact not_isOpen_run (fun e he => hes₁ e (by simp [he])) hover.seals.2
  obtain ⟨w₁, h₁⟩ := h.run hes₁
  rw [run_append, run_cons]
  exact answer?_run (h₁.answer?_of_sealed hover.expiring hsealed)

/-- **A waiter gets an answer, and that is a failure only if it was overtaken.**  Let a client begin to
wait for a run that has been started, and let anybody do anything except to forget the run or to start
it again.  Then the client is let in, and whatever answer it gets is a snapshot of the run in which
every role has ended, or else that the run was sealed.  It gets the latter exactly if a client finalized
the run after the waiter had taken its snapshot, and before the waiter made its last attempt to end a
role, which by then had ended as all others had.  Nothing else makes it fail; in particular it does not,
if nobody finalizes the run.  And it does get an answer, once time has passed and everybody has had a
turn. -/
theorem await_fails_iff_overtaken (hp : Reachable p) {s : RunState} (hs : p.ledger.read id = .ok s)
    (poll limit : Nat) : ∃ q k, p.enterWait id poll limit = (q, .ok k) ∧
      ∀ es : List Event, (∀ e ∈ es, e.Spares id) →
        (∀ answer, (q.run es).answer? k = some answer →
          (∃ s, answer = .ok s ∧ s.runId = id ∧ s.allComplete = true) ∨
            answer = .error (.ledger (.runSealed id))) ∧
        ((q.run es).answer? k = some (.error (.ledger (.runSealed id))) ↔
          ∃ es₁ es₂ es₃, es = es₁ ++ .finalize id :: es₂ ++ .wait k :: es₃ ∧
            q.Overtaken id k es₁ es₂) ∧
        (.finalize id ∉ es → ∀ answer, (q.run es).answer? k = some answer →
          ∃ s, answer = .ok s ∧ s.runId = id ∧ s.allComplete = true) ∧
        ∀ es₁ es₂ es₃, es = es₁ ++ es₂ ++ es₃ → q.FairTo k es₁ es₂ es₃ →
          ((q.run es).answer? k).isSome = true := by
  obtain ⟨x, hx, -⟩ := Ledger.read_eq_ok.1 hs
  rcases hp.wired.listed id with ⟨-, hnone⟩ | ⟨i, inc, _, htab, hinc, -, -, -⟩
  · rw [hnone] at hx
    cases hx
  · have hact : p.active id = .ok (i, inc) := active_eq_ok.2 ⟨htab, hinc⟩
    obtain ⟨q, hq⟩ : ∃ q, p.enterWait id poll limit = (q, .ok p.waiters.length) := by
      simp only [enterWait, hact]
      exact ⟨_, rfl⟩
    have hstep : q = p.step (.await id poll limit) := (congrArg Prod.fst hq).symm
    obtain ⟨w, h, t, hst⟩ : ∃ w, q.Attending id p.waiters.length w ∧ ∃ t, w.stage = .polling t := by
      refine ⟨⟨i, id, max poll 1, limit, .polling p.clock⟩, ⟨hstep ▸ hp.step _, ?_, rfl, ?_,
        .polling _⟩, _, rfl⟩
      · simp [hstep, step, enterWait, hact]
      · simp [hstep, step, enterWait, hact, htab]
    refine ⟨q, p.waiters.length, hq, fun es hes => ?_⟩
    obtain ⟨w', h'⟩ := h.run hes
    have hiff : (q.run es).answer? p.waiters.length = some (.error (.ledger (.runSealed id))) ↔
        ∃ es₁ es₂ es₃, es = es₁ ++ .finalize id :: es₂ ++ .wait p.waiters.length :: es₃ ∧
          q.Overtaken id p.waiters.length es₁ es₂ := by
      refine ⟨h.exists_overtaken ⟨t, hst⟩ hes, ?_⟩
      rintro ⟨es₁, es₂, es₃, rfl, hover⟩
      exact h.answer?_of_overtaken hes hover
    refine ⟨fun answer => h'.answer_cases, hiff, fun hnot answer ha => ?_, ?_⟩
    · rcases h'.answer_cases ha with hok | rfl
      · exact hok
      · obtain ⟨es₁, es₂, es₃, rfl, -⟩ := hiff.1 ha
        exact absurd (by simp) hnot
    · rintro es₁ es₂ es₃ rfl hfair
      exact hfair.isSome_answer h.reachable h.waiter

/-- Between the snapshot of a waiter and its attempt to end the only role, that role ends. -/
def overtaking : List Event :=
  [.wait 0, .comeBack 0, .observe 0, .decide 0, .settle 0]

theorem await_fails_iff_overtaken_overtaking : ∃ p q s, Reachable p ∧ p.ledger.read "r" = .ok s ∧
    p.enterWait "r" 1 0 = (q, .ok 0) ∧ q.Overtaken "r" 0 overtaking [.wait 0, .wait 0] ∧
    (q.run (overtaking ++ [.finalize "r", .wait 0, .wait 0, .wait 0])).answer? 0 =
      some (.error (.ledger (.runSealed "r"))) ∧
    ∃ s', (q.run (overtaking ++ [.wait 0, .wait 0, .wait 0, .wait 0, .wait 0])).answer? 0 =
      some (.ok s') ∧ s'.allComplete = true := by
  obtain ⟨p, hp⟩ : ∃ p, p = (fresh .default halfCrew).run
      [.start "r" (.ofReference "t") [.security]] := ⟨_, rfl⟩
  have hreach : Reachable p := hp ▸ (Reachable.ofConfig (ofConfig_blank rfl halfCrew)).run _
  obtain ⟨s, hs⟩ : ∃ s, p.ledger.read "r" = .ok s := by
    rw [hp]
    exact ⟨_, rfl⟩
  obtain ⟨q, k, hq, hall⟩ := await_fails_iff_overtaken hreach hs 1 0
  obtain ⟨hq', rfl⟩ : q = (p.enterWait "r" 1 0).1 ∧ k = 0 := by
    refine ⟨by rw [hq], ?_⟩
    rw [hp] at hq
    exact (Except.ok.inj (congrArg Prod.snd hq)).symm
  have hover : q.Overtaken "r" 0 overtaking [.wait 0, .wait 0] := by
    rw [hq', hp]
    refine ⟨⟨_, _, _, _, _, rfl, rfl⟩, ⟨⟨_, rfl, rfl⟩, ?_⟩, ⟨_, _, _, _, _, rfl, rfl⟩, ⟨_, rfl, rfl⟩⟩
    rintro ⟨x, hx, hv⟩
    have hsome : (some x).any (fun x => x.verdict.isSome) = true := hx ▸ rfl
    simp [hv] at hsome
  obtain ⟨-, hiff, -, -⟩ := hall (overtaking ++ [.finalize "r", .wait 0, .wait 0, .wait 0])
    (by simp [overtaking, Event.Spares])
  obtain ⟨-, -, hok, -⟩ := hall
    (overtaking ++ [.wait 0, .wait 0, .wait 0, .wait 0, .wait 0]) (by simp [overtaking, Event.Spares])
  obtain ⟨answer, ha⟩ : ∃ answer, (q.run
      (overtaking ++ [.wait 0, .wait 0, .wait 0, .wait 0, .wait 0])).answer? 0 = some answer := by
    rw [hq', hp]
    exact ⟨_, rfl⟩
  obtain ⟨s', rfl, -, hs'⟩ := hok (by simp [overtaking]) answer ha
  exact ⟨p, q, s, hreach, hs, hq, hover, hiff.2 ⟨overtaking, [.wait 0, .wait 0], [], rfl, hover⟩,
    s', ha, hs'⟩

end Panel

end ReviewPanel
