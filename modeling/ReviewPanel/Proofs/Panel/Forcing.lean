import ReviewPanel.Proofs.Panel.Deeds

/-!
# Ending the roles that are late

When the time of a run is over, a waiter takes a snapshot and goes through the roles that have not ended
in it: it closes the slot, starts the role if the snapshot shows it pending, and ends it.  Meanwhile
supervisors go on, so what the waiter knows is out of date from the first step on.  A role may have ended
between any two steps, and a role that was pending needs two moves, each of which may come too late.

The ledger makes up for it.  It refuses what comes too late, the waiter takes no offence, and after its
three steps for a role that role has ended in one way or the other.

## Main definitions

* `Panel.Event.LeavesTo` : beside one waiter, only supervisors act on a run.
* `Panel.Forcing` : how far a waiter has come with the roles that are late.
* `Panel.EndedOnce` : a role has ended by one accepted attempt, of its supervisor or of the waiter.

## Main statements

* `Panel.Forcing.step_own`, `Panel.Forcing.step_other` : what one step preserves.
* `Panel.Forcing.run` : after three steps for each role, every one of them has ended.
* `Panel.late_roles_end_once` : **ending the roles that are late completes the run and rewrites
  nothing.**
-/

namespace ReviewPanel.Panel

/-- Beside the waiter `k`, only supervisors act on the run. -/
def Event.LeavesTo (id : RunId) (k : Nat) : Event → Prop
  | .start id' _ _ | .finalize id' | .forget id' => id' ≠ id
  | .wait k' => k' = k
  | _ => True

/-- The event is a step of the waiter. -/
def Event.isWaitOf (k : Nat) : Event → Bool
  | .wait k' => k' = k
  | _ => false

theorem Event.LeavesTo.spares {id : RunId} {k : Nat} {e : Event} (h : e.LeavesTo id k) :
    e.Spares id := by
  cases e <;> first | exact h | trivial

theorem Event.isWaitOf_eq_true {k : Nat} {e : Event} : e.isWaitOf k = true ↔ e = .wait k := by
  cases e <;> simp [Event.isWaitOf]

/-! ### Runs without a verdict -/

end Panel

/-- The run is on the ledger and has no verdict. -/
def Ledger.Open (l : Ledger) (id : RunId) : Prop :=
  ∃ x, l.entries.get? id = some x ∧ x.verdict = none

theorem Ledger.Open.apply {l : Ledger} {id : RunId} (h : l.Open id) (a : Attempt) :
    (l.apply a.call).Open id := by
  obtain ⟨x, hx, hv⟩ := h
  obtain ⟨x', hx', -, -, hv', -⟩ := Ledger.get?_attempts [a] hx
  exact ⟨x', hx', hv'.trans hv⟩

theorem Ledger.open_of_incomplete {cs : List Ledger.Call} {id : RunId} {x : LedgerEntry}
    (hx : (Ledger.after cs).entries.get? id = some x) (hc : x.isComplete = false) :
    (Ledger.after cs).Open id := by
  obtain ⟨_, _, _, _, _, -, -, hsound⟩ := Ledger.exists_create cs id x hx
  refine ⟨x, hx, ?_⟩
  by_contra hv
  rw [hsound.complete_of_verdict (Option.isSome_iff_ne_none.2 hv)] at hc
  cases hc

/-- In a run without a verdict, it depends on the phase alone whether an attempt is accepted. -/
theorem Ledger.Open.respond_eq {l : Ledger} {a : Attempt} {s : Status} (h : l.Open a.runId)
    (hs : l.status? a.seat = some s) :
    l.respond a = if s.phase.allows a.phase then .ok (s.advance a.phase a.cause a.time)
      else .error (.invalidTransition a.role s.phase a.phase) := by
  obtain ⟨x, hx, hv⟩ := h
  have hrole : x.roles.get? a.role = some s := by
    rwa [Attempt.seat, Ledger.status?_eq, hx] at hs
  rw [Ledger.respond_eq, Ledger.outlook, Attempt.seat, hx]
  simp only [Option.map_some, Attempt.answer, hv, hrole, Option.isSome_none, Bool.false_eq_true,
    if_false]

theorem Ledger.Open.status?_apply {l : Ledger} {a : Attempt} {s : Status} (h : l.Open a.runId)
    (hs : l.status? a.seat = some s) :
    (l.apply a.call).status? a.seat =
      some (if s.phase.allows a.phase then s.advance a.phase a.cause a.time else s) := by
  have hres := h.respond_eq hs
  rcases Ledger.status?_apply (a := a) hs with ⟨-, hallows, -, hnext⟩ | ⟨hmoves, hnext⟩
  · rw [hnext, if_pos hallows]
  · rw [hnext, if_neg fun hallows => hmoves ⟨rfl, by rw [hres, if_pos hallows]; rfl⟩]

namespace Panel

variable {p : Panel} {id : RunId} {k : Nat} {e : Event}

theorem isOpen_step (h : p.ledger.Open id) (he : e.LeavesTo id k) : (p.step e).ledger.Open id := by
  have hsame : ∀ {l : Ledger}, l.entries.get? id = p.ledger.entries.get? id → l.Open id := by
    rintro l hl
    obtain ⟨x, hx, hv⟩ := h
    exact ⟨x, hl.trans hx, hv⟩
  cases hcall : e.isCall with
  | true =>
    have hmove := p.step_move e
    generalize p.step e = q at hmove ⊢
    cases hmove with
    | idle | aside => exact h
    | refused hc => exact hsame (hc.get?_of_ne (Ne.symm he)).2
    | started hc hu => exact hsame (get?_started_of_ne hc hu (Ne.symm he))
    | @forgotten id' =>
      have hne : (Ledger.Call.retire id').runId? ≠ some id := fun hid => he (Option.some.inj hid)
      exact hsame (p.ledger.get?_apply_of_ne hne)
    | @finalized id' _ _ _ v =>
      have hne : (Ledger.Call.attach id' v.toRef).runId? ≠ some id := fun hid =>
        he (Option.some.inj hid)
      exact hsame (p.ledger.get?_apply_of_ne hne)
    | _ => cases hcall
  | false =>
    rw [step_ledger hcall]
    cases p.attempt? e with
    | none => exact h
    | some a => exact h.apply a

end Panel

/-! ### One role after the other -/

/-- Steps that a waiter has taken towards ending a role. -/
def ForceStep.rank : ForceStep → Nat
  | .withhold => 0
  | .start => 1
  | .expire => 2

namespace Panel

variable {p : Panel} {k : Nat} {e : Event}

/-- The waiter at `k` has still to end the roles of `todo`, the first of which is at the step `next`. -/
structure Forcing (p : Panel) (k : Nat) (w : Waiter) (snapshot : RunState) (late todo : List Role)
    (next : ForceStep) : Prop where
  waiter : p.waiters[k]? = some { w with stage := .forcing snapshot late todo next }
  isOpen : todo ≠ [] → p.ledger.Open w.runId
  /-- What the snapshot shows as started has been started. -/
  known : ∀ role ∈ todo, ∃ s, p.ledger.status? (w.runId, role) = some s ∧
    ((snapshot.roles.get? role).map Status.phase ≠ some .pending → s.phase ≠ .pending)
  begun : next = .expire → ∀ role rest, todo = role :: rest →
    ∀ s, p.ledger.status? (w.runId, role) = some s → s.phase ≠ .pending
  ended : ∀ role ∈ late, role ∉ todo →
    ∃ s, p.ledger.status? (w.runId, role) = some s ∧ s.isTerminal = true

theorem status_onward {id : RunId} {role : Role} {s : Status} {e : Event} (he : e.Spares id)
    (hs : p.ledger.status? (id, role) = some s) :
    ∃ t, (p.step e).ledger.status? (id, role) = some t ∧
      (s.phase ≠ .pending → t.phase ≠ .pending) ∧ (s.isTerminal = true → t = s) := by
  have hes : ∀ e' ∈ [e], e'.Spares id := fun e' he' => List.mem_singleton.1 he' ▸ he
  obtain ⟨t, ht, hleads⟩ := leads_run hes hs
  exact ⟨t, ht, hleads.ne_pending, fun hterm => (hleads.of_isTerminal hterm).2⟩

namespace Forcing

variable {w : Waiter} {snapshot : RunState} {late todo rest : List Role} {role : Role}
  {next : ForceStep}

theorem known_step (h : p.Forcing k w snapshot late todo next) (he : e.Spares w.runId) :
    ∀ role ∈ todo, ∃ s, (p.step e).ledger.status? (w.runId, role) = some s ∧
      ((snapshot.roles.get? role).map Status.phase ≠ some .pending → s.phase ≠ .pending) := by
  intro role hrole
  obtain ⟨s, hs, hstarted⟩ := h.known role hrole
  obtain ⟨t, ht, hpending, -⟩ := status_onward he hs
  exact ⟨t, ht, fun hsnap => hpending (hstarted hsnap)⟩

theorem ended_step (h : p.Forcing k w snapshot late todo next) (he : e.Spares w.runId) :
    ∀ role ∈ late, role ∉ todo →
      ∃ s, (p.step e).ledger.status? (w.runId, role) = some s ∧ s.isTerminal = true := by
  intro role hrole hnot
  obtain ⟨s, hs, hterm⟩ := h.ended role hrole hnot
  obtain ⟨t, ht, -, hsame⟩ := status_onward he hs
  exact ⟨t, ht, hsame hterm ▸ hterm⟩

/-- **The steps of others** do not take the waiter back. -/
theorem step_other (h : p.Forcing k w snapshot late todo next) (he : e.LeavesTo w.runId k)
    (hne : e ≠ .wait k) : (p.step e).Forcing k w snapshot late todo next where
  waiter := (p.step_move e).waiter_of_ne h.waiter hne
  isOpen hnil := isOpen_step (h.isOpen hnil) he
  known := h.known_step he.spares
  begun hnext role rest htodo t ht := by
    obtain ⟨s, hs, -⟩ := h.known role (htodo ▸ List.mem_cons_self)
    obtain ⟨t', ht', hpending, -⟩ := status_onward he.spares hs
    obtain rfl : t' = t := Option.some.inj (ht'.symm.trans ht)
    exact hpending (h.begun hnext role rest htodo s hs)
  ended := h.ended_step he.spares

/-- What the waiter tries, it tries on the role that comes first, and the run is open. -/
theorem of_attempt? {a : Attempt}
    (h : p.Forcing k w snapshot late (role :: rest) next)
    (ha : Waiter.attempt? { w with stage := .forcing snapshot late (role :: rest) next } p.now =
      some a) : a.seat = (w.runId, role) ∧ p.ledger.Open a.runId := by
  have hopen := h.isOpen (List.cons_ne_nil role rest)
  cases next with
  | withhold => cases ha
  | start =>
    simp only [Waiter.attempt?] at ha
    split_ifs at ha
    obtain rfl := Option.some.inj ha
    exact ⟨rfl, hopen⟩
  | expire =>
    obtain rfl := Option.some.inj ha
    exact ⟨rfl, hopen⟩

theorem lets (h : p.Forcing k w snapshot late (role :: rest) next) :
    p.Lets { w with stage := .forcing snapshot late (role :: rest) next } := by
  intro a err ha hres
  obtain ⟨hseat, hopen⟩ := h.of_attempt? ha
  obtain ⟨s, hs, -⟩ := h.known role List.mem_cons_self
  rw [hopen.respond_eq (hseat ▸ hs)] at hres
  split_ifs at hres
  obtain rfl := Except.error.inj hres
  rfl

theorem ledger_step (h : p.Forcing k w snapshot late todo next) :
    (p.step (.wait k)).ledger =
      (Waiter.attempt? { w with stage := .forcing snapshot late todo next } p.now).elim p.ledger
        fun a => p.ledger.apply a.call := by
  rw [step_ledger rfl, attempt?, h.waiter, Option.bind_some]

theorem waiter_step (h : p.Forcing k w snapshot late (role :: rest) next) :
    (p.step (.wait k)).waiters[k]? = some { w with
      stage := match next with
        | .withhold => .forcing snapshot late (role :: rest) .start
        | .start => .forcing snapshot late (role :: rest) .expire
        | .expire => .forcing snapshot late rest .withhold } := by
  obtain ⟨stage, hturn, hstep⟩ := stepWaiter_turn h.waiter
  rw [step, hstep]
  cases hturn with
  | refused ha hr he =>
    rw [h.lets _ _ ha hr] at he
    cases he
  | closed hst | begun hst | ended hst =>
    cases hst
    rfl
  | asleep hst | lost hst | complete hst | again hst | turned hst | expired hst | held hst | joined hst
    | idle hst => cases hst

/-- After the waiter has started a role, or has found it started, it is not pending. -/
theorem status_begun (h : p.Forcing k w snapshot late (role :: rest) .start) {t : Status}
    (ht : (p.step (.wait k)).ledger.status? (w.runId, role) = some t) : t.phase ≠ .pending := by
  obtain ⟨s, hs, hstarted⟩ := h.known role List.mem_cons_self
  have hledger := h.ledger_step
  have hopen : p.ledger.Open w.runId := h.isOpen (List.cons_ne_nil role rest)
  by_cases hsnap : (snapshot.roles.get? role).map Status.phase = some .pending
  · simp only [Waiter.attempt?, if_pos hsnap, Option.elim_some] at hledger
    have hnext := hopen.status?_apply (a := ⟨w.runId, role, .running, none, p.now⟩) hs
    rw [← hledger] at hnext
    obtain rfl := Option.some.inj (hnext.symm.trans ht)
    split_ifs with hallows
    · simp [Status.advance]
    · intro hpending
      rw [hpending] at hallows
      exact hallows rfl
  · simp only [Waiter.attempt?, if_neg hsnap, Option.elim_none] at hledger
    rw [hledger] at ht
    obtain rfl : s = t := Option.some.inj (hs.symm.trans ht)
    exact hstarted hsnap

theorem status_ended (h : p.Forcing k w snapshot late (role :: rest) .expire) :
    ∃ t, (p.step (.wait k)).ledger.status? (w.runId, role) = some t ∧ t.isTerminal = true := by
  obtain ⟨s, hs, -⟩ := h.known role List.mem_cons_self
  have hbegun := h.begun rfl role rest rfl s hs
  have hopen : p.ledger.Open w.runId := h.isOpen (List.cons_ne_nil role rest)
  have hnext := hopen.status?_apply
    (a := ⟨w.runId, role, .timedOut, some (deadlineCause w.limit), p.now⟩) hs
  rw [h.ledger_step]
  refine ⟨_, hnext, ?_⟩
  split_ifs with hallows
  · rfl
  · -- a role that has been started and cannot be ended has ended
    revert hbegun hallows
    simp only [Status.isTerminal]
    cases s.phase <;> decide

/-- **A step of the waiter** takes it one step further. -/
theorem step_own (h : p.Forcing k w snapshot late (role :: rest) next) :
    ∃ todo' next', (p.step (.wait k)).Forcing k w snapshot late todo' next' ∧
      3 * todo'.length + next.rank + 1 = 3 * (role :: rest).length + next'.rank := by
  have hspares : Event.Spares w.runId (.wait k) := trivial
  have hopen : (p.step (.wait k)).ledger.Open w.runId :=
    isOpen_step (k := k) (h.isOpen (List.cons_ne_nil role rest)) rfl
  have hknown := h.known_step hspares
  have hended := h.ended_step hspares
  cases next with
  | withhold =>
    refine ⟨role :: rest, .start, ⟨h.waiter_step, fun _ => hopen, hknown, ?_, hended⟩, rfl⟩
    intro hnext
    cases hnext
  | start =>
    refine ⟨role :: rest, .expire, ⟨h.waiter_step, fun _ => hopen, hknown, ?_, hended⟩, rfl⟩
    intro _ role' rest' htodo t ht
    obtain ⟨rfl, rfl⟩ := List.cons.inj htodo
    exact h.status_begun ht
  | expire =>
    refine ⟨rest, .withhold, ⟨h.waiter_step, fun _ => hopen, ?_, ?_, ?_⟩, ?_⟩
    · exact fun role' hrole' => hknown role' (List.mem_cons_of_mem _ hrole')
    · intro hnext
      cases hnext
    · intro role' hrole' hnot
      by_cases heq : role' = role
      · exact heq ▸ h.status_ended
      · exact hended role' hrole' fun hmem => (List.mem_cons.1 hmem).elim heq hnot
    · simp only [List.length_cons, ForceStep.rank]
      omega

/-- **After three steps for each role**, every role that was late has ended. -/
theorem run {es : List Event} : ∀ {p : Panel} {todo : List Role} {next : ForceStep},
    p.Forcing k w snapshot late todo next → (∀ e ∈ es, e.LeavesTo w.runId k) →
    es.countP (Event.isWaitOf k) + next.rank = 3 * todo.length →
    (p.run es).Forcing k w snapshot late [] .withhold := by
  induction es with
  | nil =>
    intro p todo next h _ hcount
    rw [List.countP_nil] at hcount
    have hrank : next.rank ≤ 2 := by cases next <;> decide
    obtain rfl : todo = [] := List.eq_nil_of_length_eq_zero (by omega)
    cases next with
    | withhold => exact h
    | start | expire => cases hcount
  | cons e es ih =>
    intro p todo next h hes hcount
    have he := hes e List.mem_cons_self
    have hrest : ∀ e' ∈ es, e'.LeavesTo w.runId k := fun e' he' =>
      hes e' (List.mem_cons_of_mem _ he')
    rw [List.countP_cons] at hcount
    by_cases hown : e = .wait k
    · subst hown
      rw [if_pos (Event.isWaitOf_eq_true.2 rfl)] at hcount
      obtain _ | ⟨role, rest⟩ := todo
      · simp at hcount
      · obtain ⟨todo', next', h', hstep⟩ := h.step_own
        exact ih h' hrest (by omega)
    · rw [if_neg fun htrue => hown (Event.isWaitOf_eq_true.1 htrue)] at hcount
      exact ih (h.step_other he hown) hrest hcount

end Forcing

/-! ### How the roles end -/

/-- Who ended a role in the status `t`: the waiter, or a supervisor that had decided on it. -/
inductive EndedBy (p : Panel) (es : List Event) (k : Nat) (w : Waiter) (role : Role) (t : Status) :
    Event → Prop
  | waiter (hphase : t.phase = .timedOut) (hcause : t.cause = some (deadlineCause w.limit)) :
      EndedBy p es k w role t (.wait k)
  | supervisor {j : Nat} {s : Supervisor} {es₁ es₂ : List Event} (hes : es = es₁ ++ .settle j :: es₂)
      (hs : (p.run es₁).supervisors[j]? = some s) (hid : s.runId = w.runId) (hrole : s.role = role)
      (hst : s.stage = .decided t.phase t.cause) : EndedBy p es k w role t (.settle j)

/-- Along a schedule a role has ended in the status `t`, by one accepted attempt, of its supervisor or of
the waiter. -/
structure EndedOnce (p : Panel) (es : List Event) (k : Nat) (w : Waiter) (role : Role) (t : Status) :
    Prop where
  status : (p.run es).ledger.status? (w.runId, role) = some t
  terminal : t.isTerminal = true
  started : t.startedAt.isSome = true
  once : ∃ d, (p.deeds es).filter (·.ends (w.runId, role)) = [d] ∧ d.answer = .ok t ∧
    p.EndedBy es k w role t d.event

variable {w : Waiter} {role : Role}

/-- Whoever ended a role, as long as nobody else acted on the run. -/
theorem endedBy_of_mem_deeds {es : List Event} {d : Deed} {t : Status} (hw : p.waiters[k]? = some w)
    (hes : ∀ e ∈ es, e.LeavesTo w.runId k) (hd : d ∈ p.deeds es)
    (hends : d.ends (w.runId, role) = true) (hphase : t.phase = d.attempt.phase)
    (hcause : t.cause = d.attempt.cause) : p.EndedBy es k w role t d.event := by
  obtain ⟨hseat, -, hterm⟩ := Deed.ends_eq_true.1 hends
  obtain ⟨es₁, es₂, hsplit, hdeed⟩ := exists_of_mem_deeds hd
  obtain ⟨ha, -⟩ := attempt?_of_deed? hdeed
  rcases attempt?_cases ha with ⟨j, s, he, hs, hst, hpost⟩ | ⟨k', w', he, hw', ha'⟩
  · obtain ⟨hid, hrole⟩ := Prod.mk.inj (hpost.symm.trans hseat)
    rw [he] at hsplit ⊢
    exact .supervisor hsplit hs hid hrole (by rw [hst, hphase, hcause])
  · -- no other waiter has taken a step
    obtain rfl : k' = k := by
      have hmem : d.event ∈ es := hsplit ▸ List.mem_append_right _ List.mem_cons_self
      have hleaves := hes d.event hmem
      rwa [he] at hleaves
    obtain ⟨w'', hw'', hadv⟩ := (p.run_advances es₁).waiters _ _ hw
    obtain rfl : w'' = w' := Option.some.inj (hw''.symm.trans hw')
    obtain ⟨-, -, -, -, hout, hwhy⟩ := Waiter.attempt?_of_isTerminal ha' hterm
    rw [he]
    exact .waiter (hphase.trans hout) (by rw [hcause, hwhy, hadv.limit_eq])

theorem forcing_of_read {cs : List Ledger.Call} (hl : p.ledger = .after cs) {s : RunState}
    (hw : p.waiters[k]? = some w)
    (hst : w.stage = .forcing s s.outstanding s.outstanding .withhold)
    (hs : p.ledger.read w.runId = .ok s) :
    p.Forcing k w s s.outstanding s.outstanding .withhold where
  waiter := by rw [hw, ← hst]
  isOpen hne := by
    obtain ⟨x, hx, rfl⟩ := Ledger.read_eq_ok.1 hs
    obtain ⟨role, hrole⟩ := List.exists_mem_of_ne_nil _ hne
    obtain ⟨t, ht, hterm⟩ := mem_outstanding.1 hrole
    have hc : x.isComplete = false := by
      by_contra hc
      rw [LedgerEntry.isComplete_iff.1 (by simpa using hc) role t ht] at hterm
      cases hterm
    rw [hl] at hx ⊢
    exact Ledger.open_of_incomplete hx hc
  known role hrole := by
    obtain ⟨t, ht, -⟩ := mem_outstanding.1 hrole
    refine ⟨t, (Ledger.status?_of_read hs role).trans ht, fun hsnap hpending => hsnap ?_⟩
    rw [ht, Option.map_some, hpending]
  begun hnext := by cases hnext
  ended role hrole hnot := absurd hrole hnot

theorem outstanding_eq_filter (s : RunState) :
    s.outstanding = Role.all.filter fun role => (s.roles.get? role).any fun t => !t.isTerminal := by
  rw [RunState.outstanding, rolesWhere_eq_filter]
  refine List.filter_congr fun role _ => ?_
  cases s.roles.get? role <;> rfl

theorem isSome_startedAt {t : Status} (h : t.Fits) (hterm : t.isTerminal = true) :
    t.startedAt.isSome = true := by
  unfold Status.Fits at h
  unfold Status.isTerminal at hterm
  cases hphase : t.phase <;> simp only [hphase] at h hterm
  case pending | running => cases hterm
  all_goals exact h.1

/-- **Ending the roles that are late completes the run and rewrites nothing.**  Let any calls have been
made on the ledger, so that the roles of a run are pending, running or ended in whatever mixture; and
let a waiter have taken a snapshot `s` of it.  Whatever supervisors and all others do in between, as
long as nobody else seals, removes or forces the run: when the waiter has taken three steps for each
role that had not ended in the snapshot, it has gone through exactly these roles, in their order, and
has not been refused.  By then every role has ended.  A role that had ended in the snapshot shows the
same status, and no attempt for it was accepted.  Every other one has been ended by one accepted
attempt: of a supervisor of the role, as that had decided, or of the waiter, with the cause that says
so; and it shows when it was started, also if it was pending. -/
theorem late_roles_end_once {cs : List Ledger.Call} (hl : p.ledger = .after cs) {s : RunState}
    (hw : p.waiters[k]? = some w)
    (hst : w.stage = .forcing s s.outstanding s.outstanding .withhold)
    (hs : p.ledger.read w.runId = .ok s) {es : List Event} (hes : ∀ e ∈ es, e.LeavesTo w.runId k)
    (hturns : es.countP (Event.isWaitOf k) = 3 * s.outstanding.length) :
    (p.run es).waiters[k]? = some { w with stage := .forcing s s.outstanding [] .withhold } ∧
      s.outstanding = Role.all.filter (fun role => (s.roles.get? role).any fun t => !t.isTerminal) ∧
      ∃ s', (p.run es).ledger.read w.runId = .ok s' ∧ s'.allComplete = true ∧
        (∀ role, s.roles.get? role = none → s'.roles.get? role = none) ∧
        ∀ role t, s.roles.get? role = some t →
          (t.isTerminal = true → s'.roles.get? role = some t ∧
            (p.deeds es).filter (·.moves (w.runId, role)) = []) ∧
          (t.isTerminal = false → ∃ t', s'.roles.get? role = some t' ∧
            p.EndedOnce es k w role t') := by
  have hspares : ∀ e ∈ es, e.Spares w.runId := fun e he => (hes e he).spares
  obtain ⟨_, _, _, _, _, -, -, hshape⟩ := Ledger.shape_of_read cs w.runId s (hl ▸ hs)
  have hdone := (forcing_of_read hl hw hst hs).run hes (by simpa [ForceStep.rank] using hturns)
  have hstatus : ∀ role, p.ledger.status? (w.runId, role) = s.roles.get? role :=
    Ledger.status?_of_read hs
  -- the run can be read in the end, for it has a role
  obtain ⟨s', hs'⟩ : ∃ s', (p.run es).ledger.read w.runId = .ok s' := by
    obtain ⟨role, hrole⟩ := List.exists_mem_of_ne_nil _ hshape.keys_ne_nil
    obtain ⟨t, ht⟩ := Option.isSome_iff_exists.1 (Table.mem_keys.1 hrole)
    obtain ⟨t', ht', -⟩ := leads_run hspares ((hstatus role).trans ht)
    exact Ledger.read_of_status? ht'
  have hstatus' : ∀ role, (p.run es).ledger.status? (w.runId, role) = s'.roles.get? role :=
    Ledger.status?_of_read hs'
  have hkept : ∀ role t, s.roles.get? role = some t → t.isTerminal = true →
      s'.roles.get? role = some t ∧ (p.deeds es).filter (·.moves (w.runId, role)) = [] := by
    intro role t ht hterm
    obtain ⟨t', ht', hleads⟩ := leads_run hspares ((hstatus role).trans ht)
    obtain ⟨hnone, rfl⟩ := hleads.of_isTerminal hterm
    exact ⟨(hstatus' role).symm.trans ht', hnone⟩
  have hended : ∀ role t, s.roles.get? role = some t → t.isTerminal = false →
      ∃ t', s'.roles.get? role = some t' ∧ p.EndedOnce es k w role t' := by
    intro role t ht hterm
    obtain ⟨t', ht', hleads⟩ := leads_run hspares ((hstatus role).trans ht)
    obtain ⟨t'', ht'', hterm'⟩ := hdone.ended role (mem_outstanding.2 ⟨t, ht, hterm⟩) (by simp)
    obtain rfl : t'' = t' := Option.some.inj (ht''.symm.trans ht')
    obtain ⟨d, hd, hanswer, hphase, hcause⟩ := hleads.ends hterm hterm'
    rw [← filter_ends] at hd
    obtain ⟨hmem, hends⟩ := List.mem_filter.1 (hd ▸ List.mem_singleton_self d)
    exact ⟨t'', (hstatus' role).symm.trans ht', ht', hterm',
      isSome_startedAt (hleads.fits (hshape.fits role t ht)) hterm', d, hd, hanswer,
      endedBy_of_mem_deeds hw hes hmem hends hphase hcause⟩
  have hnone : ∀ role, s.roles.get? role = none → s'.roles.get? role = none := by
    intro role hrole
    rw [← hstatus', status?_run_of_none hspares ((hstatus role).trans hrole)]
  refine ⟨hdone.waiter, outstanding_eq_filter s, s', hs', ?_, hnone,
    fun role t ht => ⟨hkept role t ht, hended role t ht⟩⟩
  refine RunState.allComplete_of_read hs' fun role t' ht' => ?_
  cases ht : s.roles.get? role with
  | none =>
    rw [hnone role ht] at ht'
    cases ht'
  | some t =>
    cases hterm : t.isTerminal with
    | true =>
      obtain ⟨hsame, -⟩ := hkept role t ht hterm
      obtain rfl := Option.some.inj (hsame.symm.trans ht')
      exact hterm
    | false =>
      obtain ⟨t'', ht'', honce⟩ := hended role t ht hterm
      obtain rfl := Option.some.inj (ht''.symm.trans ht')
      exact honce.terminal

/-- The calls that lead to a run with a role that has ended, one that is running and one that is
pending. -/
def unevenCalls : List Ledger.Call :=
  [.create "r" (.ofReference "t") [.security, .build, .coverage] ⟨2024, 5, 1, 12, 0, 0, 0⟩,
    .transition "r" .security .running none ⟨2024, 5, 1, 12, 0, 0, 0⟩,
    .transition "r" .build .running none ⟨2024, 5, 1, 12, 0, 0, 0⟩,
    .transition "r" .security .complete none ⟨2024, 5, 1, 12, 0, 0, 1⟩]

/-- A waiter that has taken the snapshot `s`. -/
def unevenWaiter (s : RunState) : Waiter where
  incarnation := 0
  runId := "r"
  poll := 1
  limit := 5
  stage := .forcing s s.outstanding s.outstanding .withhold

/-- The waiter beside the supervisor of the running role, which is about to report its success. -/
def uneven (s : RunState) : Panel :=
  { fresh .default halfCrew with
    ledger := .after unevenCalls
    supervisors := [
      { incarnation := 0, runId := "r", role := .build, backAt := none, reply := .ok [], dueAt := 9,
        returned := true, stopped := false, stage := .decided .complete none }]
    waiters := [unevenWaiter s] }

/-- The supervisor is faster than the waiter by one step. -/
def unevenSchedule : List Event :=
  [.wait 0, .wait 0, .settle 0, .wait 0, .wait 0, .wait 0, .wait 0]

theorem late_roles_end_once_uneven : ∃ s s' t u,
    (Ledger.after unevenCalls).read "r" = .ok s ∧ s.outstanding = [.build, .coverage] ∧
    ((uneven s).run unevenSchedule).ledger.read "r" = .ok s' ∧ s'.allComplete = true ∧
    s'.roles.get? .security = s.roles.get? .security ∧
    (s'.roles.get? .build = some t ∧ t.phase = .complete ∧
      (uneven s).EndedOnce unevenSchedule 0 (unevenWaiter s) .build t) ∧
    s'.roles.get? .coverage = some u ∧ u.phase = .timedOut ∧ u.cause = some (deadlineCause 5) ∧
      (uneven s).EndedOnce unevenSchedule 0 (unevenWaiter s) .coverage u := by
  obtain ⟨s, hs⟩ : ∃ s, (Ledger.after unevenCalls).read "r" = .ok s := ⟨_, rfl⟩
  have hout : s.outstanding = [.build, .coverage] := by
    obtain rfl := Except.ok.inj hs
    rfl
  have hes : ∀ e ∈ unevenSchedule, e.LeavesTo (unevenWaiter s).runId 0 := by
    simp [unevenSchedule, Event.LeavesTo]
  obtain ⟨-, -, s', hs', hcomplete, -, hroles⟩ :=
    late_roles_end_once (p := uneven s) rfl (w := unevenWaiter s) rfl rfl hs hes (by rw [hout]; rfl)
  have hfinal : ∀ role, ((uneven s).run unevenSchedule).ledger.status? ("r", role) =
      s'.roles.get? role := Ledger.status?_of_read hs'
  have hbefore : (∃ t, s.roles.get? .security = some t ∧ t.isTerminal = true) ∧
      (∃ t, s.roles.get? .build = some t ∧ t.isTerminal = false) ∧
      ∃ t, s.roles.get? .coverage = some t ∧ t.isTerminal = false := by
    obtain rfl := Except.ok.inj hs
    exact ⟨⟨_, rfl, rfl⟩, ⟨_, rfl, rfl⟩, _, rfl, rfl⟩
  have hafter : (((uneven s).run unevenSchedule).ledger.status? ("r", .build)).map Status.phase =
        some .complete ∧
      (((uneven s).run unevenSchedule).ledger.status? ("r", .coverage)).map
        (fun t => (t.phase, t.cause)) = some (.timedOut, some (deadlineCause 5)) := by
    obtain rfl := Except.ok.inj hs
    exact ⟨rfl, rfl⟩
  obtain ⟨⟨t₁, ht₁, hterm₁⟩, ⟨t₂, ht₂, hterm₂⟩, t₃, ht₃, hterm₃⟩ := hbefore
  obtain ⟨t, ht, honce⟩ := (hroles .build t₂ ht₂).2 hterm₂
  obtain ⟨u, hu, honce'⟩ := (hroles .coverage t₃ ht₃).2 hterm₃
  rw [hfinal, hfinal, ht, hu] at hafter
  obtain ⟨hcomplete', hlate⟩ := hafter
  obtain ⟨hphase, hcause⟩ := Prod.mk.inj (Option.some.inj hlate)
  exact ⟨s, s', t, u, hs, hout, hs', hcomplete,
    ((hroles .security t₁ ht₁).1 hterm₁).1.trans ht₁.symm,
    ⟨ht, Option.some.inj hcomplete', honce⟩, hu, hphase, hcause, honce'⟩

end Panel

end ReviewPanel
