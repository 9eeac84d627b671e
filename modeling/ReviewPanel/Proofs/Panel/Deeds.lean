import ReviewPanel.Proofs.Ledger.Shape
import ReviewPanel.Proofs.Panel.Turns

/-!
# How a role gets from one status to another

Along a schedule supervisors and waiters make attempts to move roles, and the ledger answers each of
them (`Panel.deeds`).  As long as a run is neither forgotten nor started again, the status of a role is
the work of the attempts for that role which were accepted, and of nothing else: each of them found the
status that the one before had left.  Since no phase follows an end, the attempt that ends a role is the
only one of its kind, whoever else tries.

## Main definitions

* `Panel.Deed` : an attempt with the event that made it and the answer.
* `Panel.deeds` : the attempts along a schedule.
* `Panel.Leads` : the accepted attempts that lead a role from one status to another.

## Main statements

* `Panel.status_step`, `Panel.leads_run` : **the status of a role is the work of the accepted attempts**,
  in one step and along a schedule.
* `Panel.Leads.ends` : one attempt ends the role, and it gives the final status.
* `Panel.exists_of_mem_deeds` : the moment at which an attempt was made.
-/

namespace ReviewPanel

/-- The status of a role on the ledger, if the run is there and has the role. -/
def Ledger.status? (l : Ledger) (seat : RunId × Role) : Option Status :=
  (l.outlook seat).bind Outlook.status

theorem Ledger.status?_eq (l : Ledger) (id : RunId) (role : Role) :
    l.status? (id, role) = (l.entries.get? id).bind fun x => x.roles.get? role := by
  rw [status?, outlook]
  cases l.entries.get? id <;> rfl

theorem Ledger.status?_of_read {l : Ledger} {id : RunId} {s : RunState} (h : l.read id = .ok s)
    (role : Role) : l.status? (id, role) = s.roles.get? role := by
  obtain ⟨x, hx, rfl⟩ := Ledger.read_eq_ok.1 h
  rw [status?_eq, hx]
  rfl

theorem Ledger.read_of_status? {l : Ledger} {id : RunId} {role : Role} {t : Status}
    (h : l.status? (id, role) = some t) : ∃ s, l.read id = .ok s := by
  rw [status?_eq] at h
  obtain ⟨x, hx, -⟩ := Option.bind_eq_some_iff.1 h
  exact ⟨x.snapshot id, Ledger.read_eq_ok.2 ⟨x, hx, rfl⟩⟩

theorem Ledger.status?_congr {l l' : Ledger} {id : RunId}
    (h : l'.entries.get? id = l.entries.get? id) (role : Role) :
    l'.status? (id, role) = l.status? (id, role) := by
  rw [status?_eq, status?_eq, h]

theorem Ledger.status?_apply {l : Ledger} {a : Attempt} {seat : RunId × Role} {s : Status}
    (hs : l.status? seat = some s) :
    (a.seat = seat ∧ s.phase.allows a.phase = true ∧
        l.respond a = .ok (s.advance a.phase a.cause a.time) ∧
        (l.apply a.call).status? seat = some (s.advance a.phase a.cause a.time)) ∨
      ¬ (a.seat = seat ∧ (l.respond a).toBool = true) ∧ (l.apply a.call).status? seat = some s := by
  by_cases hseat : a.seat = seat
  · subst hseat
    obtain ⟨o, ho, hso⟩ := Option.bind_eq_some_iff.1 hs
    rw [status?, outlook_apply, if_pos rfl, respond_eq, ho, Attempt.onward, Attempt.answer]
    obtain ⟨isSealed, status⟩ := o
    obtain rfl : status = some s := hso
    by_cases hopen : isSealed = true
    · simp [hopen, Except.toBool]
    · by_cases hallows : s.phase.allows a.phase = true <;> simp [hopen, hallows, Except.toBool]
  · right
    rw [status?, outlook_apply, if_neg fun h => hseat h.symm]
    exact ⟨fun h => hseat h.1, hs⟩

theorem Ledger.status?_apply_of_none {l : Ledger} {seat : RunId × Role} (hs : l.status? seat = none)
    (a : Attempt) : (l.apply a.call).status? seat = none := by
  rw [status?, outlook_apply]
  split_ifs with hseat
  · rw [status?] at hs
    cases ho : l.outlook seat with
    | none => rfl
    | some o =>
      rw [ho, Option.bind_some] at hs
      cases hopen : o.isSealed <;> simp [Attempt.onward, Attempt.answer, hopen, hs]
  · exact hs

theorem RunState.allComplete_of_read {l : Ledger} {id : RunId} {s : RunState} (h : l.read id = .ok s)
    (hended : ∀ role t, s.roles.get? role = some t → t.isTerminal = true) : s.allComplete = true := by
  obtain ⟨x, -, rfl⟩ := Ledger.read_eq_ok.1 h
  exact LedgerEntry.isComplete_iff.2 hended

namespace Panel

/-- An attempt to move a role, with the event that made it and the answer of the ledger. -/
structure Deed where
  event : Event
  attempt : Attempt
  answer : Except LedgerError Status

/-- The attempt was made for a given role, and accepted. -/
def Deed.moves (d : Deed) (seat : RunId × Role) : Bool :=
  d.attempt.seat = seat ∧ d.answer.toBool = true

/-- The attempt ended a given role. -/
def Deed.ends (d : Deed) (seat : RunId × Role) : Bool :=
  d.moves seat ∧ d.attempt.phase.isTerminal = true

/-- What comes of an event on the ledger. -/
def deed? (p : Panel) (e : Event) : Option Deed :=
  (p.attempt? e).map fun a => ⟨e, a, p.ledger.respond a⟩

/-- The attempts along a schedule. -/
def deeds (p : Panel) : List Event → List Deed
  | [] => []
  | e :: es => (p.deed? e).toList ++ (p.step e).deeds es

theorem exists_of_mem_deeds {d : Deed} : ∀ {es : List Event} {p : Panel}, d ∈ p.deeds es →
    ∃ es₁ es₂, es = es₁ ++ d.event :: es₂ ∧ (p.run es₁).deed? d.event = some d
  | [], p, h => by cases h
  | e :: es, p, h => by
    rcases List.mem_append.1 h with h | h
    · have hd := Option.mem_toList.1 h
      obtain ⟨a, -, rfl⟩ := Option.map_eq_some_iff.1 hd
      exact ⟨[], es, rfl, hd⟩
    · obtain ⟨es₁, es₂, rfl, hd⟩ := exists_of_mem_deeds h
      exact ⟨e :: es₁, es₂, rfl, hd⟩

theorem attempt?_of_deed? {p : Panel} {e : Event} {d : Deed} (h : p.deed? e = some d) :
    p.attempt? e = some d.attempt ∧ d.event = e := by
  obtain ⟨a, ha, rfl⟩ := Option.map_eq_some_iff.1 h
  exact ⟨ha, rfl⟩

theorem Deed.ends_eq_true {d : Deed} {seat : RunId × Role} :
    d.ends seat = true ↔
      d.attempt.seat = seat ∧ d.answer.toBool = true ∧ d.attempt.phase.isTerminal = true := by
  simp only [Deed.ends, Deed.moves, decide_eq_true_eq, and_assoc]

/-! ### One step -/

/-- The calls of a client leave the status of the roles alone, as long as the run is neither forgotten
nor started again. -/
theorem Move.status?_of_isCall {p q : Panel} {e : Event} (h : Move p e q) (he : e.isCall = true)
    {id : RunId} (hspares : e.Spares id) (role : Role) :
    q.ledger.status? (id, role) = p.ledger.status? (id, role) := by
  cases h with
  | idle | aside => rfl
  | refused hc => exact Ledger.status?_congr (hc.get?_of_ne hspares.symm).2 role
  | started hc hu => exact Ledger.status?_congr (get?_started_of_ne hc hu hspares.symm) role
  | @forgotten id' =>
    have hne : (Ledger.Call.retire id').runId? ≠ some id := fun hid => hspares (Option.some.inj hid)
    exact Ledger.status?_congr (p.ledger.get?_apply_of_ne hne) role
  | @finalized id' _ _ _ v =>
    have heff := p.ledger.apply_effect (.attach id' v.toRef) id
    rw [modifyIncarnation_ledger, Ledger.status?_eq, Ledger.status?_eq]
    revert heff
    generalize p.ledger.entries.get? id = x
    generalize (p.ledger.apply (.attach id' v.toRef)).entries.get? id = x'
    intro heff
    cases heff <;> rfl
  | _ => cases he

variable {p : Panel} {id : RunId} {role : Role} {s t : Status}

/-- **In one step**, an attempt for the role is accepted and gives the new status, or the status stays
what it is. -/
theorem status_step {e : Event} (he : e.Spares id) (hs : p.ledger.status? (id, role) = some s) :
    (∃ d, p.deed? e = some d ∧ d.moves (id, role) = true ∧
        s.phase.allows d.attempt.phase = true ∧
        d.answer = .ok (s.advance d.attempt.phase d.attempt.cause d.attempt.time) ∧
        (p.step e).ledger.status? (id, role) =
          some (s.advance d.attempt.phase d.attempt.cause d.attempt.time)) ∨
      (∀ d ∈ p.deed? e, d.moves (id, role) = false) ∧
        (p.step e).ledger.status? (id, role) = some s := by
  cases hcall : e.isCall with
  | true =>
    right
    have hnone : p.deed? e = none := by
      cases e <;> first | rfl | cases hcall
    exact ⟨by simp [hnone], by rw [(p.step_move e).status?_of_isCall hcall he, hs]⟩
  | false =>
    rw [deed?, step_ledger hcall]
    cases ha : p.attempt? e with
    | none => exact .inr ⟨by simp, hs⟩
    | some a =>
      simp only [Option.map_some, Option.elim_some]
      rcases Ledger.status?_apply (a := a) hs with ⟨hseat, hallows, hans, hnext⟩ | ⟨hmoves, hnext⟩
      · refine .inl ⟨_, rfl, ?_, hallows, hans, hnext⟩
        simp [Deed.moves, hseat, hans, Except.toBool]
      · refine .inr ⟨fun d hd => ?_, hnext⟩
        obtain rfl := Option.some.inj hd
        exact decide_eq_false hmoves

/-- No role is added to a run, as long as that is neither forgotten nor started again. -/
theorem status?_step_of_none {e : Event} (he : e.Spares id)
    (hs : p.ledger.status? (id, role) = none) : (p.step e).ledger.status? (id, role) = none := by
  cases hcall : e.isCall with
  | true => rw [(p.step_move e).status?_of_isCall hcall he, hs]
  | false =>
    rw [step_ledger hcall]
    cases p.attempt? e with
    | none => exact hs
    | some a => exact Ledger.status?_apply_of_none hs a

/-! ### A schedule -/

/-- Accepted attempts that lead a role from one status to another. -/
inductive Leads : Status → List Deed → Status → Prop
  | nil (s : Status) : Leads s [] s
  | cons {s t : Status} {d : Deed} {ds : List Deed} (hallows : s.phase.allows d.attempt.phase = true)
      (hanswer : d.answer = .ok (s.advance d.attempt.phase d.attempt.cause d.attempt.time))
      (h : Leads (s.advance d.attempt.phase d.attempt.cause d.attempt.time) ds t) :
      Leads s (d :: ds) t

/-- **The status of a role is the work of the accepted attempts.** -/
theorem leads_run {es : List Event} : ∀ {p : Panel} {s : Status}, (∀ e ∈ es, e.Spares id) →
    p.ledger.status? (id, role) = some s →
    ∃ t, (p.run es).ledger.status? (id, role) = some t ∧
      Leads s ((p.deeds es).filter (·.moves (id, role))) t := by
  induction es with
  | nil => exact fun {p s} _ hs => ⟨s, hs, .nil s⟩
  | cons e es ih =>
    intro p s hes hs
    have hrest : ∀ e' ∈ es, e'.Spares id := fun e' he' => hes e' (List.mem_cons_of_mem _ he')
    rw [deeds, List.filter_append]
    rcases status_step (hes e List.mem_cons_self) hs with
      ⟨d, hd, hmoves, hallows, hanswer, hnext⟩ | ⟨hmoves, hnext⟩
    · obtain ⟨t, ht, hleads⟩ := ih hrest hnext
      have hone : (p.deed? e).toList.filter (·.moves (id, role)) = [d] := by simp [hd, hmoves]
      rw [hone]
      exact ⟨t, ht, .cons hallows hanswer hleads⟩
    · obtain ⟨t, ht, hleads⟩ := ih hrest hnext
      have hnil : (p.deed? e).toList.filter (·.moves (id, role)) = [] := by
        refine List.filter_eq_nil_iff.2 fun d hd => ?_
        rw [hmoves d (Option.mem_toList.1 hd)]
        exact Bool.false_ne_true
      rw [hnil]
      exact ⟨t, ht, hleads⟩

theorem status?_run_of_none {es : List Event} (hes : ∀ e ∈ es, e.Spares id)
    (h : p.ledger.status? (id, role) = none) : (p.run es).ledger.status? (id, role) = none :=
  run_preserves (P := fun q => q.ledger.status? (id, role) = none) status?_step_of_none hes h

namespace Leads

variable {ds : List Deed}

theorem fits (h : Leads s ds t) (hs : s.Fits) : t.Fits := by
  induction h with
  | nil => exact hs
  | cons hallows _ _ ih => exact ih (hs.advance hallows _ _)

theorem of_isTerminal (h : Leads s ds t) (hs : s.isTerminal = true) : ds = [] ∧ t = s := by
  cases h with
  | nil => exact ⟨rfl, rfl⟩
  | cons hallows =>
    rw [Phase.allows, Phase.isTerminal_iff_next_eq_nil.1 hs] at hallows
    cases hallows

theorem ne_pending (h : Leads s ds t) (hs : s.phase ≠ .pending) : t.phase ≠ .pending := by
  induction h with
  | nil => exact hs
  | @cons s t d ds hallows _ _ ih =>
    refine ih fun hpending => ?_
    rw [show d.attempt.phase = .pending from hpending] at hallows
    revert hallows
    cases s.phase <;> decide

/-- **One attempt ends the role**, and gives the final status. -/
theorem ends (h : Leads s ds t) (hs : s.isTerminal = false) (ht : t.isTerminal = true) :
    ∃ d, ds.filter (fun d => d.attempt.phase.isTerminal) = [d] ∧ d.answer = .ok t ∧
      t.phase = d.attempt.phase ∧ t.cause = d.attempt.cause := by
  induction h with
  | nil => rw [hs] at ht; cases ht
  | @cons s t d ds _ hanswer hrest ih =>
    cases hterm : d.attempt.phase.isTerminal with
    | false =>
      rw [List.filter_cons_of_neg (by simp [hterm])]
      exact ih hterm ht
    | true =>
      obtain ⟨rfl, rfl⟩ := hrest.of_isTerminal hterm
      exact ⟨d, by simp [hterm], hanswer, rfl, by simp [Status.advance, hterm]⟩

end Leads

/-- The attempts that ended a role are among those that were accepted. -/
theorem filter_ends (ds : List Deed) (seat : RunId × Role) :
    ds.filter (·.ends seat) = (ds.filter (·.moves seat)).filter fun d => d.attempt.phase.isTerminal := by
  rw [List.filter_filter]
  refine List.filter_congr fun d _ => ?_
  rw [Deed.ends, Bool.decide_and, Bool.decide_eq_true, Bool.decide_eq_true, Bool.and_comm]

end Panel

end ReviewPanel
