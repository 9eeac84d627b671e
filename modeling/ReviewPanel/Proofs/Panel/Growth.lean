import ReviewPanel.Proofs.Panel.Moves
import ReviewPanel.Proofs.Slots

/-!
# Nothing is taken back

Whatever the schedule, nothing that the parties of a panel have agreed on is taken back.  The lists of
incarnations, supervisors and waiters are only extended, and their members advance: slots close,
verdicts appear, a supervisor that is done stays so.

## Main definitions

* `Extends R` : a list was extended, and its members are related to the old ones by `R`.
* `Incarnation.Grows`, `Supervisor.Advances`, `Waiter.Advances` : what can become of each party.
* `Panel.Advances` : what can become of a panel.

## Main statements

* `Panel.step_advances`, `Panel.run_advances` : **every step, and so every schedule, advances the
  panel.**
-/

namespace ReviewPanel

/-! ### Lists that are extended -/

section Extends

variable {α : Type} {R : α → α → Prop}

/-- `bs` continues `as`, up to a change of the members along `R`. -/
def Extends (R : α → α → Prop) (as bs : List α) : Prop :=
  ∀ (i : Nat) (a : α), as[i]? = some a → ∃ b, bs[i]? = some b ∧ R a b

theorem Extends.refl (hR : ∀ a, R a a) (as : List α) : Extends R as as :=
  fun _ a ha => ⟨a, ha, hR a⟩

theorem Extends.trans (hR : ∀ a b c, R a b → R b c → R a c) {as bs cs : List α}
    (h : Extends R as bs) (h' : Extends R bs cs) : Extends R as cs := by
  intro i a ha
  obtain ⟨b, hb, hab⟩ := h i a ha
  obtain ⟨c, hc, hbc⟩ := h' i b hb
  exact ⟨c, hc, hR a b c hab hbc⟩

theorem Extends.append (hR : ∀ a, R a a) (as bs : List α) : Extends R as (as ++ bs) := by
  intro i a ha
  obtain ⟨hi, -⟩ := List.getElem?_eq_some_iff.1 ha
  exact ⟨a, by rw [List.getElem?_append_left hi, ha], hR a⟩

theorem Extends.modify (hR : ∀ a, R a a) {as : List α} {i : Nat} {f : α → α}
    (h : ∀ a, as[i]? = some a → R a (f a)) : Extends R as (as.modify i f) := by
  intro j a ha
  rw [List.getElem?_modify, ha]
  by_cases hij : i = j
  · subst hij
    exact ⟨f a, by simp, h a ha⟩
  · exact ⟨a, by simp [hij], hR a⟩

theorem Extends.exists_mem {as bs : List α} (h : Extends R as bs) {a : α} (ha : a ∈ as) :
    ∃ b ∈ bs, R a b := by
  obtain ⟨i, hi⟩ := List.mem_iff_getElem?.1 ha
  obtain ⟨b, hb, hab⟩ := h i a hi
  exact ⟨b, List.mem_of_getElem? hb, hab⟩

/-- A member of the longer list is an old one that has changed, or it is new. -/
theorem Extends.back {as bs : List α} (h : Extends R as bs) {i : Nat} {b : α}
    (hb : bs[i]? = some b) : (∃ a, as[i]? = some a ∧ R a b) ∨ as.length ≤ i := by
  by_cases hi : i < as.length
  · obtain ⟨b', hb', hab⟩ := h i as[i] (List.getElem?_eq_getElem hi)
    obtain rfl : b' = b := Option.some.inj (hb'.symm.trans hb)
    exact .inl ⟨as[i], List.getElem?_eq_getElem hi, hab⟩
  · exact .inr (Nat.le_of_not_lt hi)

end Extends

/-! ### What can become of a party -/

/-- Between `a` and `b` slots may have been closed, supervisors joined and a verdict found. -/
structure Incarnation.Grows (a b : Incarnation) : Prop where
  runId_eq : b.runId = a.runId
  startedAt_eq : b.startedAt = a.startedAt
  slots : a.slots.Grows b.slots
  verdict : ∀ v, a.verdict = some v → b.verdict = some v

namespace Incarnation.Grows

theorem refl (a : Incarnation) : a.Grows a := ⟨rfl, rfl, Slots.Grows.refl _, fun _ h => h⟩

theorem trans (a b c : Incarnation) (h : a.Grows b) (h' : b.Grows c) : a.Grows c where
  runId_eq := h'.runId_eq.trans h.runId_eq
  startedAt_eq := h'.startedAt_eq.trans h.startedAt_eq
  slots := h.slots.trans h'.slots
  verdict v hv := h'.verdict v (h.verdict v hv)

end Incarnation.Grows

/-- Between `a` and `b` the same supervisor may have moved on, and its reviewer too. -/
structure Supervisor.Advances (a b : Supervisor) : Prop where
  incarnation_eq : b.incarnation = a.incarnation
  runId_eq : b.runId = a.runId
  role_eq : b.role = a.role
  reply_eq : b.reply = a.reply
  dueAt_eq : b.dueAt = a.dueAt
  returned : a.returned = true → b.returned = true
  settled : a.isSettled = true → b.isSettled = true

namespace Supervisor.Advances

theorem refl (a : Supervisor) : a.Advances a :=
  ⟨rfl, rfl, rfl, rfl, rfl, fun h => h, fun h => h⟩

theorem trans (a b c : Supervisor) (h : a.Advances b) (h' : b.Advances c) : a.Advances c where
  incarnation_eq := h'.incarnation_eq.trans h.incarnation_eq
  runId_eq := h'.runId_eq.trans h.runId_eq
  role_eq := h'.role_eq.trans h.role_eq
  reply_eq := h'.reply_eq.trans h.reply_eq
  dueAt_eq := h'.dueAt_eq.trans h.dueAt_eq
  returned hr := h'.returned (h.returned hr)
  settled hs := h'.settled (h.settled hs)

end Supervisor.Advances

/-- Between `a` and `b` the same waiter may have moved on. -/
structure Waiter.Advances (a b : Waiter) : Prop where
  incarnation_eq : b.incarnation = a.incarnation
  runId_eq : b.runId = a.runId
  limit_eq : b.limit = a.limit

namespace Waiter.Advances

theorem refl (a : Waiter) : a.Advances a := ⟨rfl, rfl, rfl⟩

theorem trans (a b c : Waiter) (h : a.Advances b) (h' : b.Advances c) : a.Advances c where
  incarnation_eq := h'.incarnation_eq.trans h.incarnation_eq
  runId_eq := h'.runId_eq.trans h.runId_eq
  limit_eq := h'.limit_eq.trans h.limit_eq

end Waiter.Advances

namespace Panel

/-! ### Every step advances the panel -/

/-- What can become of a panel: its parties advance, and new ones join them. -/
structure Advances (p q : Panel) : Prop where
  config_eq : q.config = p.config
  incarnations : Extends Incarnation.Grows p.incarnations q.incarnations
  supervisors : Extends Supervisor.Advances p.supervisors q.supervisors
  waiters : Extends Waiter.Advances p.waiters q.waiters

namespace Advances

theorem of_eq {p q : Panel} (hc : q.config = p.config) (hi : q.incarnations = p.incarnations)
    (hs : q.supervisors = p.supervisors) (hw : q.waiters = p.waiters) : p.Advances q where
  config_eq := hc
  incarnations := hi ▸ Extends.refl Incarnation.Grows.refl _
  supervisors := hs ▸ Extends.refl Supervisor.Advances.refl _
  waiters := hw ▸ Extends.refl Waiter.Advances.refl _

@[refl] theorem refl (p : Panel) : p.Advances p := of_eq rfl rfl rfl rfl

theorem trans {p q r : Panel} (h : p.Advances q) (h' : q.Advances r) : p.Advances r where
  config_eq := h'.config_eq.trans h.config_eq
  incarnations := h.incarnations.trans Incarnation.Grows.trans h'.incarnations
  supervisors := h.supervisors.trans Supervisor.Advances.trans h'.supervisors
  waiters := h.waiters.trans Waiter.Advances.trans h'.waiters

theorem modifyIncarnation (p : Panel) {i : Nat} {f : Incarnation → Incarnation}
    (h : ∀ inc, p.incarnations[i]? = some inc → inc.Grows (f inc)) :
    p.Advances (p.modifyIncarnation i f) where
  config_eq := rfl
  incarnations := Extends.modify Incarnation.Grows.refl h
  supervisors := Extends.refl Supervisor.Advances.refl _
  waiters := Extends.refl Waiter.Advances.refl _

theorem modifySupervisor (p : Panel) {j : Nat} {f : Supervisor → Supervisor}
    (h : ∀ s, p.supervisors[j]? = some s → s.Advances (f s)) :
    p.Advances (p.modifySupervisor j f) where
  config_eq := rfl
  incarnations := Extends.refl Incarnation.Grows.refl _
  supervisors := Extends.modify Supervisor.Advances.refl h
  waiters := Extends.refl Waiter.Advances.refl _

/-- A supervisor that is not done may go to any stage. -/
theorem setStage (p : Panel) {j : Nat} {s : Supervisor} (hs : p.supervisors[j]? = some s)
    (h : s.isSettled = false) (stage : Stage) : p.Advances (p.setStage j stage) := by
  refine modifySupervisor p fun s' hs' => ?_
  obtain rfl : s = s' := Option.some.inj (hs.symm.trans hs')
  exact ⟨rfl, rfl, rfl, rfl, rfl, fun hr => hr, fun hd => by simp [h] at hd⟩

theorem setWait (p : Panel) (k : Nat) (stage : WaitStage) : p.Advances (p.setWait k stage) where
  config_eq := rfl
  incarnations := Extends.refl Incarnation.Grows.refl _
  supervisors := Extends.refl Supervisor.Advances.refl _
  waiters := Extends.modify Waiter.Advances.refl fun _ _ => ⟨rfl, rfl, rfl⟩

theorem transition (p : Panel) (id : RunId) (role : Role) (phase : Phase) (cause : Option String) :
    p.Advances (p.transition id role phase cause).1 := by
  obtain ⟨inFlight, hp⟩ := p.transition_fst id role phase cause
  rw [hp]
  exact of_eq rfl rfl rfl rfl

theorem withhold (p : Panel) (i : Nat) (role : Role) : p.Advances (p.withhold i role).1 := by
  rw [withhold_fst]
  exact modifyIncarnation p fun inc _ =>
    ⟨rfl, rfl, (inc.slots.grows_withhold role).1, fun _ h => h⟩

theorem publish (p : Panel) (i : Nat) (role : Role) (fs : List Finding) :
    p.Advances (p.publish i role fs).1 := by
  obtain ⟨disk, hp⟩ := p.publish_fst i role fs
  rw [hp]
  have hslots : p.Advances (p.modifyIncarnation i fun inc =>
      { inc with slots := (inc.slots.publish p.disk role fs).1 }) :=
    modifyIncarnation p fun inc _ =>
      ⟨rfl, rfl, (inc.slots.grows_publish p.disk role fs).1, fun _ h => h⟩
  exact hslots.trans (of_eq rfl rfl rfl rfl)

theorem stopReviewer (p : Panel) (j : Nat) : p.Advances (p.stopReviewer j) :=
  modifySupervisor p fun s _ => by
    split_ifs
    · exact Supervisor.Advances.refl s
    · exact ⟨rfl, rfl, rfl, rfl, rfl, fun h => h, fun h => h⟩

theorem stopLate (p : Panel) (w : Waiter) (role : Role) : p.Advances (p.stopLate w role) := by
  rcases p.stopLate_eq w role with h | ⟨j, h⟩
  · rw [h]
  · rw [h]
    exact stopReviewer p j

theorem reviewerReturns (p : Panel) (j : Nat) : p.Advances (p.reviewerReturns j) :=
  modifySupervisor p fun s _ => by
    split
    · split_ifs
      · exact ⟨rfl, rfl, rfl, rfl, rfl, fun _ => rfl, fun h => h⟩
      · exact Supervisor.Advances.refl s
    · exact Supervisor.Advances.refl s

end Advances

theorem Move.advances {p q : Panel} {e : Event} (h : Move p e q) : p.Advances q := by
  cases h with
  | idle | aside | refused | forgotten => exact .of_eq rfl rfl rfl rfl
  | started =>
    exact ⟨rfl, Extends.append Incarnation.Grows.refl _ _,
      Extends.append Supervisor.Advances.refl _ _, Extends.refl Waiter.Advances.refl _⟩
  | @finalized id i inc s v hact hv hs hagg hatt scribe disk inFlight =>
    have hledger : p.Advances
        { p with ledger := p.ledger.apply (.attach id v.toRef), scribe, disk, inFlight } :=
      .of_eq rfl rfl rfl rfl
    refine hledger.trans (Advances.modifyIncarnation _ fun inc' hinc' => ?_)
    obtain rfl : inc = inc' := Option.some.inj ((active_eq_ok.1 hact).2.symm.trans hinc')
    exact ⟨rfl, rfl, Slots.Grows.refl _, fun v' hv' => by simp [hv] at hv'⟩
  | entered =>
    exact ⟨rfl, Extends.refl Incarnation.Grows.refl _, Extends.refl Supervisor.Advances.refl _,
      Extends.append Waiter.Advances.refl _ _⟩
  | polled | turned | finished | skipped => exact Advances.setWait p _ _
  | joined hw left handles =>
    refine .trans (Advances.modifyIncarnation p fun inc _ => ?_) (Advances.setWait _ _ _)
    exact ⟨rfl, rfl, Slots.Grows.refl _, fun _ h => h⟩
  | closed => exact (Advances.withhold p _ _).trans (Advances.setWait _ _ _)
  | began => exact (Advances.transition p _ _ _ _).trans (Advances.setWait _ _ _)
  | expired =>
    exact ((Advances.transition p _ _ _ _).trans (Advances.stopLate _ _ _)).trans
      (Advances.setWait _ _ _)
  | gaveUp => exact (Advances.transition p _ _ _ _).trans (Advances.setWait _ _ _)
  | returned j => exact Advances.reviewerReturns p j
  | observed hs hst => exact Advances.setStage p hs (by simp [Supervisor.isSettled, hst]) _
  | published hs hst =>
    exact (Advances.publish p _ _ _).trans (Advances.setStage _
      (by rwa [publish_supervisors]) (by simp [Supervisor.isSettled, hst]) _)
  | withheld hs hst =>
    exact (Advances.withhold p _ _).trans (Advances.setStage _
      (by rwa [withhold_fst]) (by simp [Supervisor.isSettled, hst]) _)
  | settled hs hst =>
    exact (Advances.transition p _ _ _ _).trans (Advances.setStage _
      (by rwa [transition_supervisors]) (by simp [Supervisor.isSettled, hst]) _)

/-- **Every step of every party advances the panel.** -/
theorem step_advances (p : Panel) (e : Event) : p.Advances (p.step e) := (p.step_move e).advances

/-- **Every schedule advances the panel.** -/
theorem run_advances (p : Panel) (es : List Event) : p.Advances (p.run es) := by
  induction es generalizing p with
  | nil => exact .refl p
  | cons e es ih => exact (p.step_advances e).trans (ih (p.step e))

end Panel

end ReviewPanel
