import ReviewPanel.Proofs.Panel.Forcing
import ReviewPanel.Proofs.Panel.Handles
import ReviewPanel.Proofs.Panel.Restart

/-!
# A waiter gets its answer

A waiter looks at the ledger, ends the roles that are late, waits for supervisors, and is done.  Nothing
in this goes on for ever, however the steps of others fall in between: the limit of the waiter says when
it stops looking, and a supervisor whose time is over has three steps left.  So it is enough that time
passes and that everybody gets a turn.

## Main definitions

* `Stage.rank`, `WaitStage.remaining` : how far a supervisor has come, and how far a waiter has to go.
* `Panel.FairTo` : a schedule in which time passes and everybody gets a turn.

## Main statements

* `Panel.Reached.isSettled` : **a supervisor whose time is over tells the ledger in three steps.**
* `Panel.Turn.remaining_cases` : each step brings a waiter nearer to its answer.
* `Panel.FairTo.isSome_answer` : **a waiter gets its answer.**
-/

namespace ReviewPanel

/-- The steps that a supervisor has taken. -/
def Stage.rank : Stage → Nat
  | .waiting => 0
  | .informed _ => 1
  | .decided _ _ => 2
  | .settled _ => 3

/-- A waiter has at most this many steps to go, once its time is over. -/
def WaitStage.remaining : WaitStage → Nat
  | .polling _ => 3 * Role.all.length + 3
  | .forcing _ _ [] _ => 2
  | .forcing _ _ (_ :: rest) next => 3 * rest.length + 5 - next.rank
  | .joining _ => 1
  | .done _ => 0

theorem WaitStage.remaining_withhold (snapshot : RunState) (late todo : List Role) :
    (WaitStage.forcing snapshot late todo .withhold).remaining = 3 * todo.length + 2 := by
  cases todo with
  | nil => rfl
  | cons role rest =>
    simp only [remaining, ForceStep.rank, List.length_cons]
    omega

namespace Panel

variable {p q : Panel} {e : Event} {j k n : Nat}

/-! ### Time -/

theorem clock_le_step (p : Panel) (e : Event) : p.clock ≤ (p.step e).clock := by
  cases e with
  | pass ms now => exact Nat.le_add_right _ _
  | finalize id =>
    rcases p.finalize_cases id with ⟨_, _, h⟩ | ⟨_, _, _, -, ⟨-, h⟩ | ⟨-, _, _, _, _, -, -, -, h⟩⟩
    all_goals
      refine Nat.le_of_eq (Eq.symm ?_)
      rw [step, h]
    rfl
  | deliver k =>
    obtain ⟨_, _, _, h⟩ := p.deliver_eq k
    rw [step, h]
  | take | persist | draw | refuse | retain | arrange => exact Nat.le_refl _
  | _ => exact Nat.le_of_eq ((p.step_move _).clock_eq rfl).symm

theorem clock_le_run (es : List Event) : ∀ p : Panel, p.clock ≤ (p.run es).clock := by
  induction es with
  | nil => exact fun p => Nat.le_refl _
  | cons e es ih => exact fun p => Nat.le_trans (p.clock_le_step e) (ih (p.step e))

theorem Advances.deadline_eq (h : p.Advances q) {w : Waiter} {inc : Incarnation}
    (hinc : p.incarnations[w.incarnation]? = some inc) : q.deadline w = p.deadline w := by
  obtain ⟨inc', hinc', hgrow⟩ := h.incarnations _ _ hinc
  simp only [deadline, hinc, hinc', Option.map_some, hgrow.startedAt_eq]

/-! ### Supervisors -/

theorem Move.ranks (h : Move p e q) :
    Extends (fun s s' => s.stage.rank ≤ s'.stage.rank) p.supervisors q.supervisors := by
  have hrefl : ∀ s : Supervisor, s.stage.rank ≤ s.stage.rank := fun _ => Nat.le_refl _
  have hforth : ∀ {j : Nat} {s : Supervisor} {stage : Stage}, p.supervisors[j]? = some s →
      s.stage.rank ≤ stage.rank → Extends (fun s s' => s.stage.rank ≤ s'.stage.rank) p.supervisors
        (p.supervisors.modify j fun s => { s with stage }) := fun hs hle =>
    Extends.modify hrefl fun s' hs' => by
      obtain rfl := Option.some.inj (hs.symm.trans hs')
      exact hle
  cases h with
  | started => exact Extends.append hrefl _ _
  | returned j =>
    refine Extends.modify hrefl fun s _ => ?_
    split
    · split_ifs <;> exact Nat.le_refl _
    · exact Nat.le_refl _
  | @expired _ w _ _ role _ cause =>
    rcases (p.transition w.runId role .timedOut cause).1.stopLate_eq w role with heq | ⟨j, heq⟩ <;>
      rw [heq, setWait_supervisors]
    · rw [transition_supervisors]
      exact .refl hrefl _
    · rw [stopReviewer, modifySupervisor, transition_supervisors]
      refine Extends.modify hrefl fun s _ => ?_
      split_ifs <;> exact Nat.le_refl _
  | observed hs hst => exact hforth hs (by simp [hst, Stage.rank])
  | published hs hst | withheld hs hst =>
    simpa using hforth hs (by simp [hst, Stage.rank])
  | settled hs hst => simpa using hforth hs (by simp [hst, Stage.rank])
  | idle | aside | refused | finalized | forgotten | entered | polled | turned | finished | joined
    | skipped => exact .refl hrefl _
  | closed | began | gaveUp => simpa using Extends.refl hrefl p.supervisors

theorem settled_of_decided {s : Supervisor} {phase : Phase} {cause : Option String}
    (hs : p.supervisors[j]? = some s) (hst : s.stage = .decided phase cause) :
    ∃ seen, (p.settle j).supervisors[j]? = some { s with stage := .settled seen } := by
  have hsup := p.transition_supervisors s.runId s.role phase cause
  simp only [Panel.settle, hs, hst]
  cases htr : p.transition s.runId s.role phase cause with
  | mk q r =>
    rw [htr] at hsup
    have hset : ∀ seen, (q.setStage j (.settled seen)).supervisors[j]? =
        some { s with stage := .settled seen } := fun seen => by
      rw [setStage_supervisors, List.getElem?_modify_eq, hsup, hs]
      rfl
    cases r <;> exact ⟨_, hset _⟩

/-- The time of the supervisor at `j` is over, and it has taken `n` steps. -/
def Reached (p : Panel) (j n : Nat) : Prop :=
  ∃ s, p.supervisors[j]? = some s ∧ s.dueAt ≤ p.clock ∧ n ≤ s.stage.rank

namespace Reached

theorem step (h : p.Reached j n) (e : Event) : (p.step e).Reached j n := by
  obtain ⟨s, hs, hdue, hn⟩ := h
  obtain ⟨s', hs', hadv⟩ := (p.step_advances e).supervisors j s hs
  obtain ⟨s'', hs'', hrank⟩ := (p.step_move e).ranks j s hs
  obtain rfl : s'' = s' := Option.some.inj (hs''.symm.trans hs')
  refine ⟨s'', hs', ?_, Nat.le_trans hn hrank⟩
  rw [hadv.dueAt_eq]
  exact Nat.le_trans hdue (p.clock_le_step e)

theorem run (es : List Event) : ∀ {p : Panel}, p.Reached j n → (p.run es).Reached j n := by
  induction es with
  | nil => exact fun h => h
  | cons e es ih => exact fun h => ih (h.step e)

theorem succ (h : p.Reached j n) (e : Event)
    (hown : ∀ s, p.supervisors[j]? = some s → s.dueAt ≤ p.clock → s.stage.rank = n →
      ∃ stage : Stage, (p.step e).supervisors[j]? = some { s with stage } ∧ stage.rank = n + 1) :
    (p.step e).Reached j (n + 1) := by
  obtain ⟨s, hs, hdue, hn⟩ := h
  rcases Nat.lt_or_eq_of_le hn with hlt | heq
  · exact step ⟨s, hs, hdue, hlt⟩ e
  · obtain ⟨stage, hs', hrank⟩ := hown s hs hdue heq.symm
    exact ⟨_, hs', Nat.le_trans hdue (p.clock_le_step e), Nat.le_of_eq hrank.symm⟩

/-- **When its time is over, it learns something.** -/
theorem observe (h : p.Reached j 0) : (p.step (.observe j)).Reached j 1 := by
  refine h.succ _ fun s hs hdue hrank => ?_
  obtain ⟨r, hr⟩ : ∃ r, s.news? p.clock = some r := by
    unfold Supervisor.news?
    split_ifs <;> exact ⟨_, rfl⟩
  cases hst : s.stage with
  | waiting =>
    refine ⟨.informed r, ?_, rfl⟩
    simp only [Panel.step, Panel.observe, hs, hst, hr, setStage_supervisors,
      List.getElem?_modify_eq]
    rfl
  | informed | decided | settled => simp [hst, Stage.rank] at hrank

theorem decide (h : p.Reached j 1) : (p.step (.decide j)).Reached j 2 := by
  refine h.succ _ fun s hs _ hrank => ?_
  cases hst : s.stage with
  | informed r =>
    obtain ⟨phase, cause, hs', -⟩ := decide_of_informed (s := s) (r := r) (by rw [hs, ← hst])
    exact ⟨.decided phase cause, hs', rfl⟩
  | waiting | decided | settled => simp [hst, Stage.rank] at hrank

theorem settle (h : p.Reached j 2) : (p.step (.settle j)).Reached j 3 := by
  refine h.succ _ fun s hs _ hrank => ?_
  cases hst : s.stage with
  | decided phase cause =>
    obtain ⟨seen, hs'⟩ := settled_of_decided hs hst
    exact ⟨.settled seen, hs', rfl⟩
  | waiting | informed | settled => simp [hst, Stage.rank] at hrank

theorem of_mem {n' : Nat} {es : List Event}
    (hown : ∀ {p : Panel}, p.Reached j n → (p.step e).Reached j n') (he : e ∈ es)
    (h : p.Reached j n) : (p.run es).Reached j n' := by
  obtain ⟨es₁, es₂, rfl⟩ := List.append_of_mem he
  rw [run_append, run_cons]
  exact (hown (h.run es₁)).run es₂

/-- **A supervisor whose time is over tells the ledger in three steps.** -/
theorem isSettled {es : List Event} (h : p.Reached j 0)
    (hes : [Event.observe j, .decide j, .settle j].Sublist es) : (p.run es).isSettled j = true := by
  obtain ⟨es₁, es', rfl, hobserve, hes'⟩ := List.cons_sublist_iff.1 hes
  obtain ⟨es₂, es₃, rfl, hdecide, hsettle⟩ := List.cons_sublist_iff.1 hes'
  rw [run_append, run_append]
  have hlast := ((h.of_mem observe hobserve).of_mem decide hdecide).of_mem settle
    (List.singleton_sublist.1 hsettle)
  obtain ⟨s, hs, -, hrank⟩ := hlast
  simp only [Panel.isSettled, hs, Supervisor.isSettled]
  cases hst : s.stage <;> simp [hst, Stage.rank] at hrank ⊢

end Reached

/-- A supervisor of an incarnation was there as soon as the incarnation was. -/
theorem run_supervisor_back {i : Nat} {es : List Event} : ∀ {p : Panel}, i < p.incarnations.length →
    (p.run es).Serves i j → p.Serves i j := by
  induction es with
  | nil => exact fun _ h => h
  | cons e es ih =>
    intro p hi h
    have hlen : p.incarnations.length ≤ (p.step e).incarnations.length := by
      obtain ⟨inc', hinc', -⟩ := (p.step_advances e).incarnations (p.incarnations.length - 1) _
        (List.getElem?_eq_getElem (by omega))
      have := (List.getElem?_eq_some_iff.1 hinc').1
      omega
    obtain ⟨s', hs', hsi⟩ := ih (Nat.lt_of_lt_of_le hi hlen) h
    rcases (p.step_move e).supervisor_cases hs' with ⟨s, hs, hadv⟩ | ⟨_, _, _, -, hnew, -⟩
    · exact ⟨s, hs, hadv.incarnation_eq.symm.trans hsi⟩
    · rw [hnew.incarnation_eq] at hsi
      omega

/-! ### Waiters -/

/-- **Each step brings a waiter nearer to its answer**, unless it has to wait for its time or for a
supervisor, or has its answer. -/
theorem Turn.remaining_cases {w : Waiter} {stage : WaitStage} (h : Turn p w stage) :
    stage.remaining < w.stage.remaining ∨ stage.remaining = w.stage.remaining ∧
      ((∃ t, w.stage = .polling t ∧ (p.clock < t ∨ p.clock < p.deadline w)) ∨
        (∃ handles, w.stage = .joining handles ∧ handles.all p.isSettled = false) ∨
        ∃ answer, w.stage = .done answer) := by
  cases h with
  | asleep hst ht => exact .inr ⟨rfl, .inl ⟨_, hst, .inl ht⟩⟩
  | again hst _ _ hd => exact .inr ⟨by rw [hst]; rfl, .inl ⟨_, hst, .inr hd⟩⟩
  | held hst hs => exact .inr ⟨rfl, .inr (.inl ⟨_, hst, hs⟩)⟩
  | idle hst => exact .inr ⟨rfl, .inr (.inr ⟨_, hst⟩)⟩
  | lost hst | complete hst | joined hst | expired hst => exact .inl (by simp [hst, WaitStage.remaining])
  | @turned _ x hst =>
    obtain ⟨-, hlen⟩ := Rehearsal.nodup_outstanding (x.snapshot w.runId)
    left
    rw [WaitStage.remaining_withhold, hst]
    simp only [WaitStage.remaining]
    omega
  | closed hst | begun hst =>
    left
    simp only [hst, WaitStage.remaining, ForceStep.rank]
    omega
  | ended hst =>
    left
    rw [WaitStage.remaining_withhold, hst]
    simp only [WaitStage.remaining, ForceStep.rank]
    omega
  | refused ha =>
    left
    obtain ⟨_, _, _, next, hst, -⟩ := Waiter.forcing_of_attempt? ha
    rw [hst]
    cases next <;> simp [WaitStage.remaining, ForceStep.rank]

theorem Turn.remaining_le {w : Waiter} {stage : WaitStage} (h : Turn p w stage) :
    stage.remaining ≤ w.stage.remaining := by
  rcases h.remaining_cases with hlt | ⟨heq, -⟩
  · exact Nat.le_of_lt hlt
  · exact Nat.le_of_eq heq

theorem Reachable.wakeAt_le (hp : Reachable p) {w : Waiter} {t : Nat} (hw : p.waiters[k]? = some w)
    (hst : w.stage = .polling t) : t ≤ max (p.deadline w) p.clock := by
  induction hp generalizing w t with
  | ofConfig h =>
    obtain rfl := eq_of_ofConfig h
    cases hw
  | @step p hp e ih =>
    have hclock := p.clock_le_step e
    have hdead : ∀ {w : Waiter}, p.waiters[k]? = some w → (p.step e).deadline w = p.deadline w := by
      intro w hw
      obtain ⟨inc, hinc, -⟩ := hp.wired.waiters w (List.mem_of_getElem? hw)
      exact (p.step_advances e).deadline_eq hinc
    have hold : ∀ {w : Waiter} {t : Nat}, p.waiters[k]? = some w → w.stage = .polling t →
        t ≤ max ((p.step e).deadline w) (p.step e).clock := by
      intro w t hw hst
      rw [hdead hw]
      exact (ih hw hst).trans (max_le_max (Nat.le_refl _) hclock)
    rcases waiter_of_step hw with ⟨hw₀, -⟩ | ⟨w, stage, hw₀, rfl, hturn, rfl⟩ | hnew
    · exact hold hw₀ hst
    · cases hst
      generalize hstage : WaitStage.polling t = stage at hturn
      cases hturn with
      | asleep | held | idle => exact hold hw₀ hstage.symm
      | again =>
        cases hstage
        change _ ≤ max ((p.step (.wait k)).deadline w) _
        rw [hdead hw₀]
        omega
      | _ => cases hstage
    · obtain rfl := WaitStage.polling.inj (hnew.symm.trans hst)
      exact hclock.trans (le_max_right _ _)

/-- A waiter has at most as many steps to go as one that has just begun to wait. -/
theorem Reachable.remaining_lt (hp : Reachable p) {w : Waiter} (hw : p.waiters[k]? = some w) :
    w.stage.remaining < maxSteps := by
  induction hp generalizing w with
  | ofConfig h =>
    obtain rfl := eq_of_ofConfig h
    cases hw
  | step hp e ih =>
    rcases waiter_of_step hw with ⟨hw₀, -⟩ | ⟨w, stage, hw₀, -, hturn, rfl⟩ | hnew
    · exact ih hw₀
    · exact Nat.lt_of_le_of_lt hturn.remaining_le (ih hw₀)
    · rw [hnew]
      exact Nat.lt_succ_self _

/-- Nothing keeps the waiter at `k` any longer: its time is over, and the supervisors of its incarnation
have told the ledger. -/
structure Unhindered (p : Panel) (k : Nat) (w : Waiter) : Prop where
  reachable : Reachable p
  waiter : p.waiters[k]? = some w
  expired : p.deadline w ≤ p.clock
  settled : ∀ j, p.Serves w.incarnation j → p.isSettled j = true

namespace Unhindered

variable {w : Waiter}

theorem wakeAt_le (h : p.Unhindered k w) {t : Nat} (hst : w.stage = .polling t) : t ≤ p.clock := by
  have hle := h.reachable.wakeAt_le h.waiter hst
  rwa [max_eq_right h.expired] at hle

theorem all_isSettled (h : p.Unhindered k w) {handles : List Nat}
    (hst : w.stage = .joining handles) : handles.all p.isSettled = true :=
  List.all_eq_true.2 fun j hj => h.settled j <|
    h.reachable.handed.joining w (List.mem_of_getElem? h.waiter) handles hst j hj

theorem remaining_eq_zero (h : p.Unhindered k w)
    (hwhy : (∃ t, w.stage = .polling t ∧ (p.clock < t ∨ p.clock < p.deadline w)) ∨
      (∃ handles, w.stage = .joining handles ∧ handles.all p.isSettled = false) ∨
      ∃ answer, w.stage = .done answer) : w.stage.remaining = 0 := by
  rcases hwhy with ⟨t, hst, hearly⟩ | ⟨handles, hst, hopen⟩ | ⟨answer, hst⟩
  · have hwake := h.wakeAt_le hst
    have hover := h.expired
    omega
  · rw [h.all_isSettled hst] at hopen
    cases hopen
  · rw [hst]
    rfl

theorem of_step (h : p.Unhindered k w) {e : Event} {stage : WaitStage}
    (hw : (p.step e).waiters[k]? = some { w with stage }) :
    (p.step e).Unhindered k { w with stage } where
  reachable := h.reachable.step e
  waiter := hw
  expired := by
    obtain ⟨inc, hinc, -⟩ := h.reachable.wired.waiters w (List.mem_of_getElem? h.waiter)
    have hdead : (p.step e).deadline { w with stage } = p.deadline w :=
      (p.step_advances e).deadline_eq hinc
    rw [hdead]
    exact Nat.le_trans h.expired (p.clock_le_step e)
  settled j hj := by
    obtain ⟨inc, hinc, -⟩ := h.reachable.wired.waiters w (List.mem_of_getElem? h.waiter)
    have hold : p.Serves w.incarnation j :=
      run_supervisor_back (List.getElem?_eq_some_iff.1 hinc).1
        (show (p.run [e]).Serves w.incarnation j from hj)
    have hset := h.settled j hold
    obtain ⟨s, hs, -⟩ := hold
    obtain ⟨s', hs', hadv⟩ := (p.step_advances e).supervisors j s hs
    simp only [isSettled, hs] at hset
    simpa only [isSettled, hs'] using hadv.settled hset

/-- A step of somebody else does not hinder it, and a step of its own brings it nearer to its answer. -/
theorem step (h : p.Unhindered k w) (e : Event) : ∃ w', (p.step e).Unhindered k w' ∧
    w'.stage.remaining ≤ w.stage.remaining - if e.isWaitOf k then 1 else 0 := by
  rcases step_waiter h.waiter e with ⟨hne, hsame⟩ | ⟨rfl, stage, hturn, hnext⟩
  · rw [if_neg fun heq => hne (Event.isWaitOf_eq_true.1 heq)]
    exact ⟨w, h.of_step hsame, Nat.le_refl _⟩
  · rw [if_pos (Event.isWaitOf_eq_true.2 rfl)]
    refine ⟨_, h.of_step hnext, ?_⟩
    rcases hturn.remaining_cases with hlt | ⟨heq, hwhy⟩
    · exact Nat.le_sub_one_of_lt hlt
    · have hzero := h.remaining_eq_zero hwhy
      exact Nat.le_of_eq (by rw [heq, hzero])

/-- **After as many steps as remain to it, it has its answer.** -/
theorem isSome_answer {es : List Event} : ∀ {p : Panel} {w : Waiter}, p.Unhindered k w →
    w.stage.remaining ≤ es.countP (Event.isWaitOf k) → ((p.run es).answer? k).isSome = true := by
  induction es with
  | nil =>
    intro p w h hle
    simp only [run_nil, answer?, h.waiter]
    cases hst : w.stage with
    | done answer => rfl
    | forcing _ _ todo next =>
      rw [hst] at hle
      obtain _ | ⟨role, rest⟩ := todo
      · cases hle
      · cases next <;> simp [WaitStage.remaining, ForceStep.rank] at hle
    | polling | joining => simp [hst, WaitStage.remaining] at hle
  | cons e es ih =>
    intro p w h hle
    obtain ⟨w', h', hstep⟩ := h.step e
    rw [List.countP_cons] at hle
    exact ih h' (by omega)

end Unhindered

/-- The schedule gives the waiter at `k` and its supervisors their turns: first time passes until the
time of the run, and of its roles, is over; then each supervisor of the incarnation takes its three
steps; and then the waiter takes enough of its own.  Anything else may happen in between. -/
structure FairTo (p : Panel) (k : Nat) (es₁ es₂ es₃ : List Event) : Prop where
  expired : ∀ w, p.waiters[k]? = some w → p.deadline w ≤ (p.run es₁).clock
  due : ∀ w, p.waiters[k]? = some w → ∀ s ∈ p.supervisors, s.incarnation = w.incarnation →
    s.dueAt ≤ (p.run es₁).clock
  supervisors : ∀ w j, p.waiters[k]? = some w → p.Serves w.incarnation j →
    [Event.observe j, .decide j, .settle j].Sublist es₂
  waiter : maxSteps ≤ es₃.countP (Event.isWaitOf k)

/-- **A waiter gets its answer**, as soon as time passes and everybody gets a turn. -/
theorem FairTo.isSome_answer {es₁ es₂ es₃ : List Event} (h : p.FairTo k es₁ es₂ es₃)
    (hp : Reachable p) {w : Waiter} (hw : p.waiters[k]? = some w) :
    ((p.run (es₁ ++ es₂ ++ es₃)).answer? k).isSome = true := by
  obtain ⟨inc, hinc, -⟩ := hp.wired.waiters w (List.mem_of_getElem? hw)
  have hlen := (List.getElem?_eq_some_iff.1 hinc).1
  obtain ⟨w', hw', hadv⟩ := (p.run_advances (es₁ ++ es₂)).waiters k w hw
  have hdead : (p.run (es₁ ++ es₂)).deadline w' = p.deadline w := by
    rw [deadline, hadv.incarnation_eq, hadv.limit_eq]
    exact (p.run_advances (es₁ ++ es₂)).deadline_eq hinc
  have hready : (p.run (es₁ ++ es₂)).Unhindered k w' := {
    reachable := hp.run _
    waiter := hw'
    expired := by
      rw [hdead, run_append]
      exact Nat.le_trans (h.expired w hw) (clock_le_run es₂ _)
    settled := fun j hj => by
      rw [hadv.incarnation_eq] at hj
      have hold := run_supervisor_back hlen hj
      obtain ⟨s, hs, hsi⟩ := hold
      obtain ⟨s', hs', hsadv⟩ := (p.run_advances es₁).supervisors j s hs
      have hdue : (p.run es₁).Reached j 0 :=
        ⟨s', hs', hsadv.dueAt_eq ▸ h.due w hw s (List.mem_of_getElem? hs) hsi, Nat.zero_le _⟩
      rw [run_append]
      exact hdue.isSettled (h.supervisors w j hw ⟨s, hs, hsi⟩) }
  rw [run_append]
  exact hready.isSome_answer <|
    Nat.le_trans (Nat.le_of_lt ((hp.run _).remaining_lt hw')) h.waiter

end Panel

end ReviewPanel
