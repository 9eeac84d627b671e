import ReviewPanel.Panel.Schedule
import ReviewPanel.Proofs.Panel.Events

/-!
# Calls in which time passes are schedules

The calls in which time passes fix an order: at each instant everybody acts as far as possible, and then
the clock goes to the next event.  This order is one of the interleavings of `Panel.run`.  So whatever is
proved of every schedule holds of these calls as well.

## Main statements

* `Panel.await_eq_run`, `Panel.review_eq_run` : **waiting for a run, and a whole review, are schedules.**
-/

namespace ReviewPanel.Panel

/-- Each of some moves of the panel is a schedule, and so are all of them in turn. -/
theorem foldl_eq_run {α : Type} {f : Panel → α → Panel} (h : ∀ p a, ∃ es, f p a = p.run es)
    (as : List α) (p : Panel) : ∃ es, as.foldl f p = p.run es := by
  induction as generalizing p with
  | nil => exact ⟨[], rfl⟩
  | cons a as ih =>
    obtain ⟨es, hes⟩ := h p a
    obtain ⟨es', hes'⟩ := ih (f p a)
    exact ⟨es ++ es', by rw [List.foldl_cons, hes', hes, run_append]⟩

theorem supervise_eq_run (p : Panel) (j : Nat) :
    p.supervise j = p.run [.comeBack j, .observe j, .decide j, .settle j] := rfl

theorem writeBehind_eq_run (p : Panel) (n : Nat) : p.writeBehind n = p.run [.take n, .persist n] := rfl

theorem hear_eq_run (p : Panel) : ∃ es, p.hear = p.run es :=
  foldl_eq_run (fun _ k => ⟨[.deliver k], rfl⟩) (List.replicate p.inFlight.length 0) p

theorem hear_eq (p : Panel) :
    ∃ scribe disk inFlight, p.hear = { p with scribe, disk, inFlight } :=
  p.foldl_deliver_eq _

/-- What everybody does at one instant is a schedule. -/
theorem others_eq_run (p : Panel) : ∃ es, p.others = p.run es := by
  obtain ⟨es, hes⟩ := foldl_eq_run (fun p j => ⟨_, supervise_eq_run p j⟩)
    (List.range p.supervisors.length) p
  simp only [others]
  generalize (List.range p.supervisors.length).foldl supervise p = q at hes ⊢
  obtain ⟨es', hes'⟩ := q.hear_eq_run
  obtain ⟨es'', hes''⟩ := foldl_eq_run (fun p n => ⟨_, writeBehind_eq_run p n⟩)
    (List.range q.hear.scribe.registrations.length) q.hear
  exact ⟨es ++ es' ++ es'', by rw [hes'', hes', hes, run_append, run_append]⟩

theorem drive_eq_run (k fuel : Nat) (p : Panel) : ∃ es, drive k fuel p = p.run es := by
  induction fuel generalizing p with
  | zero => exact ⟨[], rfl⟩
  | succ fuel ih =>
    rw [drive]
    split_ifs
    · obtain ⟨es, hes⟩ := ih (p.stepWaiter k)
      exact ⟨.wait k :: es, hes⟩
    · exact ⟨[], rfl⟩

theorem clock_lt_nextEvent {p : Panel} {t : Nat} (h : p.nextEvent? = some t) : p.clock < t := by
  have hmem := List.min?_mem h
  simpa using (List.mem_filter.1 hmem).2

theorem clock_le_nextTime {p : Panel} {k : Nat} (h : p.canStep k = false) :
    p.clock ≤ p.nextTime k := by
  have hwake : ∀ t, p.wakeTime? k = some t → p.clock ≤ t := by
    intro t ht
    unfold wakeTime? at ht
    unfold canStep at h
    split at ht
    · rename_i w hw
      rw [hw] at h
      split at ht
      · rename_i wakeAt hst
        obtain rfl := Option.some.inj ht
        simp only [hst, decide_eq_false_iff_not] at h
        omega
      all_goals cases ht
    · cases ht
  unfold nextTime
  split
  · rename_i t u ht hu
    exact Nat.le_min.2 ⟨Nat.le_of_lt (clock_lt_nextEvent ht), hwake u hu⟩
  · rename_i t ht _
    exact Nat.le_of_lt (clock_lt_nextEvent ht)
  · rename_i u _ hu
    exact hwake u hu
  · exact Nat.le_refl _

theorem clock_eq_run {p : Panel} {t : Nat} (h : p.clock ≤ t) :
    { p with clock := t } = p.run [.pass (t - p.clock) p.now] := by
  simp only [run_cons, run_nil, step]
  rw [Nat.add_sub_cancel' h]

theorem waitUntil_eq_run (k fuel : Nat) (p : Panel) : ∃ es, waitUntil k fuel p = p.run es := by
  induction fuel generalizing p with
  | zero => exact ⟨[], rfl⟩
  | succ fuel ih =>
    obtain ⟨es, hes⟩ : ∃ es, (drive k maxSteps p).hear = p.run es := by
      obtain ⟨es, hes⟩ := drive_eq_run k maxSteps p
      obtain ⟨es', hes'⟩ := (drive k maxSteps p).hear_eq_run
      exact ⟨es ++ es', by rw [hes', hes, run_append]⟩
    simp only [waitUntil]
    generalize (drive k maxSteps p).hear = q at hes ⊢
    obtain ⟨es', hes'⟩ := q.others_eq_run
    have hboth : q.others = p.run (es ++ es') := by rw [hes', hes, run_append]
    split_ifs with hanswer hcan
    · exact ⟨es, hes⟩
    · obtain ⟨es'', hes''⟩ := ih q.others
      exact ⟨es ++ es' ++ es'', by rw [hes'', hboth, ← run_append]⟩
    · have hle := clock_le_nextTime (Bool.eq_false_iff.2 hcan)
      obtain ⟨es'', hes''⟩ := ih { q.others with clock := q.others.nextTime k }
      rw [hes'', clock_eq_run hle, hboth]
      exact ⟨es ++ es' ++ (_ :: es''), by rw [run_append _ (es ++ es'), run_cons, run_cons, run_nil]⟩

/-- **Waiting for a run is a schedule.** -/
theorem await_eq_run (p : Panel) (id : RunId) (poll limit : Nat) :
    ∃ es, (p.await id poll limit).1 = p.run es := by
  unfold await
  cases henter : p.enterWait id poll limit with
  | mk q r =>
    have hq : p.run [.await id poll limit] = q := by
      simp only [run_cons, run_nil, step, henter]
    cases r with
    | error e => exact ⟨[.await id poll limit], hq.symm⟩
    | ok k =>
      refine (waitUntil_eq_run k _ q).imp' (.await id poll limit :: ·) fun es hes => hes.trans ?_
      rw [← hq, run_cons, run_cons, run_nil]

/-- **A review is a schedule.** -/
theorem review_eq_run (p : Panel) (item : WorkItem) (roles : List Role) :
    ∃ es, (p.review item roles).1 = p.run es := by
  unfold review
  have hstart : (p.startFresh item roles).1 =
      p.run [.draw, .start ("run-" ++ stamp p.nextStamp) item roles] := rfl
  cases hs : p.startFresh item roles with
  | mk q r =>
    rw [hs] at hstart
    simp only at hstart
    cases r with
    | error e => exact ⟨_, hstart⟩
    | ok id =>
      obtain ⟨es, hes⟩ := q.await_eq_run id q.config.pollInterval q.config.globalTimeout
      simp only
      cases ha : q.await id q.config.pollInterval q.config.globalTimeout with
      | mk q' r' =>
        rw [ha, hstart, ← run_append] at hes
        simp only at hes
        cases r' with
        | error e => exact ⟨_, hes⟩
        | ok s =>
          have hfinal : (q'.finalize id).1 = q'.run [.finalize id] := rfl
          simp only
          cases hf : q'.finalize id with
          | mk q'' r'' =>
            rw [hf, hes, ← run_append] at hfinal
            cases r'' with
            | error e => exact ⟨_, hfinal⟩
            | ok v =>
              simp only
              split <;> exact ⟨_, hfinal⟩

end ReviewPanel.Panel
