import ReviewPanel.Proofs.Panel.Answers

/-!
# Which supervisors a waiter joins

When every role of a run has ended, a waiter takes over the handles of the supervisors that nobody has
joined, except those of the roles which it has ended itself, and waits until they have told the ledger.
The other handles stay with the incarnation.

So a waiter never waits for the supervisor of a role that it has ended.  A role may have been ended by
somebody else: by its supervisor, which has then told the ledger, or by another waiter, whose handles
are among those that were left.  In this second case the supervisor has nothing more to say about the
run, and the waiter waits for it all the same.

## Main definitions

* `WaitStage.late` : the roles that a waiter has set out to end.
* `Panel.EndedElsewhere` : a role was ended neither by its supervisor nor by a given waiter.

## Main statements

* `Panel.Relying.run` : every waiter of an incarnation may rely on what it has seen.
* `Panel.late_of_mem_deeds` : a waiter has set out to end what it has ended.
* `Panel.joins_all_but_its_own` : **whom a waiter joins, and how their roles have ended.**
-/

namespace ReviewPanel

/-- The roles that a waiter has set out to end. -/
def WaitStage.late : WaitStage → List Role
  | .forcing _ late _ _ => late
  | .polling _ | .joining _ | .done _ => []

/-- The waiter has set out to end the role, as far as its stage shows. -/
def WaitStage.Marks (role : Role) : WaitStage → Prop
  | .polling _ => False
  | .forcing _ late _ _ => role ∈ late
  | .joining _ | .done _ => True

namespace Panel

variable {p q : Panel} {id : RunId} {k : Nat} {w : Waiter} {stage : WaitStage} {role : Role}

/-! ### All waiters of an incarnation -/

/-- The incarnation `i` of the run `id` is still there, and all its waiters may rely on what they have
seen. -/
structure Relying (p : Panel) (id : RunId) (i : Nat) : Prop where
  reachable : Reachable p
  table : p.table.get? id = some i
  waiters : ∀ (k : Nat) (w : Waiter), p.waiters[k]? = some w → w.incarnation = i →
    p.Attending id k w

namespace Relying

variable {i : Nat}

theorem step (h : p.Relying id i) {e : Event} (he : e.Spares id) : (p.step e).Relying id i where
  reachable := h.reachable.step e
  table := ((p.step_move e).table_get? he).trans h.table
  waiters k w' hw' hi := by
    rcases waiter_of_step hw' with ⟨hw, -⟩ | ⟨w, stage, hw, rfl, hturn, rfl⟩ | hnew
    · exact (h.waiters k w' hw hi).step_other he hw'
    · exact (h.waiters k w hw hi).step_own hturn hw'
    · have hreach := h.reachable.step e
      have htab := ((p.step_move e).table_get? he).trans h.table
      obtain ⟨inc, hinc, hid, -⟩ := hreach.wired.waiters w' (List.mem_of_getElem? hw')
      refine ⟨hreach, hw', ?_, by simp [htab], hnew ▸ .polling _⟩
      rw [← hid]
      exact (hreach.wired.listed id).runId_eq htab (hi ▸ hinc)

theorem run (h : p.Relying id i) {es : List Event} (hes : ∀ e ∈ es, e.Spares id) :
    (p.run es).Relying id i :=
  run_preserves (P := (·.Relying id i)) (fun he hq => hq.step he) hes h

theorem of_launched {roles : List Role} (hp : Reachable p) (hq : Reachable q)
    (h : p.Launched q id roles) : q.Relying id p.incarnations.length where
  reachable := hq
  table := h.table
  waiters k w hw hi := by
    rw [h.waiters] at hw
    obtain ⟨inc, hinc, -⟩ := hp.wired.waiters w (List.mem_of_getElem? hw)
    have hlt := (List.getElem?_eq_some_iff.1 hinc).1
    omega

end Relying

/-! ### What a waiter has ended -/

theorem Turn.marks (h : Turn p w stage) (hm : w.stage.Marks role) : stage.Marks role := by
  cases h with
  | asleep | held | idle => exact hm
  | lost | complete | expired | refused | joined => trivial
  | again hst | turned hst =>
    rw [hst] at hm
    exact hm.elim
  | closed hst | begun hst | ended hst =>
    rw [hst] at hm
    exact hm

theorem marks_run {es : List Event} : ∀ {p : Panel} {w : Waiter}, p.waiters[k]? = some w →
    w.stage.Marks role → ∃ w', (p.run es).waiters[k]? = some w' ∧ w'.stage.Marks role := by
  induction es with
  | nil => exact fun hw hm => ⟨_, hw, hm⟩
  | cons e es ih =>
    intro p w hw hm
    rcases step_waiter hw e with ⟨-, hsame⟩ | ⟨rfl, stage, hturn, hnext⟩
    · exact ih hsame hm
    · exact ih hnext (hturn.marks hm)

theorem Attending.marks_of_deed (h : p.Attending id k w) {d : Deed}
    (hdeed : p.deed? (.wait k) = some d) (hends : d.ends (id, role) = true) :
    ∃ w', (p.step (.wait k)).waiters[k]? = some w' ∧ w'.stage.Marks role := by
  obtain ⟨hseat, hok, -⟩ := Deed.ends_eq_true.1 hends
  obtain ⟨a, ha, rfl⟩ := Option.map_eq_some_iff.1 hdeed
  rw [attempt?, h.waiter, Option.bind_some] at ha
  obtain ⟨hid, rfl⟩ := Prod.mk.inj hseat
  obtain ⟨stage, hturn, hnext⟩ := stepWaiter_turn h.waiter
  refine ⟨_, hnext, hturn.marks ?_⟩
  obtain ⟨⟨snapshot, late, rest, hst⟩, -⟩ := h.of_attempt? ha
  have hrelies := h.relies
  rw [hst] at hrelies ⊢
  cases hrelies with
  | forcing _ known => exact (known a.role List.mem_cons_self).1

/-- **A waiter has set out to end what it has ended.** -/
theorem late_of_mem_deeds {i : Nat} {es : List Event} (h : p.Relying id i)
    (hes : ∀ e ∈ es, e.Spares id) (hw : (p.run es).waiters[k]? = some w) (hi : w.incarnation = i)
    (hjoin : ∀ handles, w.stage ≠ .joining handles) (hdone : ∀ answer, w.stage ≠ .done answer)
    {d : Deed} (hd : d ∈ p.deeds es) (hk : d.event = .wait k) (hends : d.ends (id, role) = true) :
    role ∈ w.stage.late := by
  obtain ⟨es₁, es₂, rfl, hdeed⟩ := exists_of_mem_deeds hd
  rw [hk] at hdeed hw
  have h₁ : (p.run es₁).Relying id i := h.run fun e he => hes e (List.mem_append_left _ he)
  obtain ⟨a, ha, -⟩ := Option.map_eq_some_iff.1 hdeed
  obtain ⟨w₁, hw₁, -⟩ := Option.bind_eq_some_iff.1 ha
  obtain ⟨w₂, hw₂, hadv⟩ := ((p.run es₁).run_advances (.wait k :: es₂)).waiters k w₁ hw₁
  rw [run_append, run_cons] at hw
  obtain rfl : w₂ = w := Option.some.inj (hw₂.symm.trans hw)
  -- it set out to end the role when it did so, and has not forgotten since
  obtain ⟨w₃, hw₃, hm⟩ :=
    (h₁.waiters k w₁ hw₁ (hadv.incarnation_eq.symm.trans hi)).marks_of_deed hdeed hends
  obtain ⟨w₄, hw₄, hm⟩ := marks_run hw₃ hm
  obtain rfl : w₄ = w₂ := Option.some.inj (hw₄.symm.trans hw)
  cases hst : w₄.stage with
  | polling t => simp [hst, WaitStage.Marks] at hm
  | forcing snapshot late todo next =>
    rw [hst] at hm
    exact hm
  | joining handles => exact absurd hst (hjoin handles)
  | done answer => exact absurd hst (hdone answer)

/-! ### How the roles have ended -/

/-- The role was ended by one accepted attempt, and that was made neither by the supervisor at `j` nor
by the waiter at `k`. -/
def EndedElsewhere (p : Panel) (es : List Event) (seat : RunId × Role) (j k : Nat) : Prop :=
  ∃ d, (p.deeds es).filter (·.ends seat) = [d] ∧ d.event ≠ .settle j ∧ d.event ≠ .wait k

theorem isSettled_of_mem_deeds {es : List Event} {j : Nat} {d : Deed} (hd : d ∈ p.deeds es)
    (hj : d.event = .settle j) {s : Supervisor} (hs : (p.run es).supervisors[j]? = some s) :
    s.isSettled = true := by
  obtain ⟨es₁, es₂, rfl, hdeed⟩ := exists_of_mem_deeds hd
  obtain ⟨ha, -⟩ := attempt?_of_deed? hdeed
  rcases attempt?_cases ha with ⟨j', s₁, hj', hs₁, hst, -⟩ | ⟨_, _, hk, -⟩
  · obtain rfl : j' = j := Event.settle.inj (hj'.symm.trans hj)
    rw [hj] at hs
    obtain ⟨seen, hs₂⟩ := settled_of_decided hs₁ hst
    rw [run_append, run_cons] at hs
    obtain ⟨s₃, hs₃, hadv⟩ := (((p.run es₁).settle j').run_advances es₂).supervisors j' _ hs₂
    obtain rfl : s₃ = s := Option.some.inj (hs₃.symm.trans hs)
    exact hadv.settled rfl
  · rw [hj] at hk
    cases hk

/-! ### Taking handles over -/

/-- **A waiter takes handles over when every role has ended**: those of the supervisors whose roles it
has not set out to end. -/
theorem Attending.begins_join (h : p.Attending id k w) (hnot : ∀ handles, w.stage ≠ .joining handles)
    {handles : List Nat}
    (hjoin : (p.step (.wait k)).waiters[k]? = some { w with stage := .joining handles }) :
    p.step (.wait k) = p.beginJoin k w w.stage.late ∧
      handles = p.punctual w.incarnation w.stage.late ∧ (∀ answer, w.stage ≠ .done answer) ∧
      ∀ role t, p.ledger.status? (id, role) = some t → t.isTerminal = true := by
  obtain ⟨stage, hgoes⟩ := stepWaiter_goes h.waiter
  obtain rfl : stage = .joining handles := by
    have hstage := hjoin
    rw [Panel.step, hgoes.waiters, List.getElem?_modify_eq, h.waiter] at hstage
    exact congrArg Waiter.stage (Option.some.inj hstage)
  have hturn := hgoes.turn
  generalize hstage : WaitStage.joining handles = stage at hturn
  cases hturn with
  | @complete t x hst hx hc =>
    rw [hst]
    refine ⟨?_, WaitStage.joining.inj hstage, by simp, fun role t' ht' => ?_⟩
    · have hcomplete : p.ledger.isComplete w.runId = .ok true := by
        simp only [Ledger.isComplete, Ledger.entry, hx, Except.map, hc]
      simp only [Panel.step, stepWaiter, h.waiter, hst] at hjoin ⊢
      split_ifs at hjoin ⊢ with ht
      · simp only [Panel.poll, hcomplete]
        rfl
      · -- it would not have looked at the ledger
        rw [h.waiter] at hjoin
        exact absurd (congrArg Waiter.stage (Option.some.inj hjoin)) (hnot handles)
    · rw [h.runId_eq] at hx
      rw [Ledger.status?_eq, hx] at ht'
      exact LedgerEntry.isComplete_iff.1 hc role t' ht'
  | expired hst =>
    have hrelies := h.relies
    rw [hst] at hrelies ⊢
    refine ⟨?_, WaitStage.joining.inj hstage, by simp, ?_⟩
    · simp only [Panel.step, stepWaiter, h.waiter, hst, Panel.force]
      rfl
    · cases hrelies with
      | forcing _ _ ended => exact fun role => ended role (by simp)
  | asleep hst | held hst | idle hst => exact absurd hstage.symm (hnot handles)
  | _ => cases hstage

theorem run_supervisor_of_spares {es : List Event} {j : Nat} {s : Supervisor} :
    ∀ {p : Panel}, (∀ e ∈ es, e.Spares s.runId) → (p.run es).supervisors[j]? = some s →
      ∃ s₀, p.supervisors[j]? = some s₀ ∧ s₀.Advances s := by
  induction es with
  | nil => exact fun _ hs => ⟨s, hs, .refl s⟩
  | cons e es ih =>
    intro p hes hs
    obtain ⟨s₁, hs₁, hadv⟩ := ih (fun e' he' => hes e' (List.mem_cons_of_mem _ he')) hs
    rcases (p.step_move e).supervisor_cases hs₁ with ⟨s₀, hs₀, hadv₀⟩ | ⟨id', item, roles, rfl, hnew, -⟩
    · exact ⟨s₀, hs₀, hadv₀.trans _ _ _ hadv⟩
    · have hid : id' ≠ s.runId := hes _ List.mem_cons_self
      exact absurd (hnew.runId_eq.symm.trans hadv.runId_eq.symm) hid

theorem Launched.role_mem {roles : List Role} (h : p.Launched q id roles) {es : List Event}
    (hr : Reachable (q.run es)) {j : Nat} {s : Supervisor} (hs : (q.run es).supervisors[j]? = some s)
    (hi : s.incarnation = p.incarnations.length) : s.role ∈ roles := by
  obtain ⟨inc', hinc', -, hslot, -⟩ := hr.wired.supervisors s (List.mem_of_getElem? hs)
  obtain ⟨inc, hinc, -, hslots⟩ := h.incarnation
  obtain ⟨inc₀, hinc₀, hgrow⟩ := (q.run_advances es).incarnations _ _ hinc
  obtain rfl : inc₀ = inc' := Option.some.inj (hinc₀.symm.trans (hi ▸ hinc'))
  rw [hgrow.slots.isSome_eq] at hslot
  exact (hslots s.role).1 hslot

theorem Launched.running_of_mem {roles : List Role} (h : p.Launched q id roles) (hrole : role ∈ roles) :
    ∃ t, q.ledger.status? (id, role) = some t ∧ t.phase = .running := by
  obtain ⟨x, hx, -, hroles⟩ := h.running
  have hphase := hroles role
  rw [if_pos hrole] at hphase
  obtain ⟨t, ht, hrun⟩ := Option.map_eq_some_iff.1 hphase
  exact ⟨t, by rw [Ledger.status?_eq, hx]; exact ht, hrun⟩

/-- The role of a supervisor that has not told the ledger, but whose role has ended, was ended by
somebody else. -/
theorem Launched.settled_or_ended {roles : List Role} (h : p.Launched q id roles)
    {es : List Event} (hes : ∀ e ∈ es, e.Spares id) (hr : Reachable (q.run es)) {j : Nat}
    {s : Supervisor} (hs : (q.run es).supervisors[j]? = some s)
    (hi : s.incarnation = p.incarnations.length)
    (hterm : ∀ t, (q.run es).ledger.status? (id, s.role) = some t → t.isTerminal = true) :
    s.isSettled = true ∨ ∃ d, (q.deeds es).filter (·.ends (id, s.role)) = [d] ∧
      d.event ≠ .settle j := by
  obtain ⟨t, ht, hrun⟩ := h.running_of_mem (h.role_mem hr hs hi)
  obtain ⟨t', ht', hleads⟩ := leads_run hes ht
  obtain ⟨d, hd, -⟩ := hleads.ends (by rw [Status.isTerminal, hrun]; rfl) (hterm t' ht')
  rw [← filter_ends] at hd
  by_cases hj : d.event = .settle j
  · exact .inl (isSettled_of_mem_deeds (List.mem_filter.1 (hd ▸ List.mem_singleton_self d)).1 hj hs)
  · exact .inr ⟨d, hd, hj⟩

/-- On a run whose identifier was not in use before, roles are ended by their supervisors and by
waiters. -/
theorem event_of_mem_deeds {es : List Event} (hes : ∀ e ∈ es, e.Spares id)
    (hr : Reachable (p.run es)) {i j : Nat}
    (hsole : ∀ s ∈ p.supervisors, s.runId = id → s.incarnation = i) {s : Supervisor}
    (hs : (p.run es).supervisors[j]? = some s) (hi : s.incarnation = i) {d : Deed}
    (hd : d ∈ p.deeds es) (hseat : d.attempt.seat = (id, s.role)) :
    d.event = .settle j ∨ ∃ k, d.event = .wait k ∧ .wait k ∈ es := by
  obtain ⟨es₁, es₂, rfl, hdeed⟩ := exists_of_mem_deeds hd
  obtain ⟨ha, -⟩ := attempt?_of_deed? hdeed
  rcases attempt?_cases ha with ⟨j', s₁, hj', hs₁, -, hpost⟩ | ⟨k, w, hk, -⟩
  · obtain ⟨hid, hrole⟩ := Prod.mk.inj (hpost.symm.trans hseat)
    obtain ⟨s₀, hs₀, hadv₀⟩ := run_supervisor_of_spares
      (fun e he => hid ▸ hes e (List.mem_append_left _ he)) hs₁
    obtain ⟨s₂, hs₂, hadv⟩ := ((p.run es₁).run_advances (d.event :: es₂)).supervisors j' s₁ hs₁
    rw [← run_append] at hs₂
    have hi₀ := hsole s₀ (List.mem_of_getElem? hs₀) (hadv₀.runId_eq.symm.trans hid)
    have hsame : s₂.post = s.post := by
      rw [Supervisor.post, Supervisor.post, hadv.incarnation_eq, hadv₀.incarnation_eq, hi₀, hi,
        hadv.role_eq, hrole]
    -- no role of an incarnation has two supervisors
    have heq : j' = j := hr.wired.index_eq_of_post hs₂ hs hsame
    exact .inl (hj'.trans (congrArg Event.settle heq))
  · exact .inr ⟨k, hk, by rw [hk]; simp⟩

/-- **Whom a waiter joins, and how their roles have ended.**  Let a run be started, and let anybody do
anything except to forget it or to start it again; in particular let any number of clients wait for it,
one after the other or at once.  When one of them takes handles over, these are the handles that are
left, but for those of the roles which it has set out to end; the latter stay for the next one.  It has
set out to end every role that it has ended, so it waits for none of these.  Every supervisor that it
joins has told the ledger, or its role was ended elsewhere: by another waiter, or by a supervisor of an
earlier incarnation.  It is held up exactly until all of them have told the ledger.  So a waiter that is
the only one to act, on a run whose identifier was not in use before, is not held up at all. -/
theorem joins_all_but_its_own {item : WorkItem} {roles : List Role} (hp : Reachable p)
    (hok : (p.start id item roles).2 = .ok id) {es : List Event} (hes : ∀ e ∈ es, e.Spares id)
    {q r : Panel} (hq : q = (p.start id item roles).1) (hr : r = q.run es)
    (hw : r.waiters[k]? = some w) (hinc : w.incarnation = p.incarnations.length)
    (hnot : ∀ handles, w.stage ≠ .joining handles) {handles : List Nat}
    (hjoin : (r.step (.wait k)).waiters[k]? = some { w with stage := .joining handles }) :
    (∃ inc inc', r.incarnations[w.incarnation]? = some inc ∧
        (r.step (.wait k)).incarnations[w.incarnation]? = some inc' ∧
        handles = inc.handles.filter (r.isPunctual w.stage.late) ∧
        inc'.handles = inc.handles.filter fun j => !r.isPunctual w.stage.late j) ∧
      (∀ d ∈ q.deeds es, d.event = .wait k → ∀ role, d.ends (id, role) = true →
        role ∈ w.stage.late) ∧
      (∀ j ∈ handles, ∃ s, r.supervisors[j]? = some s ∧ s.incarnation = w.incarnation ∧
        s.role ∉ w.stage.late ∧ (s.isSettled = true ∨ q.EndedElsewhere es (id, s.role) j k)) ∧
      ((r.step (.wait k)).canStep k = true ↔
        ∀ j ∈ handles, (r.step (.wait k)).isSettled j = true) ∧
      ((∀ k', .wait k' ∈ es → k' = k) →
        (∀ s ∈ q.supervisors, s.runId = id → s.incarnation = w.incarnation) →
        (r.step (.wait k)).canStep k = true) := by
  subst hq hr
  have hlaunched := launched_of_start hok
  have hreach : Reachable (p.start id item roles).1 := hp.step (.start id item roles)
  generalize (p.start id item roles).1 = q at hlaunched hreach hw hjoin ⊢
  have hrely := Relying.of_launched hp hreach hlaunched
  have hrely' := hrely.run hes
  have hatt := hrely'.waiters k w hw hinc
  obtain ⟨hstep, hhandles, hdone, hended⟩ := hatt.begins_join hnot hjoin
  obtain ⟨inc, hinc', -⟩ := hrely'.reachable.wired.waiters w (List.mem_of_getElem? hw)
  have hfilter : handles = inc.handles.filter ((q.run es).isPunctual w.stage.late) := by
    rw [hhandles, punctual, hinc']
    rfl
  have hlate : ∀ d ∈ q.deeds es, d.event = .wait k → ∀ role, d.ends (id, role) = true →
      role ∈ w.stage.late := fun d hd hk role hends =>
    late_of_mem_deeds hrely hes hw hinc hnot hdone hd hk hends
  have hjoined : ∀ j ∈ handles, ∃ s, (q.run es).supervisors[j]? = some s ∧
      s.incarnation = w.incarnation ∧ s.role ∉ w.stage.late ∧
      (s.isSettled = true ∨ q.EndedElsewhere es (id, s.role) j k) := by
    intro j hj
    rw [hfilter] at hj
    obtain ⟨hmem, hpunctual⟩ := List.mem_filter.1 hj
    obtain ⟨s, hs, hsi⟩ := hrely'.reachable.handed.left _ inc hinc' j hmem
    have hnotlate : s.role ∉ w.stage.late := by simpa [isPunctual, hs] using hpunctual
    refine ⟨s, hs, hsi, hnotlate, ?_⟩
    rcases hlaunched.settled_or_ended hes hrely'.reachable hs (hsi.trans hinc) (hended s.role) with
      hset | ⟨d, hd, hj⟩
    · exact .inl hset
    · obtain ⟨hd', hends⟩ := List.mem_filter.1 (hd ▸ List.mem_singleton_self d)
      exact .inr ⟨d, hd, hj, fun hk => hnotlate (hlate d hd' hk s.role hends)⟩
  have hcan : ((q.run es).step (.wait k)).canStep k = true ↔
      ∀ j ∈ handles, ((q.run es).step (.wait k)).isSettled j = true := by
    simp only [canStep, hjoin, List.all_eq_true]
  have hleft : ∃ inc', ((q.run es).step (.wait k)).incarnations[w.incarnation]? = some inc' ∧
      inc'.handles = inc.handles.filter fun j => !(q.run es).isPunctual w.stage.late j := by
    rw [hstep, beginJoin_eq hinc', setWait_incarnations, modifyIncarnation_incarnations,
      List.getElem?_modify_eq, hinc', List.partition_eq_filter_filter]
    exact ⟨_, rfl, rfl⟩
  obtain ⟨inc', hinc'', hleft⟩ := hleft
  refine ⟨⟨inc, inc', hinc', hinc'', hfilter, hleft⟩, hlate, hjoined, hcan, ?_⟩
  intro halone hsole
  refine hcan.2 fun j hj => ?_
  obtain ⟨s, hs, hsi, -, hset | ⟨d, hd, hnotj, hnotk⟩⟩ := hjoined j hj
  · obtain ⟨s', hs', hadv⟩ := ((q.run es).step_advances (.wait k)).supervisors j s hs
    simp only [isSettled, hs', hadv.settled hset]
  · obtain ⟨hd', hends⟩ := List.mem_filter.1 (hd ▸ List.mem_singleton_self d)
    rcases event_of_mem_deeds hes hrely'.reachable hsole hs hsi hd' (Deed.ends_eq_true.1 hends).1 with
      hj' | ⟨k', hk', hmem⟩
    · exact absurd hj' hnotj
    · exact absurd (halone k' hmem ▸ hk') hnotk

/-- A client waits for a run that is out of time at once, and ends its only role; then another one
begins to wait. -/
def twice : List Event :=
  [.await "r" 1 0, .wait 0, .wait 0, .wait 0, .wait 0, .wait 0, .wait 0, .await "r" 1 0]

theorem joins_all_but_its_own_twice : ∃ p q r w s, Reachable p ∧
    q = (p.start "r" (.ofReference "t") [.build]).1 ∧ r = q.run twice ∧
    (∃ s, r.answer? 0 = some (.ok s) ∧ s.allComplete = true) ∧
    r.waiters[1]? = some w ∧ w.stage.late = [] ∧
    (r.step (.wait 1)).waiters[1]? = some { w with stage := .joining [0] } ∧
    r.supervisors[0]? = some s ∧ s.role = .build ∧ s.isSettled = false ∧ s.dueAt = 300000 ∧
    q.EndedElsewhere twice ("r", .build) 0 1 ∧ (r.step (.wait 1)).canStep 1 = false := by
  obtain ⟨p, hp⟩ : ∃ p, p = fresh .default halfCrew := ⟨_, rfl⟩
  have hreach : Reachable p := hp ▸ Reachable.ofConfig (ofConfig_blank rfl halfCrew)
  obtain ⟨q, hq⟩ : ∃ q, q = (p.start "r" (.ofReference "t") [.build]).1 := ⟨_, rfl⟩
  obtain ⟨r, hr⟩ : ∃ r, r = q.run twice := ⟨_, rfl⟩
  have hok : (p.start "r" (.ofReference "t") [.build]).2 = .ok "r" := by
    rw [hp]
    rfl
  obtain ⟨w, hw, hinc, hst⟩ : ∃ w, r.waiters[1]? = some w ∧ w.incarnation = p.incarnations.length ∧
      w.stage = .polling 0 := by
    rw [hr, hq, hp]
    exact ⟨_, rfl, rfl, rfl⟩
  have hjoin : (r.step (.wait 1)).waiters[1]? = some { w with stage := .joining [0] } := by
    have hshape : r.waiters[1]?.map (fun w => { w with stage := .joining [0] }) =
        (r.step (.wait 1)).waiters[1]? := by
      rw [hr, hq, hp]
      rfl
    rw [← hshape, hw, Option.map_some]
  obtain ⟨s, hs, hrole, hset, hdue⟩ : ∃ s, r.supervisors[0]? = some s ∧ s.role = .build ∧
      s.isSettled = false ∧ s.dueAt = 300000 := by
    rw [hr, hq, hp]
    exact ⟨_, rfl, rfl, rfl, rfl⟩
  have hanswer : ∃ s, r.answer? 0 = some (.ok s) ∧ s.allComplete = true := by
    rw [hr, hq, hp]
    exact ⟨_, rfl, rfl⟩
  obtain ⟨-, -, hjoined, hcan, -⟩ := joins_all_but_its_own hreach hok
    (show ∀ e ∈ twice, e.Spares "r" by simp [twice, Event.Spares]) hq hr hw hinc (by simp [hst]) hjoin
  obtain ⟨s', hs', -, -, hwhy⟩ := hjoined 0 List.mem_cons_self
  obtain rfl : s' = s := Option.some.inj (hs'.symm.trans hs)
  refine ⟨p, q, r, w, s', hreach, hq, hr, hanswer, hw, by rw [hst]; rfl, hjoin, hs, hrole, hset, hdue,
    ?_, ?_⟩
  · rcases hwhy with hset' | hended
    · rw [hset] at hset'
      cases hset'
    · rwa [hrole] at hended
  · rw [Bool.eq_false_iff, ne_eq, hcan]
    intro hall
    have hopen : (r.step (.wait 1)).isSettled 0 = false := by
      rw [hr, hq, hp]
      rfl
    rw [hall 0 List.mem_cons_self] at hopen
    cases hopen

end Panel

end ReviewPanel
