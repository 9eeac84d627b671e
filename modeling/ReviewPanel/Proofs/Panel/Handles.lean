import ReviewPanel.Proofs.Panel.Turns
import ReviewPanel.Proofs.Panel.Vigil

/-!
# Whom a waiter waits for

A start notes the supervisors of an incarnation as handles that nobody has joined yet.  A waiter that has
seen the end of a run takes handles over from the incarnation, and waits for these supervisors; the
others stay noted.  A handle is a position in the list of supervisors, so it must be shown that it means
what it should: on every reachable panel the handles of an incarnation, and those that a waiter has taken
over, are supervisors of that incarnation.

## Main definitions

* `Panel.Serves` : there is a supervisor of an incarnation at a position.
* `Panel.Handed` : all handles are supervisors of their incarnation.

## Main statements

* `Panel.step_handed` : what one step preserves.
* `Panel.Reachable.handed` : **the handles of every reachable panel are in order.**
-/

namespace ReviewPanel.Panel

/-- At the position `j` there is a supervisor of the incarnation `i`. -/
def Serves (p : Panel) (i j : Nat) : Prop :=
  ∃ s, p.supervisors[j]? = some s ∧ s.incarnation = i

/-- The handles that an incarnation has left are supervisors of it. -/
def Staffed (p : Panel) : Prop :=
  ∀ i inc, p.incarnations[i]? = some inc → ∀ j ∈ inc.handles, p.Serves i j

/-- All handles are supervisors of their incarnation: those that nobody has joined, and those that a
waiter has taken over. -/
structure Handed (p : Panel) : Prop where
  left : p.Staffed
  joining : ∀ w ∈ p.waiters, ∀ handles, w.stage = .joining handles →
    ∀ j ∈ handles, p.Serves w.incarnation j

variable {p q : Panel} {i j : Nat}

theorem Serves.of_advances (h : p.Serves i j) (hadv : p.Advances q) : q.Serves i j := by
  obtain ⟨s, hs, hsi⟩ := h
  obtain ⟨s', hs', hsadv⟩ := hadv.supervisors j s hs
  exact ⟨s', hs', hsadv.incarnation_eq.trans hsi⟩

/-! ### A start -/

theorem Staffed.of_eq (h : p.Staffed) (hi : q.incarnations = p.incarnations)
    (hs : q.supervisors = p.supervisors) : q.Staffed := by
  intro i inc hinc j hj
  obtain ⟨s, hs', hsi⟩ := h i inc (hi ▸ hinc) j hj
  exact ⟨s, hs ▸ hs', hsi⟩

/-- A new supervisor comes after the others, and is noted with its incarnation. -/
theorem Staffed.add (h : p.Staffed) {s : Supervisor} (hs : q.supervisors = p.supervisors ++ [s])
    (hi : q.incarnations =
      p.incarnations.modify s.incarnation (Incarnation.addHandles [p.supervisors.length])) :
    q.Staffed := by
  intro i inc' hinc' j hj
  rw [hi, List.getElem?_modify] at hinc'
  obtain ⟨inc, hinc, rfl⟩ := Option.map_eq_some_iff.1 hinc'
  have hold : ∀ j ∈ inc.handles, q.Serves i j := fun j hj => by
    obtain ⟨s', hs', hsi⟩ := h i inc hinc j hj
    refine ⟨s', ?_, hsi⟩
    rw [hs, List.getElem?_append_left (List.getElem?_eq_some_iff.1 hs').1, hs']
  by_cases heq : s.incarnation = i
  · rw [if_pos heq] at hj
    rcases List.mem_append.1 hj with hj | hj
    · exact hold j hj
    · obtain rfl := List.mem_singleton.1 hj
      exact ⟨s, by rw [hs, List.getElem?_concat_length], heq⟩
  · rw [if_neg heq] at hj
    exact hold j hj

theorem Staffed.spawn (h : p.Staffed) (i : Nat) (id : RunId) (item : WorkItem) (role : Role) :
    (p.spawn i id item role).Staffed := by
  unfold Panel.spawn
  split
  · exact h
  · simp only [accept_eq]
    exact h.add rfl rfl

theorem Staffed.foldl_spawn (i : Nat) (id : RunId) (item : WorkItem) (roles : List Role) :
    ∀ {p : Panel}, p.Staffed → (roles.foldl (fun p role => p.spawn i id item role) p).Staffed := by
  induction roles with
  | nil => exact fun h => h
  | cons role roles ih => exact fun h => ih (h.spawn i id item role)

theorem Staffed.launch (h : p.Staffed) (id : RunId) (item : WorkItem) (roles : List Role)
    (w : Option Workspace) : (p.launch id item roles w).Staffed := by
  refine (Staffed.foldl_spawn p.incarnations.length id item roles ?_).of_eq rfl rfl
  intro i inc hinc j hj
  rcases Nat.lt_or_ge i p.incarnations.length with hlt | hge
  · rw [List.getElem?_append_left hlt] at hinc
    exact h i inc hinc j hj
  · -- the new incarnation has no handles yet
    rw [List.getElem?_append_right hge] at hinc
    obtain rfl := List.mem_singleton.1 (List.mem_of_getElem? hinc)
    cases hj

theorem Staffed.start (h : p.Staffed) (id : RunId) (item : WorkItem) (roles : List Role) :
    (p.start id item roles).1.Staffed := by
  rcases p.start_eq_launch id item roles with
    ⟨e, heq⟩ | ⟨_, _, _, _, _, -, ⟨e, heq⟩ | ⟨u, -, heq⟩⟩
  · rw [heq]
    exact h
  · rw [heq]
    exact h.of_eq rfl rfl
  · rw [heq]
    exact (h.of_eq (q := { p with ledger := u.ledger, table := _, scribe := _, disk := _, nextStamp := _ })
      rfl rfl).launch id item roles _

/-! ### Every step -/

theorem handles_of_ne_start {e : Event} (he : ∀ id item roles, e ≠ .start id item roles)
    {inc' : Incarnation} (hinc' : (p.step e).incarnations[i]? = some inc') :
    ∃ inc, p.incarnations[i]? = some inc ∧ inc'.handles ⊆ inc.handles := by
  cases e with
  | start id item roles => exact absurd rfl (he id item roles)
  | wait k => exact (p.keeps_stepWaiter k).incarnations i inc' hinc'
  | comeBack j | observe j | decide j | settle j =>
    exact ((p.step_move _).keeps rfl).incarnations i inc' hinc'
  | finalize id =>
    have hmove := Move.finalize p id
    rw [step] at hinc'
    generalize (p.finalize id).1 = q at hmove hinc'
    cases hmove with
    | idle | aside => exact ⟨inc', hinc', List.Subset.refl _⟩
    | finalized =>
      rw [modifyIncarnation_incarnations, List.getElem?_modify] at hinc'
      obtain ⟨inc, hinc, rfl⟩ := Option.map_eq_some_iff.1 hinc'
      refine ⟨inc, hinc, ?_⟩
      split_ifs <;> exact List.Subset.refl _
  | forget id =>
    have hmove := Move.forget p id
    rw [step] at hinc'
    generalize (p.forget id).1 = q at hmove hinc'
    cases hmove with
    | idle | aside | forgotten => exact ⟨inc', hinc', List.Subset.refl _⟩
  | await id poll limit =>
    have hmove := Move.await p id poll limit
    rw [step] at hinc'
    generalize (p.enterWait id poll limit).1 = q at hmove hinc'
    cases hmove with
    | idle | aside | entered => exact ⟨inc', hinc', List.Subset.refl _⟩
  | deliver k =>
    obtain ⟨_, _, _, hp⟩ := p.deliver_eq k
    rw [step, hp] at hinc'
    exact ⟨inc', hinc', List.Subset.refl _⟩
  | take | persist | draw | pass | refuse | retain | arrange => exact ⟨inc', hinc', List.Subset.refl _⟩

theorem Move.waiter_back {e : Event} (h : Move p e q) {k : Nat} {w : Waiter}
    (hw : q.waiters[k]? = some w) :
    (∃ w', p.waiters[k]? = some w') ∨ w.stage = .polling p.clock := by
  rcases h.advances.waiters.back hw with ⟨w', hw', -⟩ | hlen
  · exact .inl ⟨w', hw'⟩
  · have hlt := (List.getElem?_eq_some_iff.1 hw).1
    have hnone : q.waiters.length = p.waiters.length → False := fun heq => by omega
    cases h with
    | entered =>
      rw [List.getElem?_append_right hlen] at hw
      obtain rfl := List.mem_singleton.1 (List.mem_of_getElem? hw)
      exact .inr rfl
    | idle | aside | refused | started | forgotten | finalized | returned | observed =>
      exact (hnone rfl).elim
    | _ => exact (hnone (by simp)).elim

/-- A waiter after a step: it was there before, or has taken its turn, or has just begun to wait. -/
theorem waiter_of_step {e : Event} {k : Nat} {w' : Waiter} (hw' : (p.step e).waiters[k]? = some w') :
    (p.waiters[k]? = some w' ∧ e ≠ .wait k) ∨
      (∃ w stage, p.waiters[k]? = some w ∧ e = .wait k ∧ Turn p w stage ∧ w' = { w with stage }) ∨
      w'.stage = .polling p.clock := by
  rcases (p.step_move e).waiter_back hw' with ⟨w, hw⟩ | hnew
  · rcases step_waiter hw e with ⟨hne, hsame⟩ | ⟨hwait, stage, hturn, hnext⟩
    · obtain rfl := Option.some.inj (hw'.symm.trans hsame)
      exact .inl ⟨hw, hne⟩
    · exact .inr (.inl ⟨w, stage, hw, hwait, hturn, Option.some.inj (hw'.symm.trans hnext)⟩)
  · exact .inr (.inr hnew)

/-- **What one step preserves.** -/
theorem step_handed (h : p.Handed) (e : Event) : (p.step e).Handed where
  left := by
    rcases e.start_or_other with ⟨id, item, roles, rfl⟩ | he
    · exact h.left.start id item roles
    · intro i inc' hinc' j hj
      obtain ⟨inc, hinc, hsub⟩ := handles_of_ne_start he hinc'
      exact (h.left i inc hinc j (hsub hj)).of_advances (p.step_advances e)
  joining w' hw' handles hst j hj := by
    have hpunctual : ∀ i late, j ∈ p.punctual i late → p.Serves i j := by
      intro i late hmem
      obtain ⟨hmem, -⟩ := List.mem_filter.1 hmem
      cases hinc : p.incarnations[i]? with
      | none =>
        rw [hinc] at hmem
        cases hmem
      | some inc =>
        rw [hinc] at hmem
        exact h.left i inc hinc j hmem
    obtain ⟨k, hwk⟩ := List.mem_iff_getElem?.1 hw'
    rcases waiter_of_step hwk with ⟨hw, -⟩ | ⟨w, stage, hw, rfl, hturn, rfl⟩ | hpoll
    · exact (h.joining w' (List.mem_of_getElem? hw) handles hst j hj).of_advances (p.step_advances e)
    · refine Serves.of_advances (p := p) ?_ (p.step_advances _)
      cases hst
      generalize hstage : WaitStage.joining handles = stage at hturn
      cases hturn with
      | complete | expired =>
        cases hstage
        exact hpunctual _ _ hj
      | held | asleep | idle =>
        exact h.joining w (List.mem_of_getElem? hw) handles hstage.symm j hj
      | _ => cases hstage
    · rw [hpoll] at hst
      cases hst

/-- **The handles of every reachable panel are in order.** -/
theorem Reachable.handed (h : Reachable p) : p.Handed := by
  induction h with
  | ofConfig h =>
    obtain rfl := eq_of_ofConfig h
    exact ⟨fun i inc hinc => (by cases hinc), fun w hw => by cases hw⟩
  | step h e ih => exact step_handed ih e

end ReviewPanel.Panel
