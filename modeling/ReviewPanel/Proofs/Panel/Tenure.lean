import ReviewPanel.Proofs.Panel.Deeds

/-!
# While an identifier keeps its meaning

Many statements about a run hold as long as it is neither forgotten nor started again, and are proved for
schedules in which nobody calls for either (`Panel.Event.Spares`).  Clients may well call and be refused:
a run without a verdict is not forgotten, and one that is still going on is not started again.

What counts is that the identifier means the incarnation at the end.  An identifier that has lost its
meaning never means the same incarnation again, so it has had this meaning all along; and then the calls to
forget the run or to start it again were refused at once, and the schedule without them leads to the same
panel.

## Main statements

* `Panel.step_eq_of_table` : a call that leaves the identifier its meaning was refused at once.
* `Panel.exists_spared` : **a schedule that leaves an identifier its meaning may as well spare the run.**
-/

namespace ReviewPanel.Panel

variable {p q : Panel} {id : RunId} {e : Event} {i : Nat} {es : List Event}

theorem Advances.lt_length (h : p.Advances q) (hi : i < p.incarnations.length) :
    i < q.incarnations.length := by
  obtain ⟨inc, hinc, -⟩ := h.incarnations i _ (List.getElem?_eq_getElem hi)
  exact (List.getElem?_eq_some_iff.1 hinc).1

/-- A call to forget a run, or to start it again, that leaves the identifier its meaning was refused at
once. -/
theorem step_eq_of_table (hp : p.Wired) (hi : i < p.incarnations.length) (he : ¬ e.Spares id)
    (htab : (p.step e).table.get? id = some i) : p.step e = p := by
  have hmove := p.step_move e
  generalize p.step e = q at hmove htab
  cases hmove with
  | idle => rfl
  | refused hc =>
    obtain rfl := Classical.not_not.1 he
    rw [hc.table_get? (hp.listed _)] at htab
    cases htab
  | started =>
    obtain rfl := Classical.not_not.1 he
    rw [Dictionary.get?_insert_self] at htab
    exact absurd (Option.some.inj htab) (Nat.ne_of_gt hi)
  | forgotten =>
    obtain rfl := Classical.not_not.1 he
    rw [Dictionary.get?_erase, if_pos rfl] at htab
    cases htab
  | aside hside => cases e <;> first | exact absurd trivial he | cases hside
  | _ => exact absurd trivial he

theorem deed?_of_not_spares (he : ¬ e.Spares id) : p.deed? e = none := by
  cases e <;> first | rfl | exact absurd trivial he

theorem deeds_append (p : Panel) (es es' : List Event) :
    p.deeds (es ++ es') = p.deeds es ++ (p.run es).deeds es' := by
  induction es generalizing p with
  | nil => rfl
  | cons e es ih => simp [deeds, ih]

theorem deeds_concat (p : Panel) (es : List Event) (e : Event) :
    p.deeds (es ++ [e]) = p.deeds es ++ ((p.run es).deed? e).toList := by
  simp [deeds_append, deeds]

/-- **A schedule that leaves an identifier its meaning may as well spare the run**: without the calls that
do not, which were refused, it leads to the same panel and makes the same attempts on the ledger. -/
theorem exists_spared (hp : Reachable p) (hi : i < p.incarnations.length)
    (htab : (p.run es).table.get? id = some i) :
    ∃ es', (∀ e ∈ es', e.Spares id) ∧ p.run es' = p.run es ∧ p.deeds es' = p.deeds es := by
  -- from the last event backwards, since the meaning is known at the end
  induction es using List.reverseRecOn with
  | nil => exact ⟨[], by simp, rfl, rfl⟩
  | append_singleton es e ih =>
    rw [run_concat] at htab
    by_cases he : e.Spares id
    · rw [(step_move _ e).table_get? he] at htab
      obtain ⟨es', hes', hrun, hdeeds⟩ := ih htab
      refine ⟨es' ++ [e], fun e' he' => ?_, ?_, ?_⟩
      · rcases List.mem_append.1 he' with he' | he'
        · exact hes' e' he'
        · exact List.mem_singleton.1 he' ▸ he
      · rw [run_concat, run_concat, hrun]
      · rw [deeds_concat, deeds_concat, hrun, hdeeds]
    · have hstep := step_eq_of_table (hp.run es).wired ((p.run_advances es).lt_length hi) he htab
      rw [hstep] at htab
      obtain ⟨es', hes', hrun, hdeeds⟩ := ih htab
      refine ⟨es', hes', ?_, ?_⟩
      · rw [run_concat, hstep, hrun]
      · rw [deeds_concat, deed?_of_not_spares he, Option.toList_none, List.append_nil, hdeeds]

/-- An identifier that means an incarnation at the end has meant it all along. -/
theorem table_of_run {es' : List Event} (hp : Reachable p) (hi : i < p.incarnations.length)
    (htab : (p.run (es ++ es')).table.get? id = some i) : (p.run es).table.get? id = some i := by
  rw [run_append] at htab
  obtain ⟨es'', hes'', hrun, -⟩ :=
    exists_spared (hp.run es) ((p.run_advances es).lt_length hi) htab
  rw [← hrun, run_table_get? hes''] at htab
  exact htab

end ReviewPanel.Panel
