import ReviewPanel.Proofs.Panel.Events

/-!
# What a step can do

Every event changes a panel in one of the ways that `Panel.Move` lists, one constructor for each thing
that can happen, with the conditions under which it does.  Statements about all schedules go through
`Panel.step_move`; nothing after this module opens the steps of supervisors and waiters.

## Main statements

* `Panel.step_move` : **every step is one of the moves.**
* `Panel.Move.change` : what a step does to the entry of a run on the ledger, and whose step it is
  (`Panel.Change`).
-/

namespace ReviewPanel.Panel

/-- The event may change documents and clocks without any party taking notice. -/
def Event.isAside : Event → Bool
  | .finalize _ | .take _ | .persist _ | .draw | .pass .. | .refuse _ | .retain _ | .deliver _
  | .arrange _ => true
  | _ => false

/-- The ways in which an event changes a panel. -/
inductive Move (p : Panel) : Event → Panel → Prop
  /-- The call is refused at once, or there is nothing to do. -/
  | idle (e : Event) : Move p e p
  /-- Only documents, what is on its way to them, and clocks change. -/
  | aside {e : Event} (he : e.isAside = true) (scribe : Scribe) (disk : Disk)
      (inFlight : List RunState) (arrivals : List Nat) (clock : Nat) (now : Timestamp)
      (nextStamp : Nat) :
      Move p e { p with scribe, disk, inFlight, arrivals, clock, now, nextStamp }
  /-- A start is refused after it has made room for the run. -/
  | refused {id : RunId} {item : WorkItem} {roles : List Role} {ledger : Ledger}
      {table : Dictionary Nat} (hc : Cleared p id ledger table) (scribe : Scribe) (disk : Disk)
      (nextStamp : Nat) :
      Move p (.start id item roles) { p with ledger, table, scribe, disk, nextStamp }
  | started {id : RunId} {item : WorkItem} {roles : List Role} {ledger : Ledger}
      {table : Dictionary Nat} {u : Ledger.Update RunState} {new : List Supervisor}
      (hc : Cleared p id ledger table) (hu : ledger.create id item roles p.now = .ok u)
      (hnew : ∀ s ∈ new, IsNew p.incarnations.length id s)
      (hroles : (new.map Supervisor.role).Sublist roles) (scribe : Scribe) (disk : Disk)
      (nextStamp : Nat) (handles : List Nat) :
      Move p (.start id item roles)
        { p with
          ledger := (launchCalls id p.now roles).foldl Ledger.apply u.ledger, scribe, disk, nextStamp
          supervisors := p.supervisors ++ new
          incarnations := p.incarnations ++ [
            { runId := id, slots := .ofRoles roles (p.workspaceFor id), handles,
              startedAt := p.clock, verdict := none }]
          table := table.insert id p.incarnations.length }
  | finalized {id : RunId} {i : Nat} {inc : Incarnation} {s : RunState} {v : Verdict}
      (hact : p.active id = .ok (i, inc)) (hv : inc.verdict = none) (hs : p.ledger.read id = .ok s)
      (hagg : aggregate s inc.slots = .ok v) (hatt : ∃ u, p.ledger.attach id v.toRef = .ok u)
      (scribe : Scribe) (disk : Disk) (inFlight : List RunState) :
      Move p (.finalize id)
        (({ p with ledger := p.ledger.apply (.attach id v.toRef), scribe, disk, inFlight }
          ).modifyIncarnation i fun inc => { inc with verdict := some v })
  | forgotten {id : RunId} (hgone : (p.ledger.apply (.retire id)).entries.get? id = none)
      (scribe : Scribe) :
      Move p (.forget id)
        { p with ledger := p.ledger.apply (.retire id), scribe, table := p.table.erase id }
  | entered {id : RunId} {i : Nat} {inc : Incarnation} (hact : p.active id = .ok (i, inc))
      (poll limit : Nat) :
      Move p (.await id poll limit)
        { p with waiters := p.waiters ++ [
            { incarnation := i, runId := id, poll := max poll 1, limit, stage := .polling p.clock }] }
  /-- A waiter looks at the ledger and goes on waiting. -/
  | polled {k : Nat} {w : Waiter} {t : Nat} (hw : p.waiters[k]? = some w)
      (hst : w.stage = .polling t) (t' : Nat) : Move p (.wait k) (p.setWait k (.polling t'))
  /-- The time of the run is over. -/
  | turned {k : Nat} {w : Waiter} {t : Nat} {s : RunState} (hw : p.waiters[k]? = some w)
      (hst : w.stage = .polling t) (hs : p.ledger.read w.runId = .ok s) :
      Move p (.wait k) (p.setWait k (.forcing s s.outstanding s.outstanding .withhold))
  | finished {k : Nat} {w : Waiter} (hw : p.waiters[k]? = some w)
      (answer : Except PanelError RunState) : Move p (.wait k) (p.setWait k (.done answer))
  | joined {k : Nat} {w : Waiter} (hw : p.waiters[k]? = some w) (left joined : List Nat) :
      Move p (.wait k)
        ((p.modifyIncarnation w.incarnation fun inc => { inc with handles := left }).setWait k
          (.joining joined))
  /-- A waiter closes the slot of a late role. -/
  | closed {k : Nat} {w : Waiter} {snapshot : RunState} {late : List Role} {role : Role}
      {rest : List Role} (hw : p.waiters[k]? = some w)
      (hst : w.stage = .forcing snapshot late (role :: rest) .withhold) :
      Move p (.wait k)
        ((p.withhold w.incarnation role).1.setWait k (.forcing snapshot late (role :: rest) .start))
  /-- A late role need not be started. -/
  | skipped {k : Nat} {w : Waiter} {snapshot : RunState} {late : List Role} {role : Role}
      {rest : List Role} (hw : p.waiters[k]? = some w)
      (hst : w.stage = .forcing snapshot late (role :: rest) .start) :
      Move p (.wait k) (p.setWait k (.forcing snapshot late (role :: rest) .expire))
  /-- A waiter starts a late role. -/
  | began {k : Nat} {w : Waiter} {snapshot : RunState} {late : List Role} {role : Role}
      {rest : List Role} {stage : WaitStage} (hw : p.waiters[k]? = some w)
      (hst : w.stage = .forcing snapshot late (role :: rest) .start)
      (hstage : stage = .forcing snapshot late (role :: rest) .expire ∨ ∃ a, stage = .done a) :
      Move p (.wait k) ((p.transition w.runId role .running none).1.setWait k stage)
  /-- A waiter ends a late role, or finds it ended. -/
  | expired {k : Nat} {w : Waiter} {snapshot : RunState} {late : List Role} {role : Role}
      {rest : List Role} {cause : Option String} (hw : p.waiters[k]? = some w)
      (hst : w.stage = .forcing snapshot late (role :: rest) .expire)
      (hr : unlessRaced (p.transition w.runId role .timedOut cause).2 = .ok ()) :
      Move p (.wait k)
        (((p.transition w.runId role .timedOut cause).1.stopLate w role).setWait k
          (.forcing snapshot late rest .withhold))
  /-- The ledger does not let a waiter end a late role. -/
  | gaveUp {k : Nat} {w : Waiter} {snapshot : RunState} {late : List Role} {role : Role}
      {rest : List Role} {cause : Option String} (hw : p.waiters[k]? = some w)
      (hst : w.stage = .forcing snapshot late (role :: rest) .expire)
      (answer : Except PanelError RunState) :
      Move p (.wait k)
        ((p.transition w.runId role .timedOut cause).1.setWait k (.done answer))
  | returned (j : Nat) : Move p (.comeBack j) (p.reviewerReturns j)
  | observed {j : Nat} {s : Supervisor} {r : Report} (hs : p.supervisors[j]? = some s)
      (hst : s.stage = .waiting) (hn : s.news? p.clock = some r) :
      Move p (.observe j) (p.setStage j (.informed r))
  | published {j : Nat} {s : Supervisor} {fs : List Finding} {phase : Phase}
      (hs : p.supervisors[j]? = some s) (hst : s.stage = .informed (.replied (.ok fs)))
      (hphase : phase = .complete ∧ (p.publish s.incarnation s.role fs).2 = .ok () ∨
        phase = .failed) (cause : Option String) :
      Move p (.decide j) ((p.publish s.incarnation s.role fs).1.setStage j (.decided phase cause))
  | withheld {j : Nat} {s : Supervisor} {r : Report} {phase : Phase}
      (hs : p.supervisors[j]? = some s) (hst : s.stage = .informed r)
      (hphase : phase = .failed ∨ phase = .timedOut) (cause : Option String) :
      Move p (.decide j) ((p.withhold s.incarnation s.role).1.setStage j (.decided phase cause))
  | settled {j : Nat} {s : Supervisor} {phase : Phase} {cause : Option String}
      (hs : p.supervisors[j]? = some s) (hst : s.stage = .decided phase cause) (seen : Phase) :
      Move p (.settle j)
        ((p.transition s.runId s.role phase cause).1.setStage j (.settled seen))

namespace Move

theorem start (p : Panel) (id : RunId) (item : WorkItem) (roles : List Role) :
    Move p (.start id item roles) (p.start id item roles).1 := by
  rcases p.start_cases id item roles with ⟨e, h⟩ |
    ⟨ledger, table, scribe, disk, nextStamp, hc, ⟨e, h⟩ | ⟨u, new, handles, hu, hnew, hroles, h⟩⟩
  · rw [h]
    exact idle _
  · rw [h]
    exact refused hc scribe disk nextStamp
  · rw [h]
    exact started hc hu hnew hroles scribe disk nextStamp handles

theorem finalize (p : Panel) (id : RunId) : Move p (.finalize id) (p.finalize id).1 := by
  rcases p.finalize_cases id with
    ⟨e, disk, h⟩ | ⟨i, inc, v, hact, ⟨-, h⟩ | ⟨hv, s, scribe, disk, inFlight, hs, hagg, hatt, h⟩⟩
  · rw [h]
    exact aside rfl _ disk _ _ _ _ _
  · rw [h]
    exact idle _
  · rw [h]
    exact finalized hact hv hs hagg hatt scribe disk inFlight

theorem forget (p : Panel) (id : RunId) : Move p (.forget id) (p.forget id).1 := by
  rcases p.forget_cases id with ⟨e, h⟩ | ⟨i, inc, s, scribe, -, hgone, h⟩
  · rw [h]
    exact idle _
  · rw [h]
    exact forgotten hgone scribe

theorem await (p : Panel) (id : RunId) (poll limit : Nat) :
    Move p (.await id poll limit) (p.enterWait id poll limit).1 := by
  unfold enterWait
  cases hact : p.active id with
  | error e => exact idle _
  | ok r => exact entered hact poll limit

/-! ### The moves of a waiter -/

theorem beginJoin {p : Panel} {k : Nat} {w : Waiter} (hw : p.waiters[k]? = some w)
    (late : List Role) : Move p (.wait k) (p.beginJoin k w late) := by
  unfold Panel.beginJoin
  cases hinc : p.incarnations[w.incarnation]? with
  | none =>
    have hsame : p.modifyIncarnation w.incarnation (fun inc => { inc with handles := [] }) = p := by
      simp only [modifyIncarnation, List.modify_eq_self (List.getElem?_eq_none_iff.1 hinc)]
    have hjoin := joined hw [] []
    rwa [hsame] at hjoin
  | some inc => exact joined hw _ _

theorem poll {p : Panel} {k : Nat} {w : Waiter} {t : Nat} (hw : p.waiters[k]? = some w)
    (hst : w.stage = .polling t) : Move p (.wait k) (p.poll k w) := by
  unfold Panel.poll
  split
  · exact finished hw _
  · exact beginJoin hw []
  · dsimp only
    split_ifs
    · split
      · exact finished hw _
      · rename_i s hs
        exact turned hw hst hs
    · exact polled hw hst _

theorem force {p : Panel} {k : Nat} {w : Waiter} {snapshot : RunState} {late todo : List Role}
    {next : ForceStep} (hw : p.waiters[k]? = some w)
    (hst : w.stage = .forcing snapshot late todo next) :
    Move p (.wait k) (p.force k w snapshot late todo next) := by
  cases todo with
  | nil => exact beginJoin hw late
  | cons role rest =>
    cases next with
    | withhold => exact closed hw hst
    | start =>
      simp only [Panel.force]
      split_ifs
      · split
        · exact began hw hst (.inl rfl)
        · exact began hw hst (.inr ⟨_, rfl⟩)
      · exact skipped hw hst
    | expire =>
      simp only [Panel.force]
      split
      · rename_i hr
        exact expired hw hst hr
      · exact gaveUp hw hst _

theorem stepWaiter (p : Panel) (k : Nat) : Move p (.wait k) (p.stepWaiter k) := by
  unfold Panel.stepWaiter
  cases hw : p.waiters[k]? with
  | none => exact idle _
  | some w =>
    cases hst : w.stage with
    | polling t =>
      simp only [hst]
      split_ifs
      · exact poll hw hst
      · exact idle _
    | forcing snapshot late todo next =>
      simp only [hst]
      exact force hw hst
    | joining handles =>
      simp only [hst]
      split_ifs
      · exact finished hw _
      · exact idle _
    | done a =>
      simp only [hst]
      exact idle _

/-! ### The moves of a supervisor -/

theorem observe (p : Panel) (j : Nat) : Move p (.observe j) (p.observe j) := by
  unfold Panel.observe
  cases hs : p.supervisors[j]? with
  | none => exact idle _
  | some s =>
    simp only
    split
    · rename_i r hst hn
      exact observed hs hst hn
    · exact idle _

theorem decide (p : Panel) (j : Nat) : Move p (.decide j) (p.decide j) := by
  unfold Panel.decide
  cases hs : p.supervisors[j]? with
  | none => exact idle _
  | some s =>
    simp only
    split
    · rename_i fs hst
      cases hpub : p.publish s.incarnation s.role fs with
      | mk q r =>
        have hq : q = (p.publish s.incarnation s.role fs).1 := by rw [hpub]
        cases r with
        | ok _ =>
          simp only [hq]
          exact published hs hst (.inl ⟨rfl, by rw [hpub]⟩) none
        | error e =>
          simp only [hq]
          exact published hs hst (.inr rfl) _
    · rename_i e hst
      exact withheld hs hst (.inl rfl) _
    · rename_i hst
      exact withheld hs hst (.inl rfl) _
    · rename_i hst
      exact withheld hs hst (.inr rfl) _
    · exact idle _

theorem settle (p : Panel) (j : Nat) : Move p (.settle j) (p.settle j) := by
  unfold Panel.settle
  cases hs : p.supervisors[j]? with
  | none => exact idle _
  | some s =>
    simp only
    split
    · rename_i phase cause hst
      cases htr : p.transition s.runId s.role phase cause with
      | mk q r =>
        have hq : q = (p.transition s.runId s.role phase cause).1 := by rw [htr]
        cases r with
        | ok status =>
          simp only [hq]
          exact settled hs hst _
        | error e =>
          simp only [hq]
          exact settled hs hst _
    · exact idle _

end Move

/-- **Every step is one of the moves.** -/
theorem step_move (p : Panel) (e : Event) : Move p e (p.step e) := by
  cases e with
  | start id item roles => exact Move.start p id item roles
  | finalize id => exact Move.finalize p id
  | forget id => exact Move.forget p id
  | await id poll limit => exact Move.await p id poll limit
  | wait k => exact Move.stepWaiter p k
  | comeBack j => exact .returned j
  | observe j => exact Move.observe p j
  | decide j => exact Move.decide p j
  | settle j => exact Move.settle p j
  | take | persist | draw | pass | refuse | retain | arrange => exact .aside rfl _ _ _ _ _ _ _
  | deliver k =>
    obtain ⟨scribe, disk, inFlight, hp⟩ := p.deliver_eq k
    rw [Panel.step, hp]
    exact .aside rfl scribe disk inFlight _ _ _ _

/-! ### Who changes a run on the ledger -/

/-- The ways in which an event changes the entry of the run `id`, and who is behind it. -/
inductive Change (p q : Panel) (id : RunId) :
    Event → Option LedgerEntry → Option LedgerEntry → Prop
  | same (e : Event) (x : Option LedgerEntry) : Change p q id e x x
  /-- A supervisor reports the end of its role. -/
  | reported {j : Nat} {s : Supervisor} {phase : Phase} {cause : Option String} {x : LedgerEntry}
      {status : Status} (hs : p.supervisors[j]? = some s) (hst : s.stage = .decided phase cause)
      (hid : s.runId = id) (hv : x.verdict = none) (hr : x.roles.get? s.role = some status)
      (ha : status.phase.allows phase = true) :
      Change p q id (.settle j) (some x)
        (some (x.move s.role (status.advance phase cause p.now)))
  /-- A waiter starts or ends a late role. -/
  | forced {k : Nat} {w : Waiter} {snapshot : RunState} {late : List Role} {role : Role}
      {rest : List Role} {next : ForceStep} {phase : Phase} {cause : Option String}
      {x : LedgerEntry} {status : Status} (hw : p.waiters[k]? = some w)
      (hst : w.stage = .forcing snapshot late (role :: rest) next) (hnext : next ≠ .withhold)
      (hphase : phase ≠ .complete) (hid : w.runId = id) (hv : x.verdict = none)
      (hr : x.roles.get? role = some status) (ha : status.phase.allows phase = true) :
      Change p q id (.wait k) (some x) (some (x.move role (status.advance phase cause p.now)))
  | judged {x : LedgerEntry} {verdict : VerdictRef} (hv : x.verdict = none) :
      Change p q id (.finalize id) (some x) (some (x.withVerdict verdict))
  | removed (e : Event) (x : Option LedgerEntry) : Change p q id e x none
  /-- The run is started, which makes a new incarnation of it. -/
  | restarted {item : WorkItem} {roles : List Role} {inc : Incarnation}
      (hinc : q.incarnations[p.incarnations.length]? = some inc) (hid : inc.runId = id)
      (htab : q.table.get? id = some p.incarnations.length) (x x' : Option LedgerEntry) :
      Change p q id (.start id item roles) x x'

theorem change_of_reported {p q : Panel} {j : Nat} {s : Supervisor} {phase : Phase}
    {cause : Option String} (hs : p.supervisors[j]? = some s) (hst : s.stage = .decided phase cause)
    (hl : q.ledger = p.ledger.apply (.transition s.runId s.role phase cause p.now)) (id : RunId) :
    Change p q id (.settle j) (p.ledger.entries.get? id) (q.ledger.entries.get? id) := by
  have heff := p.ledger.apply_effect (.transition s.runId s.role phase cause p.now) id
  rw [← hl] at heff
  rcases heff.of_transition with h | ⟨hid, x, status, hx, hv, hr, ha, hx'⟩
  · rw [h]
    exact .same _ _
  · rw [hx, hx']
    exact .reported hs hst hid hv hr ha

theorem change_of_forced {p q : Panel} {k : Nat} {w : Waiter} {snapshot : RunState}
    {late : List Role} {role : Role} {rest : List Role} {next : ForceStep}
    (hw : p.waiters[k]? = some w) (hst : w.stage = .forcing snapshot late (role :: rest) next)
    (hnext : next ≠ .withhold) {phase : Phase} (hphase : phase ≠ .complete) (cause : Option String)
    (hl : q.ledger = p.ledger.apply (.transition w.runId role phase cause p.now)) (id : RunId) :
    Change p q id (.wait k) (p.ledger.entries.get? id) (q.ledger.entries.get? id) := by
  have heff := p.ledger.apply_effect (.transition w.runId role phase cause p.now) id
  rw [← hl] at heff
  rcases heff.of_transition with h | ⟨hid, x, status, hx, hv, hr, ha, hx'⟩
  · rw [h]
    exact .same _ _
  · rw [hx, hx']
    exact .forced hw hst hnext hphase hid hv hr ha

/-- Making room for a run removes it, and leaves the other runs alone. -/
theorem Cleared.get?_of_ne {p : Panel} {id id' : RunId} {ledger : Ledger} {table : Dictionary Nat}
    (h : Cleared p id ledger table) (hne : id' ≠ id) :
    table.get? id' = p.table.get? id' ∧
      ledger.entries.get? id' = p.ledger.entries.get? id' := by
  rcases h.2 with ⟨rfl, rfl⟩ | ⟨rfl, rfl⟩
  · exact ⟨rfl, rfl⟩
  · refine ⟨by rw [Dictionary.get?_erase, if_neg hne], ?_⟩
    exact p.ledger.get?_apply_of_ne fun h => hne (Option.some.inj h).symm

/-- The ledger after a run was started, as far as other runs are concerned. -/
theorem get?_started_of_ne {p : Panel} {id id' : RunId} {item : WorkItem} {roles : List Role}
    {ledger : Ledger} {table : Dictionary Nat} {u : Ledger.Update RunState}
    (hc : Cleared p id ledger table) (hu : ledger.create id item roles p.now = .ok u)
    (hne : id' ≠ id) :
    ((launchCalls id p.now roles).foldl Ledger.apply u.ledger).entries.get? id' =
      p.ledger.entries.get? id' := by
  obtain ⟨-, -, -, rfl⟩ := Ledger.create_eq_ok.1 hu
  rw [get?_launchCalls_of_ne hne, Ledger.get?_put, if_neg hne, (hc.get?_of_ne hne).2]

/-- **Who changes a run on the ledger**: one of its supervisors, one of its waiters, or a client. -/
theorem Move.change {p q : Panel} {e : Event} (h : Move p e q) (id : RunId) :
    Change p q id e (p.ledger.entries.get? id) (q.ledger.entries.get? id) := by
  cases h with
  | idle | aside | entered | polled | turned | finished | joined | skipped | returned | observed =>
    exact .same _ _
  | closed =>
    rw [setWait_ledger, withhold_fst, modifyIncarnation_ledger]
    exact .same _ _
  | published =>
    rw [setStage_ledger, publish_ledger]
    exact .same _ _
  | withheld =>
    rw [setStage_ledger, withhold_fst, modifyIncarnation_ledger]
    exact .same _ _
  | settled hs hst => exact change_of_reported hs hst (by simp) id
  | began hw hst =>
    exact change_of_forced hw hst (by decide) (show Phase.running ≠ .complete by decide) none
      (by simp) id
  | @expired _ _ _ _ _ _ cause hw hst =>
    exact change_of_forced hw hst (by decide) (show Phase.timedOut ≠ .complete by decide) cause
      (by simp) id
  | @gaveUp _ _ _ _ _ _ cause hw hst =>
    exact change_of_forced hw hst (by decide) (show Phase.timedOut ≠ .complete by decide) cause
      (by simp) id
  | @finalized id' i inc s v hact hv hs hagg hatt scribe disk =>
    have heff := p.ledger.apply_effect (.attach id' v.toRef) id
    rw [modifyIncarnation_ledger]
    revert heff
    generalize p.ledger.entries.get? id = x
    generalize (p.ledger.apply (.attach id' v.toRef)).entries.get? id = x'
    intro heff
    cases heff with
    | same => exact .same _ _
    | attached hc hv => exact .judged hv
  | @forgotten id' hgone =>
    by_cases hid : id = id'
    · subst hid
      rw [hgone]
      exact .removed _ _
    · have hne : (Ledger.Call.retire id').runId? ≠ some id := fun h => hid (Option.some.inj h).symm
      rw [p.ledger.get?_apply_of_ne hne]
      exact .same _ _
  | @refused id' _ _ _ _ hc =>
    by_cases hid : id = id'
    · subst hid
      rw [hc.1]
      exact .removed _ _
    · rw [(hc.get?_of_ne hid).2]
      exact .same _ _
  | @started id' item roles _ _ _ new hc hu =>
    by_cases hid : id = id'
    · subst hid
      apply Change.restarted
      · exact List.getElem?_concat_length
      · rfl
      · exact Dictionary.get?_insert_self _ _ _
    · rw [get?_started_of_ne hc hu hid]
      exact .same _ _

end ReviewPanel.Panel
