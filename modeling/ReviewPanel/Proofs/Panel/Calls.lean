import ReviewPanel.Proofs.Ledger.Shape
import ReviewPanel.Proofs.Panel.Moves
import ReviewPanel.Proofs.RunState

/-!
# The calls that a panel makes on its ledger

Whatever a step does to the ledger, it does by calls, and those that carry a time carry the one that the
calendar shows.  So the ledger of every panel is one that some sequence of calls leads to, and a run has
only the times that the calendar has shown since it was started.

Hence the state document can hold every snapshot of a run, as long as the calendar shows times that are in
it and the findings can be counted in a word.

## Main definitions

* `Ledger.Call.IsAt` : the call is made at a given time.
* `LedgerEntry.Dated` : the times of an entry are in the calendar.
* `Panel.DatedAt` : so are those of a run on a panel, and the present time.

## Main statements

* `Panel.Move.calls` : **a step changes the ledger by calls at the present time.**
* `Panel.DatedAt.step`, `Panel.DatedAt.run` : a run keeps times that are in the calendar.
* `Panel.DatedAt.storable` : the state document can hold its snapshots.
-/

namespace ReviewPanel

/-! ### Times on a ledger -/

/-- The call is made at the time `now`, if it has a time at all. -/
def Ledger.Call.IsAt (now : Timestamp) : Ledger.Call → Prop
  | .create _ _ _ time | .transition _ _ _ _ time => time = now
  | _ => True

/-- The times of the entry are in the calendar. -/
structure LedgerEntry.Dated (e : LedgerEntry) : Prop where
  created : e.createdAt.Valid
  roles : ∀ role status, e.roles.get? role = some status → status.Storable

theorem Status.Storable.advance {s : Status} (h : s.Storable) (phase : Phase) (cause : Option String)
    {time : Timestamp} (htime : time.Valid) : (s.advance phase cause time).Storable := by
  constructor
  · intro t ht
    simp only [Status.advance] at ht
    split_ifs at ht
    · exact Option.some.inj ht ▸ htime
    · exact h.1 t ht
  · intro t ht
    simp only [Status.advance] at ht
    split_ifs at ht
    · exact Option.some.inj ht ▸ htime
    · exact h.2 t ht

namespace Ledger

variable {id : RunId} {now : Timestamp}

/-- **One call** at a time in the calendar brings no other time into an entry. -/
theorem Effect.dated {c : Call} {x : Option LedgerEntry} {e' : LedgerEntry}
    (h : Effect id c x (some e')) (hnow : now.Valid) (hc : c.IsAt now)
    (hx : ∀ e, x = some e → e.Dated) : e'.Dated := by
  cases h with
  | same => exact hx e' rfl
  | @created item roles time =>
    obtain rfl : time = now := hc
    refine ⟨hnow, fun role status hget => ?_⟩
    rw [LedgerEntry.fresh, Table.get?_ofKeys] at hget
    split_ifs at hget
    obtain rfl := Option.some.inj hget
    exact ⟨fun _ ht => (by cases ht), fun _ ht => (by cases ht)⟩
  | @moved e role s phase cause time _ hr _ =>
    obtain rfl : time = now := hc
    have he := hx e rfl
    refine ⟨he.created, fun role' status hget => ?_⟩
    rw [LedgerEntry.move, Table.get?_set] at hget
    split_ifs at hget
    · exact Option.some.inj hget ▸ (he.roles role s hr).advance phase cause hnow
    · exact he.roles role' status hget
  | @attached e => exact ⟨(hx e rfl).created, (hx e rfl).roles⟩

theorem dated_foldl (hnow : now.Valid) {cs : List Call} (hcs : ∀ c ∈ cs, c.IsAt now) :
    ∀ {l : Ledger}, (∀ e, l.entries.get? id = some e → e.Dated) →
      ∀ e, (cs.foldl apply l).entries.get? id = some e → e.Dated := by
  induction cs with
  | nil => exact fun h => h
  | cons c cs ih =>
    intro l h
    refine ih (fun c' hc' => hcs c' (List.mem_cons_of_mem _ hc')) fun e he => ?_
    have heff := l.apply_effect c id
    rw [he] at heff
    exact heff.dated hnow (hcs c List.mem_cons_self) h

end Ledger

/-! ### The calls of a step -/

namespace Panel

variable {p q : Panel} {e : Event} {id : RunId}

theorem isAt_launchCalls (id : RunId) (now : Timestamp) (roles : List Role) :
    ∀ c ∈ launchCalls id now roles, c.IsAt now := by
  intro c hc
  obtain ⟨role, -, rfl⟩ := List.mem_map.1 hc
  rfl

theorem Cleared.calls {ledger : Ledger} {table : Dictionary Nat} (h : Cleared p id ledger table) :
    ∃ cs : List Ledger.Call, ledger = cs.foldl Ledger.apply p.ledger ∧ ∀ c ∈ cs, c.IsAt p.now := by
  rcases h.2 with ⟨rfl, -⟩ | ⟨rfl, -⟩
  · exact ⟨[], rfl, by simp⟩
  · exact ⟨[.retire id], rfl, by simp [Ledger.Call.IsAt]⟩

/-- **A step changes the ledger by calls at the present time.** -/
theorem Move.calls (h : Move p e q) :
    ∃ cs : List Ledger.Call, q.ledger = cs.foldl Ledger.apply p.ledger ∧ ∀ c ∈ cs, c.IsAt p.now := by
  cases h with
  | idle | aside | entered | polled | turned | finished | joined | skipped | returned | observed =>
    exact ⟨[], rfl, by simp⟩
  | closed | published | withheld => exact ⟨[], by simp, by simp⟩
  | began | expired | gaveUp | settled =>
    exact ⟨[.transition _ _ _ _ p.now], by simp; rfl, by simp [Ledger.Call.IsAt]⟩
  | @finalized id _ _ _ v => exact ⟨[.attach id v.toRef], rfl, by simp [Ledger.Call.IsAt]⟩
  | @forgotten id => exact ⟨[.retire id], rfl, by simp [Ledger.Call.IsAt]⟩
  | refused hc => exact hc.calls
  | @started id item roles _ _ u _ hc hu =>
    obtain ⟨cs, rfl, hcs⟩ := hc.calls
    refine ⟨cs ++ .create id item roles p.now :: launchCalls id p.now roles, ?_, ?_⟩
    · simp only [List.foldl_append, List.foldl_cons, Ledger.apply, hu]
    · intro c hc
      rcases List.mem_append.1 hc with hc | hc
      · exact hcs c hc
      · rcases List.mem_cons.1 hc with rfl | hc
        · rfl
        · exact isAt_launchCalls id p.now roles c hc

/-- The ledger of a panel is one that some sequence of calls leads to. -/
theorem Reachable.ledger_eq (h : Reachable p) : ∃ cs, p.ledger = Ledger.after cs := by
  induction h with
  | ofConfig h =>
    obtain rfl := eq_of_ofConfig h
    exact ⟨[], rfl⟩
  | step h e ih =>
    obtain ⟨cs, hcs⟩ := ih
    obtain ⟨cs', hcs', -⟩ := (step_move _ e).calls
    exact ⟨cs ++ cs', by rw [hcs', hcs, Ledger.after, Ledger.after, List.foldl_append]⟩

theorem Reachable.revision_lt (h : Reachable p) {s : RunState} (hread : p.ledger.read id = .ok s) :
    s.revision < wordBound := by
  obtain ⟨cs, hcs⟩ := h.ledger_eq
  rw [hcs] at hread
  obtain ⟨x, hx, rfl⟩ := Ledger.read_eq_ok.1 hread
  obtain ⟨_, _, _, _, _, -, -, hsound⟩ := Ledger.exists_create cs id x hx
  exact (hsound.shape id).revision_lt

/-! ### The calendar -/

/-- If the calendar changes, it shows a time that is in it. -/
def Event.Dated : Event → Prop
  | .pass _ now => now.Valid
  | _ => True

instance : (e : Event) → Decidable e.Dated
  | .pass _ now => inferInstanceAs (Decidable now.Valid)
  | .start .. | .finalize _ | .forget _ | .await .. | .wait _ | .comeBack _ | .observe _ | .decide _
    | .settle _ | .take _ | .persist _ | .draw | .refuse _ | .retain _ | .deliver _ | .arrange _ =>
    .isTrue trivial

theorem Move.now_eq (h : Move p e q) (he : e.isAside = false) : q.now = p.now := by
  have htransition : ∀ id role phase cause, (p.transition id role phase cause).1.now = p.now := by
    intro id role phase cause
    obtain ⟨inFlight, hp⟩ := p.transition_fst id role phase cause
    rw [hp]
  cases h with
  | aside he' =>
    rw [he'] at he
    cases he
  | closed | withheld =>
    rw [withhold_fst]
    rfl
  | @published _ s fs =>
    obtain ⟨disk, hp⟩ := p.publish_fst s.incarnation s.role fs
    rw [hp]
    rfl
  | began | gaveUp | settled => exact htransition _ _ _ _
  | @expired _ w _ _ role _ cause =>
    rcases (p.transition w.runId role .timedOut cause).1.stopLate_eq w role with h | ⟨j, h⟩
    · rw [h]
      exact htransition _ _ _ _
    · rw [h]
      exact htransition _ _ _ _
  | _ => rfl

theorem finalize_now (p : Panel) (id : RunId) : (p.finalize id).1.now = p.now := by
  rcases p.finalize_cases id with
    ⟨e, disk, h⟩ | ⟨i, inc, v, -, ⟨-, h⟩ | ⟨-, s, scribe, disk, inFlight, -, -, -, h⟩⟩
  · rw [h]
  · rw [h]
  · rw [h]
    rfl

theorem now_valid_step (hnow : p.now.Valid) (he : e.Dated) : (p.step e).now.Valid := by
  by_cases haside : e.isAside = false
  · rwa [(p.step_move e).now_eq haside]
  · cases e with
    | pass => exact he
    | finalize id => rwa [step, finalize_now]
    | take | persist | draw | refuse | retain | arrange => exact hnow
    | deliver k =>
      obtain ⟨scribe, disk, inFlight, hp⟩ := p.deliver_eq k
      rwa [step, hp]
    | _ => exact absurd rfl haside

/-- The calendar shows a time that is in it, and the run has no other times. -/
structure DatedAt (p : Panel) (id : RunId) : Prop where
  now : p.now.Valid
  entry : ∀ x, p.ledger.entries.get? id = some x → x.Dated

/-- **One step** brings no time into a run that is not in the calendar. -/
theorem DatedAt.step (h : p.DatedAt id) (he : e.Dated) : (p.step e).DatedAt id := by
  obtain ⟨cs, hcs, hat⟩ := (p.step_move e).calls
  refine ⟨now_valid_step h.now he, ?_⟩
  rw [hcs]
  exact Ledger.dated_foldl h.now hat h.entry

theorem DatedAt.run {es : List Event} (h : p.DatedAt id) (hes : ∀ e ∈ es, e.Dated) :
    (p.run es).DatedAt id :=
  run_preserves (P := (·.DatedAt id)) (fun he hq => hq.step he) hes h

theorem datedAt_start (hnow : p.now.Valid) {item : WorkItem} {roles : List Role}
    (hok : (p.start id item roles).2 = .ok id) : (p.start id item roles).1.DatedAt id := by
  rcases p.start_cases id item roles with
    ⟨e, h⟩ | ⟨ledger, _, _, _, _, hc, ⟨e, h⟩ | ⟨u, _, _, hu, -, -, h⟩⟩
  · rw [h] at hok
    cases hok
  · rw [h] at hok
    cases hok
  · rw [h]
    refine ⟨hnow, Ledger.dated_foldl hnow (isAt_launchCalls id p.now roles) fun x hx => ?_⟩
    have heff := ledger.apply_effect (.create id item roles p.now) id
    rw [hc.1] at heff
    simp only [Ledger.apply, hu, hx] at heff
    exact heff.dated hnow rfl fun _ hnone => by cases hnone

/-- **The state document can hold every snapshot of a run** on a panel with a calendar, if the blocking
findings can be counted. -/
theorem DatedAt.storable (h : p.DatedAt id) (hp : Reachable p) {s : RunState}
    (hread : p.ledger.read id = .ok s) (hblockers : ∀ r ∈ s.verdict, r.blockerCount < wordBound) :
    s.Storable := by
  have hrevision := hp.revision_lt hread
  obtain ⟨x, hx, rfl⟩ := Ledger.read_eq_ok.1 hread
  exact ⟨(h.entry x hx).created, (h.entry x hx).roles, hrevision, hblockers⟩

end Panel

end ReviewPanel
