import Mathlib.Data.List.Nodup
import Mathlib.Tactic.SplitIfs
import ReviewPanel.Ledger

/-!
# What a call does to a ledger

The ledger is driven by calls, each of which is accepted or refused.  `Ledger.apply` is the ledger
after a call, whatever the answer, and `Ledger.after` the ledger after a sequence of calls on an empty
one.

Everything that is proved about ledgers rests on one inversion, `Ledger.apply_effect`: it lists what a
call can do to the entry of a run, together with the conditions under which it does so.  Nothing
outside this module opens the operations of the ledger.

## Main definitions

* `Ledger.Call`, `Ledger.apply`, `Ledger.after` : sequences of calls.
* `Ledger.Effect` : the ways in which a call changes the entry of one run.
-/

namespace ReviewPanel

/-! ### The entries that calls make -/

namespace LedgerEntry

/-- The entry of a run that has just been created. -/
def fresh (item : WorkItem) (roles : List Role) (time : Timestamp) : LedgerEntry :=
  { item, createdAt := time, roles := .ofKeys roles .pending, verdict := none, revision := 0 }

/-- The entry after one role has got a new status. -/
def move (e : LedgerEntry) (role : Role) (s : Status) : LedgerEntry :=
  { e with roles := e.roles.set role s, revision := e.revision + 1 }

/-- The entry with a verdict. -/
def withVerdict (e : LedgerEntry) (verdict : VerdictRef) : LedgerEntry :=
  { e with verdict := some verdict, revision := e.revision + 1 }

theorem isComplete_iff {e : LedgerEntry} :
    e.isComplete = true ↔ ∀ role s, e.roles.get? role = some s → s.isTerminal = true := by
  simp only [isComplete, List.all_eq_true, Table.values, List.mem_map, Prod.exists,
    exists_eq_right, Table.mem_entries]
  exact ⟨fun h role s hs => h s ⟨role, hs⟩, fun h s ⟨role, hs⟩ => h role s hs⟩

end LedgerEntry

theorem firstRepeated?_eq_none {rs : List Role} :
    ∀ seen : List Role, firstRepeated? seen rs = none ↔ rs.Nodup ∧ ∀ r ∈ rs, r ∉ seen := by
  induction rs with
  | nil => intro seen; simp [firstRepeated?]
  | cons r rs ih =>
    intro seen
    rw [firstRepeated?, List.nodup_cons]
    split_ifs with hr
    · simp [hr]
    · rw [ih]
      constructor
      · rintro ⟨hnd, hseen⟩
        refine ⟨⟨fun hmem => hseen r hmem List.mem_cons_self, hnd⟩, fun r' hr' => ?_⟩
        rcases List.mem_cons.1 hr' with rfl | hr'
        · exact hr
        · exact fun h => hseen r' hr' (List.mem_cons_of_mem _ h)
      · rintro ⟨⟨hmem, hnd⟩, hseen⟩
        refine ⟨hnd, fun r' hr' h => ?_⟩
        rcases List.mem_cons.1 h with rfl | h
        · exact hmem hr'
        · exact hseen r' (List.mem_cons_of_mem _ hr') h

namespace Ledger

/-! ### When calls are accepted -/

@[simp] theorem get?_put (l : Ledger) (id : RunId) (e : LedgerEntry) (id' : RunId) :
    (l.put id e).entries.get? id' = if id' = id then some e else l.entries.get? id' :=
  Dictionary.get?_insert _ _ _ _

theorem create_eq_ok {l : Ledger} {id : RunId} {item : WorkItem} {roles : List Role}
    {time : Timestamp} {u : Update RunState} :
    l.create id item roles time = .ok u ↔
      roles ≠ [] ∧ roles.Nodup ∧ l.entries.get? id = none ∧
        u = ⟨l.put id (.fresh item roles time), (LedgerEntry.fresh item roles time).snapshot id,
          (LedgerEntry.fresh item roles time).snapshot id⟩ := by
  by_cases hroles : roles = []
  · simp [create, hroles]
  · simp only [create, List.isEmpty_iff, hroles, ↓reduceIte, ne_eq, not_false_eq_true, true_and]
    cases hrep : firstRepeated? [] roles with
    | some r =>
      have hnd : ¬ roles.Nodup := by
        intro h
        have := (firstRepeated?_eq_none []).2 ⟨h, by simp⟩
        simp [hrep] at this
      simp [hnd]
    | none =>
      have hnd := ((firstRepeated?_eq_none []).1 hrep).1
      cases hid : l.entries.get? id with
      | some e => simp [Dictionary.contains, hid]
      | none =>
        simp only [Dictionary.contains, hid, Option.isSome_none, Bool.false_eq_true, ↓reduceIte,
          Except.ok.injEq, hnd, true_and]
        exact eq_comm

theorem transition_eq_ok {l : Ledger} {id : RunId} {role : Role} {phase : Phase}
    {cause : Option String} {time : Timestamp} {u : Update Status} :
    l.transition id role phase cause time = .ok u ↔
      ∃ e s, l.entries.get? id = some e ∧ e.verdict = none ∧ e.roles.get? role = some s ∧
        s.phase.allows phase = true ∧
        u = ⟨l.put id (e.move role (s.advance phase cause time)), s.advance phase cause time,
          (e.move role (s.advance phase cause time)).snapshot id⟩ := by
  constructor
  · intro h
    simp only [transition] at h
    split at h
    · cases h
    · rename_i e hid
      split_ifs at h with hv
      split at h
      · cases h
      · rename_i s hr
        split_ifs at h with ha
        exact ⟨e, s, hid, by simpa using hv, hr, ha, (Except.ok.inj h).symm⟩
  · rintro ⟨e, s, hid, hv, hr, ha, rfl⟩
    have hopen : ¬ e.verdict.isSome = true := by simp [hv]
    simp only [transition, hid, if_neg hopen, hr, if_pos ha]
    rfl

theorem attach_eq_ok {l : Ledger} {id : RunId} {verdict : VerdictRef} {u : Update RunState} :
    l.attach id verdict = .ok u ↔
      ∃ e, l.entries.get? id = some e ∧ e.isComplete = true ∧ e.verdict = none ∧
        u = ⟨l.put id (e.withVerdict verdict), (e.withVerdict verdict).snapshot id,
          (e.withVerdict verdict).snapshot id⟩ := by
  simp only [attach]
  cases hid : l.entries.get? id with
  | none => simp
  | some e =>
    by_cases hc : e.isComplete = true
    · cases hv : e.verdict with
      | some v => simp [hc, hv]
      | none =>
        simp only [hc, Bool.not_true, Bool.false_eq_true, ↓reduceIte, hv, Option.isSome_none,
          Except.ok.injEq, Option.some.injEq, exists_eq_left', true_and]
        exact eq_comm
    · simp [hc]

theorem retire_eq_ok {l l' : Ledger} {id : RunId} {s : RunState} :
    l.retire id = .ok (l', s) ↔
      ∃ e, l.entries.get? id = some e ∧ e.isComplete = true ∧ l' = ⟨l.entries.erase id⟩ ∧
        s = e.snapshot id := by
  simp only [retire]
  cases hid : l.entries.get? id with
  | none => simp
  | some e =>
    by_cases hc : e.isComplete = true
    · simp only [hc, ↓reduceIte, Except.ok.injEq, Prod.mk.injEq, Option.some.injEq,
        exists_eq_left', true_and]
      exact ⟨fun h => ⟨h.1.symm, h.2.symm⟩, fun h => ⟨h.1.symm, h.2.symm⟩⟩
    · simp [hc]

theorem retire_eq_error {l : Ledger} {id : RunId} {e : LedgerError} (h : l.retire id = .error e) :
    e = .runNotComplete id ∨ l.entries.get? id = none := by
  simp only [retire] at h
  cases hid : l.entries.get? id with
  | none => exact .inr rfl
  | some x =>
    simp only [hid] at h
    split_ifs at h
    exact .inl (Except.error.inj h).symm

theorem get?_of_retire {l : Ledger} {id : RunId} {r : Ledger × RunState} (h : l.retire id = .ok r) :
    r.1.entries.get? id = none := by
  obtain ⟨e, -, -, hl, -⟩ := retire_eq_ok.1 (show l.retire id = .ok (r.1, r.2) from h)
  rw [hl, Dictionary.get?_erase, if_pos rfl]

theorem read_eq_ok {l : Ledger} {id : RunId} {s : RunState} :
    l.read id = .ok s ↔ ∃ e, l.entries.get? id = some e ∧ s = e.snapshot id := by
  simp only [read, entry]
  cases l.entries.get? id with
  | none => simp [Except.map]
  | some e => simp [Except.map, eq_comm]

/-! ### Sequences of calls -/

/-- A call of the ledger. -/
inductive Call where
  | create (id : RunId) (item : WorkItem) (roles : List Role) (time : Timestamp)
  | transition (id : RunId) (role : Role) (phase : Phase) (cause : Option String)
      (time : Timestamp)
  | attach (id : RunId) (verdict : VerdictRef)
  | retire (id : RunId)
  | read (id : RunId)
  | isComplete (id : RunId)
  | runs

/-- The ledger after a call.  Only an accepted change makes a difference. -/
def apply (l : Ledger) : Call → Ledger
  | .create id item roles time =>
    match l.create id item roles time with
    | .ok u => u.ledger
    | .error _ => l
  | .transition id role phase cause time =>
    match l.transition id role phase cause time with
    | .ok u => u.ledger
    | .error _ => l
  | .attach id verdict =>
    match l.attach id verdict with
    | .ok u => u.ledger
    | .error _ => l
  | .retire id =>
    match l.retire id with
    | .ok (l, _) => l
    | .error _ => l
  | .read _ | .isComplete _ | .runs => l

/-- The ledger after a sequence of calls on an empty one. -/
def after (cs : List Call) : Ledger := cs.foldl apply empty

@[simp] theorem after_nil : after [] = empty := rfl

theorem after_concat (cs : List Call) (c : Call) : after (cs ++ [c]) = (after cs).apply c := by
  simp [after]

/-- The ways in which a call can change the entry of the run `id`. -/
inductive Effect (id : RunId) : Call → Option LedgerEntry → Option LedgerEntry → Prop
  /-- The call is about another run, is refused, or is a query. -/
  | same (c : Call) (x : Option LedgerEntry) : Effect id c x x
  | created {item : WorkItem} {roles : List Role} {time : Timestamp}
      (hne : roles ≠ []) (hnd : roles.Nodup) :
      Effect id (.create id item roles time) none (some (.fresh item roles time))
  | moved {e : LedgerEntry} {role : Role} {s : Status} {phase : Phase} {cause : Option String}
      {time : Timestamp} (hv : e.verdict = none) (hr : e.roles.get? role = some s)
      (ha : s.phase.allows phase = true) :
      Effect id (.transition id role phase cause time) (some e)
        (some (e.move role (s.advance phase cause time)))
  | attached {e : LedgerEntry} {verdict : VerdictRef} (hc : e.isComplete = true)
      (hv : e.verdict = none) :
      Effect id (.attach id verdict) (some e) (some (e.withVerdict verdict))
  | retired {e : LedgerEntry} (hc : e.isComplete = true) : Effect id (.retire id) (some e) none

/-- **What a call does to the entry of a run.** -/
theorem apply_effect (l : Ledger) (c : Call) (id : RunId) :
    Effect id c (l.entries.get? id) ((l.apply c).entries.get? id) := by
  cases c with
  | create id' item roles time =>
    simp only [apply]
    cases h : l.create id' item roles time with
    | error => exact .same _ _
    | ok u =>
      obtain ⟨hne, hnd, hget, rfl⟩ := create_eq_ok.1 h
      by_cases hid : id = id'
      · subst hid
        simpa [hget] using Effect.created hne hnd
      · simpa [hid] using Effect.same _ _
  | transition id' role phase cause time =>
    simp only [apply]
    cases h : l.transition id' role phase cause time with
    | error => exact .same _ _
    | ok u =>
      obtain ⟨e, s, hget, hv, hr, ha, rfl⟩ := transition_eq_ok.1 h
      by_cases hid : id = id'
      · subst hid
        simpa [hget] using Effect.moved hv hr ha
      · simpa [hid] using Effect.same _ _
  | attach id' verdict =>
    simp only [apply]
    cases h : l.attach id' verdict with
    | error => exact .same _ _
    | ok u =>
      obtain ⟨e, hget, hc, hv, rfl⟩ := attach_eq_ok.1 h
      by_cases hid : id = id'
      · subst hid
        simpa [hget] using Effect.attached hc hv
      · simpa [hid] using Effect.same _ _
  | retire id' =>
    simp only [apply]
    cases h : l.retire id' with
    | error => exact .same _ _
    | ok r =>
      obtain ⟨e, hget, hc, hl, -⟩ := retire_eq_ok.1 (show l.retire id' = .ok (r.1, r.2) from h)
      by_cases hid : id = id'
      · subst hid
        simpa [hl, hget, Dictionary.get?_erase] using Effect.retired hc
      · simpa [hl, hid, Dictionary.get?_erase] using Effect.same _ _
  | read => exact .same _ _
  | isComplete => exact .same _ _
  | runs => exact .same _ _

/-- The run that a call may change. -/
def Call.runId? : Call → Option RunId
  | .create id .. | .transition id .. | .attach id _ | .retire id => some id
  | .read _ | .isComplete _ | .runs => none

theorem Effect.eq_of_ne {id : RunId} {c : Call} {x x' : Option LedgerEntry} (h : Effect id c x x')
    (hne : c.runId? ≠ some id) : x' = x := by
  cases h with
  | same => rfl
  | created | moved | attached | retired => exact absurd rfl hne

/-- What an attempt to move a role does to the entry of a run. -/
theorem Effect.of_transition {id id' : RunId} {role : Role} {phase : Phase} {cause : Option String}
    {time : Timestamp} {x x' : Option LedgerEntry}
    (h : Effect id (.transition id' role phase cause time) x x') :
    x' = x ∨ id' = id ∧ ∃ e s, x = some e ∧ e.verdict = none ∧ e.roles.get? role = some s ∧
      s.phase.allows phase = true ∧ x' = some (e.move role (s.advance phase cause time)) := by
  cases h with
  | same => exact .inl rfl
  | moved hv hr ha => exact .inr ⟨rfl, _, _, rfl, hv, hr, ha, rfl⟩

/-- **A call leaves all other runs alone.** -/
theorem get?_apply_of_ne (l : Ledger) {c : Call} {id : RunId} (hne : c.runId? ≠ some id) :
    (l.apply c).entries.get? id = l.entries.get? id :=
  (l.apply_effect c id).eq_of_ne hne

/-! ### Calls that keep the runs -/

/-- The two ledgers have the same runs with the same roles. -/
def Steady (l l' : Ledger) : Prop :=
  ∀ id, l.entries.get? id = none ∧ l'.entries.get? id = none ∨
    ∃ e e', l.entries.get? id = some e ∧ l'.entries.get? id = some e' ∧
      ∀ role, (e'.roles.get? role).isSome = (e.roles.get? role).isSome

theorem Steady.refl (l : Ledger) : l.Steady l := by
  intro id
  cases h : l.entries.get? id with
  | none => exact .inl ⟨rfl, rfl⟩
  | some e => exact .inr ⟨e, e, rfl, rfl, fun _ => rfl⟩

/-- The call neither enters a run nor removes one. -/
def Call.keepsRuns : Call → Bool
  | .create .. | .retire _ => false
  | .transition .. | .attach .. | .read _ | .isComplete _ | .runs => true

theorem steady_apply (l : Ledger) {c : Call} (hc : c.keepsRuns = true) : l.Steady (l.apply c) := by
  intro id
  have h := l.apply_effect c id
  generalize l.entries.get? id = x at h ⊢
  generalize (l.apply c).entries.get? id = x' at h ⊢
  cases h with
  | same =>
    cases x with
    | none => exact .inl ⟨rfl, rfl⟩
    | some e => exact .inr ⟨e, e, rfl, rfl, fun _ => rfl⟩
  | created | retired => cases hc
  | moved hv hr ha =>
    refine .inr ⟨_, _, rfl, rfl, fun role' => ?_⟩
    rw [LedgerEntry.move, Table.get?_set]
    split_ifs with h
    · rw [h, hr]
      rfl
    · rfl
  | attached hc' hv => exact .inr ⟨_, _, rfl, rfl, fun _ => rfl⟩

end Ledger

end ReviewPanel
