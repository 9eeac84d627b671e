import Mathlib.Logic.Relation
import ReviewPanel.Proofs.Ledger.Shape

/-!
# Revisions order the snapshots of a run

Snapshots of a run reach readers, callers and observers at any moment and in any order.  As long as they
belong to one life of the run, from its creation to its removal, their revisions say which of two is the
later one, and the later one contains every change of the earlier one.

## Main definitions

* `Ledger.Obtained` : the snapshots of one life of a run, by the ways in which somebody gets them.
* `RunState.ContainedIn` : every change of a snapshot is contained in another one.

## Main statements

* `Ledger.Effect.grows` : what one call adds to an entry; it changes nothing, or it raises the revision.
* `Ledger.grows_between` : what any number of calls adds.
* `Ledger.Obtained.taken_at` : every snapshot that somebody gets is the run at some moment of its life.
* `Ledger.contained_of_revision_le` : **a snapshot of a higher revision contains every change of a lower
  one**, and snapshots of the same revision are equal.

The proof: of two moments one comes first, and the entry only grows from there.  If the revisions are the
other way round they are equal, so nothing has changed in between.
-/

namespace ReviewPanel

/-! ### Containment -/

/-- A role can get from `a` to `b` by moves that are allowed. -/
def Phase.Reaches : Phase → Phase → Prop := Relation.ReflTransGen fun a b => a.allows b = true

namespace Status

/-- Every change of `s` is contained in `t`. -/
structure ContainedIn (s t : Status) : Prop where
  reaches : s.phase.Reaches t.phase
  startedAt : ∀ time, s.startedAt = some time → t.startedAt = some time
  eq_of_isTerminal : s.isTerminal = true → t = s

theorem ContainedIn.refl (s : Status) : s.ContainedIn s :=
  ⟨Relation.ReflTransGen.refl, fun _ h => h, fun _ => rfl⟩

theorem ContainedIn.trans {s t u : Status} (h : s.ContainedIn t) (h' : t.ContainedIn u) :
    s.ContainedIn u where
  reaches := Relation.ReflTransGen.trans h.reaches h'.reaches
  startedAt time hs := h'.startedAt time (h.startedAt time hs)
  eq_of_isTerminal hs := by
    have ht : t = s := h.eq_of_isTerminal hs
    rw [← ht] at hs ⊢
    exact h'.eq_of_isTerminal hs

theorem Fits.containedIn_advance {s : Status} (hs : s.Fits) {phase : Phase}
    (h : s.phase.allows phase = true) (cause : Option String) (time : Timestamp) :
    s.ContainedIn (s.advance phase cause time) where
  reaches := Relation.ReflTransGen.single h
  startedAt t ht := by
    -- only a pending role can begin to run, and it has no start yet
    by_cases hrun : phase = .running
    · have hpend : s.phase = .pending := by
        revert h
        rw [hrun]
        cases s.phase <;> decide
      simp only [Fits, hpend] at hs
      rw [hs.1] at ht
      cases ht
    · simp only [Status.advance, if_neg hrun, ht]
  eq_of_isTerminal ht := by
    have hnone : s.phase.next = [] := Phase.isTerminal_iff_next_eq_nil.1 ht
    simp [Phase.allows, hnone] at h

end Status

namespace RunState

/-- Every change of `s` is contained in `t`, and both are snapshots of runs with the same creation. -/
structure ContainedIn (s t : RunState) : Prop where
  runId_eq : t.runId = s.runId
  item_eq : t.item = s.item
  createdAt_eq : t.createdAt = s.createdAt
  keys_eq : t.roles.keys = s.roles.keys
  roles : ∀ role status, s.roles.get? role = some status →
    ∃ status', t.roles.get? role = some status' ∧ status.ContainedIn status'
  verdict : ∀ v, s.verdict = some v → t.verdict = some v

end RunState

namespace LedgerEntry

/-- What an entry becomes with time: it stays as it is, or it has a higher revision and contains every
change. -/
structure Grows (e e' : LedgerEntry) : Prop where
  item_eq : e'.item = e.item
  createdAt_eq : e'.createdAt = e.createdAt
  isSome_eq : ∀ role, (e'.roles.get? role).isSome = (e.roles.get? role).isSome
  roles : ∀ role status, e.roles.get? role = some status →
    ∃ status', e'.roles.get? role = some status' ∧ status.ContainedIn status'
  verdict : ∀ v, e.verdict = some v → e'.verdict = some v
  revision : e' = e ∨ e.revision < e'.revision

variable {e e' e'' : LedgerEntry}

theorem Grows.refl (e : LedgerEntry) : e.Grows e :=
  ⟨rfl, rfl, fun _ => rfl, fun _ status h => ⟨status, h, .refl status⟩, fun _ h => h, .inl rfl⟩

theorem Grows.trans (h : e.Grows e') (h' : e'.Grows e'') : e.Grows e'' where
  item_eq := h'.item_eq.trans h.item_eq
  createdAt_eq := h'.createdAt_eq.trans h.createdAt_eq
  isSome_eq role := (h'.isSome_eq role).trans (h.isSome_eq role)
  roles role status hs := by
    obtain ⟨status', hs', hc⟩ := h.roles role status hs
    obtain ⟨status'', hs'', hc'⟩ := h'.roles role status' hs'
    exact ⟨status'', hs'', hc.trans hc'⟩
  verdict v hv := h'.verdict v (h.verdict v hv)
  revision := by
    rcases h.revision with rfl | hlt
    · exact h'.revision
    · rcases h'.revision with rfl | hlt'
      · exact .inr hlt
      · exact .inr (hlt.trans hlt')

theorem Grows.revision_le (h : e.Grows e') : e.revision ≤ e'.revision := by
  rcases h.revision with rfl | hlt
  · exact Nat.le_refl _
  · exact Nat.le_of_lt hlt

theorem grows_move {role : Role} {s : Status} {phase : Phase} (hr : e.roles.get? role = some s)
    (hs : s.Fits) (ha : s.phase.allows phase = true) (cause : Option String) (now : Timestamp) :
    e.Grows (e.move role (s.advance phase cause now)) where
  item_eq := rfl
  createdAt_eq := rfl
  isSome_eq role' := by
    rw [move, Table.get?_set]
    split_ifs with h
    · rw [h, hr]
      rfl
    · rfl
  roles role' status hstatus := by
    rw [move, Table.get?_set]
    split_ifs with h
    · obtain rfl : s = status := Option.some.inj (hr.symm.trans (h ▸ hstatus))
      exact ⟨_, rfl, hs.containedIn_advance ha cause now⟩
    · exact ⟨status, hstatus, .refl status⟩
  verdict _ hv := hv
  revision := .inr (Nat.lt_succ_self e.revision)

theorem grows_withVerdict (hv : e.verdict = none) (verdict : VerdictRef) :
    e.Grows (e.withVerdict verdict) where
  item_eq := rfl
  createdAt_eq := rfl
  isSome_eq _ := rfl
  roles _ status hs := ⟨status, hs, .refl status⟩
  verdict v h := by
    rw [hv] at h
    cases h
  revision := .inr (Nat.lt_succ_self e.revision)

theorem Grows.contained (h : e.Grows e') (id : RunId) :
    (e.snapshot id).ContainedIn (e'.snapshot id) where
  runId_eq := rfl
  item_eq := h.item_eq
  createdAt_eq := h.createdAt_eq
  keys_eq := List.filter_congr fun role _ => h.isSome_eq role
  roles := h.roles
  verdict := h.verdict

end LedgerEntry

namespace Ledger

/-! ### What calls add to an entry -/

/-- **One call adds to an entry** that it leaves on the ledger, or changes nothing. -/
theorem Effect.grows {id : RunId} {c : Call} {e e' : LedgerEntry}
    (h : Effect id c (some e) (some e')) (hfits : ∀ role s, e.roles.get? role = some s → s.Fits) :
    e.Grows e' := by
  cases h with
  | same => exact .refl e
  | moved hv hr ha => exact LedgerEntry.grows_move hr (hfits _ _ hr) ha _ _
  | attached hc hv => exact LedgerEntry.grows_withVerdict hv _

/-- The run is an entry of the ledger after the first `n` calls of its life. -/
def Lives (id : RunId) (item : WorkItem) (roles : List Role) (time : Timestamp)
    (before later : List Call) (n : Nat) (e : LedgerEntry) : Prop :=
  CreatedBy id item roles time before (later.take n) ∧
    (after (before ++ .create id item roles time :: later.take n)).entries.get? id = some e

section Life

variable {id : RunId} {item : WorkItem} {roles : List Role} {time : Timestamp}
  {before later : List Call} {n : Nat} {e e' : LedgerEntry}

theorem after_take_succ {c : Call} (hc : later[n]? = some c) :
    after (before ++ .create id item roles time :: later.take (n + 1)) =
      (after (before ++ .create id item roles time :: later.take n)).apply c := by
  rw [List.take_add_one, hc, Option.toList_some, ← List.cons_append, ← List.append_assoc,
    after_concat]

theorem CreatedBy.take {m : Nat} (h : CreatedBy id item roles time before (later.take n))
    (hm : m ≤ n) : CreatedBy id item roles time before (later.take m) := by
  refine ⟨h.1, fun k => ?_⟩
  have hk := h.2 (min m k)
  rw [List.take_take] at hk ⊢
  rwa [show min (min m k) n = min k m by omega] at hk

theorem Lives.succ (h : Lives id item roles time before later n e) {c : Call}
    (hc : later[n]? = some c)
    (he' : ((after (before ++ .create id item roles time :: later.take n)).apply c).entries.get? id =
      some e') : Lives id item roles time before later (n + 1) e' := by
  rw [← after_take_succ hc] at he'
  refine ⟨?_, he'⟩
  have hstep : later.take (n + 1) = later.take n ++ [c] := by
    rw [List.take_add_one, hc]
    rfl
  rw [hstep] at he' ⊢
  exact h.1.concat (by rw [he']; rfl)

/-- Entries have the shape that the creation of their run gave them, all their life. -/
theorem Lives.sound (h : Lives id item roles time before later n e) :
    e.Sound item roles time := by
  obtain ⟨⟨⟨u, hu⟩, halive⟩, he⟩ := h
  -- induction along the life of the run, from its creation on
  have hall : ∀ k x, (after (before ++ .create id item roles time ::
      (later.take n).take k)).entries.get? id = some x → x.Sound item roles time := by
    intro k
    induction k with
    | zero =>
      intro x hx
      obtain ⟨hne, hnd, hfree, rfl⟩ := create_eq_ok.1 hu
      rw [List.take_zero, after_concat] at hx
      simp only [apply, hu, get?_put, if_pos, Option.some.injEq] at hx
      exact hx ▸ LedgerEntry.sound_fresh hne hnd
    | succ k ih =>
      intro x hx
      cases hc : (later.take n)[k]? with
      | none =>
        rw [List.take_add_one, hc, Option.toList_none, List.append_nil] at hx
        exact ih x hx
      | some c =>
        have heff := apply_effect
          (after (before ++ .create id item roles time :: (later.take n).take k)) c id
        rw [← after_take_succ hc, hx] at heff
        rcases heff.sound with ⟨y, hy, hkeep⟩ | ⟨hnone, -⟩
        · exact hkeep _ _ _ (ih y hy)
        · have hsome := halive k
          rw [hnone] at hsome
          cases hsome
  exact hall n e (by rwa [List.take_take, Nat.min_self])

/-- **Any number of calls adds to the entry of a run**, as long as it is not removed. -/
theorem grows_between {m : Nat} (hmn : m ≤ n) (h : Lives id item roles time before later m e)
    (h' : Lives id item roles time before later n e') : e.Grows e' := by
  induction n generalizing e' with
  | zero =>
    obtain rfl : m = 0 := Nat.le_zero.1 hmn
    rw [Option.some.inj (h'.2.symm.trans h.2)]
    exact .refl e
  | succ n ih =>
    rcases Nat.lt_or_ge n m with hlt | hge
    · obtain rfl : m = n + 1 := by omega
      rw [Option.some.inj (h'.2.symm.trans h.2)]
      exact .refl e
    · have hby := h'.1.take (Nat.le_succ n)
      obtain ⟨x, hx⟩ := Option.isSome_iff_exists.1 (hby.2 n)
      rw [List.take_take, Nat.min_self] at hx
      have hlives : Lives id item roles time before later n x := ⟨hby, hx⟩
      refine (ih hge hlives).trans ?_
      cases hc : later[n]? with
      | none =>
        have hsame := h'.2
        rw [List.take_add_one, hc, Option.toList_none, List.append_nil, hx] at hsame
        rw [Option.some.inj hsame]
        exact .refl _
      | some c =>
        have heff := apply_effect
          (after (before ++ .create id item roles time :: later.take n)) c id
        rw [← after_take_succ hc, hx, h'.2] at heff
        exact heff.grows hlives.sound.fits

end Life

/-! ### The snapshots that calls hand out -/

/-- The snapshot that a call returns to its caller. -/
def answer? (l : Ledger) : Call → Option RunState
  | .create id item roles time => (l.create id item roles time).toOption.map Update.answer
  | .attach id verdict => (l.attach id verdict).toOption.map Update.answer
  | .retire id => (l.retire id).toOption.map Prod.snd
  | .read id => (l.read id).toOption
  | .transition .. | .isComplete _ | .runs => none

/-- The snapshot that a call passes on to observers. -/
def published? (l : Ledger) : Call → Option RunState
  | .create id item roles time => (l.create id item roles time).toOption.map Update.published
  | .transition id role phase cause time =>
    (l.transition id role phase cause time).toOption.map Update.published
  | .attach id verdict => (l.attach id verdict).toOption.map Update.published
  | .retire _ | .read _ | .isComplete _ | .runs => none

theorem toOption_eq_some {ε α : Type} {x : Except ε α} {a : α} (h : x.toOption = some a) :
    x = .ok a := by
  cases x with
  | error => cases h
  | ok => exact congrArg _ (Option.some.inj h)

theorem read_of_published {l : Ledger} {c : Call} {s : RunState} (h : l.published? c = some s) :
    (l.apply c).read s.runId = .ok s := by
  cases c with
  | create id item roles time =>
    obtain ⟨u, hu, rfl⟩ := Option.map_eq_some_iff.1 h
    have hok := toOption_eq_some hu
    obtain ⟨-, -, -, rfl⟩ := create_eq_ok.1 hok
    simp only [apply, hok]
    exact read_eq_ok.2 ⟨_, by simp [LedgerEntry.snapshot], rfl⟩
  | transition id role phase cause time =>
    obtain ⟨u, hu, rfl⟩ := Option.map_eq_some_iff.1 h
    have hok := toOption_eq_some hu
    obtain ⟨e, status, -, -, -, -, rfl⟩ := transition_eq_ok.1 hok
    simp only [apply, hok]
    exact read_eq_ok.2 ⟨_, by simp [LedgerEntry.snapshot], rfl⟩
  | attach id verdict =>
    obtain ⟨u, hu, rfl⟩ := Option.map_eq_some_iff.1 h
    have hok := toOption_eq_some hu
    obtain ⟨e, -, -, -, rfl⟩ := attach_eq_ok.1 hok
    simp only [apply, hok]
    exact read_eq_ok.2 ⟨_, by simp [LedgerEntry.snapshot], rfl⟩
  | retire | read | isComplete | runs => cases h

/-- What a caller gets is the run as the call finds it or as the call leaves it. -/
theorem read_of_answer {l : Ledger} {c : Call} {s : RunState} (h : l.answer? c = some s) :
    l.read s.runId = .ok s ∨ (l.apply c).read s.runId = .ok s := by
  cases c with
  | create id item roles time =>
    obtain ⟨u, hu, rfl⟩ := Option.map_eq_some_iff.1 h
    obtain ⟨-, -, -, rfl⟩ := create_eq_ok.1 (toOption_eq_some hu)
    exact .inr (read_of_published (by simp only [published?, hu, Option.map_some]))
  | attach id verdict =>
    obtain ⟨u, hu, rfl⟩ := Option.map_eq_some_iff.1 h
    obtain ⟨e, -, -, -, rfl⟩ := attach_eq_ok.1 (toOption_eq_some hu)
    exact .inr (read_of_published (by simp only [published?, hu, Option.map_some]))
  | retire id =>
    obtain ⟨r, hr, rfl⟩ := Option.map_eq_some_iff.1 h
    obtain ⟨e, he, -, -, hs⟩ := retire_eq_ok.1 (show l.retire id = .ok (r.1, r.2) from
      toOption_eq_some hr)
    rw [hs]
    exact .inl (read_eq_ok.2 ⟨e, he, rfl⟩)
  | read id =>
    have hok := toOption_eq_some h
    obtain ⟨e, he, rfl⟩ := read_eq_ok.1 hok
    exact .inl (read_eq_ok.2 ⟨e, he, rfl⟩)
  | transition | isComplete | runs => cases h

/-! ### One life of a run -/

/-- The snapshots of one life of the run `id`: it began with the creation that follows the calls
`before`, and the calls `later` came after that.  No snapshot is taken once the run has been removed. -/
inductive Obtained (id : RunId) (item : WorkItem) (roles : List Role) (time : Timestamp)
    (before later : List Call) : RunState → Prop
  /-- The creation returns a snapshot and passes one on. -/
  | created {u : Update RunState} {s : RunState}
      (hu : (after before).create id item roles time = .ok u) (hs : s = u.answer ∨ s = u.published) :
      Obtained id item roles time before later s
  /-- A call returns a snapshot of the run. -/
  | answered {n : Nat} {c : Call} {s : RunState}
      (hby : CreatedBy id item roles time before (later.take n)) (hc : later[n]? = some c)
      (hs : (after (before ++ .create id item roles time :: later.take n)).answer? c = some s)
      (hid : s.runId = id) : Obtained id item roles time before later s
  /-- A call passes a snapshot of the run on to observers. -/
  | observed {n : Nat} {c : Call} {s : RunState}
      (hby : CreatedBy id item roles time before (later.take n)) (hc : later[n]? = some c)
      (hs : (after (before ++ .create id item roles time :: later.take n)).published? c = some s)
      (hid : s.runId = id) : Obtained id item roles time before later s
  /-- Somebody looks at the run between two calls, or an observer is told late, when other calls have
  been made since. -/
  | taken {n : Nat} {s : RunState} (hby : CreatedBy id item roles time before (later.take n))
      (hs : (after (before ++ .create id item roles time :: later.take n)).read id = .ok s) :
      Obtained id item roles time before later s

section Obtained

variable {id : RunId} {item : WorkItem} {roles : List Role} {time : Timestamp}
  {before later : List Call} {s t : RunState}

/-- The run as a call finds it, if it is in the middle of its life. -/
theorem CreatedBy.lives {n : Nat} (hby : CreatedBy id item roles time before (later.take n)) :
    ∃ e, Lives id item roles time before later n e := by
  obtain ⟨e, he⟩ := Option.isSome_iff_exists.1 (hby.2 n)
  rw [List.take_take, Nat.min_self] at he
  exact ⟨e, hby, he⟩

theorem lives_of_read {n : Nat} (hby : CreatedBy id item roles time before (later.take n))
    (hs : (after (before ++ .create id item roles time :: later.take n)).read id = .ok s) :
    ∃ e, Lives id item roles time before later n e ∧ s = e.snapshot id := by
  obtain ⟨e, he, rfl⟩ := read_eq_ok.1 hs
  exact ⟨e, ⟨hby, he⟩, rfl⟩

/-- A snapshot that shows the run right after a call is a snapshot of its life. -/
theorem lives_of_read_apply {n : Nat} {c : Call}
    (hby : CreatedBy id item roles time before (later.take n)) (hc : later[n]? = some c)
    (hs : ((after (before ++ .create id item roles time :: later.take n)).apply c).read id = .ok s) :
    ∃ e, Lives id item roles time before later (n + 1) e ∧ s = e.snapshot id := by
  obtain ⟨e, he, rfl⟩ := read_eq_ok.1 hs
  obtain ⟨x, hx⟩ := hby.lives
  exact ⟨e, hx.succ hc he, rfl⟩

/-- **Every snapshot that somebody gets is the run at some moment of its life.** -/
theorem Obtained.taken_at (h : Obtained id item roles time before later s) :
    ∃ n e, Lives id item roles time before later n e ∧ s = e.snapshot id := by
  cases h with
  | @created u _ hu hs =>
    obtain ⟨hne, hnd, hfree, rfl⟩ := create_eq_ok.1 hu
    have happ : (after (before ++ .create id item roles time :: later.take 0)).entries.get? id =
        some (.fresh item roles time) := by
      rw [List.take_zero, after_concat]
      simp only [apply, hu, get?_put, if_pos]
    refine ⟨0, .fresh item roles time, ⟨⟨⟨_, hu⟩, fun k => ?_⟩, happ⟩, ?_⟩
    · rw [List.take_zero, List.take_nil]
      rw [List.take_zero] at happ
      rw [happ]
      rfl
    · rcases hs with rfl | rfl <;> rfl
  | @answered n c _ hby hc hs hid =>
    subst hid
    rcases read_of_answer hs with hread | hread
    · exact ⟨n, lives_of_read hby hread⟩
    · exact ⟨n + 1, lives_of_read_apply hby hc hread⟩
  | @observed n c _ hby hc hs hid =>
    subst hid
    exact ⟨n + 1, lives_of_read_apply hby hc (read_of_published hs)⟩
  | @taken n _ hby hs => exact ⟨n, lives_of_read hby hs⟩

theorem Obtained.runId_eq (h : Obtained id item roles time before later s) : s.runId = id := by
  obtain ⟨-, e, -, rfl⟩ := h.taken_at
  rfl

theorem Obtained.eq_of_revision_eq (hs : Obtained id item roles time before later s)
    (ht : Obtained id item roles time before later t) (h : s.revision = t.revision) : s = t := by
  obtain ⟨m, e, he, rfl⟩ := hs.taken_at
  obtain ⟨n, e', he', rfl⟩ := ht.taken_at
  have heq : e = e' := by
    rcases Nat.le_total m n with hmn | hnm
    · rcases (grows_between hmn he he').revision with rfl | hlt
      · rfl
      · exact absurd h (Nat.ne_of_lt hlt)
    · rcases (grows_between hnm he' he).revision with rfl | hlt
      · rfl
      · exact absurd h.symm (Nat.ne_of_lt hlt)
  rw [heq]

/-- **Revisions order the snapshots of a run.**  Of two snapshots that belong to one life of the run,
the one with the higher revision contains every change of the other one, whichever was taken first and
however they were obtained; and snapshots of the same revision are equal. -/
theorem contained_of_revision_le (hs : Obtained id item roles time before later s)
    (ht : Obtained id item roles time before later t) :
    (s.revision ≤ t.revision → s.ContainedIn t) ∧ (s.revision = t.revision → s = t) := by
  refine ⟨fun hle => ?_, hs.eq_of_revision_eq ht⟩
  obtain ⟨m, e, he, hse⟩ := hs.taken_at
  obtain ⟨n, e', he', hte⟩ := ht.taken_at
  rcases Nat.le_total m n with hmn | hnm
  · rw [hse, hte]
    exact (grows_between hmn he he').contained id
  · -- taken later, and yet of no higher revision: nothing has changed in between
    have hge : t.revision ≤ s.revision := by
      rw [hse, hte]
      exact (grows_between hnm he' he).revision_le
    have heq : s = t := hs.eq_of_revision_eq ht (Nat.le_antisymm hle hge)
    rw [heq, hte]
    exact (LedgerEntry.Grows.refl e').contained id

end Obtained

/-- A time at which something happens. -/
def noon : Timestamp := ⟨2024, 5, 1, 12, 0, 0, 0⟩

/-- The first life of a run, from its creation to its removal. -/
def firstLife : List Call :=
  [.create "r" (.ofReference "a") [.build] noon, .transition "r" .build .running none noon,
    .transition "r" .build .complete none noon, .retire "r"]

/-- The calls of the second life of the run after its creation; one of them is refused. -/
def secondLife : List Call :=
  [.transition "r" .build .running none noon, .transition "r" .security .running none noon,
    .create "r" (.ofReference "c") [.build] noon, .transition "r" .build .failed (some "x") noon,
    .read "r"]

theorem createdBy_secondLife :
    CreatedBy "r" (.ofReference "b") [.build, .security] noon firstLife (secondLife.take 4) := by
  refine ⟨⟨_, rfl⟩, fun n => ?_⟩
  match n with
  | 0 => rfl
  | 1 => rfl
  | 2 => rfl
  | 3 => rfl
  | 4 => rfl
  | n + 5 =>
    have hall : (secondLife.take 4).take (n + 5) = secondLife.take 4 := rfl
    rw [hall]
    rfl

/-- In the second life of a run an observer is told of the first start when both roles have been
started, and a client reads the run after one of them has failed. -/
theorem contained_of_revision_le_late : ∃ s t,
    Obtained "r" (.ofReference "b") [.build, .security] noon firstLife secondLife s ∧
    Obtained "r" (.ofReference "b") [.build, .security] noon firstLife secondLife t ∧
    s.revision = 2 ∧ t.revision = 3 ∧ s.ContainedIn t := by
  have hs := Obtained.taken (createdBy_secondLife.take (m := 2) (by decide)) rfl
  have ht := Obtained.answered createdBy_secondLife rfl rfl rfl
  exact ⟨_, _, hs, ht, rfl, rfl, (contained_of_revision_le hs ht).1 (by decide)⟩

end Ledger

end ReviewPanel
