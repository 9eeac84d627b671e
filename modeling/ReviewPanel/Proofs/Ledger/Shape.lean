import Mathlib.Data.List.Induction
import ReviewPanel.Proofs.Ledger.Calls
import ReviewPanel.Proofs.Table

/-!
# The shape of every run on a ledger

Whatever calls are made on a ledger, in whatever order and whether they are accepted or refused, each
run keeps the shape that its creation gave it:

* its roles, unit of work and time of creation are those of the call that created it,
* the times and the cause of a role fit its phase (`Status.Fits`),
* a verdict is attached only when every role has ended, and
* the revision counts the changes: a role that runs stands for one, a role that has ended for two, the
  verdict for one more (`Phase.age`).

## Main statements

* `LedgerEntry.Sound` : the shape of an entry, given the call that created it.
* `Ledger.Effect.sound` : what one call preserves.
* `Ledger.exists_create` : every entry goes back to an accepted call of `create`, since which the run
  has never left the ledger.
* `Ledger.shape_of_read` : **every snapshot has the shape of its run**, after any sequence of calls.

The proof: the only calls that touch an entry are listed by `Ledger.Effect`; the revision grows by one
with each of them, and so does the sum of the ages.
-/

namespace ReviewPanel

/-- Number of changes that lead a role to the phase. -/
def Phase.age : Phase → Nat
  | .pending => 0
  | .running => 1
  | .complete | .failed | .timedOut => 2

namespace Phase

theorem age_le_two (p : Phase) : p.age ≤ 2 := by
  cases p <;> decide

theorem age_of_allows {a b : Phase} (h : a.allows b = true) : b.age = a.age + 1 := by
  revert h
  cases a <;> cases b <;> decide

end Phase

namespace Status

/-- The times and the cause of a status fit its phase. -/
def Fits (s : Status) : Prop :=
  match s.phase with
  | .pending => s.startedAt = none ∧ s.completedAt = none ∧ s.cause = none
  | .running => s.startedAt.isSome = true ∧ s.completedAt = none ∧ s.cause = none
  | .complete | .failed | .timedOut => s.startedAt.isSome = true ∧ s.completedAt.isSome = true

theorem fits_pending : Status.pending.Fits := ⟨rfl, rfl, rfl⟩

theorem Fits.advance {s : Status} (hs : s.Fits) {phase : Phase} (h : s.phase.allows phase = true)
    (cause : Option String) (time : Timestamp) : (s.advance phase cause time).Fits := by
  obtain ⟨p, started, completed, c⟩ := s
  -- only five of the twenty-five pairs of phases are allowed
  cases p <;> cases phase <;> simp [Phase.allows, Phase.next] at h <;>
    simp_all [Fits, Status.advance, Phase.isTerminal]

end Status

namespace LedgerEntry

/-- Number of changes that a run shows: those of its roles, and the verdict. -/
def changes (roles : Table Role Status) (verdict : Option VerdictRef) : Nat :=
  (roles.values.map fun s => s.phase.age).sum + if verdict.isSome then 1 else 0

/-- The shape of an entry that was created with `item` and `roles` at `time`. -/
structure Sound (item : WorkItem) (roles : List Role) (time : Timestamp) (e : LedgerEntry) :
    Prop where
  item_eq : e.item = item
  createdAt_eq : e.createdAt = time
  ne_nil : roles ≠ []
  nodup : roles.Nodup
  keys : ∀ role, (e.roles.get? role).isSome = true ↔ role ∈ roles
  fits : ∀ role s, e.roles.get? role = some s → s.Fits
  complete_of_verdict : e.verdict.isSome = true → e.isComplete = true
  revision_eq : e.revision = changes e.roles e.verdict

variable {item : WorkItem} {roles : List Role} {time : Timestamp} {e : LedgerEntry}

theorem sum_age_ofKeys_pending (roles : List Role) :
    (((Table.ofKeys roles Status.pending).values).map fun s => s.phase.age).sum = 0 := by
  rw [List.sum_eq_zero_iff_forall_eq_nat]
  intro n hn
  obtain ⟨s, hs, rfl⟩ := List.mem_map.1 hn
  obtain ⟨role, hrole⟩ := Table.mem_values.1 hs
  rw [Table.get?_ofKeys] at hrole
  split_ifs at hrole
  rw [← Option.some.inj hrole]
  rfl

theorem sound_fresh (hne : roles ≠ []) (hnd : roles.Nodup) :
    Sound item roles time (fresh item roles time) where
  item_eq := rfl
  createdAt_eq := rfl
  ne_nil := hne
  nodup := hnd
  keys role := by
    simp only [fresh, Table.get?_ofKeys]
    split_ifs with h <;> simp [h]
  fits role s hs := by
    simp only [fresh, Table.get?_ofKeys] at hs
    split_ifs at hs
    rw [← Option.some.inj hs]
    exact Status.fits_pending
  complete_of_verdict h := by simp [fresh] at h
  revision_eq := by simp [fresh, changes, sum_age_ofKeys_pending]

theorem Sound.move (h : Sound item roles time e) {role : Role} {s : Status} {phase : Phase}
    (hv : e.verdict = none) (hr : e.roles.get? role = some s) (ha : s.phase.allows phase = true)
    (cause : Option String) (now : Timestamp) :
    Sound item roles time (e.move role (s.advance phase cause now)) where
  item_eq := h.item_eq
  createdAt_eq := h.createdAt_eq
  ne_nil := h.ne_nil
  nodup := h.nodup
  keys role' := by
    rw [LedgerEntry.move, Table.get?_set]
    split_ifs with hrole
    · subst hrole
      rw [← h.keys, hr]
      simp
    · exact h.keys role'
  fits role' s' hs' := by
    rw [LedgerEntry.move, Table.get?_set] at hs'
    split_ifs at hs'
    · rw [← Option.some.inj hs']
      exact (h.fits role s hr).advance ha cause now
    · exact h.fits role' s' hs'
  complete_of_verdict hv' := by simp [LedgerEntry.move, hv] at hv'
  revision_eq := by
    have hsum := Table.sum_values_set (fun s : Status => s.phase.age) hr (s.advance phase cause now)
    have hage : (s.advance phase cause now).phase.age = s.phase.age + 1 := Phase.age_of_allows ha
    have hrev := h.revision_eq
    simp only [LedgerEntry.move, changes, hv] at hrev ⊢
    omega

theorem Sound.withVerdict (h : Sound item roles time e) (hc : e.isComplete = true)
    (hv : e.verdict = none) (verdict : VerdictRef) :
    Sound item roles time (e.withVerdict verdict) where
  item_eq := h.item_eq
  createdAt_eq := h.createdAt_eq
  ne_nil := h.ne_nil
  nodup := h.nodup
  keys := h.keys
  fits := h.fits
  complete_of_verdict _ := hc
  revision_eq := by
    have hrev := h.revision_eq
    simp only [LedgerEntry.withVerdict, changes, hv] at hrev ⊢
    simpa using hrev

end LedgerEntry

namespace Ledger

/-- **One call preserves the shape** of every entry that it leaves on the ledger, and an entry that was
not there before comes from a call of `create`. -/
theorem Effect.sound {id : RunId} {c : Call} {x : Option LedgerEntry} {e' : LedgerEntry}
    (h : Effect id c x (some e')) :
    (∃ e, x = some e ∧ ∀ item roles time, e.Sound item roles time → e'.Sound item roles time) ∨
      x = none ∧ ∃ item roles time, c = .create id item roles time ∧
        e'.Sound item roles time := by
  cases h with
  | same => exact .inl ⟨e', rfl, fun _ _ _ h => h⟩
  | created hne hnd => exact .inr ⟨rfl, _, _, _, rfl, LedgerEntry.sound_fresh hne hnd⟩
  | @moved e role s phase cause time hv hr ha =>
    exact .inl ⟨e, rfl, fun _ _ _ h => h.move hv hr ha cause time⟩
  | @attached e verdict hc hv => exact .inl ⟨e, rfl, fun _ _ _ h => h.withVerdict hc hv verdict⟩

/-- The run `id` was created by the call that comes after `before`, and has been on the ledger ever
since, through all the calls of `later`. -/
def CreatedBy (id : RunId) (item : WorkItem) (roles : List Role) (time : Timestamp)
    (before later : List Call) : Prop :=
  (∃ u, (after before).create id item roles time = .ok u) ∧
    ∀ n, ((after (before ++ .create id item roles time :: later.take n)).entries.get? id).isSome
      = true

theorem CreatedBy.concat {id : RunId} {item : WorkItem} {roles : List Role} {time : Timestamp}
    {before later : List Call} {c : Call} (h : CreatedBy id item roles time before later)
    (hc : ((after (before ++ .create id item roles time :: (later ++ [c]))).entries.get? id).isSome
      = true) :
    CreatedBy id item roles time before (later ++ [c]) := by
  refine ⟨h.1, fun n => ?_⟩
  by_cases hn : n ≤ later.length
  · rw [List.take_append_of_le_length hn]
    exact h.2 n
  · rw [List.take_of_length_le (by simp; omega)]
    exact hc

/-- **Every entry goes back to its creation**, and has the shape that the creation gave it. -/
theorem exists_create (cs : List Call) (id : RunId) :
    ∀ e, (after cs).entries.get? id = some e →
      ∃ before item roles time later, cs = before ++ .create id item roles time :: later ∧
        CreatedBy id item roles time before later ∧ e.Sound item roles time := by
  -- induction on the history from its end: the last call is the one that `Effect` speaks of
  induction cs using List.reverseRecOn with
  | nil => intro e he; simp [empty] at he
  | append_singleton cs c ih =>
    intro e' he'
    have heff := apply_effect (after cs) c id
    rw [← after_concat, he'] at heff
    rcases heff.sound with ⟨e, he, hsound⟩ | ⟨hnone, item, roles, time, rfl, hsound⟩
    · obtain ⟨before, item, roles, time, later, rfl, hby, hs⟩ := ih e he
      refine ⟨before, item, roles, time, later ++ [c], by simp, hby.concat ?_, hsound _ _ _ hs⟩
      rw [← List.cons_append, ← List.append_assoc, he']
      rfl
    · have hok : ∃ u, (after cs).create id item roles time = .ok u :=
        ⟨_, create_eq_ok.2 ⟨hsound.ne_nil, hsound.nodup, hnone, rfl⟩⟩
      refine ⟨cs, item, roles, time, [], rfl, ⟨hok, fun n => ?_⟩, hsound⟩
      rw [List.take_nil, he']
      rfl

end Ledger

/-- What a snapshot of the run `id` shows if the run was created with `item` and `roles` at
`time`. -/
structure RunState.Shape (id : RunId) (item : WorkItem) (roles : List Role) (time : Timestamp)
    (s : RunState) : Prop where
  runId_eq : s.runId = id
  item_eq : s.item = item
  createdAt_eq : s.createdAt = time
  keys_ne_nil : s.roles.keys ≠ []
  mem_keys : ∀ role, role ∈ s.roles.keys ↔ role ∈ roles
  fits : ∀ role status, s.roles.get? role = some status → status.Fits
  ended_of_verdict : s.verdict.isSome = true →
    ∀ role status, s.roles.get? role = some status → status.isTerminal = true
  revision_eq : s.revision = LedgerEntry.changes s.roles s.verdict
  revision_le : s.revision ≤ 2 * roles.length + 1
  /-- The revision fits a machine word. -/
  revision_lt : s.revision < 2 ^ 64

theorem LedgerEntry.changes_le (roles : Table Role Status) (verdict : Option VerdictRef) :
    changes roles verdict ≤ 2 * roles.keys.length + 1 := by
  have h := Table.sum_values_le (fun s : Status => s.phase.age) roles (fun s => s.phase.age_le_two)
  unfold changes
  split_ifs <;> omega

theorem LedgerEntry.Sound.shape {item : WorkItem} {roles : List Role} {time : Timestamp}
    {e : LedgerEntry} (h : e.Sound item roles time) (id : RunId) :
    (e.snapshot id).Shape id item roles time := by
  have hmem : ∀ role, role ∈ e.roles.keys ↔ role ∈ roles := fun role => by
    rw [Table.mem_keys, h.keys]
  have hperm : e.roles.keys.Perm roles :=
    (List.perm_ext_iff_of_nodup e.roles.nodup_keys h.nodup).2 hmem
  have hle : e.revision ≤ 2 * e.roles.keys.length + 1 := h.revision_eq ▸ changes_le _ _
  have hsix : e.roles.keys.length ≤ 6 := List.length_filter_le _ _
  exact {
    runId_eq := rfl
    item_eq := h.item_eq
    createdAt_eq := h.createdAt_eq
    keys_ne_nil := fun hnil => h.ne_nil (hnil ▸ hperm).nil_eq.symm
    mem_keys := hmem
    fits := h.fits
    ended_of_verdict := fun hv => isComplete_iff.1 (h.complete_of_verdict hv)
    revision_eq := h.revision_eq
    revision_le := hperm.length_eq ▸ hle
    revision_lt := Nat.lt_of_le_of_lt (show e.revision ≤ 13 by omega) (by decide) }

namespace Ledger

/-- **Every snapshot has the shape of its run.**  After any sequence of calls on an empty ledger, a
run that can be read was created by one of the calls, has been on the ledger ever since, and shows
what that call and the changes since then allow. -/
theorem shape_of_read (cs : List Call) (id : RunId) (s : RunState)
    (h : (after cs).read id = .ok s) :
    ∃ before item roles time later, cs = before ++ .create id item roles time :: later ∧
      CreatedBy id item roles time before later ∧ s.Shape id item roles time := by
  obtain ⟨e, he, rfl⟩ := read_eq_ok.1 h
  obtain ⟨before, item, roles, time, later, hcs, hby, hsound⟩ := exists_create cs id e he
  exact ⟨before, item, roles, time, later, hcs, hby, hsound.shape id⟩

/-- A run is sealed, retired and created again; its second life has the shape of the second call. -/
theorem shape_of_read_again : ∃ cs t s,
    cs = [.create "r" (.ofReference "a") [.build] t, .create "r" (.ofReference "b") [.security] t,
      .transition "r" .build .running none t, .transition "r" .build .failed (some "c") t,
      .transition "r" .build .complete none t, .attach "r" ⟨.go, 0, [], "v"⟩, .retire "r",
      .create "r" (.ofReference "d") [.coverage, .security] t,
      .transition "r" .security .running none t, .attach "r" ⟨.go, 0, [], "v"⟩,
      .transition "r" .security .timedOut none t, .transition "r" .coverage .running none t] ∧
    (after cs).read "r" = .ok s ∧ s.item = .ofReference "d" ∧ s.revision = 3 ∧
    ∃ before item roles time later, cs = before ++ .create "r" item roles time :: later ∧
      CreatedBy "r" item roles time before later ∧ s.Shape "r" item roles time := by
  refine ⟨_, ⟨2024, 5, 1, 12, 0, 0, 0⟩, _, rfl, rfl, rfl, rfl, ?_⟩
  exact shape_of_read _ _ _ rfl

end Ledger

end ReviewPanel
