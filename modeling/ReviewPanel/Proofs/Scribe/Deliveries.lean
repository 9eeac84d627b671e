import ReviewPanel.Proofs.Ledger.Revisions
import ReviewPanel.Proofs.RunState
import ReviewPanel.Proofs.Scribe

/-!
# The state document follows the deliveries

Snapshots of a run arrive in any order and more than once, while the writer in the background takes and
writes them, the document is flushed, and the system refuses some of the writes.  Two guards keep the
document from going back: the registration remembers the newest snapshot only, and it writes nothing that
is no newer than what it wrote last.

## Main definitions

* `Scribe.Action` : what can happen to a registration, among it that the system changes its mind about
  which writes it refuses.
* `Registration.write?`, `Scribe.write?` : the write that an action attempts, and how it ends.
* `Registration.Follows` : the invariant that relates a registration and the document to what was
  delivered.

## Main statements

* `Registration.Follows.act` : one action keeps the invariant; `Registration.Follows.run` : so does
  every course of actions.
* `Scribe.document_follows_deliveries` : **the document shows delivered snapshots only and never goes
  back**; after a flush, or after a delivery that was written, it shows the newest one.
-/

namespace ReviewPanel

/-! ### The state document -/

theorem Disk.reachFrom_refusing (d : Disk) (refusal retention : Location → Option OsError)
    (names : List String) :
    ∀ start, reachFrom { d with refusal, retention } start names = d.reachFrom start names := by
  induction names with
  | nil => intro start; rfl
  | cons name names ih =>
    intro start
    have hnode : node? { d with refusal, retention } start = d.node? start := rfl
    simp only [reachFrom, hnode, ih]

namespace Workspace

/-- What is in the state document. -/
def statusContent (w : Workspace) (d : Disk) : Except OsError (List Symbol) :=
  d.fileContent (d.locate w.statusPath)

theorem statusContent_refusing (w : Workspace) (d : Disk) (refusal retention : Location → Option OsError) :
    w.statusContent { d with refusal, retention } = w.statusContent d := by
  have hlocate : Disk.locate { d with refusal, retention } w.statusPath = d.locate w.statusPath := rfl
  simp only [statusContent, Disk.fileContent, Disk.reach, hlocate, Disk.reachFrom_refusing]

/-- After a successful write the state document is the document of the snapshot. -/
theorem statusContent_of_writeStatus {w : Workspace} {d d' : Disk} {s : RunState}
    (h : w.writeStatus d s = .ok d') : w.statusContent d' = .ok s.document := by
  obtain ⟨hhere, hfile⟩ := Disk.replaceFile_eq_ok (writeDocument_eq_ok h) (by decide)
  have hplain : Path.Plain statusName := by decide
  rw [statusContent, statusPath, d'.locate_join _ hplain]
  simp only [Disk.locate, hhere] at hfile ⊢
  exact hfile

theorem readStatus_of_content {w : Workspace} {d : Disk} {s : RunState}
    (h : w.statusContent d = .ok s.document) (hs : s.Storable) : w.readStatus d = .ok s := by
  rw [statusContent] at h
  simp only [readStatus, readDocument, h, RunState.runText_document hs]

end Workspace

/-! ### What can happen to a registration -/

/-- What can happen to a registration. -/
inductive Scribe.Action where
  /-- A snapshot of the run arrives. -/
  | deliver (s : RunState)
  /-- The newest snapshot is written at once. -/
  | flush
  /-- The writer takes the newest snapshot. -/
  | take
  /-- The writer writes what it took. -/
  | persist
  /-- The system changes its mind about which writes it refuses. -/
  | refuse (refusal : Location → Option OsError)

/-- The snapshots that arrive in a course of actions. -/
def Scribe.Action.delivered : List Scribe.Action → List RunState :=
  List.filterMap fun
    | .deliver s => some s
    | _ => none

theorem Scribe.Action.delivered_append (as bs : List Scribe.Action) :
    delivered (as ++ bs) = delivered as ++ delivered bs :=
  List.filterMap_append

/-- What an action does to the disk by itself. -/
def Scribe.Action.onDisk (d : Disk) : Scribe.Action → Disk
  | .refuse refusal => { d with refusal }
  | _ => d

namespace Registration

open Scribe (Action)

/-- One action. -/
def act (r : Registration) (d : Disk) : Action → Registration × Disk
  | .deliver s => r.receive d s
  | .flush => r.flush d
  | .take => (r.take, d)
  | .persist => r.writeCarried d
  | .refuse refusal => (r, { d with refusal })

/-- What the registration remembers after an action, writing apart. -/
def note (r : Registration) : Action → Registration
  | .deliver s => if r.isNews s then { r with latest := some s, unseen := true } else r
  | .take => r.take
  | .persist => { r with carried := none }
  | .flush | .refuse _ => r

/-- The snapshot that is up for writing in an action. -/
def due? (r : Registration) : Action → Option RunState
  | .deliver s => if r.isNews s ∧ r.background = false then some s else none
  | .flush => r.latest
  | .persist => r.carried
  | .take | .refuse _ => none

/-- The write that a snapshot leads to, and how it ends; a stale one leads to none. -/
def attempt? (r : Registration) (d : Disk) (s : RunState) : Option (Except WorkspaceError Disk) :=
  if r.isStale s then none else some (r.workspace.writeStatus d s)

/-- The write that an action attempts, and how it ends. -/
def write? (r : Registration) (d : Disk) (a : Action) : Option (Except WorkspaceError Disk) :=
  (r.due? a).bind (r.attempt? d)

variable {w : Workspace} {r : Registration} {d d' : Disk} {s : RunState} {a : Action}

/-- **An action is a note, and perhaps a write.** -/
theorem act_eq (r : Registration) (d : Disk) (a : Action) :
    r.act d a = match r.due? a with
      | some s => (r.note a).persist d s
      | none => (r.note a, a.onDisk d) := by
  cases a with
  | deliver s =>
    simp only [act, receive, due?, note, Action.onDisk]
    by_cases hnews : r.isNews s = true
    · cases hbg : r.background with
      | true => simp [hnews]
      | false => simp [hnews]
    · simp [hnews]
  | flush =>
    simp only [act, flush, due?, note, Action.onDisk]
    cases r.latest <;> rfl
  | take => rfl
  | persist =>
    cases hc : r.carried with
    | none =>
      have hr : { r with carried := none } = r := by rw [← hc]
      simp only [act, writeCarried, due?, note, hc, hr, Action.onDisk]
    | some c => simp only [act, writeCarried, due?, note, hc]
  | refuse => rfl

theorem note_take (r : Registration) :
    r.take = r ∨ r.take = { r with carried := r.latest, unseen := false } := by
  unfold take
  split_ifs
  · exact .inr rfl
  · exact .inl rfl

theorem note_written (r : Registration) (a : Action) : (r.note a).written = r.written := by
  cases a with
  | deliver s => simp only [note]; split_ifs <;> rfl
  | take => rcases r.note_take with h | h <;> simp only [note, h]
  | flush | persist | refuse => rfl

theorem note_workspace (r : Registration) (a : Action) : (r.note a).workspace = r.workspace := by
  cases a with
  | deliver s => simp only [note]; split_ifs <;> rfl
  | take => rcases r.note_take with h | h <;> simp only [note, h]
  | flush | persist | refuse => rfl

theorem note_background (r : Registration) (a : Action) : (r.note a).background = r.background := by
  cases a with
  | deliver s => simp only [note]; split_ifs <;> rfl
  | take => rcases r.note_take with h | h <;> simp only [note, h]
  | flush | persist | refuse => rfl

theorem attempt?_note (r : Registration) (d : Disk) (a : Action) (s : RunState) :
    (r.note a).attempt? d s = r.attempt? d s := by
  have hstale : (r.note a).isStale s = r.isStale s := by
    unfold isStale
    rw [note_written]
  simp only [attempt?, hstale, note_workspace]

theorem persist_eq (r : Registration) (d : Disk) (s : RunState) :
    r.persist d s = match r.attempt? d s with
      | some (.ok d') => ({ r with written := some s.revision }, d')
      | _ => (r, d) := by
  unfold persist attempt?
  split_ifs
  · rfl
  · cases r.workspace.writeStatus d s <;> rfl

theorem attempt?_eq_some {x : Except WorkspaceError Disk} :
    r.attempt? d s = some x ↔ r.isStale s = false ∧ r.workspace.writeStatus d s = x := by
  unfold attempt?
  cases r.isStale s <;> simp

theorem attempt?_eq_none : r.attempt? d s = none ↔ r.isStale s = true := by
  unfold attempt?
  cases r.isStale s <;> simp

theorem isStale_iff : r.isStale s = true ↔ ∃ n, r.written = some n ∧ s.revision ≤ n := by
  unfold isStale
  cases r.written <;> simp

/-- A course of actions. -/
def run (x : Registration × Disk) (as : List Action) : Registration × Disk :=
  as.foldl (fun x a => x.1.act x.2 a) x

theorem run_append (x : Registration × Disk) (as bs : List Action) :
    run x (as ++ bs) = run (run x as) bs := List.foldl_append

/-! ### The invariant -/

/-- The registration follows the deliveries `ds`, in a workspace whose state document was `c` at first:
it knows the newest of them, its writer carries one of them, and the document shows the one that was
written last. -/
structure Follows (w : Workspace) (c : Except OsError (List Symbol)) (ds : List RunState)
    (r : Registration) (d : Disk) : Prop where
  workspace : r.workspace = w
  latest : ∀ l, r.latest = some l → l ∈ ds ∧ ∀ t ∈ ds, t.revision ≤ l.revision
  nothing : r.latest = none → ds = []
  carried : ∀ s, r.carried = some s → s ∈ ds
  unwritten : r.written = none → w.statusContent d = c
  written : ∀ n, r.written = some n → ∃ s ∈ ds, s.revision = n ∧ w.statusContent d = .ok s.document

variable {c : Except OsError (List Symbol)} {ds : List RunState}

theorem follows_ofWorkspace (w : Workspace) (background : Bool) (d : Disk) :
    Follows w (w.statusContent d) [] (ofWorkspace w background) d where
  workspace := rfl
  latest _ h := by cases h
  nothing _ := rfl
  carried _ h := by cases h
  unwritten _ := rfl
  written _ h := by cases h

/-- Handing over a delivered snapshot keeps the invariant. -/
theorem Follows.persist (h : Follows w c ds r d) (hs : s ∈ ds) :
    Follows w c ds (r.persist d s).1 (r.persist d s).2 := by
  rw [persist_eq]
  split
  · rename_i d' hattempt
    have hwrite : w.writeStatus d s = .ok d' := h.workspace ▸ (attempt?_eq_some.1 hattempt).2
    refine ⟨h.workspace, h.latest, h.nothing, h.carried, fun hw => ?_, fun n hn => ?_⟩
    · cases hw
    · exact ⟨s, hs, Option.some.inj hn, Workspace.statusContent_of_writeStatus hwrite⟩
  · exact h

/-- A snapshot that is newer than the newest one takes its place. -/
theorem Follows.news (h : Follows w c ds r d) (hs : r.isNews s = true) :
    Follows w c (ds ++ [s]) { r with latest := some s, unseen := true } d where
  workspace := h.workspace
  latest l hl := by
    obtain rfl := Option.some.inj hl
    refine ⟨by simp, fun t ht => ?_⟩
    rcases List.mem_append.1 ht with ht | ht
    · unfold isNews at hs
      cases hl : r.latest with
      | none =>
        rw [h.nothing hl] at ht
        cases ht
      | some l =>
        rw [hl] at hs
        exact ((h.latest l hl).2 t ht).trans (Nat.le_of_lt (of_decide_eq_true hs))
    · rw [List.mem_singleton.1 ht]
  nothing hl := by cases hl
  carried t ht := List.mem_append_left _ (h.carried t ht)
  unwritten := h.unwritten
  written n hn := by
    obtain ⟨t, ht, hrev, hcontent⟩ := h.written n hn
    exact ⟨t, List.mem_append_left _ ht, hrev, hcontent⟩

theorem Follows.old (h : Follows w c ds r d) (hs : ¬ r.isNews s = true) :
    Follows w c (ds ++ [s]) r d where
  workspace := h.workspace
  latest l hl := by
    refine ⟨List.mem_append_left _ (h.latest l hl).1, fun t ht => ?_⟩
    rcases List.mem_append.1 ht with ht | ht
    · exact (h.latest l hl).2 t ht
    · rw [List.mem_singleton.1 ht]
      simp only [isNews, hl, decide_eq_true_eq] at hs
      exact Nat.not_lt.1 hs
  nothing hl := by simp [isNews, hl] at hs
  carried t ht := List.mem_append_left _ (h.carried t ht)
  unwritten := h.unwritten
  written n hn := by
    obtain ⟨t, ht, hrev, hcontent⟩ := h.written n hn
    exact ⟨t, List.mem_append_left _ ht, hrev, hcontent⟩

theorem Follows.note (h : Follows w c ds r d) (a : Action) :
    Follows w c (ds ++ Action.delivered [a]) (r.note a) (a.onDisk d) := by
  cases a with
  | deliver s =>
    have hds : Action.delivered [.deliver s] = [s] := rfl
    rw [hds, Registration.note]
    split_ifs with hnews
    · exact h.news hnews
    · exact h.old hnews
  | flush =>
    rw [show Action.delivered [.flush] = [] from rfl, List.append_nil]
    exact h
  | take =>
    rw [show Action.delivered [.take] = [] from rfl, List.append_nil, Registration.note]
    rcases r.note_take with htake | htake
    · rw [htake]
      exact h
    · rw [htake]
      exact ⟨h.workspace, h.latest, h.nothing, fun s hs => (h.latest s hs).1, h.unwritten, h.written⟩
  | persist =>
    rw [show Action.delivered [.persist] = [] from rfl, List.append_nil]
    exact ⟨h.workspace, h.latest, h.nothing, fun _ hs => (by cases hs), h.unwritten, h.written⟩
  | refuse refusal =>
    rw [show Action.delivered [.refuse refusal] = [] from rfl, List.append_nil]
    refine ⟨h.workspace, h.latest, h.nothing, h.carried, ?_, ?_⟩
    · rw [Action.onDisk, w.statusContent_refusing]
      exact h.unwritten
    · rw [Action.onDisk, w.statusContent_refusing]
      exact h.written

theorem Follows.due (h : Follows w c ds r d) (hs : r.due? a = some s) :
    s ∈ ds ++ Action.delivered [a] := by
  cases a with
  | deliver t =>
    rw [due?] at hs
    split_ifs at hs
    rw [← Option.some.inj hs]
    simp [Action.delivered]
  | flush => exact List.mem_append_left _ (h.latest s hs).1
  | persist => exact List.mem_append_left _ (h.carried s hs)
  | take | refuse => cases hs

theorem onDisk_of_due (hs : r.due? a = some s) : a.onDisk d = d := by
  cases a with
  | refuse => cases hs
  | _ => rfl

/-- **One action keeps the invariant.** -/
theorem Follows.act (h : Follows w c ds r d) (a : Action) :
    Follows w c (ds ++ Action.delivered [a]) (r.act d a).1 (r.act d a).2 := by
  have hnote := h.note a
  rw [act_eq]
  cases hdue : r.due? a with
  | none => exact hnote
  | some s =>
    rw [onDisk_of_due hdue] at hnote
    exact hnote.persist (h.due hdue)

theorem Follows.run (as : List Action) : ∀ {r : Registration} {d : Disk} {ds : List RunState},
    Follows w c ds r d →
    Follows w c (ds ++ Action.delivered as) (run (r, d) as).1 (run (r, d) as).2 := by
  induction as with
  | nil =>
    intro r d ds h
    rw [show Action.delivered [] = [] from rfl, List.append_nil]
    exact h
  | cons a as ih =>
    intro r d ds h
    rw [← List.singleton_append, Action.delivered_append, ← List.append_assoc]
    exact ih (h.act a)

theorem written_persist (r : Registration) (d : Disk) (s : RunState) {n : Nat}
    (hn : r.written = some n) : ∃ m, (r.persist d s).1.written = some m ∧ n ≤ m := by
  rw [persist_eq]
  split
  · rename_i hattempt
    have hnew : ¬ s.revision ≤ n := fun hle => by
      have hstale := isStale_iff.2 ⟨n, hn, hle⟩
      rw [(attempt?_eq_some.1 hattempt).1] at hstale
      cases hstale
    exact ⟨s.revision, rfl, Nat.le_of_lt (Nat.not_le.1 hnew)⟩
  · exact ⟨n, hn, Nat.le_refl n⟩

/-- The revision that was written last never goes back. -/
theorem written_act (r : Registration) (d : Disk) (a : Action) {n : Nat} (hn : r.written = some n) :
    ∃ m, (r.act d a).1.written = some m ∧ n ≤ m := by
  have hnote : (r.note a).written = some n := (r.note_written a).trans hn
  rw [act_eq]
  cases r.due? a with
  | none => exact ⟨n, hnote, Nat.le_refl n⟩
  | some s => exact written_persist _ d s hnote

theorem written_run (as : List Action) : ∀ {r : Registration} {d : Disk} {n : Nat}, r.written = some n →
    ∃ m, (run (r, d) as).1.written = some m ∧ n ≤ m := by
  induction as with
  | nil => intro r d n hn; exact ⟨n, hn, Nat.le_refl n⟩
  | cons a as ih =>
    intro r d n hn
    obtain ⟨m, hm, hnm⟩ := written_act r d a hn
    obtain ⟨k, hk, hmk⟩ := ih hm
    exact ⟨k, hk, hnm.trans hmk⟩

/-! ### The newest snapshot -/

/-- If the write that a snapshot leads to does not fail, then it has been written, or a newer one. -/
theorem written_of_not_error (h : ∀ e, r.attempt? d s ≠ some (.error e)) :
    ∃ m, (r.persist d s).1.written = some m ∧ s.revision ≤ m := by
  rw [persist_eq]
  split
  · exact ⟨s.revision, rfl, Nat.le_refl _⟩
  · rename_i hno
    cases hattempt : r.attempt? d s with
    | none =>
      obtain ⟨n, hn, hle⟩ := isStale_iff.1 (attempt?_eq_none.1 hattempt)
      exact ⟨n, hn, hle⟩
    | some x =>
      cases x with
      | ok d' => exact absurd hattempt (hno d')
      | error e => exact absurd hattempt (h e)

/-- The document shows a snapshot of the greatest revision. -/
def ShowsNewest (w : Workspace) (ds : List RunState) (d : Disk) : Prop :=
  ∃ s ∈ ds, (∀ t ∈ ds, t.revision ≤ s.revision) ∧ w.statusContent d = .ok s.document

/-- Where the newest snapshot has been written, the document shows it. -/
theorem Follows.shows_newest (h : Follows w c ds r d) {l : RunState} (hl : r.latest = some l) {m : Nat}
    (hm : r.written = some m) (hle : l.revision ≤ m) : ShowsNewest w ds d := by
  obtain ⟨s, hs, hrev, hcontent⟩ := h.written m hm
  refine ⟨s, hs, fun t ht => ?_, hcontent⟩
  calc t.revision ≤ l.revision := (h.latest l hl).2 t ht
    _ ≤ m := hle
    _ = s.revision := hrev.symm

theorem persist_latest (r : Registration) (d : Disk) (s : RunState) :
    (r.persist d s).1.latest = r.latest := by
  rw [persist_eq]
  split <;> rfl

/-- If the newest snapshot is up for writing and the write does not fail, the document shows it. -/
theorem Follows.act_shows_newest (h : Follows w c ds r d) (hdue : r.due? a = some s)
    (hl : (r.note a).latest = some s) (hok : ∀ e, r.write? d a ≠ some (.error e)) :
    ShowsNewest w (ds ++ Action.delivered [a]) (r.act d a).2 := by
  have hact := h.act a
  have hnote : ∀ e, (r.note a).attempt? d s ≠ some (.error e) := by
    intro e
    have he := hok e
    rwa [write?, hdue, Option.bind_some, ← r.attempt?_note d a s] at he
  obtain ⟨m, hm, hle⟩ := written_of_not_error hnote
  have heq : r.act d a = (r.note a).persist d s := by rw [act_eq, hdue]
  rw [heq] at hact ⊢
  exact hact.shows_newest ((persist_latest _ d s).trans hl) hm hle

/-- The newest snapshot has been written, or a newer one. -/
def UpToDate (r : Registration) : Prop :=
  ∀ l, r.latest = some l → ∃ m, r.written = some m ∧ l.revision ≤ m

/-- **Without a writer in the background a registration is up to date** as long as no write fails. -/
theorem UpToDate.act (h : r.UpToDate) (hbg : r.background = false)
    (hok : ∀ e, r.write? d a ≠ some (.error e)) : (r.act d a).1.UpToDate := by
  have hnote : ∀ s, r.due? a = some s → ∀ e, (r.note a).attempt? d s ≠ some (.error e) := by
    intro s hdue e
    have he := hok e
    rwa [write?, hdue, Option.bind_some, ← r.attempt?_note d a s] at he
  have hmemory : r.due? a = none → (r.note a).latest = r.latest := by
    intro hdue
    cases a with
    | deliver s =>
      have hold : ¬ r.isNews s = true := fun hnews => by simp [due?, hnews, hbg] at hdue
      rw [note, if_neg hold]
    | take => rcases r.note_take with htake | htake <;> simp only [note, htake]
    | flush | persist | refuse => rfl
  intro l hl
  rw [act_eq] at hl ⊢
  cases hdue : r.due? a with
  | none =>
    rw [hdue] at hl
    obtain ⟨m, hm, hle⟩ := h l ((hmemory hdue).symm.trans hl)
    exact ⟨m, (r.note_written a).trans hm, hle⟩
  | some s =>
    rw [hdue] at hl
    dsimp only at hl ⊢
    rw [persist_latest] at hl
    cases a with
    | deliver t =>
      rw [due?] at hdue
      split_ifs at hdue with hnews
      obtain rfl := Option.some.inj hdue
      rw [note, if_pos hnews.1] at hl
      obtain rfl := Option.some.inj hl
      exact written_of_not_error (hnote t (if_pos hnews))
    | flush =>
      have hsl : s = l := Option.some.inj (hdue.symm.trans hl)
      exact hsl ▸ written_of_not_error (hnote s hdue)
    | persist =>
      -- what the writer carried is no newer than what has been written
      obtain ⟨m, hm, hle⟩ := h l hl
      obtain ⟨k, hk, hmk⟩ := written_persist (r.note .persist) d s ((r.note_written _).trans hm)
      exact ⟨k, hk, hle.trans hmk⟩
    | take | refuse => cases hdue

theorem act_background (r : Registration) (d : Disk) (a : Action) :
    (r.act d a).1.background = r.background := by
  rw [act_eq]
  cases r.due? a with
  | none => exact r.note_background a
  | some s =>
    rw [← r.note_background a]
    dsimp only
    rw [persist_eq]
    split <;> rfl

theorem run_background (as : List Action) : ∀ x : Registration × Disk,
    (run x as).1.background = x.1.background := by
  induction as with
  | nil => intro x; rfl
  | cons a as ih => intro x; exact (ih _).trans (act_background x.1 x.2 a)

theorem UpToDate.run {x : Registration × Disk} (h : x.1.UpToDate) (hbg : x.1.background = false)
    {as : List Action} (hok : ∀ bs a, bs ++ [a] <+: as →
      ∀ e, (Registration.run x bs).1.write? (Registration.run x bs).2 a ≠ some (.error e)) :
    (Registration.run x as).1.UpToDate := by
  induction as using List.reverseRecOn with
  | nil => exact h
  | append_singleton as a ih =>
    have hbefore : (Registration.run x as).1.UpToDate := ih fun bs b hbs e =>
      hok bs b (hbs.trans (List.prefix_append as [a])) e
    rw [run_append]
    exact hbefore.act ((run_background as x).trans hbg) (hok as a (List.prefix_refl _))

/-- Where something was delivered, a newest snapshot is known. -/
theorem Follows.exists_latest (h : Follows w c ds r d) (hds : ds ≠ []) : ∃ l, r.latest = some l := by
  cases hl : r.latest with
  | none => exact absurd (h.nothing hl) hds
  | some l => exact ⟨l, rfl⟩

/-! ### What the document shows -/

/-- Once the document shows a delivered snapshot, it never goes back. -/
theorem Follows.run_le (h : Follows w c ds r d) (as : List Action) :
    w.statusContent d = c ∨
      ∃ t ∈ ds, ∃ u ∈ ds ++ Action.delivered as, w.statusContent d = .ok t.document ∧
        w.statusContent (Registration.run (r, d) as).2 = .ok u.document ∧ t.revision ≤ u.revision := by
  cases hw : r.written with
  | none => exact .inl (h.unwritten hw)
  | some n =>
    obtain ⟨t, ht, rfl, hcontent⟩ := h.written n hw
    obtain ⟨m, hm, hle⟩ := written_run as (d := d) hw
    obtain ⟨u, hu, rfl, hcontent'⟩ := (h.run as).written m hm
    exact .inr ⟨t, ht, u, hu, hcontent, hcontent', hle⟩

/-- After a flush that did not fail the document shows the newest snapshot. -/
theorem Follows.flush_shows_newest (h : Follows w c ds r d) (hds : ds ≠ [])
    (hok : ∀ e, r.write? d .flush ≠ some (.error e)) : ShowsNewest w ds (r.act d .flush).2 := by
  obtain ⟨l, hl⟩ := h.exists_latest hds
  have hnewest := h.act_shows_newest (a := .flush) hl hl hok
  rwa [show Action.delivered [.flush] = [] from rfl, List.append_nil] at hnewest

/-- After a delivery that was written it shows the newest snapshot. -/
theorem Follows.deliver_shows_newest (h : Follows w c ds r d) {t : RunState} {d' : Disk}
    (hwrite : r.write? d (.deliver t) = some (.ok d')) :
    ShowsNewest w (ds ++ [t]) (r.act d (.deliver t)).2 := by
  have hnews : r.isNews t = true ∧ r.background = false := by
    by_contra hnot
    rw [write?, due?, if_neg hnot] at hwrite
    cases hwrite
  have hdue : r.due? (.deliver t) = some t := if_pos hnews
  have hl : (r.note (.deliver t)).latest = some t := by
    rw [Registration.note, if_pos hnews.1]
  refine h.act_shows_newest hdue hl fun e he => ?_
  rw [hwrite] at he
  cases he

theorem Follows.upToDate_shows_newest (h : Follows w c ds r d) (hds : ds ≠ []) (hup : r.UpToDate) :
    ShowsNewest w ds d := by
  obtain ⟨l, hl⟩ := h.exists_latest hds
  obtain ⟨m, hm, hle⟩ := hup l hl
  exact h.shows_newest hl hm hle

end Registration

/-! ### Scribes -/

namespace Scribe

/-- One action on the registration at position `i`, which is the present one of the run. -/
def act (id : RunId) (i : Nat) (x : Scribe × Disk) : Action → Scribe × Disk
  | .deliver s => x.1.receive x.2 s
  | .flush => x.1.flush x.2 id
  | .take => (x.1.take i, x.2)
  | .persist => x.1.persist x.2 i
  | .refuse refusal => (x.1, { x.2 with refusal })

/-- A run is registered, and then a course of actions follows. -/
def serve (s : Scribe) (d : Disk) (w : Workspace) (background : Bool) (as : List Action) :
    Scribe × Disk :=
  as.foldl (act w.runId s.registrations.length) (s.register w background, d)

/-- The write that an action on a run attempts, and how it ends. -/
def write? (x : Scribe × Disk) (id : RunId) (a : Action) : Option (Except WorkspaceError Disk) :=
  (x.1.registration? id).bind fun r => r.write? x.2 a

/-- The present registration of the run is `r`, at position `i`. -/
structure Holds (s : Scribe) (id : RunId) (i : Nat) (r : Registration) : Prop where
  registration : s.registrations[i]? = some r
  current : s.current.get? id = some i

variable {s : Scribe} {id : RunId} {i : Nat} {r : Registration} {d : Disk}

theorem Holds.update (h : s.Holds id i r) (f : Registration → Disk → Registration × Disk) :
    (s.update d i f).1.Holds id i (f r d).1 ∧ (s.update d i f).2 = (f r d).2 := by
  have hlt : i < s.registrations.length := (List.getElem?_eq_some_iff.1 h.registration).1
  simp only [Scribe.update, h.registration]
  exact ⟨⟨by simp [hlt], h.current⟩, trivial⟩

theorem Holds.act (h : s.Holds id i r) {a : Action} (ha : ∀ t ∈ Action.delivered [a], t.runId = id) :
    (Scribe.act id i (s, d) a).1.Holds id i (r.act d a).1 ∧
      (Scribe.act id i (s, d) a).2 = (r.act d a).2 := by
  cases a with
  | deliver t =>
    have ht : t.runId = id := ha t (by simp [Action.delivered])
    simp only [Scribe.act, receive, updateRun, ht, h.current]
    exact h.update _
  | flush =>
    simp only [Scribe.act, flush, updateRun, h.current]
    exact h.update _
  | take => exact ⟨⟨by simp [Scribe.act, take, h.registration, Registration.act], h.current⟩, rfl⟩
  | persist => exact h.update _
  | refuse => exact ⟨h, rfl⟩

theorem holds_register (s : Scribe) (w : Workspace) (background : Bool) :
    (s.register w background).Holds w.runId s.registrations.length (.ofWorkspace w background) :=
  ⟨by simp [register], by simp [register]⟩

theorem Holds.run (as : List Action) : ∀ {x : Scribe × Disk} {r : Registration}, x.1.Holds id i r →
    (∀ t ∈ Action.delivered as, t.runId = id) →
    (as.foldl (Scribe.act id i) x).1.Holds id i (Registration.run (r, x.2) as).1 ∧
      (as.foldl (Scribe.act id i) x).2 = (Registration.run (r, x.2) as).2 := by
  induction as with
  | nil => intro x r h _; exact ⟨h, rfl⟩
  | cons a as ih =>
    intro x r h has
    rw [show a :: as = [a] ++ as from rfl, Action.delivered_append] at has
    obtain ⟨hact, hdisk⟩ := h.act (d := x.2) fun t ht => has t (List.mem_append_left _ ht)
    have hrest := ih hact fun t ht => has t (List.mem_append_right _ ht)
    rw [hdisk] at hrest
    exact hrest

theorem serve_holds (s : Scribe) (d : Disk) (w : Workspace) (background : Bool) {as : List Action}
    (has : ∀ t ∈ Action.delivered as, t.runId = w.runId) :
    (s.serve d w background as).1.Holds w.runId s.registrations.length
        (Registration.run (.ofWorkspace w background, d) as).1 ∧
      (s.serve d w background as).2 = (Registration.run (.ofWorkspace w background, d) as).2 :=
  (s.holds_register w background).run as has

theorem serve_concat (s : Scribe) (d : Disk) (w : Workspace) (background : Bool) (as : List Action)
    (a : Action) : s.serve d w background (as ++ [a]) =
      act w.runId s.registrations.length (s.serve d w background as) a := by
  rw [serve, List.foldl_append]
  rfl

theorem Holds.write?_eq (h : s.Holds id i r) (a : Action) : write? (s, d) id a = r.write? d a := by
  have hr : s.registration? id = some r := by
    rw [registration?, h.current]
    exact h.registration
  rw [write?, hr]
  rfl

/-- The one snapshot of the greatest revision. -/
def Newest (ds : List RunState) (s : RunState) : Prop :=
  s ∈ ds ∧ ∀ t ∈ ds, t = s ∨ t.revision < s.revision

/-- In one life of a run a revision belongs to one snapshot. -/
theorem newest_of_le {item : WorkItem} {roles : List Role} {time : Timestamp}
    {before later : List Ledger.Call} {ds : List RunState}
    (hlife : ∀ t ∈ ds, Ledger.Obtained id item roles time before later t) {t : RunState} (ht : t ∈ ds)
    (hle : ∀ u ∈ ds, u.revision ≤ t.revision) : Newest ds t := by
  refine ⟨ht, fun u hu => ?_⟩
  rcases Nat.lt_or_eq_of_le (hle u hu) with hlt | heq
  · exact .inr hlt
  · exact .inl ((hlife u hu).eq_of_revision_eq (hlife t ht) heq)

/-- **The state document follows the deliveries.**  A run is registered, and snapshots of one life of it
arrive in any order, while the document is flushed, the writer in the background works, and some writes
fail.

* Unless the document is as it was at the beginning, it shows a delivered snapshot, and from then on
  the revision that it shows never goes back.
* After a flush in which no write fails it shows the newest delivered snapshot.
* Without a writer in the background it shows the newest delivered snapshot after every delivery that
  was written, and all the time as long as no write fails. -/
theorem document_follows_deliveries (s : Scribe) (d : Disk) (w : Workspace) (background : Bool)
    {item : WorkItem} {roles : List Role} {time : Timestamp} {before later : List Ledger.Call}
    (as : List Action)
    (hlife : ∀ t ∈ Action.delivered as, Ledger.Obtained w.runId item roles time before later t)
    (hstorable : ∀ t ∈ Action.delivered as, t.Storable) :
    (∀ bs, bs <+: as →
      w.statusContent (s.serve d w background bs).2 = w.statusContent d ∨
      ∃ t ∈ Action.delivered bs, ∃ u ∈ Action.delivered as,
        w.readStatus (s.serve d w background bs).2 = .ok t ∧
        w.readStatus (s.serve d w background as).2 = .ok u ∧ t.revision ≤ u.revision) ∧
    (Action.delivered as ≠ [] →
      (∀ e, write? (s.serve d w background as) w.runId .flush ≠ some (.error e)) →
      ∃ t, Newest (Action.delivered as) t ∧
        w.readStatus (s.serve d w background (as ++ [.flush])).2 = .ok t) ∧
    (background = false → ∀ bs t, as = bs ++ [.deliver t] →
      (∃ d', write? (s.serve d w background bs) w.runId (.deliver t) = some (.ok d')) →
      ∃ u, Newest (Action.delivered as) u ∧ w.readStatus (s.serve d w background as).2 = .ok u) ∧
    (background = false → Action.delivered as ≠ [] →
      (∀ bs a, bs ++ [a] <+: as →
        ∀ e, write? (s.serve d w background bs) w.runId a ≠ some (.error e)) →
      ∃ t, Newest (Action.delivered as) t ∧ w.readStatus (s.serve d w background as).2 = .ok t) := by
  -- the registration on its own, at every moment of the course
  let x (bs : List Action) := Registration.run (.ofWorkspace w background, d) bs
  have hsub : ∀ {bs}, bs <+: as → ∀ t ∈ Action.delivered bs, t ∈ Action.delivered as := by
    rintro bs ⟨cs, rfl⟩ t ht
    rw [Action.delivered_append]
    exact List.mem_append_left _ ht
  have hserve : ∀ {bs}, bs <+: as →
      (s.serve d w background bs).1.Holds w.runId s.registrations.length (x bs).1 ∧
        (s.serve d w background bs).2 = (x bs).2 := fun hbs =>
    s.serve_holds d w background fun t ht => (hlife t (hsub hbs t ht)).runId_eq
  have hwrite : ∀ {bs}, bs <+: as → ∀ a,
      write? (s.serve d w background bs) w.runId a = (x bs).1.write? (x bs).2 a := by
    intro bs hbs a
    have h := (hserve hbs).1.write?_eq (d := (s.serve d w background bs).2) a
    rw [(hserve hbs).2] at h
    rw [← h, ← (hserve hbs).2]
  have hfollows : ∀ bs,
      Registration.Follows w (w.statusContent d) (Action.delivered bs) (x bs).1 (x bs).2 := fun bs =>
    (Registration.follows_ofWorkspace w background d).run bs
  have hread : ∀ {d' t}, t ∈ Action.delivered as → w.statusContent d' = .ok t.document →
      w.readStatus d' = .ok t := fun ht hcontent =>
    Workspace.readStatus_of_content hcontent (hstorable _ ht)
  have hnewest : ∀ {d'}, Registration.ShowsNewest w (Action.delivered as) d' →
      ∃ t, Newest (Action.delivered as) t ∧ w.readStatus d' = .ok t := by
    rintro d' ⟨t, ht, hle, hcontent⟩
    exact ⟨t, newest_of_le hlife ht hle, hread ht hcontent⟩
  have hself : as <+: as := List.prefix_refl as
  refine ⟨fun bs hbs => ?_, fun hne hok => ?_, fun hbg bs t has hok => ?_, fun hbg hne hok => ?_⟩
  · rw [(hserve hbs).2, (hserve hself).2]
    obtain ⟨cs, rfl⟩ := hbs
    refine ((hfollows bs).run_le cs).imp_right ?_
    rintro ⟨t, ht, u, hu, hcontent, hcontent', hle⟩
    rw [← Action.delivered_append] at hu
    rw [show Registration.run ((x bs).1, (x bs).2) cs = x (bs ++ cs) from
      (Registration.run_append _ bs cs).symm] at hcontent'
    exact ⟨t, ht, u, hu, hread (hsub (List.prefix_append bs cs) t ht) hcontent, hread hu hcontent',
      hle⟩
  · have hdisk : (s.serve d w background (as ++ [.flush])).2 = ((x as).1.act (x as).2 .flush).2 := by
      rw [serve_concat, ((hserve hself).1.act (by simp [Action.delivered])).2, (hserve hself).2]
    simp only [hwrite hself] at hok
    rw [hdisk]
    exact hnewest ((hfollows as).flush_shows_newest hne hok)
  · subst has
    obtain ⟨d', hd'⟩ := hok
    rw [hwrite (List.prefix_append bs _)] at hd'
    have hdisk : x (bs ++ [.deliver t]) = (x bs).1.act (x bs).2 (.deliver t) :=
      Registration.run_append _ bs _
    have hshows := (hfollows bs).deliver_shows_newest hd'
    rw [show [t] = Action.delivered [.deliver t] from rfl, ← Action.delivered_append] at hshows
    rw [(hserve hself).2, hdisk]
    exact hnewest hshows
  · have hup : (x as).1.UpToDate := by
      refine Registration.UpToDate.run (fun l hl => by cases hl) hbg fun bs a hbs e => ?_
      have he := hok bs a hbs e
      rwa [hwrite ((List.prefix_append bs [a]).trans hbs)] at he
    rw [(hserve hself).2]
    exact hnewest ((hfollows as).upToDate_shows_newest hne hup)

/-! ### A course with a late delivery and a failing write -/

section LateDelivery

open Ledger (Obtained noon firstLife secondLife createdBy_secondLife)

/-- The entry of a run in its second life, with both roles running. -/
def bothRunning : LedgerEntry :=
  ((LedgerEntry.fresh (.ofReference "b") [.build, .security] noon).move .build
    ⟨.running, some noon, none, none⟩).move .security ⟨.running, some noon, none, none⟩

/-- The entry after one of them has failed. -/
def buildFailed : LedgerEntry := bothRunning.move .build ⟨.failed, some noon, some noon, some "x"⟩

/-- The newer snapshot arrives first, its write fails, and the older one comes late. -/
def lateCourse : List Action :=
  [.deliver (buildFailed.snapshot "r"), .take, .refuse fun _ => some .permissionDenied, .persist,
    .deliver (bothRunning.snapshot "r"), .refuse fun _ => none]

/-- A disk with nothing but the directory of the run. -/
def emptyDesk : Disk :=
  { Disk.blank with nodes := [(["runs", "r"], .directory), (["runs"], .directory)] }

theorem document_follows_deliveries_after_late :
    (∀ t ∈ Action.delivered lateCourse,
      Obtained "r" (.ofReference "b") [.build, .security] noon firstLife secondLife t) ∧
    (∀ t ∈ Action.delivered lateCourse, t.Storable) ∧
    Workspace.readStatus ⟨"r", "runs/r"⟩
        (serve .empty emptyDesk ⟨"r", "runs/r"⟩ true (lateCourse ++ [.flush])).2 =
      .ok (buildFailed.snapshot "r") := by
  have hds : Action.delivered lateCourse = [buildFailed.snapshot "r", bothRunning.snapshot "r"] := rfl
  have hfailed : Obtained "r" (.ofReference "b") [.build, .security] noon firstLife secondLife
      (buildFailed.snapshot "r") := .answered createdBy_secondLife rfl rfl rfl
  have hrunning : Obtained "r" (.ofReference "b") [.build, .security] noon firstLife secondLife
      (bothRunning.snapshot "r") := .taken (createdBy_secondLife.take (m := 2) (by decide)) rfl
  have hlife : ∀ t ∈ Action.delivered lateCourse,
      Obtained "r" (.ofReference "b") [.build, .security] noon firstLife secondLife t := by
    rw [hds]
    exact List.forall_mem_cons.2 ⟨hfailed, List.forall_mem_singleton.2 hrunning⟩
  have hstorable : ∀ t ∈ Action.delivered lateCourse, t.Storable := by
    rw [hds]
    decide
  refine ⟨hlife, hstorable, ?_⟩
  obtain ⟨t, ht, hread⟩ := (document_follows_deliveries .empty emptyDesk ⟨"r", "runs/r"⟩ true
    lateCourse hlife hstorable).2.1 (by rw [hds]; simp) fun e he => by cases he
  rw [hds] at ht
  rcases ht.2 _ List.mem_cons_self with rfl | hlt
  · exact hread
  · -- nothing that was delivered is newer
    have hall : ∀ u ∈ [buildFailed.snapshot "r", bothRunning.snapshot "r"],
        ¬ (buildFailed.snapshot "r").revision < u.revision := by decide
    exact absurd hlt (hall t ht.1)

end LateDelivery

end Scribe

end ReviewPanel
