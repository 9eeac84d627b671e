import Mathlib.Data.List.Basic
import Mathlib.Tactic.SplitIfs
import ReviewPanel.Reduction

/-!
# What a verdict says

The pass over the roles of a run keeps running counts.  Here is what they add up to: with the findings
of all roles that are heard in one list (`Reduction.records`), every number of the verdict is the number
of members of that list of some kind, and the blockers are its blocking members
(`Verdict.ofRecords`).

## Main definitions

* `Reduction.heard`, `Reduction.records` : the findings that count.
* `Tally.ofRecords`, `Verdict.ofRecords` : the tally and the verdict of a list of findings.

## Main statements

* `Reduction.run_eq` : the pass computes the roles that are heard, the others, and the tally of the
  findings that count.
* `Verdict.reduce_eq_ofRecords` : **the verdict of a run is the verdict of the findings that count.**
* `Verdict.reduce_congr` : it depends on nothing but the roles and the findings of those that finished.
* `Verdict.mem_blockers`, `Verdict.recommendation_eq_blocked` : blocking findings.
-/

namespace ReviewPanel

/-- The tally of a list of findings. -/
def Tally.ofRecords (xs : List (Role × Finding)) : Tally where
  bySeverity s := xs.countP fun x => x.2.isViolation ∧ x.2.severity = s
  byClassification c := xs.countP fun x => x.2.classification = c
  cell c s := xs.countP fun x => x.2.classification = c ∧ x.2.severity = s
  total := xs.length
  blocking := xs.filter fun x => x.2.isBlocking

namespace Tally

theorem ofRecords_concat (xs : List (Role × Finding)) (role : Role) (f : Finding) :
    ofRecords (xs ++ [(role, f)]) = (ofRecords xs).add role f := by
  simp only [ofRecords, add, List.countP_append, List.countP_singleton, List.length_append,
    List.length_singleton, List.filter_append, Tally.mk.injEq, decide_eq_true_eq, true_and]
  by_cases hf : f.isBlocking = true <;> simp [hf]

theorem foldl_add (role : Role) (fs : List Finding) :
    ∀ xs : List (Role × Finding),
      fs.foldl (·.add role ·) (ofRecords xs) = ofRecords (xs ++ fs.map fun f => (role, f)) := by
  induction fs with
  | nil => intro xs; simp
  | cons f fs ih =>
    intro xs
    rw [List.foldl_cons, ← ofRecords_concat, ih]
    simp

end Tally

namespace Reduction

/-- The findings of a role that is heard: it finished, and they are at hand. -/
def heard (lookup : Role → Option (List Finding)) (e : Role × Status) : Option (List Finding) :=
  if e.2.phase = .complete then lookup e.1 else none

/-- The findings that count, with their roles, in the order of the pass. -/
def records (lookup : Role → Option (List Finding)) (es : List (Role × Status)) :
    List (Role × Finding) :=
  es.flatMap fun e => ((heard lookup e).getD []).map fun f => (e.1, f)

variable (lookup : Role → Option (List Finding))

theorem visit_eq (r : Reduction) (e : Role × Status) :
    r.visit lookup e.1 e.2 =
      match heard lookup e with
      | some fs =>
        { r with consulted := r.consulted ++ [e.1], tally := fs.foldl (·.add e.1 ·) r.tally }
      | none => { r with missing := r.missing ++ [e.1] } := by
  obtain ⟨role, s⟩ := e
  unfold visit heard
  cases s.phase <;> cases lookup role <;> rfl

/-- **The pass over the roles**: after some of them it holds those that were heard, the others, and
the tally of the findings so far. -/
theorem foldl_visit (es : List (Role × Status)) :
    ∀ (consulted missing : List Role) (xs : List (Role × Finding)),
      es.foldl (fun r e => r.visit lookup e.1 e.2)
          (⟨consulted, missing, .ofRecords xs⟩ : Reduction) =
        ⟨consulted ++ (es.filter fun e => (heard lookup e).isSome).map Prod.fst,
          missing ++ (es.filter fun e => (heard lookup e).isNone).map Prod.fst,
          .ofRecords (xs ++ records lookup es)⟩ := by
  induction es with
  | nil => intro consulted missing xs; simp [records]
  | cons e es ih =>
    intro consulted missing xs
    rw [List.foldl_cons, visit_eq]
    cases h : heard lookup e with
    | some fs =>
      simp only
      rw [Tally.foldl_add, ih]
      simp [records, h]
    | none =>
      simp only
      rw [ih]
      simp [records, h]

theorem run_eq (roles : Table Role Status) :
    run lookup roles =
      ⟨(roles.entries.filter fun e => (heard lookup e).isSome).map Prod.fst,
        (roles.entries.filter fun e => (heard lookup e).isNone).map Prod.fst,
        .ofRecords (records lookup roles.entries)⟩ :=
  foldl_visit lookup roles.entries [] [] []

end Reduction

namespace Verdict

/-- The verdict of a list of findings, given the roles that were heard and those that were not. -/
def ofRecords (id : RunId) (consulted missing : List Role) (xs : List (Role × Finding)) : Verdict where
  runId := id
  recommendation :=
    if xs.any fun x => x.2.isBlocking then .blocked
    else if xs.any fun x => x.2.isViolation && x.2.severity == .warning then .conditionalGo
    else .go
  countsBySeverity := .ofFn fun s => xs.countP fun x => x.2.isViolation ∧ x.2.severity = s
  countsByClassification := .ofFn fun c => xs.countP fun x => x.2.classification = c
  tally := .ofFn fun c => .ofFn fun s =>
    xs.countP fun x => x.2.classification = c ∧ x.2.severity = s
  totalFindings := xs.length
  blockers := (byRoleAndId (fun x => (x.1, x.2.id)) (xs.filter fun x => x.2.isBlocking)).map Prod.snd
  consulted := consulted
  missingPerspectives := missing

theorem recommend_ofRecords (xs : List (Role × Finding)) :
    (Tally.ofRecords xs).recommend =
      if xs.any fun x => x.2.isBlocking then .blocked
      else if xs.any fun x => x.2.isViolation && x.2.severity == .warning then .conditionalGo
      else .go := by
  have hsev : ∀ s : Severity, 0 < (Tally.ofRecords xs).bySeverity s ↔
      (xs.any fun x => x.2.isViolation && x.2.severity == s) = true := by
    intro s
    simp [Tally.ofRecords, List.countP_pos_iff]
  have hblock : (xs.any fun x => x.2.isBlocking) =
      xs.any fun x => x.2.isViolation && x.2.severity == .blocker := rfl
  simp only [Tally.recommend, hsev, hblock]

/-- **The verdict of a run is the verdict of the findings that count.** -/
theorem reduce_eq_ofRecords (s : RunState) (lookup : Role → Option (List Finding)) :
    reduce s lookup =
      ofRecords s.runId
        ((s.roles.entries.filter fun e => (Reduction.heard lookup e).isSome).map Prod.fst)
        ((s.roles.entries.filter fun e => (Reduction.heard lookup e).isNone).map Prod.fst)
        (Reduction.records lookup s.roles.entries) := by
  simp only [reduce, Reduction.run_eq, recommend_ofRecords]
  rfl

theorem reduce_congr {s s' : RunState} {lookup lookup' : Role → Option (List Finding)}
    (hid : s'.runId = s.runId) (hroles : s'.roles = s.roles)
    (h : ∀ role status, s.roles.get? role = some status → status.phase = .complete →
      lookup' role = lookup role) : reduce s' lookup' = reduce s lookup := by
  have hheard : ∀ e ∈ s.roles.entries, Reduction.heard lookup' e = Reduction.heard lookup e := by
    rintro ⟨role, status⟩ he
    simp only [Reduction.heard]
    split_ifs with hc
    · exact h role status (Table.mem_entries.1 he) hc
    · rfl
  rw [reduce_eq_ofRecords, reduce_eq_ofRecords, hid, hroles]
  congr 1
  · rw [List.filter_congr fun e he => by rw [hheard e he]]
  · rw [List.filter_congr fun e he => by rw [hheard e he]]
  · simp only [Reduction.records, List.flatMap]
    rw [List.map_congr_left fun e he => by rw [hheard e he]]

/-- Of the status of a role, only its phase counts. -/
theorem reduce_of_phases {s s' : RunState} (lookup : Role → Option (List Finding))
    (hid : s'.runId = s.runId) (hphases : ∀ role,
      (s'.roles.get? role).map Status.phase = (s.roles.get? role).map Status.phase) :
    reduce s' lookup = reduce s lookup := by
  have hrun : Reduction.run lookup s'.roles = Reduction.run lookup s.roles := by
    unfold Reduction.run Table.entries
    generalize Reduction.start = r
    -- induction on the roles that have not been visited
    induction (Enumerated.all : List Role) generalizing r with
    | nil => rfl
    | cons role rest ih =>
      have hphase := hphases role
      cases hs : s.roles.get? role with
      | none =>
        rw [hs, Option.map_none, Option.map_eq_none_iff] at hphase
        simp only [List.filterMap_cons, hs, hphase, Option.map_none, ih]
      | some status =>
        rw [hs, Option.map_some, Option.map_eq_some_iff] at hphase
        obtain ⟨status', hs', hphase⟩ := hphase
        have hvisit : r.visit lookup role status' = r.visit lookup role status := by
          simp only [Reduction.visit, hphase]
        simp only [List.filterMap_cons, hs, hs', Option.map_some, List.foldl_cons, hvisit, ih]
  simp only [reduce, hrun, hid]

/-! ### Runs that have ended -/

theorem records_eq_flatMap {lookup : Role → Option (List Finding)} {answers : Role → List Finding}
    {es : List (Role × Status)}
    (h : ∀ e ∈ es, e.2.phase = .complete → lookup e.1 = some (answers e.1)) :
    Reduction.records lookup es =
      ((es.filter fun e => e.2.phase == .complete).map Prod.fst).flatMap fun role =>
        (answers role).map fun f => (role, f) := by
  induction es with
  | nil => rfl
  | cons e es ih =>
    have hrest := ih fun e' he' => h e' (List.mem_cons_of_mem _ he')
    rw [Reduction.records] at hrest ⊢
    rw [List.flatMap_cons, hrest, Reduction.heard]
    by_cases hc : e.2.phase = .complete
    · simp [hc, h e List.mem_cons_self hc]
    · simp [hc]

/-- **The verdict of a run that has ended**, if the findings of every role that finished are at hand:
those roles are heard, the others are missing, and every number is a number of findings of the former. -/
theorem reduce_of_ended {s : RunState} {lookup : Role → Option (List Finding)}
    {answers : Role → List Finding}
    (hend : ∀ role status, s.roles.get? role = some status → status.isTerminal = true)
    (hans : ∀ role status, s.roles.get? role = some status → status.phase = .complete →
      lookup role = some (answers role)) :
    reduce s lookup = ofRecords s.runId s.completed s.missing
      (s.completed.flatMap fun role => (answers role).map fun f => (role, f)) := by
  have hlook : ∀ e ∈ s.roles.entries, e.2.phase = .complete → lookup e.1 = some (answers e.1) :=
    fun e he hc => hans e.1 e.2 (Table.mem_entries.1 he) hc
  have hsome : ∀ e ∈ s.roles.entries,
      (Reduction.heard lookup e).isSome = (e.2.phase == .complete) := by
    intro e he
    rw [Reduction.heard]
    split_ifs with hc
    · simp [hlook e he hc, hc]
    · simp [hc]
  have hnone : ∀ e ∈ s.roles.entries, (Reduction.heard lookup e).isNone =
      (e.2.phase == .failed || e.2.phase == .timedOut) := by
    intro e he
    have hterm := hend e.1 e.2 (Table.mem_entries.1 he)
    rw [← Option.not_isSome, hsome e he]
    unfold Status.isTerminal at hterm
    revert hterm
    cases e.2.phase <;> decide
  rw [reduce_eq_ofRecords, records_eq_flatMap hlook, List.filter_congr hsome,
    List.filter_congr hnone]
  rfl

/-! ### Blocking findings -/

theorem mem_blockers {id : RunId} {consulted missing : List Role} {xs : List (Role × Finding)}
    {f : Finding} :
    f ∈ (ofRecords id consulted missing xs).blockers ↔ f.isBlocking = true ∧ ∃ role, (role, f) ∈ xs := by
  simp only [ofRecords, byRoleAndId, List.mem_map, List.mem_mergeSort, List.mem_filter, Prod.exists,
    exists_eq_right]
  constructor
  · rintro ⟨role, hmem, hf⟩
    exact ⟨hf, role, hmem⟩
  · rintro ⟨hf, role, hmem⟩
    exact ⟨role, hmem, hf⟩

theorem recommendation_eq_blocked {id : RunId} {consulted missing : List Role}
    {xs : List (Role × Finding)} :
    (ofRecords id consulted missing xs).recommendation = .blocked ↔
      ∃ f, f ∈ (ofRecords id consulted missing xs).blockers := by
  simp only [mem_blockers]
  simp only [ofRecords]
  constructor
  · intro h
    split_ifs at h with hany
    obtain ⟨⟨role, f⟩, hmem, hf⟩ := List.any_eq_true.1 hany
    exact ⟨f, hf, role, hmem⟩
  · rintro ⟨f, hf, role, hmem⟩
    rw [if_pos (List.any_eq_true.2 ⟨(role, f), hmem, hf⟩)]

end Verdict

end ReviewPanel
