import Mathlib.Data.List.Perm.Subperm
import Mathlib.Data.List.Sort
import ReviewPanel.Proofs.Reduction.Balance

/-!
# More findings make no verdict milder

Two runs have the same identifier, the same roles, and the same roles that finished.  All else about them
may differ: what is reviewed, times, causes, how often the state changed, whether a role failed or ran out
of time, and what is in the slots of roles that did not finish.  Their verdicts are compared by the
findings of the roles that finished, and nothing else matters.

The reason is that a verdict is made from the list of findings that it counts, and that this list is put
together from the findings of one role after the other.  Where each role has at least the findings that it
has in the other run, so has the whole list, every number counts members of it, and the recommendation asks
for nothing but the existence of some.  Where each role has the same findings in another order, so has the
whole list, and sorting the blockers leaves a trace of the order only where one role used one identifier
twice.

## Main definitions

* `AtMost` : two numbers that are there, the first at most the second.
* `Verdict.Within` : no number of a verdict, and not its recommendation, is above that of another one.
* `Verdict.SameUpToTies` : verdicts that differ at most in the order of blockers of one role and one
  identifier.

## Main statements

* `Verdict.reduce_eq_ofRecords_counted` : a verdict is made from the findings that it counts.
* `Verdict.ofRecords_within` : a list with more findings gives a verdict that is no milder.
* `Verdict.reduce_monotone` : **more findings make no verdict milder, and nothing but findings matters.**
-/

namespace ReviewPanel

/-- Two numbers that are there, the first at most the second. -/
def AtMost (a b : Option Nat) : Prop := ∃ m n, a = some m ∧ b = some n ∧ m ≤ n

namespace RunState

theorem mem_completed_iff {s : RunState} {role : Role} :
    role ∈ s.completed ↔ (s.roles.get? role).map Status.phase = some .complete := by
  rw [completed, rolesWhere, Reduction.mem_map_filter, Option.map_eq_some_iff]
  simp only [beq_iff_eq]

end RunState

namespace Verdict

/-- No number of `v`, and not its recommendation, is above that of `w`, and both heard the same roles. -/
structure Within (v w : Verdict) : Prop where
  runId : w.runId = v.runId
  consulted : w.consulted = v.consulted
  missing : w.missingPerspectives = v.missingPerspectives
  severity : ∀ sev, AtMost (v.countsBySeverity.get? sev) (w.countsBySeverity.get? sev)
  classification : ∀ c,
    AtMost (v.countsByClassification.get? c) (w.countsByClassification.get? c)
  cell : ∀ c sev, AtMost (v.cell? c sev) (w.cell? c sev)
  total : v.totalFindings ≤ w.totalFindings
  blockers : v.blockers.length ≤ w.blockers.length
  recommendation : v.recommendation.exitCode ≤ w.recommendation.exitCode

/-- Verdicts that differ at most in the order of blockers that share role and identifier: the blockers of
either one are the blocking findings that it counts, sorted by role and identifier; each place has the same
role and identifier in both; and under each of these are the same findings. -/
structure SameUpToTies (lookup lookup' : Role → Option (List Finding)) (v w : Verdict) : Prop where
  rest : w = { v with blockers := w.blockers }
  blockers : ∃ bs bs', v.blockers = bs.map Prod.snd ∧ w.blockers = bs'.map Prod.snd ∧
    Arranged (fun x => (x.1, x.2.id)) ((v.counted lookup).filter fun x => x.2.isBlocking) bs ∧
    Arranged (fun x => (x.1, x.2.id)) ((w.counted lookup').filter fun x => x.2.isBlocking) bs' ∧
    (bs.map fun x => (x.1, x.2.id)) = bs'.map (fun x => (x.1, x.2.id)) ∧
    ∀ k, (bs.filter fun x => (x.1, x.2.id) = k).Perm (bs'.filter fun x => (x.1, x.2.id) = k)

/-! ### Verdicts of lists -/

section Lists

variable {id : RunId} {consulted missing : List Role} {xs ys : List (Role × Finding)}

theorem recommendation_le (h : xs ⊆ ys) :
    (ofRecords id consulted missing xs).recommendation.exitCode ≤
      (ofRecords id consulted missing ys).recommendation.exitCode := by
  have hany : ∀ P : Role × Finding → Bool, xs.any P = true → ys.any P = true := by
    intro P hP
    obtain ⟨x, hx, hPx⟩ := List.any_eq_true.1 hP
    exact List.any_eq_true.2 ⟨x, h hx, hPx⟩
  have hblock := hany fun x => x.2.isBlocking
  have hwarn := hany fun x => x.2.isViolation && x.2.severity == .warning
  simp only [ofRecords]
  cases hxb : xs.any fun x => x.2.isBlocking
  · cases hxw : xs.any fun x => x.2.isViolation && x.2.severity == .warning
    · exact Nat.zero_le _
    · rw [hwarn hxw]
      cases ys.any fun x => x.2.isBlocking <;> decide
  · rw [hblock hxb]
    exact Nat.le_refl _

/-- **A list with more findings gives a verdict that is no milder.** -/
theorem ofRecords_within (h : xs.Subperm ys) :
    Within (ofRecords id consulted missing xs) (ofRecords id consulted missing ys) := by
  constructor
  case runId => rfl
  case consulted => rfl
  case missing => rfl
  case severity => exact fun sev => ⟨_, _, rfl, rfl, h.countP_le _⟩
  case classification => exact fun c => ⟨_, _, rfl, rfl, h.countP_le _⟩
  case cell => exact fun c sev => ⟨_, _, rfl, rfl, h.countP_le _⟩
  case total => exact h.length_le
  case blockers =>
    rw [length_blockers, length_blockers]
    exact h.countP_le _
  case recommendation => exact recommendation_le h.subset

theorem ofRecords_of_perm (h : xs.Perm ys) :
    ofRecords id consulted missing ys =
      { ofRecords id consulted missing xs with
        blockers := (ofRecords id consulted missing ys).blockers } := by
  have hany : ∀ P : Role × Finding → Bool, ys.any P = xs.any P := fun P => (h.any_eq).symm
  have hcount : ∀ P : Role × Finding → Bool, ys.countP P = xs.countP P := fun P => (h.countP_eq P).symm
  simp only [ofRecords, hany, hcount, h.length_eq]

end Lists

/-! ### From roles to lists -/

theorem reduce_eq_ofRecords_counted (s : RunState) (lookup : Role → Option (List Finding)) :
    reduce s lookup = ofRecords s.runId (reduce s lookup).consulted
      (reduce s lookup).missingPerspectives ((reduce s lookup).counted lookup) := by
  have hv := reduce_eq_ofRecords s lookup
  rw [Reduction.records_eq_counted] at hv
  rw [hv]
  rfl

section Runs

variable {s s' : RunState} {lookup lookup' : Role → Option (List Finding)}

theorem mem_consulted_iff {role : Role} :
    role ∈ (reduce s lookup).consulted ↔ role ∈ s.completed ∧ (lookup role).isSome = true := by
  rw [(reduce_balances s lookup).mem_consulted, RunState.mem_completed_iff]

theorem eq_of_sorted {as bs : List Role} (ha : as.Pairwise fun a b => a.rank < b.rank)
    (hb : bs.Pairwise fun a b => a.rank < b.rank) (h : ∀ role, role ∈ as ↔ role ∈ bs) : as = bs := by
  have : Std.Irrefl fun a b : Role => a.rank < b.rank := ⟨fun a => Nat.lt_irrefl _⟩
  have : Std.Antisymm fun a b : Role => a.rank < b.rank := ⟨fun a b hab hba => by omega⟩
  exact ha.eq_of_mem_iff hb h

theorem consulted_eq (hcomplete : ∀ role, role ∈ s'.completed ↔ role ∈ s.completed)
    (hlook : ∀ role ∈ s.completed, (lookup' role).isSome = (lookup role).isSome) :
    (reduce s' lookup').consulted = (reduce s lookup).consulted := by
  refine eq_of_sorted (reduce_balances s' lookup').consulted_sorted
    (reduce_balances s lookup).consulted_sorted fun role => ?_
  rw [mem_consulted_iff, mem_consulted_iff, hcomplete]
  exact and_congr_right fun hrole => by rw [hlook role hrole]

theorem missing_eq (hkeys : ∀ role, role ∈ s'.roles.keys ↔ role ∈ s.roles.keys)
    (hconsulted : (reduce s' lookup').consulted = (reduce s lookup).consulted) :
    (reduce s' lookup').missingPerspectives = (reduce s lookup).missingPerspectives := by
  have hb := reduce_balances s lookup
  have hb' := reduce_balances s' lookup'
  refine eq_of_sorted hb'.missing_sorted hb.missing_sorted fun role => ?_
  have hcover := hb.covered role
  have hcover' := hb'.covered role
  have hdisjoint := @hb.disjoint role
  have hdisjoint' := @hb'.disjoint role
  have hkey := hkeys role
  rw [hconsulted] at hcover' hdisjoint'
  tauto

/-- **A verdict of one run beside that of another** with the same roles, of which the same finished: it is
made in the same way from the findings that it counts. -/
theorem reduce_eq_of_counted (hid : s'.runId = s.runId)
    (hkeys : ∀ role, role ∈ s'.roles.keys ↔ role ∈ s.roles.keys)
    (hcomplete : ∀ role, role ∈ s'.completed ↔ role ∈ s.completed)
    (hlook : ∀ role ∈ s.completed, (lookup' role).isSome = (lookup role).isSome) :
    reduce s' lookup' = ofRecords s.runId (reduce s lookup).consulted
      (reduce s lookup).missingPerspectives ((reduce s' lookup').counted lookup') := by
  have hconsulted := consulted_eq hcomplete hlook
  rw [← hid, ← hconsulted, ← missing_eq hkeys hconsulted]
  exact reduce_eq_ofRecords_counted s' lookup'

/-- What holds of the findings of each role that finished, and of lists that are put together, holds of
the findings that are counted. -/
theorem counted_rel {S : List Finding → List Finding → Prop}
    {R : List (Role × Finding) → List (Role × Finding) → Prop} (hnil : R [] [])
    (happend : ∀ {a b c d}, R a b → R c d → R (a ++ c) (b ++ d))
    (hmap : ∀ role {fs fs'}, S fs fs' → R (fs.map fun f => (role, f)) (fs'.map fun f => (role, f)))
    (hconsulted : (reduce s' lookup').consulted = (reduce s lookup).consulted)
    (h : ∀ role ∈ s.completed, Option.Rel S (lookup role) (lookup' role)) :
    R ((reduce s lookup).counted lookup) ((reduce s' lookup').counted lookup') := by
  have hrole : ∀ role ∈ (reduce s lookup).consulted,
      R (((lookup role).getD []).map fun f => (role, f))
        (((lookup' role).getD []).map fun f => (role, f)) := by
    intro role hrole
    have hrel := h role (mem_consulted_iff.1 hrole).1
    generalize lookup role = a at hrel
    generalize lookup' role = b at hrel
    cases hrel with
    | none => exact hnil
    | some hfs => exact hmap role hfs
  unfold counted
  rw [hconsulted]
  -- put together along the roles that were heard
  generalize (reduce s lookup).consulted = roles at hrole
  induction roles with
  | nil => exact hnil
  | cons role roles ih =>
    exact happend (hrole role List.mem_cons_self) (ih fun r hr => hrole r (List.mem_cons_of_mem role hr))

theorem isSome_of_rel {S : List Finding → List Finding → Prop} {a b : Option (List Finding)}
    (h : Option.Rel S a b) : b.isSome = a.isSome := by
  cases h <;> rfl

/-- Sorting the blocking findings of two verdicts that count the same ones in another order. -/
theorem sameUpToTies_of_perm {v w : Verdict} {id : RunId} {consulted missing : List Role}
    (hv : v = ofRecords id consulted missing (v.counted lookup))
    (hw : w = ofRecords id consulted missing (w.counted lookup'))
    (h : (v.counted lookup).Perm (w.counted lookup')) : SameUpToTies lookup lookup' v w := by
  have hblocking := h.filter fun x => x.2.isBlocking
  have hbs := arranged_byRoleAndId (fun x : Role × Finding => (x.1, x.2.id))
    ((v.counted lookup).filter fun x => x.2.isBlocking)
  have hbs' := arranged_byRoleAndId (fun x : Role × Finding => (x.1, x.2.id))
    ((w.counted lookup').filter fun x => x.2.isBlocking)
  constructor
  case rest =>
    have hrest : ofRecords id consulted missing (w.counted lookup') =
        { ofRecords id consulted missing (v.counted lookup) with
          blockers := (ofRecords id consulted missing (w.counted lookup')).blockers } :=
      ofRecords_of_perm h
    rwa [← hv, ← hw] at hrest
  case blockers =>
    refine ⟨_, _, congrArg Verdict.blockers hv, congrArg Verdict.blockers hw, hbs, hbs',
      map_key_byRoleAndId_of_perm hblocking, fun k => ?_⟩
    rw [hbs.stable k, hbs'.stable k]
    exact hblocking.filter _

/-- **More findings make no verdict milder, and nothing but findings matters.**  Let two runs have the same
identifier, the same roles, and the same roles that finished.

If each of these has the same findings at hand, or none, in both, the verdicts are equal, whatever else is
different.  If the same of them have findings at hand, and each has all those in the second run that it has
in the first, as often at least, then no number of the first verdict is above that of the second, and the
second recommendation is at least as strict.  If each has the same findings in another order, the verdicts
are the same up to the order of blockers that one role gave one identifier. -/
theorem reduce_monotone (hid : s'.runId = s.runId)
    (hkeys : ∀ role, role ∈ s'.roles.keys ↔ role ∈ s.roles.keys)
    (hcomplete : ∀ role, role ∈ s'.completed ↔ role ∈ s.completed)
    (lookup lookup' : Role → Option (List Finding)) :
    ((∀ role ∈ s.completed, lookup' role = lookup role) → reduce s' lookup' = reduce s lookup) ∧
    ((∀ role ∈ s.completed, Option.Rel List.Subperm (lookup role) (lookup' role)) →
      Within (reduce s lookup) (reduce s' lookup')) ∧
    ((∀ role ∈ s.completed, Option.Rel List.Perm (lookup role) (lookup' role)) →
      SameUpToTies lookup lookup' (reduce s lookup) (reduce s' lookup')) := by
  have hv := reduce_eq_ofRecords_counted s lookup
  refine ⟨fun hsame => ?_, fun hmore => ?_, fun hperm => ?_⟩
  · have hrel : ∀ role ∈ s.completed, Option.Rel Eq (lookup role) (lookup' role) := by
      intro role hrole
      rw [hsame role hrole]
      cases lookup role with
      | none => exact .none
      | some fs => exact .some rfl
    have hlook := fun role hrole => isSome_of_rel (hrel role hrole)
    have hcounted : (reduce s lookup).counted lookup = (reduce s' lookup').counted lookup' :=
      counted_rel rfl (fun hab hcd => by rw [hab, hcd]) (fun role _ _ heq => by rw [heq])
        (consulted_eq hcomplete hlook) hrel
    rw [reduce_eq_of_counted hid hkeys hcomplete hlook, ← hcounted, ← hv]
  · have hlook := fun role hrole => isSome_of_rel (hmore role hrole)
    have hcounted : ((reduce s lookup).counted lookup).Subperm
        ((reduce s' lookup').counted lookup') :=
      counted_rel (List.Subperm.refl _) List.Subperm.append
        (fun role _ _ hfs => (List.map_subperm_map_iff (Prod.mk_right_injective role)).2 hfs)
        (consulted_eq hcomplete hlook) hmore
    rw [reduce_eq_of_counted hid hkeys hcomplete hlook, hv]
    exact ofRecords_within hcounted
  · have hlook := fun role hrole => isSome_of_rel (hperm role hrole)
    have hcounted : ((reduce s lookup).counted lookup).Perm ((reduce s' lookup').counted lookup') :=
      counted_rel (List.Perm.refl _) List.Perm.append (fun role _ _ hfs => hfs.map _)
        (consulted_eq hcomplete hlook) hperm
    exact sameUpToTies_of_perm hv (reduce_eq_of_counted hid hkeys hcomplete hlook) hcounted

end Runs

/-- A run of which one role finished and one failed. -/
def failedRun : RunState where
  runId := "r-1"
  item := .ofReference "PR 7"
  createdAt := ⟨2026, 1, 1, 0, 0, 0, 0⟩
  roles := .ofList [(.security, { Status.pending with phase := .complete }),
    (.build, { Status.pending with phase := .failed, cause := some "spawn failed" })]
  allComplete := true
  revision := 5
  verdict := none

/-- The same run on another day, when that role ran out of time. -/
def lateRun : RunState where
  runId := "r-1"
  item := .ofReference "PR 8"
  createdAt := ⟨2026, 2, 1, 0, 0, 0, 0⟩
  roles := .ofList [(.security, { Status.pending with phase := .complete }),
    (.build, { Status.pending with phase := .timedOut })]
  allComplete := true
  revision := 9
  verdict := none

/-- Only a warning. -/
def warnedLookup : Role → Option (List Finding)
  | .security => some [⟨"SEC-2", .warning, "disk", .violation, "world readable", none, none⟩]
  | _ => none

/-- A blocker before the warning, and something from the role that does not count. -/
def blockedLookup : Role → Option (List Finding)
  | .security => some [⟨"SEC-1", .blocker, "net", .violation, "no password", none, none⟩,
      ⟨"SEC-2", .warning, "disk", .violation, "world readable", none, none⟩]
  | .build => some [⟨"BLD-1", .blocker, "ci", .violation, "not pinned", none, none⟩]
  | _ => none

theorem reduce_monotone_late : Within (reduce failedRun warnedLookup) (reduce lateRun blockedLookup) ∧
    (reduce failedRun warnedLookup).recommendation = .conditionalGo ∧
    (reduce lateRun blockedLookup).recommendation = .blocked := by
  obtain ⟨-, hmore, -⟩ := @reduce_monotone failedRun lateRun rfl
    (fun role => by cases role <;> decide) (fun role => by cases role <;> decide) warnedLookup blockedLookup
  refine ⟨hmore fun role hrole => ?_, by decide, by decide⟩
  obtain rfl : role = .security := List.mem_singleton.1 hrole
  exact .some (List.sublist_cons_self _ _).subperm

end Verdict

end ReviewPanel
