import ReviewPanel.Proofs.Dictionary
import ReviewPanel.Proofs.Panel.AtRest
import ReviewPanel.Proofs.Panel.Refusals

/-!
# The tables of a panel agree

A panel keeps three tables of runs: the ledger knows how far they have come, the table of the panel which
incarnation an identifier means, and the scribe which directories it looks after.  A call changes them one
after the other, and it can fail in between: the directory of an earlier run cannot be set aside, the
system refuses to make a new one, the ledger does not take the run.

Between two calls the three tables agree nevertheless, whatever calls were made, whether they were
accepted or refused and what else happened meanwhile.  So no run is left behind that can be neither
finalized nor started again.

## Main definitions

* `Panel.TablesAgree` : the three tables list the same runs, each with its directory and its roles.

## Main statements

* `Panel.Reachable.tables_agree` : **they do on every panel that can be reached.**
-/

namespace ReviewPanel.Panel

open Workspace (dirFor)

variable {p : Panel} {root : String} {id : RunId}

/-- Ledger, table and scribe agree about the runs of the panel. -/
structure TablesAgree (p : Panel) : Prop where
  /-- Table and ledger list the same runs. -/
  runs_eq : p.table.keys = p.ledger.runs
  /-- Each of these runs has an incarnation, whose slots are those of its roles on the ledger. -/
  roles_eq : ∀ id ∈ p.ledger.runs, ∃ i inc s, p.active id = .ok (i, inc) ∧ inc.runId = id ∧
    p.ledger.read id = .ok s ∧ inc.slots.cells.keys = s.roles.keys
  /-- The scribe looks after no run if no documents are kept. -/
  unmirrored : p.config.workspaceRoot = none →
    p.scribe.current.keys = [] ∧ ∀ id, p.scribe.workspace? id = none
  /-- Otherwise it looks after the runs on the ledger, each in its own directory. -/
  mirrored : ∀ root, p.config.workspaceRoot = some root →
    p.scribe.current.keys = p.ledger.runs ∧
      ∀ id ∈ p.ledger.runs, p.scribe.workspace? id = some ⟨id, dirFor root id⟩

theorem mem_runs : id ∈ p.ledger.runs ↔ p.Registered id := by
  rw [Ledger.runs, Dictionary.mem_keys, Registered, Option.isSome_iff_ne_none]

theorem Wired.isSome_table (h : p.Wired) (id : RunId) :
    (p.table.get? id).isSome = (p.ledger.entries.get? id).isSome := by
  rcases h.listed id with ⟨htab, hent⟩ | ⟨i, inc, e, htab, -, -, hent, -⟩
  · rw [htab, hent]
    rfl
  · rw [htab, hent]
    rfl

theorem Wired.active_of_registered (h : p.Wired) (hreg : p.Registered id) :
    ∃ i inc s, p.active id = .ok (i, inc) ∧ inc.runId = id ∧ p.ledger.read id = .ok s ∧
      inc.slots.cells.keys = s.roles.keys := by
  rcases h.listed id with ⟨-, hent⟩ | ⟨i, inc, e, htab, hinc, hid, hent, hroles⟩
  · exact absurd hent hreg
  · refine ⟨i, inc, e.snapshot id, active_eq_ok.2 ⟨htab, hinc⟩, hid, Ledger.read_eq_ok.2 ⟨e, hent, rfl⟩,
      ?_⟩
    exact List.filter_congr fun role _ => (hroles role).symm

theorem Reachable.isSome_current (h : Reachable p) (hroot : p.config.workspaceRoot = some root)
    (id : RunId) : (p.scribe.current.get? id).isSome = (p.ledger.entries.get? id).isSome := by
  cases hent : p.ledger.entries.get? id with
  | none =>
    rw [h.unregistered fun hreg => hreg hent]
    rfl
  | some e =>
    have hreg : p.Registered id := by simp [Registered, hent]
    rw [Option.isSome_some, Option.isSome_iff_ne_none]
    exact h.enlisted hroot hreg

/-- The directory in which the scribe keeps a run is the one that belongs to its identifier. -/
theorem workspace_of_inOrder (h : p.scribe.InOrder p.ledger root)
    (hcurrent : p.scribe.current.get? id ≠ none) :
    p.scribe.workspace? id = some ⟨id, dirFor root id⟩ := by
  obtain ⟨i, hi⟩ := Option.ne_none_iff_exists'.1 hcurrent
  obtain ⟨r, -, hr, hid, -⟩ := h.current id i hi
  have hw : r.workspace = ⟨id, dirFor root id⟩ := by
    rw [← hid, ← h.dir_eq i r hr]
  simp only [Scribe.workspace?, Scribe.registration?, hi, Option.bind_some, hr, Option.map_some, hw]

/-- **The tables of a panel agree**, after any sequence of calls to start, await, finalize and forget
runs, accepted or refused, under either rerun policy, with or without documents, however the system
refuses to write, and whatever supervisors, waiters and writers do in between. -/
theorem Reachable.tables_agree (h : Reachable p) : p.TablesAgree where
  runs_eq := Dictionary.keys_congr h.wired.isSome_table
  roles_eq id hid := h.wired.active_of_registered (mem_runs.1 hid)
  unmirrored hroot := by
    rw [h.scribe_eq_empty hroot]
    exact ⟨rfl, fun _ => rfl⟩
  mirrored root hroot :=
    ⟨Dictionary.keys_congr (h.isSome_current hroot), fun id hid =>
      workspace_of_inOrder (h.inOrder hroot) (h.enlisted hroot (mem_runs.1 hid))⟩

/-- A run is finalized and forgotten, another one is under way, and two are refused: one lists a role
twice, and for the other one the system does not make a directory. -/
def mixedCalls : List Event :=
  [.start "a" (.ofReference "first") [.security], .comeBack 0, .observe 0, .decide 0, .settle 0,
    .finalize "a", .forget "a", .start "b" (.ofReference "second") [.security, .build],
    .start "c" (.ofReference "third") [.build, .build],
    .refuse fun l => if l.length = 2 then some .permissionDenied else none,
    .start "d" (.ofReference "fourth") [.build]]

/-- What is left of these calls is the one run that is under way. -/
theorem tables_agree_mixed : ∃ p, p = (fresh rejectConfig halfCrew).run mixedCalls ∧
    p.ledger.runs = ["b"] ∧ p.TablesAgree := by
  refine ⟨_, rfl, by decide +kernel, ?_⟩
  have hvalid : rejectConfig.validate = .ok () := rfl
  exact Reachable.tables_agree ((Reachable.ofConfig (ofConfig_blank hvalid halfCrew)).run mixedCalls)

end ReviewPanel.Panel
