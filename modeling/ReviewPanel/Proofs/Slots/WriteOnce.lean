import ReviewPanel.Proofs.Listing
import ReviewPanel.Proofs.Slots
import ReviewPanel.Proofs.Workspace

/-!
# A slot is written once

The slots of a run are published and withheld by whoever comes by, in any order, and each call may find
the disk in any state: full, without its directories, or refusing to write at all.  Nothing of this shows in
the slots.  What is in them is told by the first call on each role, every answer says whether a call was
that first one, and no other call touches the disk.

A publication whose document cannot be written is the delicate case: it answers with an error, and is
nevertheless the one that decided.

## Main definitions

* `Slots.Call`, `Slots.serve` : a call, and what it does to the slots and to the disk that it finds.
* `Slots.after` : the slots after some calls.
* `Slots.content` : what the first call on a role puts into its slot.
* `Slots.Publishes`, `Slots.Withholds` : what one more call does after some calls.

## Main statements

* `Slots.cells_serve`, `Slots.cells_after` : **the first call decides**, in one step and along all calls.
* `Slots.publish_after`, `Slots.withhold_after` : what one more call answers, and what it writes.
* `Slots.slots_write_once` : **slots are written once.**
-/

namespace ReviewPanel

namespace Slots

/-- A call on a slot. -/
inductive Call where
  | publish (role : Role) (fs : List Finding)
  | withhold (role : Role)
deriving DecidableEq, Repr

namespace Call

/-- The role whose slot is meant. -/
def role : Call → Role
  | publish role _ => role
  | withhold role => role

/-- What the call puts into the slot if it is open. -/
def cell : Call → Cell
  | publish _ fs => .published fs
  | withhold _ => .withheld

theorem cell_ne_vacant (c : Call) : c.cell ≠ .vacant := by
  cases c <;> simp [cell]

end Call

/-- What a call does to the slots, and to the disk that it finds. -/
def serve (s : Slots) (d : Disk) : Call → Slots × Disk
  | .publish role fs => ((s.publish d role fs).1, (s.publish d role fs).2.1)
  | .withhold role => ((s.withhold role).1, d)

/-- The slots after some calls, each of which finds some disk. -/
def after (s : Slots) (h : List (Call × Disk)) : Slots :=
  h.foldl (fun s x => (s.serve x.2 x.1).1) s

/-- The first call on a role. -/
def firstCall (h : List (Call × Disk)) (role : Role) : Option Call :=
  (h.map Prod.fst).find? fun c => c.role = role

/-- What the first call on a role puts into its slot. -/
def content (h : List (Call × Disk)) (role : Role) : Cell :=
  ((firstCall h role).map Call.cell).getD .vacant

/-- The published findings with their roles, in the order of the slots. -/
def publishedBy (roles : List Role) (h : List (Call × Disk)) : List (Role × Finding) :=
  (Role.all.filter fun role => role ∈ roles).flatMap fun role =>
    ((content h role).findings?.getD []).map fun f => (role, f)

/-- Each call with the disk that it finds and the one that it leaves. -/
def trace (s : Slots) : List (Call × Disk) → List (Call × Disk × Disk)
  | [] => []
  | (c, d) :: h => (c, d, (s.serve d c).2) :: (s.serve d c).1.trace h

/-- What a publication does in slots for `roles` after the calls `h`, if it finds the disk `d`. -/
structure Publishes (roles : List Role) (workspace : Option Workspace) (h : List (Call × Disk)) (d : Disk)
    (role : Role) (fs : List Finding) (r : Slots × Disk × Except SlotError Unit) : Prop where
  unknown : r.2.2 = .error (.unknownRole role) ↔ role ∉ roles
  closed : r.2.2 = .error (.closed role) ↔ role ∈ roles ∧ (firstCall h role).isSome = true
  persist : ∀ e, r.2.2 = .error (.persist e) ↔ role ∈ roles ∧ firstCall h role = none ∧
    ∃ w, workspace = some w ∧ w.writeSlot d role fs = .error e
  ok : r.2.2 = .ok () ↔ role ∈ roles ∧ firstCall h role = none ∧
    ∀ w, workspace = some w → ∃ d', w.writeSlot d role fs = .ok d'
  /-- Whatever became of the document. -/
  findings : role ∈ roles → firstCall h role = none → r.1.findings role = some fs
  written : r.2.1 ≠ d → role ∈ roles ∧ firstCall h role = none ∧
    ∃ w, workspace = some w ∧ w.writeSlot d role fs = .ok r.2.1
  document : r.2.2 = .ok () → ∀ w, workspace = some w →
    r.2.1.fileContent (r.2.1.locate (w.slotPath role)) =
      .ok (Utf8.ofString (Finding.listValue fs).prettyText)
  others : ∀ w role', workspace = some w → role' ≠ role →
    Disk.Keeps (d.locate (w.slotPath role')) d r.2.1

/-- What a call to withhold does in slots for `roles` after the calls `h`. -/
structure Withholds (roles : List Role) (h : List (Call × Disk)) (role : Role)
    (answer : Except SlotError Bool) : Prop where
  unknown : answer = .error (.unknownRole role) ↔ role ∉ roles
  closed : answer = .ok true ↔ role ∈ roles ∧ firstCall h role = none
  late : answer = .ok false ↔ role ∈ roles ∧ (firstCall h role).isSome = true

/-! ### First calls -/

section First

variable (h : List (Call × Disk)) (role : Role)

theorem firstCall_cons (c : Call) (d : Disk) :
    firstCall ((c, d) :: h) role = if c.role = role then some c else firstCall h role := by
  by_cases hc : c.role = role <;> simp [firstCall, hc]

theorem content_cons (c : Call) (d : Disk) :
    content ((c, d) :: h) role = if c.role = role then c.cell else content h role := by
  rw [content, firstCall_cons]
  split_ifs <;> rfl

variable {h role}

theorem content_eq_vacant : content h role = .vacant ↔ firstCall h role = none := by
  rw [content]
  cases firstCall h role with
  | none => simp
  | some c => simp [c.cell_ne_vacant]

theorem role_of_firstCall {c : Call} (hc : firstCall h role = some c) : c.role = role := by
  simpa using List.find?_some hc

theorem content_eq_published {fs : List Finding} :
    content h role = .published fs ↔ firstCall h role = some (.publish role fs) := by
  rw [content]
  cases hc : firstCall h role with
  | none => simp
  | some c =>
    have hrole := role_of_firstCall hc
    cases c with
    | publish role' fs' =>
      obtain rfl : role' = role := hrole
      simp [Call.cell]
    | withhold role' => simp [Call.cell]

end First

/-! ### What is in the slots -/

section Cells

variable (s : Slots) (d : Disk) (c : Call)

/-- Either kind of call closes the slot if it is open, and does nothing else to the slots. -/
theorem serve_eq_close : (s.serve d c).1 = ((s.close c.role c.cell).toOption).getD s := by
  cases c with
  | publish role fs =>
    simp only [serve, publish, Call.role, Call.cell]
    cases s.close role (.published fs) with
    | error e => rfl
    | ok s' =>
      cases hw : s'.workspace with
      | none => simp [Except.toOption, hw]
      | some w => cases hd : w.writeSlot d role fs <;> simp [Except.toOption, hw, hd]
  | withhold role =>
    simp only [serve, withhold, Call.role, Call.cell]
    cases s.close role .withheld with
    | error e => cases e <;> rfl
    | ok s' => rfl

theorem workspace_serve : (s.serve d c).1.workspace = s.workspace := by
  rw [serve_eq_close]
  cases h : s.close c.role c.cell with
  | error e => rfl
  | ok s' =>
    obtain ⟨-, rfl⟩ := close_eq_ok.1 h
    rfl

/-- **One call** fills the slot of its role if this is open. -/
theorem cells_serve (role : Role) : (s.serve d c).1.cells.get? role =
    (s.cells.get? role).map fun x => if x = .vacant ∧ c.role = role then c.cell else x := by
  rw [serve_eq_close]
  cases h : s.close c.role c.cell with
  | error e =>
    have hshut := shut_of_close_eq_error h
    simp only [Except.toOption, Option.getD_none]
    cases hx : s.cells.get? role with
    | none => rfl
    | some x =>
      rw [Option.map_some, if_neg]
      rintro ⟨rfl, rfl⟩
      exact hshut hx
  | ok s' =>
    obtain ⟨hv, rfl⟩ := close_eq_ok.1 h
    simp only [Except.toOption, Option.getD_some, Table.get?_set]
    split_ifs with hrole
    · rw [hrole, hv]
      simp
    · simp [Ne.symm hrole]

variable {s d c}

theorem shut_serve : (s.serve d c).1.Shut c.role := by
  intro hv
  rw [cells_serve, Option.map_eq_some_iff] at hv
  obtain ⟨x, -, hx⟩ := hv
  split_ifs at hx with hvac
  · exact c.cell_ne_vacant hx
  · exact hvac ⟨hx, rfl⟩

theorem shut_serve_of_shut {role : Role} (h : s.Shut role) : (s.serve d c).1.Shut role := by
  intro hv
  rw [cells_serve, Option.map_eq_some_iff] at hv
  obtain ⟨x, hx, hif⟩ := hv
  split_ifs at hif with hvac
  · exact h (hvac.1 ▸ hx)
  · exact h (hif ▸ hx)

end Cells

/-- **The first call decides**: after some calls an open slot holds what the first of them on its role put
into it, and all others are as they were. -/
theorem cells_after (s : Slots) (h : List (Call × Disk)) (role : Role) :
    (s.after h).cells.get? role =
      (s.cells.get? role).map fun x => if x = .vacant then content h role else x := by
  induction h generalizing s with
  | nil =>
    have hid : (fun x : Cell => if x = .vacant then content [] role else x) = id := by
      funext x
      split_ifs with hx
      · exact hx.symm
      · rfl
    rw [hid, Option.map_id]
    rfl
  | cons x h ih =>
    obtain ⟨c, d⟩ := x
    change ((s.serve d c).1.after h).cells.get? role = _
    rw [ih, cells_serve, Option.map_map]
    congr 1
    funext x
    simp only [Function.comp_apply, content_cons]
    by_cases hx : x = .vacant <;> by_cases hc : c.role = role <;> simp [hx, hc, c.cell_ne_vacant]

theorem workspace_after (s : Slots) (h : List (Call × Disk)) :
    (s.after h).workspace = s.workspace := by
  induction h generalizing s with
  | nil => rfl
  | cons x h ih => exact (ih _).trans (workspace_serve s x.2 x.1)

/-! ### What a call answers and writes -/

section Publishing

variable {s : Slots} {d : Disk} {role : Role} {fs : List Finding}

theorem writeSlot_others {w : Workspace} {d' : Disk} {role' : Role}
    (h : w.writeSlot d role fs = .ok d') (hne : role' ≠ role) :
    Disk.Keeps (d.locate (w.slotPath role')) d d' := by
  refine Workspace.writeDocument_keeps h ?_
  rw [Workspace.slotPath, d.locate_join _ role'.slotName_plain]
  intro heq
  obtain ⟨-, hname⟩ := List.append_inj' heq rfl
  exact hne (Role.slotName_inj (List.cons.inj hname).1).symm

end Publishing

section OneMore

variable (roles : List Role) (workspace : Option Workspace) (h : List (Call × Disk))

theorem cells_of_roles (role : Role) :
    ((ofRoles roles workspace).after h).cells.get? role =
      if role ∈ roles then some (content h role) else none := by
  rw [cells_after, ofRoles, Table.get?_ofKeys]
  split_ifs <;> simp

/-- **What a publication does** after some calls. -/
theorem publish_after (d : Disk) (role : Role) (fs : List Finding) :
    Publishes roles workspace h d role fs
      (((ofRoles roles workspace).after h).publish d role fs) := by
  have hcell := cells_of_roles roles workspace h role
  have hws : ((ofRoles roles workspace).after h).workspace = workspace := workspace_after _ h
  generalize (ofRoles roles workspace).after h = s at hcell hws
  by_cases hrole : role ∈ roles
  · rw [if_pos hrole] at hcell
    cases hfirst : firstCall h role with
    | some c =>
      have hclosed : content h role ≠ .vacant := by simp [Ne, content_eq_vacant, hfirst]
      rw [publish_of_closed hcell hclosed]
      constructor <;> simp [hrole, hfirst, Disk.Keeps.refl]
    | none =>
      rw [content_eq_vacant.2 hfirst] at hcell
      rw [publish_of_vacant hcell, hws]
      cases workspace with
      | none => constructor <;> simp [hrole, hfirst, Slots.findings, Cell.findings?, Disk.Keeps.refl]
      | some w =>
        cases hd : w.writeSlot d role fs with
        | error e =>
          constructor <;> simp [hrole, hfirst, hd, Slots.findings, Cell.findings?, Disk.Keeps.refl]
        | ok d' =>
          have hdoc := (Workspace.writeSlot_eq_ok hd).2
          have hothers := fun role' => @writeSlot_others d role fs w d' role' hd
          constructor <;>
            simp [hrole, hfirst, hd, hdoc, Slots.findings, Cell.findings?]
          exact fun w' role' hw hne => hw ▸ hothers role' hne
  · rw [if_neg hrole] at hcell
    rw [publish_of_none hcell]
    constructor <;> simp [hrole, Disk.Keeps.refl]

/-- **What a call to withhold does** after some calls. -/
theorem withhold_after (role : Role) :
    Withholds roles h role (((ofRoles roles workspace).after h).withhold role).2 := by
  have hcell := cells_of_roles roles workspace h role
  generalize (ofRoles roles workspace).after h = s at hcell
  by_cases hrole : role ∈ roles
  · rw [if_pos hrole] at hcell
    cases hfirst : firstCall h role with
    | some c =>
      have hclosed : content h role ≠ .vacant := by simp [Ne, content_eq_vacant, hfirst]
      have hlate : (s.withhold role).2 = .ok false := by
        cases hx : content h role with
        | vacant => exact absurd hx hclosed
        | published fs => simp only [withhold, close, hcell, hx]
        | withheld => simp only [withhold, close, hcell, hx]
      rw [hlate]
      constructor <;> simp [hrole, hfirst]
    | none =>
      rw [content_eq_vacant.2 hfirst] at hcell
      have hopen : (s.withhold role).2 = .ok true := by simp only [withhold, close, hcell]
      rw [hopen]
      constructor <;> simp [hrole, hfirst]
  · rw [if_neg hrole] at hcell
    have hnone : (s.withhold role).2 = .error (.unknownRole role) := by
      simp only [withhold, close, hcell]
    rw [hnone]
    constructor <;> simp [hrole]

end OneMore

/-! ### All calls -/

theorem disk_of_shut {s : Slots} {d : Disk} {c : Call} (h : s.Shut c.role) : (s.serve d c).2 = d := by
  cases c with
  | withhold role => rfl
  | publish role fs =>
    rcases publish_disk s d role fs with heq | ⟨hv, -⟩
    · exact heq
    · exact absurd hv h

theorem disk_of_mem_trace {s : Slots} {role : Role} (hs : s.Shut role) {h : List (Call × Disk)} :
    ∀ x ∈ s.trace h, x.1.role = role → x.2.2 = x.2.1 := by
  induction h generalizing s with
  | nil => simp [trace]
  | cons y h ih =>
    obtain ⟨c, d⟩ := y
    intro x hx hrole
    rcases List.mem_cons.1 hx with rfl | hx
    · exact disk_of_shut (hrole.symm ▸ hs)
    · exact ih (shut_serve_of_shut hs) x hx hrole

/-- **At most one write for each role**: of two calls on one role the later one leaves the disk alone. -/
theorem trace_pairwise (s : Slots) (h : List (Call × Disk)) :
    (s.trace h).Pairwise fun a b => a.1.role = b.1.role → b.2.2 = b.2.1 := by
  induction h generalizing s with
  | nil => exact .nil
  | cons y h ih =>
    obtain ⟨c, d⟩ := y
    refine List.pairwise_cons.2 ⟨fun b hb hrole => ?_, ih _⟩
    exact disk_of_mem_trace shut_serve b hb hrole.symm

theorem keys_after (roles : List Role) (workspace : Option Workspace) (h : List (Call × Disk)) :
    ((ofRoles roles workspace).after h).cells.keys = Role.all.filter fun role => role ∈ roles := by
  refine List.filter_congr fun role _ => ?_
  rw [cells_of_roles]
  split_ifs with hrole <;> simp [hrole]

theorem findings_after (roles : List Role) (workspace : Option Workspace) (h : List (Call × Disk))
    (role : Role) : ((ofRoles roles workspace).after h).findings role =
      if role ∈ roles then (content h role).findings? else none := by
  rw [findings, cells_of_roles]
  split_ifs <;> rfl

theorem collect_after (roles : List Role) (workspace : Option Workspace) (h : List (Call × Disk)) :
    Arranged (fun x => (x.1, x.2.id)) (publishedBy roles h)
      ((ofRoles roles workspace).after h).collect := by
  have hlist : publishedBy roles h = ((ofRoles roles workspace).after h).cells.keys.flatMap fun role =>
      ((((ofRoles roles workspace).after h).findings role).getD []).map fun f => (role, f) := by
    rw [publishedBy, keys_after]
    refine List.flatMap_congr fun role hrole => ?_
    rw [findings_after, if_pos (by simpa using (List.mem_filter.1 hrole).2)]
  rw [hlist]
  exact arranged_byRoleAndId _ _

/-- **Slots are written once.**  Take the slots for some roles, with or without a workspace, after any calls
to publish and to withhold, each of which found the disk in some state.

A slot holds what the first call on its role put there, and keeps it whatever is called later.  What one more
publication answers, leaves in memory and writes is told by whether it is the first call on its role, and by
the disk; what one more call to withhold answers, by the former alone.  Of two calls on one role the later
one leaves the disk alone.  The findings of a role are those of the publication that was the first call on
it, and collecting lists all of them by role and identifier, equal ones as they stood in the slots. -/
theorem slots_write_once (roles : List Role) (workspace : Option Workspace)
    (h : List (Call × Disk)) :
    let s := (ofRoles roles workspace).after h
    (∀ role, s.cells.get? role = if role ∈ roles then some (content h role) else none) ∧
    (∀ role later, (firstCall h role).isSome = true →
      (s.after later).cells.get? role = s.cells.get? role) ∧
    (∀ d role fs, Publishes roles workspace h d role fs (s.publish d role fs)) ∧
    (∀ role, Withholds roles h role (s.withhold role).2) ∧
    ((ofRoles roles workspace).trace h).Pairwise (fun a b => a.1.role = b.1.role → b.2.2 = b.2.1) ∧
    (∀ role fs, s.findings role = some fs ↔
      role ∈ roles ∧ firstCall h role = some (.publish role fs)) ∧
    Arranged (fun x => (x.1, x.2.id)) (publishedBy roles h) s.collect := by
  intro s
  refine ⟨cells_of_roles roles workspace h, fun role later hfirst => ?_, publish_after roles workspace h,
    withhold_after roles workspace h, trace_pairwise _ h, fun role fs => ?_,
    collect_after roles workspace h⟩
  · have hclosed : content h role ≠ .vacant := by
      rw [Ne, content_eq_vacant, ← Option.not_isSome_iff_eq_none, hfirst]
      simp
    rw [cells_after, cells_of_roles]
    split_ifs <;> simp [hclosed]
  · rw [findings_after, ← content_eq_published]
    split_ifs with hrole
    · cases content h role <;> simp [Cell.findings?, hrole]
    · simp [hrole]

/-- A publication whose document has no directory to go to, and one that comes too late. -/
theorem slots_write_once_refused :
    let s := ofRoles [.security] (some ⟨"r", "runs/r"⟩)
    (s.publish .blank .security []).2.2 = .error (.persist (.io "runs/r/findings" .notFound)) ∧
      (s.after [(.publish .security [], .blank)]).findings .security = some [] ∧
      ((s.after [(.publish .security [], .blank)]).publish .blank .security []).2.2 =
        .error (.closed .security) := by
  obtain ⟨-, -, hfirst, -⟩ := slots_write_once [.security] (some ⟨"r", "runs/r"⟩) []
  obtain ⟨-, -, hlate, -, -, hfind, -⟩ := slots_write_once [.security] (some ⟨"r", "runs/r"⟩)
    [(.publish .security [], .blank)]
  refine ⟨((hfirst .blank .security []).persist _).2 ⟨by decide, rfl, _, rfl, rfl⟩,
    (hfind _ _).2 ⟨by decide, rfl⟩, (hlate .blank .security []).closed.2 ⟨by decide, rfl⟩⟩

end Slots

end ReviewPanel
