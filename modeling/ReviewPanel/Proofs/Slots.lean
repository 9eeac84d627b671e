import Mathlib.Tactic.SplitIfs
import ReviewPanel.Slots

/-!
# Slots only close

Publishing and withholding can close an open slot and do nothing else to the cells of a run.
`Slots.Grows` is that relation between the slots before and after; along it a slot that is shut keeps
its content for good, and with it what `Slots.findings` answers.

## Main definitions

* `Slots.Shut` : nobody can decide about the slot any more.
* `Slots.Grows` : some open slots have been closed.

## Main statements

* `Slots.grows_withhold`, `Slots.grows_publish` : the two operations, and that they leave the slot
  shut.
* `Slots.publish_eq_ok` : when publishing succeeds, and what it leaves behind in memory and on disk.
* `Slots.publish_disk` : publishing writes only if it closes the slot.
-/

namespace ReviewPanel

namespace Slots

/-- The slot is not open: it has been closed, or the role has none. -/
def Shut (s : Slots) (role : Role) : Prop := s.cells.get? role ≠ some .vacant

/-- Between `a` and `b` open slots may have been closed, and nothing else has happened. -/
structure Grows (a b : Slots) : Prop where
  workspace_eq : b.workspace = a.workspace
  isSome_eq : ∀ role, (b.cells.get? role).isSome = (a.cells.get? role).isSome
  cell_eq : ∀ role, a.Shut role → b.cells.get? role = a.cells.get? role

@[refl] theorem Grows.refl (s : Slots) : s.Grows s := ⟨rfl, fun _ => rfl, fun _ _ => rfl⟩

theorem Grows.shut {a b : Slots} (h : a.Grows b) {role : Role} (hr : a.Shut role) :
    b.Shut role := by
  intro hv
  rw [h.cell_eq role hr] at hv
  exact hr hv

theorem Grows.trans {a b c : Slots} (h : a.Grows b) (h' : b.Grows c) : a.Grows c where
  workspace_eq := h'.workspace_eq.trans h.workspace_eq
  isSome_eq role := (h'.isSome_eq role).trans (h.isSome_eq role)
  cell_eq role hr := (h'.cell_eq role (h.shut hr)).trans (h.cell_eq role hr)

theorem Grows.findings_eq {a b : Slots} (h : a.Grows b) {role : Role} (hr : a.Shut role) :
    b.findings role = a.findings role := by
  rw [findings, findings, h.cell_eq role hr]

theorem isClosed_iff {s : Slots} {role : Role} :
    s.isClosed role = true ↔ (s.cells.get? role).isSome = true ∧ s.Shut role := by
  unfold isClosed Shut
  cases s.cells.get? role with
  | none => simp
  | some c => cases c <;> simp [Cell.isClosed]

/-! ### Closing one slot -/

theorem close_eq_ok {s s' : Slots} {role : Role} {c : Cell} :
    s.close role c = .ok s' ↔
      s.cells.get? role = some .vacant ∧ s' = { s with cells := s.cells.set role c } := by
  unfold close
  cases s.cells.get? role with
  | none => simp
  | some c' => cases c' <;> simp [eq_comm]

theorem shut_of_close_eq_error {s : Slots} {role : Role} {c : Cell} {e : SlotError}
    (h : s.close role c = .error e) : s.Shut role := by
  intro hv
  rw [close, hv] at h
  cases h

theorem grows_set {s : Slots} {role : Role} (h : s.cells.get? role = some .vacant) (c : Cell) :
    s.Grows { s with cells := s.cells.set role c } where
  workspace_eq := rfl
  isSome_eq role' := by
    rw [Table.get?_set]
    split_ifs with hr
    · rw [hr, h]
      rfl
    · rfl
  cell_eq role' hs := by
    rw [Table.get?_set, if_neg]
    rintro rfl
    exact hs h

theorem shut_set (s : Slots) (role : Role) {c : Cell} (hc : c ≠ .vacant) :
    Shut { s with cells := s.cells.set role c } role := by
  simpa [Shut] using hc

theorem grows_withhold (s : Slots) (role : Role) :
    s.Grows (s.withhold role).1 ∧ (s.withhold role).1.Shut role := by
  unfold withhold
  cases h : s.close role .withheld with
  | ok s' =>
    obtain ⟨hv, rfl⟩ := close_eq_ok.1 h
    exact ⟨grows_set hv _, shut_set s role (by simp)⟩
  | error e => cases e <;> exact ⟨Grows.refl s, shut_of_close_eq_error h⟩

section Publish

variable {s : Slots} {d : Disk} {role : Role} {fs : List Finding}

theorem publish_of_none (h : s.cells.get? role = none) :
    s.publish d role fs = (s, d, .error (.unknownRole role)) := by
  simp only [publish, close, h]

theorem publish_of_closed {x : Cell} (h : s.cells.get? role = some x) (hx : x ≠ .vacant) :
    s.publish d role fs = (s, d, .error (.closed role)) := by
  cases x with
  | vacant => exact absurd rfl hx
  | published _ => simp only [publish, close, h]
  | withheld => simp only [publish, close, h]

/-- A publication that closes the slot then writes the document, if there is a place for it. -/
theorem publish_of_vacant (h : s.cells.get? role = some .vacant) :
    s.publish d role fs =
      ({ s with cells := s.cells.set role (.published fs) },
        match s.workspace with
        | none => (d, .ok ())
        | some w =>
          match w.writeSlot d role fs with
          | .ok d' => (d', .ok ())
          | .error e => (d, .error (.persist e))) := by
  simp only [publish, close, h]
  cases s.workspace with
  | none => rfl
  | some w => cases hd : w.writeSlot d role fs <;> simp [hd]

end Publish

/-- What publishing does, in the three ways in which it can go. -/
theorem publish_cases (s : Slots) (d : Disk) (role : Role) (fs : List Finding) :
    (s.Shut role ∧ ∃ e, s.publish d role fs = (s, d, .error e)) ∨
      s.cells.get? role = some .vacant ∧
        ((∃ d', (s.workspace = none ∧ d' = d ∨
            ∃ w, s.workspace = some w ∧ w.writeSlot d role fs = .ok d') ∧
          s.publish d role fs =
            ({ s with cells := s.cells.set role (.published fs) }, d', .ok ())) ∨
        ∃ e, s.publish d role fs =
          ({ s with cells := s.cells.set role (.published fs) }, d, .error e)) := by
  unfold publish
  cases h : s.close role (.published fs) with
  | error e => exact .inl ⟨shut_of_close_eq_error h, e, rfl⟩
  | ok s' =>
    obtain ⟨hv, rfl⟩ := close_eq_ok.1 h
    refine .inr ⟨hv, ?_⟩
    cases hw : s.workspace with
    | none => exact .inl ⟨d, .inl ⟨rfl, rfl⟩, rfl⟩
    | some w =>
      cases hd : w.writeSlot d role fs with
      | ok d' => exact .inl ⟨d', .inr ⟨w, rfl, hd⟩, by simp [hd]⟩
      | error e => exact .inr ⟨.persist e, by simp [hd]⟩

theorem grows_publish (s : Slots) (d : Disk) (role : Role) (fs : List Finding) :
    s.Grows (s.publish d role fs).1 ∧ (s.publish d role fs).1.Shut role := by
  rcases publish_cases s d role fs with ⟨hs, e, h⟩ | ⟨hv, ⟨d', -, h⟩ | ⟨e, h⟩⟩ <;> rw [h]
  · exact ⟨Grows.refl s, hs⟩
  · exact ⟨grows_set hv _, shut_set s role (by simp)⟩
  · exact ⟨grows_set hv _, shut_set s role (by simp)⟩

/-- **After a successful publication** the cell holds the findings, and so does the document if the run
has a workspace. -/
theorem publish_eq_ok {s : Slots} {d : Disk} {role : Role} {fs : List Finding}
    (h : (s.publish d role fs).2.2 = .ok ()) :
    (s.publish d role fs).1.cells.get? role = some (.published fs) ∧
      ∀ w, s.workspace = some w → w.writeSlot d role fs = .ok (s.publish d role fs).2.1 := by
  rcases publish_cases s d role fs with ⟨-, e, he⟩ | ⟨-, ⟨d', hd, he⟩ | ⟨e, he⟩⟩ <;>
    rw [he] at h ⊢
  · cases h
  · refine ⟨by simp, fun w hw => ?_⟩
    rcases hd with ⟨hnone, -⟩ | ⟨w', hw', hd⟩
    · rw [hnone] at hw
      cases hw
    · obtain rfl : w' = w := Option.some.inj (hw'.symm.trans hw)
      exact hd
  · cases h

/-- **Publishing writes at most once**: the disk changes only if the slot was open, and then by the
document of this slot. -/
theorem publish_disk (s : Slots) (d : Disk) (role : Role) (fs : List Finding) :
    (s.publish d role fs).2.1 = d ∨
      s.cells.get? role = some .vacant ∧ ∃ w, s.workspace = some w ∧
        w.writeSlot d role fs = .ok (s.publish d role fs).2.1 := by
  rcases publish_cases s d role fs with ⟨-, e, he⟩ | ⟨hv, ⟨d', hd, he⟩ | ⟨e, he⟩⟩ <;> rw [he]
  · exact .inl rfl
  · rcases hd with ⟨-, rfl⟩ | ⟨w, hw, hd⟩
    · exact .inl rfl
    · exact .inr ⟨hv, w, hw, hd⟩
  · exact .inl rfl

end Slots

end ReviewPanel
