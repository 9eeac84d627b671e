import ReviewPanel.Proofs.Workspace
import ReviewPanel.Scribe

/-!
# Writers write state documents

Whatever a scribe does, on the spot or in the background, the only documents that it touches are state
documents.
-/

namespace ReviewPanel

variable {loc : Location}

namespace Registration

theorem persist_keeps (hloc : loc.getLast? ≠ some Workspace.statusName) (r : Registration) (d : Disk)
    (s : RunState) : Disk.Keeps loc d (r.persist d s).2 := by
  unfold persist
  split_ifs
  · exact Disk.Keeps.refl loc d
  · split
    · rename_i hw
      refine Workspace.writeDocument_keeps hw ?_
      rintro rfl
      simp at hloc
    · exact Disk.Keeps.refl loc d

theorem receive_keeps (hloc : loc.getLast? ≠ some Workspace.statusName) (r : Registration) (d : Disk)
    (s : RunState) : Disk.Keeps loc d (r.receive d s).2 := by
  unfold receive
  split_ifs
  · dsimp only
    split_ifs
    · exact Disk.Keeps.refl loc d
    · exact persist_keeps hloc _ d s
  · exact Disk.Keeps.refl loc d

theorem writeCarried_keeps (hloc : loc.getLast? ≠ some Workspace.statusName) (r : Registration)
    (d : Disk) : Disk.Keeps loc d (r.writeCarried d).2 := by
  unfold writeCarried
  split
  · exact Disk.Keeps.refl loc d
  · exact persist_keeps hloc _ d _

theorem flush_keeps (hloc : loc.getLast? ≠ some Workspace.statusName) (r : Registration) (d : Disk) :
    Disk.Keeps loc d (r.flush d).2 := by
  unfold flush
  split
  · exact Disk.Keeps.refl loc d
  · exact persist_keeps hloc r d _

end Registration

namespace Scribe

theorem update_keeps {f : Registration → Disk → Registration × Disk}
    (hf : ∀ r d, Disk.Keeps loc d (f r d).2) (s : Scribe) (d : Disk) (i : Nat) :
    Disk.Keeps loc d (s.update d i f).2 := by
  unfold update
  split
  · exact Disk.Keeps.refl loc d
  · exact hf _ d

theorem updateRun_keeps {f : Registration → Disk → Registration × Disk}
    (hf : ∀ r d, Disk.Keeps loc d (f r d).2) (s : Scribe) (d : Disk) (id : RunId) :
    Disk.Keeps loc d (s.updateRun d id f).2 := by
  unfold updateRun
  split
  · exact Disk.Keeps.refl loc d
  · exact update_keeps hf s d _

end Scribe

end ReviewPanel
