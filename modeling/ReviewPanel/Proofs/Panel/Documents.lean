import ReviewPanel.Proofs.Panel.Agreement
import ReviewPanel.Proofs.Scribe

/-!
# Slot documents stay

Once the findings of a role are on disk they stay there, as long as no other run uses the directory.  Of
everything that a panel writes, only two calls could get in the way: a start that sets aside or removes a
directory of the same name, and a second publication of the same slot, which does not happen because the
slot is shut.

## Main statements

* `Panel.start_keeps`, `Panel.finalize_keeps`, `Panel.publish_keeps` : what the calls of a panel leave on
  disk.
* `Panel.step_keeps` : **a step keeps the document of a slot that is shut.**
-/

namespace ReviewPanel.Panel

variable {loc : Location} {p : Panel}

/-! ### Calls that write state documents and verdicts -/

theorem deliver_keeps (hloc : loc.getLast? ≠ some Workspace.statusName) (p : Panel) (k : Nat) :
    Disk.Keeps loc p.disk (p.deliver k).disk := by
  unfold deliver
  split
  · exact Disk.Keeps.refl loc _
  · exact Scribe.updateRun_keeps (fun r d => r.receive_keeps hloc d _) p.scribe p.disk _

theorem accept_keeps {α : Type} (hloc : loc.getLast? ≠ some Workspace.statusName) (p : Panel)
    (u : Ledger.Update α) : Disk.Keeps loc p.disk (p.accept u).disk :=
  deliver_keeps hloc (p.post u) _

/-- Waiters and supervisors leave it to the scribe to write state documents. -/
theorem stepWaiter_disk (p : Panel) (k : Nat) : (p.stepWaiter k).disk = p.disk := by
  have h := Move.stepWaiter p k
  generalize p.stepWaiter k = q at h ⊢
  cases h with
  | aside he => cases he
  | idle | polled | turned | finished | joined | skipped => rfl
  | closed =>
    rw [withhold_fst]
    rfl
  | began | gaveUp => exact transition_disk p _ _ _ _
  | @expired _ w _ _ role _ cause =>
    rcases (p.transition w.runId role .timedOut cause).1.stopLate_eq w role with h | ⟨j, h⟩
    · rw [h]
      exact transition_disk p _ _ _ _
    · rw [h]
      exact transition_disk p _ _ _ _

theorem settle_disk (p : Panel) (j : Nat) : (p.settle j).disk = p.disk := by
  have h := Move.settle p j
  generalize p.settle j = q at h ⊢
  cases h with
  | aside he => cases he
  | idle => rfl
  | settled => exact transition_disk p _ _ _ _

theorem writeVerdict_keeps (hloc : loc.getLast? ≠ some Workspace.verdictName) {q : Panel} {id : RunId}
    {v : Verdict} (h : p.writeVerdict id v = .ok q) : Disk.Keeps loc p.disk q.disk := by
  unfold writeVerdict at h
  split at h
  · obtain rfl := Except.ok.inj h
    exact Disk.Keeps.refl loc _
  · split at h
    · rename_i hw
      obtain rfl := Except.ok.inj h
      refine Workspace.writeDocument_keeps hw ?_
      rintro rfl
      simp at hloc
    · cases h

theorem attachVerdict_keeps (hloc : loc.getLast? ≠ some Workspace.statusName) {q : Panel} {id : RunId}
    {v : Verdict} (h : p.attachVerdict id v = .ok q) : Disk.Keeps loc p.disk q.disk := by
  unfold attachVerdict at h
  split at h
  · cases h
  · rename_i u _
    obtain rfl := Except.ok.inj h
    have hheard : Disk.Keeps loc p.disk (p.arrivals.foldl deliver (p.accept u)).disk :=
      foldl_deliver_preserves (P := fun q => Disk.Keeps loc p.disk q.disk)
        (fun q k hq => hq.trans (deliver_keeps hloc q k)) p.arrivals (accept_keeps hloc p u)
    exact hheard.trans (Scribe.updateRun_keeps (fun r d => r.flush_keeps hloc d) _ _ _)

theorem finalize_keeps (hstatus : loc.getLast? ≠ some Workspace.statusName)
    (hverdict : loc.getLast? ≠ some Workspace.verdictName) (p : Panel) (id : RunId) :
    Disk.Keeps loc p.disk (p.finalize id).1.disk := by
  unfold finalize
  split
  · exact Disk.Keeps.refl loc _
  · split
    · exact Disk.Keeps.refl loc _
    · split
      · exact Disk.Keeps.refl loc _
      · split
        · exact Disk.Keeps.refl loc _
        · split
          · exact Disk.Keeps.refl loc _
          · rename_i hwrite
            have hkept := writeVerdict_keeps hverdict hwrite
            split
            · exact hkept
            · rename_i hattach
              have hkept' := attachVerdict_keeps hstatus hattach
              exact hkept.trans hkept'

/-! ### Starting another run -/

section Start

variable {root : String} {id : RunId}

/-- Setting aside the directory of a run keeps the files outside of it. -/
theorem clearPrevious_keeps (hroot : p.config.workspaceRoot = some root)
    (hout : ¬ p.disk.locate (Workspace.dirFor root id) <+: loc) :
    Disk.Keeps loc p.disk (p.clearPrevious id).1.disk := by
  unfold clearPrevious
  cases p.config.rerunPolicy with
  | reject => exact Disk.Keeps.refl loc _
  | archive =>
    cases hret : p.ledger.retire id with
    | ok r =>
      simp only [hroot]
      split
      · exact Disk.Keeps.refl loc _
      · rename_i harch
        have hkept := Workspace.archive_keeps harch hout
        exact hkept
    | error e =>
      simp only
      split
      · exact Disk.Keeps.refl loc _
      · simp only [hroot]
        split
        · exact Disk.Keeps.refl loc _
        · rename_i harch
          have hkept := Workspace.archive_keeps harch hout
          exact hkept

theorem openWorkspace_keeps (p : Panel) (id : RunId) (loc : Location) :
    Disk.Keeps loc p.disk (p.openWorkspace id).1.disk := by
  unfold openWorkspace
  cases p.config.workspaceRoot with
  | none => exact Disk.Keeps.refl loc _
  | some root =>
    have hkept := Workspace.create_keeps p.disk root id loc
    simp only
    split <;> rename_i hcreate <;> rw [hcreate] at hkept <;> exact hkept

theorem closeWorkspace_keeps (p : Panel) (id' : RunId) {w : Option Workspace}
    (hout : ∀ w', w = some w' → ¬ p.disk.locate w'.dir <+: loc) :
    Disk.Keeps loc p.disk (p.closeWorkspace id' w).disk := by
  unfold closeWorkspace
  cases w with
  | none => exact Disk.Keeps.refl loc _
  | some w =>
    simp only
    split
    · rename_i hremove
      have hkept := Disk.removeTree_keeps hremove (hout w rfl)
      exact hkept
    · exact Disk.Keeps.refl loc _

theorem spawn_keeps (hloc : loc.getLast? ≠ some Workspace.statusName) (p : Panel) (i : Nat)
    (id : RunId) (item : WorkItem) (role : Role) :
    Disk.Keeps loc p.disk (p.spawn i id item role).disk := by
  unfold spawn
  split
  · exact Disk.Keeps.refl loc _
  · exact accept_keeps hloc p _

theorem launch_keeps (hloc : loc.getLast? ≠ some Workspace.statusName) (p : Panel) (id : RunId)
    (item : WorkItem) (roles : List Role) (w : Option Workspace) :
    Disk.Keeps loc p.disk (p.launch id item roles w).disk := by
  have hfold : ∀ (i : Nat) (roles : List Role) (q : Panel), Disk.Keeps loc q.disk
      (roles.foldl (fun q role => q.spawn i id item role) q).disk := by
    intro i roles
    induction roles with
    | nil => exact fun q => Disk.Keeps.refl loc _
    | cons role roles ih =>
      exact fun q => (spawn_keeps hloc q i id item role).trans (ih (q.spawn i id item role))
  exact hfold _ roles _

/-- **Starting a run keeps the files outside of its directory**, whether it is accepted or refused. -/
theorem start_keeps (hloc : loc.getLast? ≠ some Workspace.statusName)
    (hroot : p.config.workspaceRoot = some root)
    (hout : ¬ p.disk.locate (Workspace.dirFor root id) <+: loc) (item : WorkItem)
    (roles : List Role) : Disk.Keeps loc p.disk (p.start id item roles).1.disk := by
  unfold start
  split_ifs
  · exact Disk.Keeps.refl loc _
  · have hkept := clearPrevious_keeps hroot hout
    have hconfig : (p.clearPrevious id).1.config = p.config := by
      rcases p.clearPrevious_cases id with ⟨e, h⟩ | ⟨_, _, _, _, _, _, -, h⟩ <;> rw [h]
    cases hclear : p.clearPrevious id with
    | mk p₁ r₁ =>
      rw [hclear] at hkept hconfig
      cases r₁ with
      | error e => exact hkept
      | ok u =>
        simp only
        have hkept₂ := hkept.trans (p₁.openWorkspace_keeps id loc)
        obtain ⟨⟨scribe, disk, hp₂⟩, hw⟩ := p₁.openWorkspace_eq id
        cases hopen : p₁.openWorkspace id with
        | mk p₂ r₂ =>
          rw [hopen] at hkept₂ hp₂ hw
          cases r₂ with
          | error e => exact hkept₂
          | ok w =>
            simp only
            split
            · refine hkept₂.trans (closeWorkspace_keeps p₂ id fun w' hw' => ?_)
              have hdir : w' = ⟨id, Workspace.dirFor root id⟩ := by
                have := (hw w rfl).symm.trans hw'
                rw [workspaceFor, hconfig, hroot] at this
                exact (Option.some.inj this).symm
              rw [hdir, hkept₂.locate_eq]
              exact hout
            · exact hkept₂.trans ((accept_keeps hloc p₂ _).trans
                (launch_keeps hloc _ id item roles w))

end Start

/-! ### The steps of a panel -/

/-- The location of the document of a slot. -/
def slotLocation (p : Panel) (root : String) (id : RunId) (role : Role) : Location :=
  p.disk.locate (Workspace.slotPath ⟨id, Workspace.dirFor root id⟩ role)

theorem slotLocation_eq (p : Panel) (root : String) (id : RunId) (role : Role) :
    p.slotLocation root id role =
      p.disk.locate root ++ [sanitize id, Workspace.findingsName, role.slotName] :=
  Workspace.locate_slotPath p.disk root id role

theorem getLast?_slotLocation (p : Panel) (root : String) (id : RunId) (role : Role) :
    (p.slotLocation root id role).getLast? = some role.slotName := by
  rw [slotLocation_eq]
  simp

/-- No incarnation of another run has a directory of the same name. -/
def Apart (p : Panel) (id : RunId) : Prop :=
  ∀ inc ∈ p.incarnations, sanitize inc.runId = sanitize id → inc.runId = id

/-- The event is no start of another run with a directory of the same name. -/
def Event.KeepsApart (id : RunId) : Event → Prop
  | .start id' _ _ => sanitize id' = sanitize id → id' = id
  | _ => True

theorem Move.apart {p q : Panel} {e : Event} (h : Move p e q) {id : RunId} (he : e.KeepsApart id)
    (hp : p.Apart id) : q.Apart id := by
  intro inc' hmem
  obtain ⟨i, hinc'⟩ := List.mem_iff_getElem?.1 hmem
  rcases h.advances.incarnations.back hinc' with ⟨inc, hinc, hgrow⟩ | hnew
  · rw [hgrow.runId_eq]
    exact hp inc (List.mem_of_getElem? hinc)
  · obtain ⟨-, item, roles, rfl, -⟩ := h.launched hinc' hnew
    exact he

/-- **Publishing one slot keeps the documents of all others**, and that of a slot that is shut. -/
theorem publish_keeps (hw : p.Wired) {root : String} (hroot : p.config.workspaceRoot = some root)
    {id : RunId} (hapart : p.Apart id) {i : Nat} {inc : Incarnation}
    (hinc : p.incarnations[i]? = some inc) (hsole : p.Sole i id) {role : Role}
    (hshut : inc.slots.Shut role) (i' : Nat) (role' : Role) (fs : List Finding) :
    Disk.Keeps (p.slotLocation root id role) p.disk (p.publish i' role' fs).1.disk := by
  unfold publish
  cases hinc' : p.incarnations[i']? with
  | none => exact Disk.Keeps.refl _ _
  | some inc' =>
    have hmem := List.mem_of_getElem? hinc'
    rcases inc'.slots.publish_disk p.disk role' fs with hsame | ⟨hvacant, w, hwork, hwrite⟩
    · show Disk.Keeps _ _ (inc'.slots.publish p.disk role' fs).2.1
      rw [hsame]
    · show Disk.Keeps _ _ (inc'.slots.publish p.disk role' fs).2.1
      refine Workspace.writeDocument_keeps hwrite fun heq => ?_
      -- the same document would be the same slot, which is shut
      rw [hw.workspaces inc' hmem, workspaceFor, hroot] at hwork
      obtain rfl := Option.some.inj hwork
      rw [← p.disk.locate_join _ role'.slotName_plain] at heq
      have hloc := (Workspace.locate_slotPath p.disk root inc'.runId role').symm.trans
        (heq.trans (slotLocation_eq p root id role))
      have hnames := List.append_cancel_left hloc
      simp only [List.cons.injEq, true_and, and_true] at hnames
      have hid := hapart inc' hmem hnames.1
      obtain rfl : i' = i := hsole _ _ hinc' hid
      obtain rfl : inc' = inc := Option.some.inj (hinc'.symm.trans hinc)
      rw [Role.slotName_inj hnames.2] at hvacant
      exact hshut hvacant

/-- A start of the run itself leaves everything as it is, or the run is gone, or it has a new
incarnation. -/
theorem start_again_cases (p : Panel) (id : RunId) (item : WorkItem) (roles : List Role) :
    (p.start id item roles).1 = p ∨
      (p.start id item roles).1.ledger.entries.get? id = none ∨
      ∃ inc, (p.start id item roles).1.incarnations[p.incarnations.length]? = some inc ∧
        inc.runId = id := by
  have h := Move.start p id item roles
  generalize (p.start id item roles).1 = q at h ⊢
  cases h with
  | idle => exact .inl rfl
  | aside he => cases he
  | refused hc => exact .inr (.inl hc.1)
  | started => exact .inr (.inr ⟨_, List.getElem?_concat_length, rfl⟩)

/-- **A step keeps the document of a slot that is shut**, unless the run is gone or has been started
again, or another run uses its directory. -/
theorem step_keeps (hw : p.Wired) {root : String} (hroot : p.config.workspaceRoot = some root)
    {id : RunId} (hapart : p.Apart id) {i : Nat} {inc : Incarnation}
    (hinc : p.incarnations[i]? = some inc) {role : Role} (hshut : inc.slots.Shut role) {e : Event}
    (he : e.KeepsApart id) (hsole : (p.step e).Sole i id)
    (hx : (p.step e).ledger.entries.get? id ≠ none) :
    Disk.Keeps (p.slotLocation root id role) p.disk (p.step e).disk := by
  have hlast := getLast?_slotLocation p root id role
  have hstatus : (p.slotLocation root id role).getLast? ≠ some Workspace.statusName := by
    rw [hlast]
    cases role <;> decide
  have hverdict : (p.slotLocation root id role).getLast? ≠ some Workspace.verdictName := by
    rw [hlast]
    cases role <;> decide
  have hsole₀ := hsole.of_advances (p.step_advances e)
  cases e with
  | start id' item roles =>
    by_cases hid : id' = id
    · subst hid
      rcases p.start_again_cases id' item roles with hsame | hnone | ⟨inc', hinc', hid'⟩
      · rw [step, hsame]
      · exact absurd hnone hx
      · have hlt := (List.getElem?_eq_some_iff.1 hinc).1
        have heq := hsole _ _ hinc' hid'
        omega
    · exact start_keeps hstatus hroot
        (Workspace.not_isPrefix_slotPath p.disk root (fun h => hid (he h)) role) item roles
  | finalize id' => exact finalize_keeps hstatus hverdict p id'
  | forget id' =>
    rcases p.forget_cases id' with ⟨e, h⟩ | ⟨_, _, _, _, -, -, h⟩ <;> rw [step, h]
  | await id' poll limit =>
    simp only [step, enterWait]
    split <;> rfl
  | wait k => rw [step, stepWaiter_disk]
  | comeBack j => rfl
  | observe j =>
    have h := Move.observe p j
    show Disk.Keeps _ _ (p.observe j).disk
    generalize p.observe j = q at h ⊢
    cases h with
    | aside he => cases he
    | idle | observed => rfl
  | decide j =>
    have h := Move.decide p j
    show Disk.Keeps _ _ (p.decide j).disk
    generalize p.decide j = q at h ⊢
    cases h with
    | aside he => cases he
    | idle => rfl
    | published => exact publish_keeps hw hroot hapart hinc hsole₀ hshut _ _ _
    | withheld =>
      rw [withhold_fst]
      rfl
  | settle j => rw [step, settle_disk]
  | take n => rfl
  | persist n => exact Scribe.update_keeps (fun r d => r.writeCarried_keeps hstatus d) _ _ _
  | draw => rfl
  | pass ms now => rfl
  | refuse refusal => exact Disk.keeps_of_node? rfl fun _ _ _ _ => rfl
  | retain retention => exact Disk.keeps_of_node? rfl fun _ _ _ _ => rfl
  | deliver k => exact deliver_keeps hstatus p k
  | arrange arrivals => rfl

end ReviewPanel.Panel
