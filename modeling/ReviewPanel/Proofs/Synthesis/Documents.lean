import ReviewPanel.CommandLine.Program
import ReviewPanel.Proofs.RoundTrip
import ReviewPanel.Proofs.Slots
import ReviewPanel.Proofs.Synthesis.Order
import ReviewPanel.Proofs.Workspace.Directories

/-!
# The report from the disk is the report from memory

The findings of a run can be taken from its slots, or from the documents that were written when the slots
were published.  The way over the disk is the longer one: the findings are written as a text, the text is
read as a generic value, each item of the value is read as a finding, and the findings are not sorted
before the report is made.  The report is the same, entry for entry.

`Slots.Mirrored` is what carries the argument: for each role the disk holds the document of what was
published, and nothing if nothing was.  It holds when the directory of the run has just been made, and
publishing keeps it.

## Main definitions

* `Slots.Mirrored` : the documents on disk are those of the slots.
* `Slots.publishAll` : publishing one slot after the other.

## Main statements

* `Slots.mirrored_create`, `Slots.Mirrored.publish` : the invariant at the start, and along one step.
* `Slots.Mirrored.readSlot` : what is read back from the disk.
* `SynthesisReport.ofDocuments_published` : **both ways lead to the same report.**
-/

namespace ReviewPanel

open Json (Value Reader Number)

/-! ### Findings as generic values -/

namespace Finding

theorem within_toValue (f : Finding) {depth : Nat} (h : 1 < depth) : f.toValue.Within depth := by
  obtain ⟨id, severity, location, classification, rationale, remediation, reference⟩ := f
  cases remediation <;> cases reference <;>
    simp [toValue, Value.Within, Value.MembersWithin, Value.optional, Value.word, h]

theorem within_listValue (fs : List Finding) {depth : Nat} (h : 2 < depth) :
    (listValue fs).Within depth := by
  rw [listValue, Value.Within, Value.itemsWithin_iff]
  refine ⟨by omega, fun v hv => ?_⟩
  obtain ⟨f, -, rfl⟩ := List.mem_map.1 hv
  exact f.within_toValue (by omega)

theorem runText_anything (fs : List Finding) :
    Reader.anything.runText (Utf8.ofString (listValue fs).prettyText) = .ok (listValue fs).canonical :=
  Reader.runText_prettyText (Reader.reads_anything (within_listValue fs (by decide)))
    (recovers_listValue fs).fits

end Finding

/-! ### Slots and the disk -/

namespace Workspace

theorem locate_slotPath_concat (d : Disk) (w : Workspace) (role : Role) :
    d.locate (w.slotPath role) = d.locate w.findingsDir ++ [role.slotName] :=
  d.locate_join _ role.slotName_plain

end Workspace

namespace Slots

/-- The document of a slot, as it is on disk. -/
def slotNode (fs : List Finding) : Node := .file (Utf8.ofString (Finding.listValue fs).prettyText)

/-- The disk holds the document of what was published in each slot, and nothing for the others. -/
structure Mirrored (w : Workspace) (s : Slots) (d : Disk) : Prop where
  workspace_eq : s.workspace = some w
  folder : d.reach (d.locate w.findingsDir) = .ok .directory
  /-- The system takes the documents. -/
  free : ∀ role, d.refusal (d.locate (w.slotPath role)) = none
  node?_eq : ∀ role, d.node? (d.locate (w.slotPath role)) = (s.findings role).map slotNode

theorem findings_ofRoles (roles : List Role) (workspace : Option Workspace) (role : Role) :
    (ofRoles roles workspace).findings role = none := by
  rw [findings, ofRoles, Table.get?_ofKeys]
  split_ifs <;> rfl

/-- In a directory that was just made there is nothing, and nothing has been published. -/
theorem mirrored_create {d₀ d : Disk} {root : String} {id : RunId} {w : Workspace}
    (hrooted : d₀.Rooted) (hcreate : Workspace.create d₀ root id = (d, .ok w))
    (hfree : ∀ role, d.refusal (d.locate (w.slotPath role)) = none) (roles : List Role) :
    (ofRoles roles (some w)).Mirrored w d := by
  obtain ⟨rfl, hhere, hreach, d₁, hroot, hnew, rfl⟩ := Workspace.create_eq_ok hcreate
  have hlocate := Disk.locate_congr hhere
  have hbelow := (hrooted.makeDirectories hroot).node?_below hnew
  refine ⟨rfl, ?_, hfree, fun role => ?_⟩
  · rw [hlocate, Workspace.locate_findingsDir, Disk.reach_concat hreach, if_neg (by decide),
      Disk.node?_put_self _ (by simp)]
  · rw [findings_ofRoles, hlocate, Workspace.locate_slotPath, Disk.node?_put _ _ _ (by simp),
      Disk.node?_put _ _ _ (by simp), List.append_cons]
    exact hbelow _

variable {w : Workspace} {s : Slots} {d : Disk} {role : Role}

/-- **Publishing an open slot succeeds, and the disk keeps up with it.** -/
theorem Mirrored.publish (h : s.Mirrored w d) (hopen : s.cells.get? role = some .vacant)
    (fs : List Finding) : ∃ d', s.publish d role fs =
      ({ s with cells := s.cells.set role (.published fs) }, d', .ok ()) ∧
        Mirrored w { s with cells := s.cells.set role (.published fs) } d' := by
  let loc := d.locate (w.slotPath role)
  have hloc : d.locate w.findingsDir ++ [role.slotName] = loc :=
    (Workspace.locate_slotPath_concat d w role).symm
  have hnode : d.node? loc ≠ some .directory := by
    rw [h.node?_eq role]
    cases s.findings role <;> simp [slotNode]
  have hwrite : w.writeSlot d role fs = .ok (d.put loc (slotNode fs)) := by
    have hreplace := Disk.replaceFile_of_reach h.folder (hloc ▸ hnode) (hloc ▸ h.free role)
      (Utf8.ofString (Finding.listValue fs).prettyText)
    rw [Workspace.writeSlot, Workspace.writeDocument, hreplace, hloc]
    rfl
  refine ⟨d.put loc (slotNode fs), ?_, h.workspace_eq, ?_, h.free, fun role' => ?_⟩
  · rw [Slots.publish, close_eq_ok.2 ⟨hopen, rfl⟩]
    simp only [h.workspace_eq, hwrite]
  · have hsame : (d.put loc (slotNode fs)).locate w.findingsDir = d.locate w.findingsDir := rfl
    rw [hsame]
    refine Disk.reach_congr h.folder fun l hl => Disk.node?_put d loc _ fun heq => ?_
    have hlen := hl.length_le
    rw [heq, ← hloc] at hlen
    simp at hlen
  · have hfindings : ({ s with cells := s.cells.set role (.published fs) } : Slots).findings role' =
        if role' = role then some fs else s.findings role' := by
      rw [findings, findings, Table.get?_set]
      split_ifs <;> rfl
    have hlocate : (d.put loc (slotNode fs)).locate (w.slotPath role') = d.locate (w.slotPath role') :=
      rfl
    rw [hfindings, hlocate]
    split_ifs with hrole
    · subst hrole
      exact Disk.node?_put_self d (by simp [← hloc]) _
    · rw [← h.node?_eq role']
      refine Disk.node?_put d loc _ fun heq => hrole (Role.slotName_inj ?_)
      rw [Workspace.locate_slotPath_concat, ← hloc] at heq
      simpa using heq

/-- Publishes one slot after the other, until one is refused. -/
def publishAll (s : Slots) (d : Disk) : List (Role × List Finding) → Except SlotError (Slots × Disk)
  | [] => .ok (s, d)
  | (role, fs) :: ps =>
    match s.publish d role fs with
    | (s, d, .ok ()) => publishAll s d ps
    | (_, _, .error e) => .error e

/-- **Publishing open slots one after the other succeeds**, in whatever order. -/
theorem Mirrored.publishAll {ps : List (Role × List Finding)} (hroles : (ps.map Prod.fst).Nodup) :
    ∀ {s : Slots} {d : Disk}, s.Mirrored w d → (∀ p ∈ ps, s.cells.get? p.1 = some .vacant) →
      ∃ s' d', s.publishAll d ps = .ok (s', d') ∧ s'.Mirrored w d' ∧
        ∀ role fs, s'.findings role = some fs ↔ s.findings role = some fs ∨ (role, fs) ∈ ps := by
  induction ps with
  | nil =>
    intro s d h _
    exact ⟨s, d, rfl, h, by simp⟩
  | cons p ps ih =>
    intro s d h hopen
    obtain ⟨role, fs⟩ := p
    rw [List.map_cons, List.nodup_cons] at hroles
    have hvacant := hopen (role, fs) List.mem_cons_self
    obtain ⟨d₁, hpublish, h₁⟩ := h.publish hvacant fs
    have hopen₁ : ∀ p ∈ ps, (s.cells.set role (.published fs)).get? p.1 = some .vacant := by
      intro p hp
      have hne : p.1 ≠ role := fun heq => hroles.1 (List.mem_map.2 ⟨p, hp, heq⟩)
      rw [Table.get?_set, if_neg hne]
      exact hopen p (List.mem_cons_of_mem _ hp)
    obtain ⟨s', d', hall, h', hfindings⟩ := ih hroles.2 h₁ hopen₁
    refine ⟨s', d', ?_, h', fun role' fs' => ?_⟩
    · rw [Slots.publishAll, hpublish]
      exact hall
    · rw [hfindings, findings, Table.get?_set, List.mem_cons, Prod.mk.injEq]
      by_cases hrole : role' = role
      · subst hrole
        have hnone : s.findings role' = none := by rw [findings, hvacant]; rfl
        have hout : (role', fs') ∉ ps := fun hmem =>
          hroles.1 (List.mem_map.2 ⟨(role', fs'), hmem, rfl⟩)
        simp [hnone, hout, Cell.findings?, eq_comm]
      · simp [hrole, findings]

/-! ### Reading back -/

/-- **What is read back from the disk** are the published findings as a generic value. -/
theorem Mirrored.readSlot (h : s.Mirrored w d) (role : Role) :
    w.readSlot d role = .ok ((s.findings role).map fun fs => (Finding.listValue fs).canonical) := by
  have hreach := Disk.reach_concat h.folder role.slotName
  rw [if_neg (Nat.not_lt.2 role.slotName_length), ← Workspace.locate_slotPath_concat,
    h.node?_eq role] at hreach
  unfold Workspace.readSlot Workspace.readDocument Disk.fileContent
  rw [hreach]
  cases s.findings role with
  | none => rfl
  | some fs => simp only [Option.map_some, slotNode, Finding.runText_anything]

/-- The published findings of each role as a generic value. -/
def documents (s : Slots) : Table Role Value :=
  ⟨fun role => (s.findings role).map fun fs => (Finding.listValue fs).canonical⟩

theorem Mirrored.readSlots (h : s.Mirrored w d) (roles : List Role) :
    CommandLine.readSlots w d roles =
      .ok (roles.filterMap fun role => (s.documents.get? role).map fun v => (role, v)) := by
  induction roles with
  | nil => rfl
  | cons role roles ih =>
    rw [CommandLine.readSlots, h.readSlot role, ih, List.filterMap_cons]
    simp only [documents]
    cases s.findings role <;> rfl

theorem ofList_documents (s : Slots) {roles : List Role}
    (hroles : ∀ role fs, s.findings role = some fs → role ∈ roles) :
    Table.ofList (roles.filterMap fun role => (s.documents.get? role).map fun v => (role, v)) =
      s.documents := by
  refine Table.ofList_eq fun role v => ?_
  simp only [List.mem_filterMap, Option.map_eq_some_iff, Prod.mk.injEq]
  constructor
  · rintro ⟨role', -, v', hv', rfl, rfl⟩
    exact hv'
  · intro hv
    obtain ⟨fs, hfs, -⟩ := Option.map_eq_some_iff.1 hv
    exact ⟨role, hroles role fs hfs, v, hv, rfl, rfl⟩

end Slots

/-! ### The same report -/

namespace SynthesisReport

theorem documentInputs_listValue (role : Role) (fs : List Finding) :
    documentInputs role (Finding.listValue fs).canonical = fs.map fun f => (role, .ok f) := by
  have hread : ∀ index f, readEntry role index (Finding.toValue f).canonical = .ok f := fun index f => by
    rw [readEntry, f.recovers_toValue.runValue_canonical]
  rw [Finding.listValue, Value.canonical, Value.canonicalItems_eq_map, List.map_map, documentInputs]
  refine List.ext_getElem (by simp) fun i h₁ h₂ => ?_
  simp [hread]

theorem ofDocuments_documents (v : Verdict) (s : Slots) :
    ofDocuments v s.documents = ofFindings v s.listed := by
  have hinputs : (s.documents.entries.flatMap fun d => documentInputs d.1 d.2) =
      s.listed.map fun p => (p.1, .ok p.2) := by
    rw [Slots.listed, Table.entries, Table.keys]
    induction (Enumerated.all : List Role) with
    | nil => rfl
    | cons role roles ih =>
      have hfindings : s.findings role = (s.cells.get? role).bind Cell.findings? := rfl
      rw [List.filterMap_cons, List.filter_cons]
      cases hcell : s.cells.get? role with
      | none => simpa [Slots.documents, hfindings, hcell] using ih
      | some c =>
        cases hc : c.findings? with
        | none => simpa [Slots.documents, hfindings, hcell, hc] using ih
        | some fs =>
          simpa [Slots.documents, hfindings, hcell, hc, documentInputs_listValue, Function.comp_def]
            using ih
  rw [ofDocuments, hinputs, ofFindings]

/-- **Both ways lead to the same report.**  In a directory that was just made, each role of an assignment
publishes its findings, in whatever order the roles come.  All of them succeed; all documents can be read
back; and the report on them is the report on the findings in the slots. -/
theorem ofDocuments_published {d₀ d : Disk} {root : String} {id : RunId} {w : Workspace}
    (hrooted : d₀.Rooted) (hcreate : Workspace.create d₀ root id = (d, .ok w))
    (hfree : ∀ role, d.refusal (d.locate (w.slotPath role)) = none)
    {roles : List Role} {ps : List (Role × List Finding)} (hps : (ps.map Prod.fst).Nodup)
    (hroles : ∀ p ∈ ps, p.1 ∈ roles) (v : Verdict) :
    ∃ slots d' documents, (Slots.ofRoles roles (some w)).publishAll d ps = .ok (slots, d') ∧
      (∀ role fs, slots.findings role = some fs ↔ (role, fs) ∈ ps) ∧
      CommandLine.readSlots w d' roles = .ok documents ∧
      ofDocuments v (.ofList documents) = ofFindings v slots.collect := by
  have hopen : ∀ p ∈ ps, (Slots.ofRoles roles (some w)).cells.get? p.1 = some .vacant := fun p hp =>
    if_pos (hroles p hp)
  obtain ⟨slots, d', hpublish, hmirrored, hfindings⟩ :=
    (Slots.mirrored_create hrooted hcreate hfree roles).publishAll hps hopen
  have hassigned : ∀ role fs, slots.findings role = some fs ↔ (role, fs) ∈ ps := fun role fs => by
    rw [hfindings, Slots.findings_ofRoles]
    simp
  have hread : ∀ role fs, slots.findings role = some fs → role ∈ roles := fun role fs hfs =>
    hroles (role, fs) ((hassigned role fs).1 hfs)
  refine ⟨slots, d', _, hpublish, hassigned, hmirrored.readSlots roles, ?_⟩
  rw [slots.ofList_documents hread, ofDocuments_documents]
  exact (ofFindings_arranged v (arranged_byRoleAndId _ _)).symm

/-- Two roles that publish in the order opposite to that of reports.  One lists two findings with one
identifier, and its texts need escapes. -/
def crossedFindings : List (Role × List Finding) :=
  [(.build, [⟨"B-2", .warning, "ci", .violation, "slow", none, some "LAW 1"⟩,
      ⟨"B-1", .blocker, "ci\t\"é\"", .violation, "😀\x00", some "mend it", none⟩,
      ⟨"B-2", .advisory, "ci", .falseAlarm, "noise", none, none⟩]),
    (.security, [⟨" ", .blocker, "net", .violation, "open port", none, none⟩,
      ⟨"SEC-1", .blocker, "net", .violation, "no password", none, none⟩])]

theorem ofDocuments_published_blank :
    Disk.blank.Rooted ∧
      (Workspace.create .blank "runs" "r").2 = .ok ⟨"r", "runs/r"⟩ ∧
      ∃ slots d' documents,
        (Slots.ofRoles [.security, .build, .coverage] (some ⟨"r", "runs/r"⟩)).publishAll
            (Workspace.create .blank "runs" "r").1 crossedFindings = .ok (slots, d') ∧
          (∀ role fs, slots.findings role = some fs ↔ (role, fs) ∈ crossedFindings) ∧
          CommandLine.readSlots ⟨"r", "runs/r"⟩ d' [.security, .build, .coverage] = .ok documents ∧
          ofDocuments quotedVerdict (.ofList documents) = ofFindings quotedVerdict slots.collect := by
  have hcreate : (Workspace.create .blank "runs" "r").2 = .ok ⟨"r", "runs/r"⟩ := by decide +kernel
  have hfree : ∀ role, (Workspace.create .blank "runs" "r").1.refusal
      ((Workspace.create .blank "runs" "r").1.locate (Workspace.slotPath ⟨"r", "runs/r"⟩ role)) =
        none := fun role => rfl
  have hpair : Workspace.create .blank "runs" "r" =
      ((Workspace.create .blank "runs" "r").1, .ok ⟨"r", "runs/r"⟩) := Prod.ext rfl hcreate
  have hroles : ∀ p ∈ crossedFindings, p.1 ∈ [Role.security, .build, .coverage] := by
    simp [crossedFindings]
  exact ⟨Disk.rooted_blank, hcreate, ofDocuments_published Disk.rooted_blank hpair hfree
    (by simp [crossedFindings]) hroles quotedVerdict⟩

end SynthesisReport

end ReviewPanel
