import ReviewPanel.Proofs.Disk
import ReviewPanel.Workspace

/-!
# Where the documents of a run are

The path of a document is a text, put together from the root, the name of the run's directory and the
names of the documents.  Read as a location it is the location of the root followed by those names,
because none of them has a slash or leads anywhere else (`Path.Plain`).  So documents with different
names, and the documents of runs whose directories have different names, never get in each other's way.

## Main statements

* `Disk.locate_join` : one more name on a path is one more name of the location.
* `sanitize_plain` : **the name of a run's directory cannot lead out of the root.**
* `Workspace.writeDocument_keeps`, `Workspace.writeSlot_eq_ok`, `Workspace.create_keeps`,
  `Workspace.archive_keeps` : what the calls of a workspace write, and what they leave alone.
-/

namespace ReviewPanel

/-! ### Paths -/

namespace Path

/-- A name that leads one step down, whatever stands before it. -/
def Plain (name : String) : Prop :=
  '/' ∉ name.toList ∧ name ≠ "" ∧ name ≠ "." ∧ name ≠ ".."

instance (name : String) : Decidable (Plain name) := inferInstanceAs (Decidable (_ ∧ _))

theorem splitSlashes_ne_nil (cs : List Char) : splitSlashes cs ≠ [] := by
  cases cs with
  | nil => simp [splitSlashes]
  | cons c cs =>
    rw [splitSlashes]
    split
    · simp
    · split_ifs <;> simp

theorem splitSlashes_of_notMem {cs : List Char} (h : '/' ∉ cs) : splitSlashes cs = [cs] := by
  induction cs with
  | nil => rfl
  | cons c cs ih =>
    have hc : c ≠ '/' := fun heq => h (heq ▸ List.mem_cons_self)
    rw [splitSlashes, ih fun hmem => h (List.mem_cons_of_mem _ hmem)]
    simp [hc]

theorem splitSlashes_append (as bs : List Char) :
    splitSlashes (as ++ '/' :: bs) = splitSlashes as ++ splitSlashes bs := by
  induction as with
  | nil =>
    rw [List.nil_append, splitSlashes]
    cases h : splitSlashes bs with
    | nil => exact absurd h (splitSlashes_ne_nil bs)
    | cons part parts => simp [splitSlashes, h]
  | cons c cs ih =>
    rw [List.cons_append, splitSlashes, ih, splitSlashes]
    cases h : splitSlashes cs with
    | nil => exact absurd h (splitSlashes_ne_nil cs)
    | cons part parts =>
      simp only [List.cons_append]
      split_ifs <;> rfl

/-- The names of two paths with a slash between them. -/
theorem names_slash (as bs : List Char) :
    names (String.ofList (as ++ '/' :: bs)) = names (String.ofList as) ++ names (String.ofList bs) := by
  simp only [names, String.toList_ofList, splitSlashes_append, List.map_append, List.filter_append]

theorem names_of_plain {name : String} (h : Plain name) : names name = [name] := by
  rw [names, splitSlashes_of_notMem h.1]
  simp [h.2.1, h.2.2.1]

theorem names_join (base : String) {name : String} (h : Plain name) :
    names (join base name) = names base ++ [name] := by
  unfold join
  split_ifs with hempty hslash
  · rw [String.isEmpty_iff.1 hempty, names_of_plain h]
    rfl
  · -- the slash at the end of the base leaves an empty name behind
    obtain ⟨as, has⟩ := List.getLast?_eq_some_iff.1 hslash
    have hbase : base = String.ofList (as ++ '/' :: []) := by rw [← has, String.ofList_toList]
    have hjoin : base ++ name = String.ofList (as ++ '/' :: name.toList) := by
      rw [hbase, ← String.toList_inj]
      simp
    rw [hjoin, hbase, names_slash, names_slash, String.ofList_toList, names_of_plain h]
    simp [names, splitSlashes]
  · have hjoin : base ++ "/" ++ name = String.ofList (base.toList ++ '/' :: name.toList) := by
      rw [← String.toList_inj]
      simp
    rw [hjoin, names_slash, String.ofList_toList, String.ofList_toList, names_of_plain h]

end Path

theorem Disk.locate_join (d : Disk) (base : String) {name : String} (h : Path.Plain name) :
    d.locate (Path.join base name) = d.locate base ++ [name] := by
  have hstart : (Path.join base name).toList.head? = some '/' ↔ base.toList.head? = some '/' := by
    unfold Path.join
    split_ifs with hempty hslash
    · have hname : name.toList.head? ≠ some '/' := fun hhead => h.1 (List.mem_of_head? hhead)
      simp [String.isEmpty_iff.1 hempty, hname]
    · cases hb : base.toList with
      | nil => simp [hb] at hslash
      | cons c cs => simp [hb]
    · cases hb : base.toList with
      | nil => exact absurd (String.isEmpty_iff.2 (String.toList_eq_nil_iff.1 hb)) hempty
      | cons c cs => simp [hb]
  simp only [locate, Path.names_join base h, List.foldl_append, hstart]
  simp [Location.follow, h.2.2.2]

/-! ### The name of a run's directory -/

theorem isNameChar_sanitize {cs : List Char} {c : Char} (h : c ∈ sanitizeChars cs) :
    isNameChar c = true := by
  have hcleaned : ∀ c ∈ cs.map fun c => if isNameChar c then c else '_', isNameChar c = true := by
    intro c hc
    obtain ⟨c₀, -, rfl⟩ := List.mem_map.1 hc
    split_ifs with h₀
    · exact h₀
    · decide
  simp only [sanitizeChars] at h
  split_ifs at h
  · rcases List.mem_cons.1 h with rfl | h
    · decide
    · exact hcleaned c h
  · exact hcleaned c h

theorem sanitizeChars_not_dots (cs : List Char) : (sanitizeChars cs).all (· == '.') = false := by
  simp only [sanitizeChars]
  split_ifs with h
  · simp
  · exact Bool.eq_false_iff.2 h

/-- **The name of a run's directory cannot lead out of the root**, whatever the identifier. -/
theorem sanitize_plain (id : RunId) : Path.Plain (sanitize id) := by
  have hdots := sanitizeChars_not_dots id.toList
  refine ⟨fun h => ?_, fun h => ?_, fun h => ?_, fun h => ?_⟩
  · rw [sanitize, String.toList_ofList] at h
    exact absurd (isNameChar_sanitize h) (by decide)
  all_goals
    have hchars := congrArg String.toList h
    rw [sanitize, String.toList_ofList] at hchars
    rw [hchars] at hdots
    exact absurd hdots (by decide)

/-! ### Documents -/

theorem Role.slotName_plain (role : Role) : Path.Plain role.slotName := by
  cases role <;> decide

theorem Role.slotName_length (role : Role) : role.slotName.utf8ByteSize ≤ Disk.maxName := by
  cases role <;> decide

theorem Role.slotName_inj {a b : Role} (h : a.slotName = b.slotName) : a = b := by
  revert h
  cases a <;> cases b <;> decide

namespace Workspace

/-- The location of a slot document, seen from the location of the root. -/
theorem locate_slotPath (d : Disk) (root : String) (id : RunId) (role : Role) :
    d.locate (slotPath ⟨id, dirFor root id⟩ role) =
      d.locate root ++ [sanitize id, findingsName, role.slotName] := by
  rw [slotPath, findingsDir, dirFor, d.locate_join _ role.slotName_plain,
    d.locate_join _ (by decide), d.locate_join _ (sanitize_plain id)]
  simp

theorem writeDocument_eq_ok {d d' : Disk} {folder name : String} {v : Json.Value}
    (h : writeDocument d folder name v = .ok d') :
    d.replaceFile (d.locate folder) name (Utf8.ofString v.prettyText) = .ok d' := by
  unfold writeDocument at h
  split at h
  · rename_i hok
    rw [hok, Except.ok.inj h]
  · cases h
  · cases h

/-- Writing a document keeps every file of another name. -/
theorem writeDocument_keeps {d d' : Disk} {folder name : String} {v : Json.Value}
    (h : writeDocument d folder name v = .ok d') {loc : Location}
    (hne : d.locate folder ++ [name] ≠ loc) : Disk.Keeps loc d d' :=
  Disk.replaceFile_keeps (writeDocument_eq_ok h) hne

/-- **After the findings of a role were written** the document holds them. -/
theorem writeSlot_eq_ok {w : Workspace} {d d' : Disk} {role : Role} {fs : List Finding}
    (h : w.writeSlot d role fs = .ok d') :
    d'.here = d.here ∧ d'.fileContent (d'.locate (w.slotPath role)) =
      .ok (Utf8.ofString (Finding.listValue fs).prettyText) := by
  obtain ⟨hhere, hfile⟩ :=
    Disk.replaceFile_eq_ok (writeDocument_eq_ok h) role.slotName_length
  refine ⟨hhere, ?_⟩
  rw [slotPath, d'.locate_join _ role.slotName_plain]
  simp only [Disk.locate, hhere] at hfile ⊢
  exact hfile

theorem create_keeps (d : Disk) (root : String) (id : RunId) (loc : Location) :
    Disk.Keeps loc d (create d root id).1 := by
  unfold create
  dsimp only
  split
  · exact Disk.Keeps.refl loc d
  · rename_i hroot
    have h₁ : Disk.Keeps loc d _ := Disk.makeDirectories_keeps hroot
    split
    · exact h₁
    · exact h₁
    · rename_i hdir
      have h₂ := h₁.trans (Disk.makeDirectory_keeps hdir)
      split
      · exact h₂
      · rename_i hfindings
        exact h₂.trans (Disk.makeDirectory_keeps hfindings)

theorem archive_keeps {d d' : Disk} {root stamp : String} {id : RunId} {path : Option String}
    (h : archive d root id stamp = .ok (d', path)) {loc : Location}
    (hout : ¬ d.locate (dirFor root id) <+: loc) : Disk.Keeps loc d d' := by
  unfold archive at h
  dsimp only at h
  split_ifs at h
  · split at h
    · cases h
    · rename_i hren
      obtain ⟨rfl, -⟩ := Prod.mk.inj (Except.ok.inj h)
      exact Disk.rename_keeps hren hout
  · obtain ⟨rfl, -⟩ := Prod.mk.inj (Except.ok.inj h)
    exact Disk.Keeps.refl loc d

/-- The directory of another run is not on the way to a slot document. -/
theorem not_isPrefix_slotPath (d : Disk) (root : String) {id id' : RunId}
    (hne : sanitize id' ≠ sanitize id) (role : Role) :
    ¬ d.locate (dirFor root id') <+: d.locate (slotPath ⟨id, dirFor root id⟩ role) := by
  rw [locate_slotPath, dirFor, d.locate_join _ (sanitize_plain id'), List.prefix_append_right_inj]
  intro hpre
  exact hne (List.cons_prefix_cons.1 hpre).1

end Workspace

end ReviewPanel
