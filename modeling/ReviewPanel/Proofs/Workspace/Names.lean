import ReviewPanel.Panel.Basic
import ReviewPanel.Proofs.Workspace.Directories

/-!
# The names of run directories

An identifier is a text that a caller chose: it may be empty, start with a slash, climb with `..`, or have
letters of any alphabet.  A run name has none of that (`IsRunName`), and `sanitize` is a projection onto
the run names: what it returns is one, and what is one already stays as it is.

Dots are the reason why this takes two steps.  They may stand in a name, so `..` is left alone by the
replacement of characters; only the underscore in front of a name of dots makes a run name of it.  That
underscore is never needed twice.

With a run name the directory of a run is one step below the root.  The name under which it is set aside
is longer, so it is another one, and it is one step below the root too, for every stamp without a slash.

## Main statements

* `isRunName_sanitize`, `sanitize_eq_self_iff` : **the run names are the fixed points of `sanitize`, and
  its values.**
* `Workspace.archiveName_plain` : a directory that is set aside stays in the root.
* `Workspace.directories_in_root` : **no identifier leads out of the root.**
-/

namespace ReviewPanel

/-! ### Run names -/

/-- A name made of ASCII letters, digits, `-`, `_` and `.`, but not of dots alone. -/
structure IsRunName (name : String) : Prop where
  ne_empty : name ≠ ""
  chars : ∀ c ∈ name.toList, c.isAlphanum = true ∨ c = '-' ∨ c = '_' ∨ c = '.'
  not_dots : ∃ c ∈ name.toList, c ≠ '.'

theorem isNameChar_iff (c : Char) :
    isNameChar c = true ↔ c.isAlphanum = true ∨ c = '-' ∨ c = '_' ∨ c = '.' := by
  have hupper : c.isUpper = (decide ('A'.val ≤ c.val) && decide (c.val ≤ 'Z'.val)) :=
    Bool.decide_and _ _
  have hname : isNameChar c =
      (c.isLower || c.isUpper || c.isDigit || c == '-' || c == '_' || c == '.') := by
    rw [hupper]
    rfl
  have halphanum : c.isAlphanum = (c.isUpper || c.isLower || c.isDigit) := rfl
  simp only [hname, halphanum, Bool.or_eq_true, beq_iff_eq, or_assoc]
  exact or_left_comm

/-- **What the directory of a run is called is a run name**, whatever the identifier. -/
theorem isRunName_sanitize (id : RunId) : IsRunName (sanitize id) where
  ne_empty := (sanitize_plain id).2.1
  chars c hc := by
    rw [sanitize, String.toList_ofList] at hc
    exact (isNameChar_iff c).1 (isNameChar_sanitize hc)
  not_dots := by
    rw [sanitize, String.toList_ofList]
    simpa using sanitizeChars_not_dots id.toList

theorem IsRunName.sanitize_eq {id : RunId} (h : IsRunName id) : sanitize id = id := by
  have hname : ∀ c ∈ id.toList, isNameChar c = true := fun c hc => (isNameChar_iff c).2 (h.chars c hc)
  have hdots : id.toList.all (· == '.') = false := by simpa using h.not_dots
  rw [sanitize, sanitizeChars_of_isNameChar hname hdots, String.ofList_toList]

theorem sanitize_eq_self_iff {id : RunId} : sanitize id = id ↔ IsRunName id :=
  ⟨fun h => h ▸ isRunName_sanitize id, IsRunName.sanitize_eq⟩

/-! ### Stamps -/

theorem mem_stampDigits {width n : Nat} {c : Char} (h : c ∈ stampText width n) : c ∈ stampDigits := by
  induction width generalizing n with
  | zero => simp [stampText] at h
  | succ width ih =>
    rw [stampText, List.mem_append, List.mem_singleton] at h
    rcases h with h | rfl
    · exact ih h
    · have hlt : n % 32 < stampDigits.length := Nat.mod_lt n (by decide)
      rw [List.getD_eq_getElem?_getD, List.getElem?_eq_getElem hlt, Option.getD_some]
      exact List.getElem_mem hlt

theorem slash_notMem_stamp (n : Nat) : '/' ∉ (stamp n).toList := by
  rw [stamp, String.toList_ofList]
  exact fun h => absurd (mem_stampDigits h) (by decide)

/-! ### Below the root -/

namespace Workspace

/-- **What a directory is called when it is set aside leads one step down too.** -/
theorem archiveName_plain (id : RunId) {stamp : String} (h : '/' ∉ stamp.toList) :
    Path.Plain (archiveName id stamp) := by
  have hlong : 2 < (archiveName id stamp).toList.length := by
    simp [archiveName]
    omega
  refine ⟨fun hslash => ?_, fun heq => ?_, fun heq => ?_, fun heq => ?_⟩
  · simp only [archiveName, String.toList_append, List.mem_append] at hslash
    rcases hslash with (hslash | hslash) | hslash
    · exact (sanitize_plain id).1 hslash
    · exact absurd hslash (by decide)
    · exact h hslash
  all_goals
    rw [heq] at hlong
    exact absurd hlong (by decide)

theorem archive_eq_some {d d' : Disk} {root stamp : String} {id : RunId} {path : Option String}
    (h : archive d root id stamp = .ok (d', path)) :
    path = none ∧ d' = d ∨ path = some (Path.join root (archiveName id stamp)) ∧
      d' = d.moved (d.locate root ++ [sanitize id]) (d.locate root ++ [archiveName id stamp]) := by
  have hmoved := fun hthere => (archive_eq_moved hthere h).2
  unfold archive at h
  dsimp only at h
  split_ifs at h with hthere
  · split at h
    · cases h
    · exact .inr ⟨((Prod.mk.inj (Except.ok.inj h)).2).symm, hmoved hthere⟩
  · obtain ⟨rfl, rfl⟩ := Prod.mk.inj (Except.ok.inj h)
    exact .inl ⟨rfl, rfl⟩

/-- A path that leads one step down from a root, to a given name, on every disk. -/
def IsChild (root name path : String) : Prop :=
  Path.Plain name ∧ ∀ d : Disk, d.locate path = d.locate root ++ [name]

theorem isChild_join (root : String) {name : String} (h : Path.Plain name) :
    IsChild root name (Path.join root name) :=
  ⟨h, fun d => d.locate_join root h⟩

theorem IsChild.locate_ne {root name name' path path' : String} (h : IsChild root name path)
    (h' : IsChild root name' path') (hne : name ≠ name') (d : Disk) : d.locate path ≠ d.locate path' := by
  rw [h.2, h'.2]
  simpa using hne

/-- **No identifier leads out of the root.**  The name of its directory is a run name; an identifier that
is a run name already is its own, and a name that was made is not changed again.  The directory is one step
below the root, and so is the place where it is set aside, which is another one on every disk.  Setting it
aside moves what is at the first to the second, if it does anything. -/
theorem directories_in_root (root : String) (id : RunId) (stamp : String)
    (hstamp : '/' ∉ stamp.toList) :
    IsRunName (sanitize id) ∧ (sanitize id = id ↔ IsRunName id) ∧
      sanitize (sanitize id) = sanitize id ∧
      IsChild root (sanitize id) (dirFor root id) ∧
      IsChild root (archiveName id stamp) (Path.join root (archiveName id stamp)) ∧
      ∀ d : Disk, d.locate (dirFor root id) ≠ d.locate (Path.join root (archiveName id stamp)) ∧
        ∀ d' path, archive d root id stamp = .ok (d', path) →
          path = none ∧ d' = d ∨ path = some (Path.join root (archiveName id stamp)) ∧
            d' = d.moved (d.locate (dirFor root id))
              (d.locate (Path.join root (archiveName id stamp))) := by
  have hdir : IsChild root (sanitize id) (dirFor root id) := isChild_join root (sanitize_plain id)
  have haside := isChild_join root (archiveName_plain id hstamp)
  refine ⟨isRunName_sanitize id, sanitize_eq_self_iff, (isRunName_sanitize id).sanitize_eq, hdir, haside,
    fun d => ⟨hdir.locate_ne haside (archiveName_ne id stamp).symm d, fun d' path h => ?_⟩⟩
  rw [hdir.2, haside.2]
  exact archive_eq_some h

/-- An identifier that would climb out of `/srv/audits`. -/
theorem directories_in_root_climbing :
    '/' ∉ (stamp 7).toList ∧ ¬ IsRunName ".." ∧ IsRunName "_.." ∧ sanitize ".." = "_.." ∧
      Disk.blank.locate (dirFor "/srv/audits" "..") = ["srv", "audits", "_.."] ∧
      Disk.blank.locate (Path.join "/srv/audits" (archiveName ".." (stamp 7))) =
        ["srv", "audits", "_...archived-00000000000000000000000007"] := by
  have hroot : Disk.blank.locate "/srv/audits" = ["srv", "audits"] := by decide
  have hdots : sanitize ".." = "_.." := by decide
  have hname : archiveName ".." (stamp 7) = "_...archived-00000000000000000000000007" := by decide
  obtain ⟨hrun, hself, -, hdir, haside, -⟩ :=
    directories_in_root "/srv/audits" ".." (stamp 7) (slash_notMem_stamp 7)
  refine ⟨slash_notMem_stamp 7, fun h => ?_, hdots ▸ hrun, hdots, ?_, ?_⟩
  · exact absurd (hdots.symm.trans (hself.2 h)) (by decide)
  · rw [hdir.2, hroot, hdots]
    rfl
  · rw [haside.2, hroot, hname]
    rfl

end Workspace

end ReviewPanel
