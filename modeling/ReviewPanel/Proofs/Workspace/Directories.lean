import ReviewPanel.Proofs.Disk.Rooted
import ReviewPanel.Proofs.Workspace

/-!
# The directories below a root

The directories of all runs, and those that were set aside, stand side by side in the root.  Making one
and setting one aside are the only calls of a workspace that make or move directories, and each leaves
alone whatever else is in the root.

Different identifiers may get the same directory: characters that have no place in a name become
underscores.  That is the only way, so an identifier whose directory has no underscore in its name is the
only one with that directory.

## Main statements

* `sanitize_injOn`, `exists_ne_sanitize_eq` : **the directory tells the identifier exactly if it has no
  underscore in its name.**
* `Workspace.archive_untouched`, `Workspace.create_untouched` : the neighbours are left alone.
* `Workspace.create_eq_ok` : a directory was made where nothing was.
* `Workspace.archive_eq_moved`, `Workspace.create_of_archive` : what was there stands under another name,
  and a directory that is made in its place is new.
* `Workspace.create_gains`, `Workspace.removeTree_created` : what is left of a directory that could not be
  made, or was removed again.
* `Workspace.archive_rooted`, `Workspace.create_rooted` : the disk stays a tree.
-/

namespace ReviewPanel

/-! ### Names -/

theorem sanitizeChars_eq_map {cs : List Char} (h : '_' ∉ sanitizeChars cs) : sanitizeChars cs = cs := by
  simp only [sanitizeChars] at h ⊢
  split_ifs at h ⊢
  · simp at h
  · calc cs.map (fun c => if isNameChar c then c else '_')
        = cs.map id := by
          refine List.map_congr_left fun c hc => ?_
          by_cases hname : isNameChar c = true
          · rw [if_pos hname, id]
          · refine absurd (List.mem_map.2 ⟨c, hc, ?_⟩) h
            rw [if_neg hname]
      _ = cs := List.map_id cs

/-- **Without an underscore the directory tells the identifier.** -/
theorem sanitize_injOn {a b : RunId} (h : '_' ∉ (sanitize a).toList) (heq : sanitize b = sanitize a) :
    b = a := by
  have hb : '_' ∉ (sanitize b).toList := heq ▸ h
  have hchars : sanitizeChars b.toList = sanitizeChars a.toList := String.ofList_injective heq
  rw [sanitize, String.toList_ofList] at h hb
  rw [sanitizeChars_eq_map h, sanitizeChars_eq_map hb] at hchars
  exact String.toList_inj.1 hchars

theorem sanitizeChars_of_isNameChar {cs : List Char} (hname : ∀ c ∈ cs, isNameChar c = true)
    (hdots : cs.all (· == '.') = false) : sanitizeChars cs = cs := by
  have hmap : cs.map (fun c => if isNameChar c then c else '_') = cs :=
    (List.map_congr_left fun c hc => if_pos (hname c hc)).trans (List.map_id cs)
  rw [sanitizeChars, hmap, if_neg (Bool.eq_false_iff.1 hdots)]

/-- **With an underscore there is another identifier** for the directory. -/
theorem exists_ne_sanitize_eq {a : RunId} (h : '_' ∈ (sanitize a).toList) :
    ∃ b, b ≠ a ∧ sanitize b = sanitize a := by
  rw [sanitize, String.toList_ofList] at h
  have hdots := sanitizeChars_not_dots a.toList
  have hname : ∀ c ∈ sanitizeChars a.toList, isNameChar c = true := fun c => isNameChar_sanitize
  have hclean := sanitizeChars_of_isNameChar hname hdots
  by_cases heq : sanitizeChars a.toList = a.toList
  · -- the identifier is a name: take slashes for its underscores
    rw [heq] at h hname hdots
    let slash (c : Char) : Char := if c = '_' then '/' else c
    have hback : (a.toList.map slash).map (fun c => if isNameChar c then c else '_') = a.toList := by
      rw [List.map_map]
      refine (List.map_congr_left fun c hc => ?_).trans (List.map_id _)
      by_cases hc' : c = '_'
      · rw [hc']
        rfl
      · simp [slash, hc', hname c hc]
    refine ⟨String.ofList (a.toList.map slash), fun hab => ?_, ?_⟩
    · have hmem : '/' ∈ a.toList := by
        rw [← hab, String.toList_ofList]
        exact List.mem_map.2 ⟨'_', h, if_pos rfl⟩
      exact absurd (hname '/' hmem) (by decide)
    · rw [sanitize, sanitize, heq, String.toList_ofList, sanitizeChars, hback,
        if_neg (Bool.eq_false_iff.1 hdots)]
  · refine ⟨sanitize a, fun hab => heq ?_, ?_⟩
    · have hchars := congrArg String.toList hab
      rwa [sanitize, String.toList_ofList] at hchars
    · rw [sanitize, sanitize, String.toList_ofList, hclean]

namespace Workspace

variable {d d' : Disk} {root : String} {id : RunId} {x stamp : String}

theorem archiveName_ne (id : RunId) (stamp : String) : archiveName id stamp ≠ sanitize id := by
  intro h
  have hlen := congrArg (fun s : String => s.toList.length) h
  simp [archiveName] at hlen

theorem dirFor_inj {a b : RunId} : dirFor root b = dirFor root a ↔ sanitize b = sanitize a := by
  constructor
  · intro h
    have hloc := congrArg Disk.blank.locate h
    rw [dirFor, dirFor, Disk.blank.locate_join _ (sanitize_plain b),
      Disk.blank.locate_join _ (sanitize_plain a)] at hloc
    simpa using hloc
  · intro h
    rw [dirFor, dirFor, h]

theorem locate_dirFor (d : Disk) (root : String) (id : RunId) :
    d.locate (dirFor root id) = d.locate root ++ [sanitize id] :=
  d.locate_join root (sanitize_plain id)

theorem locate_findingsDir (d : Disk) (root : String) (id : RunId) :
    d.locate (findingsDir ⟨id, dirFor root id⟩) = d.locate root ++ [sanitize id] ++ [findingsName] := by
  rw [findingsDir, d.locate_join _ (by decide), locate_dirFor]

theorem locate_statusPath (d : Disk) (root : String) (id : RunId) :
    d.locate (statusPath ⟨id, dirFor root id⟩) = d.locate root ++ [sanitize id] ++ [statusName] := by
  rw [statusPath, d.locate_join _ (by decide), locate_dirFor]

/-! ### Setting a directory aside -/

theorem archive_eq_ok {path : Option String} (h : archive d root id stamp = .ok (d', path)) :
    d.contains (d.locate (dirFor root id)) = false ∧ d' = d ∨
      d.contains (d.locate (dirFor root id)) = true ∧
        d.rename (d.locate root ++ [sanitize id]) (archiveName id stamp) = .ok d' := by
  unfold archive at h
  dsimp only at h
  split_ifs at h with hthere
  · split at h
    · cases h
    · rename_i hren
      obtain ⟨rfl, -⟩ := Prod.mk.inj (Except.ok.inj h)
      rw [locate_dirFor] at hren
      exact .inr ⟨hthere, hren⟩
  · obtain ⟨rfl, -⟩ := Prod.mk.inj (Except.ok.inj h)
    exact .inl ⟨Bool.eq_false_iff.2 hthere, rfl⟩

/-- **What was there stands under another name**, which was free. -/
theorem archive_eq_moved {path : Option String}
    (hthere : d.contains (d.locate (dirFor root id)) = true)
    (h : archive d root id stamp = .ok (d', path)) :
    d.checkNew (d.locate root ++ [archiveName id stamp]) = .ok () ∧
      d' = d.moved (d.locate root ++ [sanitize id]) (d.locate root ++ [archiveName id stamp]) := by
  rcases archive_eq_ok h with ⟨hnot, -⟩ | ⟨-, hren⟩
  · rw [hnot] at hthere
    cases hthere
  · exact (Disk.rename_eq_ok hren).2

theorem archive_untouched {path : Option String} (h : archive d root id stamp = .ok (d', path))
    (hx : x ≠ sanitize id) {n : Node} (hthere : d.reach (d.locate root ++ [x]) = .ok n) :
    Disk.Untouched (d.locate root ++ [x]) d d' := by
  rcases archive_eq_ok h with ⟨-, rfl⟩ | ⟨-, hren⟩
  · exact Disk.Untouched.refl _ _
  · exact Disk.rename_untouched hx hthere hren

/-! ### Making a directory -/

/-- **A directory was made where nothing was**, and in it that for the findings. -/
theorem create_eq_ok {w : Workspace} (h : create d root id = (d', .ok w)) :
    w = ⟨id, dirFor root id⟩ ∧ d'.here = d.here ∧
      d'.reach (d.locate root ++ [sanitize id]) = .ok .directory ∧
      ∃ d₁, d.makeDirectories (d.locate root) = .ok d₁ ∧
        d₁.node? (d.locate root ++ [sanitize id]) = none ∧
        d' = (d₁.put (d.locate root ++ [sanitize id]) .directory).put
          (d.locate root ++ [sanitize id] ++ [findingsName]) .directory := by
  unfold create at h
  dsimp only at h
  split at h
  · cases h
  · rename_i d₁ hroot
    have hkeeps : Disk.Keeps [] d d₁ := Disk.makeDirectories_keeps hroot
    have hhere : d₁.here = d.here := hkeeps.1
    have hlocate : ∀ path, d₁.locate path = d.locate path := Disk.locate_congr hhere
    split at h
    · cases h
    · cases h
    · rename_i d₂ hdir
      obtain ⟨hfree, rfl⟩ := Disk.makeDirectory_eq_ok hdir
      rw [hlocate, locate_dirFor] at hfree h
      have hlocate' : ∀ path, (d₁.put (d.locate root ++ [sanitize id]) .directory).locate path =
          d.locate path := hlocate
      split at h
      · cases h
      · rename_i d₃ hfindings
        obtain ⟨hnew, rfl⟩ := Disk.makeDirectory_eq_ok hfindings
        rw [hlocate', locate_findingsDir] at hnew h
        obtain ⟨rfl, hw⟩ := Prod.mk.inj h
        refine ⟨(Except.ok.inj hw).symm, hhere, ?_, d₁, hroot, (Disk.checkNew_concat hfree).2.2, rfl⟩
        refine Disk.reach_congr (Disk.checkNew_concat hnew).1 fun l hl => Disk.node?_put _ _ _ ?_
        rintro rfl
        simpa using hl.length_le

theorem create_untouched (hroot : d.reach (d.locate root) = .ok .directory) (hx : x ≠ sanitize id) :
    Disk.Untouched (d.locate root ++ [x]) d (create d root id).1 := by
  unfold create
  simp only [Disk.makeDirectories_of_reach hroot]
  split
  · exact Disk.Untouched.refl _ _
  · exact Disk.Untouched.refl _ _
  · rename_i d₁ hdir
    rw [locate_dirFor] at hdir
    have h₁ : Disk.Untouched (d.locate root ++ [x]) d d₁ :=
      Disk.makeDirectory_untouched hx (t := []) (by simpa using hdir)
    split
    · exact h₁
    · rename_i hfindings
      rw [locate_findingsDir, h₁.locate_eq] at hfindings
      exact h₁.trans (Disk.makeDirectory_untouched hx hfindings)

theorem create_of_reach {n : Node} (hthere : d.reach (d.locate root ++ [sanitize id]) = .ok n) :
    create d root id = (d, .error (.alreadyExists (dirFor root id))) := by
  have hroot : d.reach (d.locate root) = .ok .directory := Disk.reach_of_concat hthere
  have hmake : d.makeDirectory (d.locate root ++ [sanitize id]) = .error .fileExists := by
    unfold Disk.makeDirectory Disk.checkNew
    rw [List.dropLast_concat, hroot]
    simp only [hthere]
    rfl
  unfold create
  simp only [Disk.makeDirectories_of_reach hroot, locate_dirFor, hmake]

/-- **A directory that was set aside and made anew**: what was in it stands under a name that was free,
and nothing is in the new one but the directory for the findings. -/
theorem create_of_archive {d₁ : Disk} {n : Node} {path : Option String} {w : Workspace}
    (hthere : d.reach (d.locate root ++ [sanitize id]) = .ok n)
    (harch : archive d root id stamp = .ok (d₁, path)) (hcreate : create d₁ root id = (d', .ok w)) :
    d'.here = d.here ∧ d'.reach (d.locate root ++ [sanitize id]) = .ok .directory ∧
      d.node? (d.locate root ++ [archiveName id stamp]) = none ∧
      d'.node? (d.locate root ++ [archiveName id stamp]) = d.node? (d.locate root ++ [sanitize id]) ∧
      ∀ x, x ≠ findingsName → d'.node? (d.locate root ++ [sanitize id] ++ [x]) = none := by
  have hcontains : d.contains (d.locate (dirFor root id)) = true := by
    rw [locate_dirFor, Disk.contains, hthere]
  obtain ⟨hnew, rfl⟩ := archive_eq_moved hcontains harch
  obtain ⟨-, -, hfree⟩ := Disk.checkNew_concat hnew
  obtain ⟨-, hhere, hreach, d₂, hroot, -, rfl⟩ := create_eq_ok hcreate
  have hne := archiveName_ne id stamp
  have hlocate : (d.moved (d.locate root ++ [sanitize id])
      (d.locate root ++ [archiveName id stamp])).locate root = d.locate root := rfl
  rw [hlocate] at hreach hroot ⊢
  -- the root is there, so it was not made
  have hsame : d₂ = d.moved (d.locate root ++ [sanitize id])
      (d.locate root ++ [archiveName id stamp]) := by
    rw [Disk.makeDirectories_of_reach] at hroot
    · exact (Except.ok.inj hroot).symm
    · refine Disk.reach_congr (Disk.reach_of_concat hthere) fun l hl => ?_
      exact Disk.node?_rename (Disk.not_isPrefix_base _ _ hl) (Disk.not_isPrefix_base _ _ hl)
  subst hsame
  refine ⟨hhere, hreach, hfree, ?_, fun x hx => ?_⟩
  · have hdir : d.locate root ++ [archiveName id stamp] ≠ d.locate root ++ [sanitize id] := by
      simpa using hne
    have hfindings : d.locate root ++ [archiveName id stamp] ≠
        d.locate root ++ [sanitize id] ++ [findingsName] := by simp
    rw [Disk.node?_put _ _ _ hfindings, Disk.node?_put _ _ _ hdir]
    exact Disk.node?_rename_new hfree
  · have hdir : d.locate root ++ [sanitize id] ++ [x] ≠ d.locate root ++ [sanitize id] := by simp
    have hfindings : d.locate root ++ [sanitize id] ++ [x] ≠
        d.locate root ++ [sanitize id] ++ [findingsName] := by simpa using hx
    rw [Disk.node?_put _ _ _ hfindings, Disk.node?_put _ _ _ hdir]
    exact Disk.node?_rename_old hne.symm (List.prefix_append _ _)

/-! ### Directories made in vain -/

/-- Where directories may be left behind if a run does not get its directory after all: on the way to the
root; at the place of the directory itself if the system refused to go on; and there, with the directory for
the findings in it, if the system refused to remove it. -/
def Leftover (d : Disk) (root : String) (id : RunId) (l : Location) : Prop :=
  l <+: d.locate root ∨
    (∃ path err, (create d root id).2 = .error (.io path err)) ∧ l = d.locate root ++ [sanitize id] ∨
    d.retention (d.locate root ++ [sanitize id]) ≠ none ∧
      (l = d.locate root ++ [sanitize id] ∨ l = d.locate root ++ [sanitize id] ++ [findingsName])

/-- **What is left of a directory that could not be made.** -/
theorem create_gains {e : WorkspaceError} (h : create d root id = (d', .error e)) :
    Disk.Gains (Leftover d root id) d d' := by
  have hio : ∀ {path : String} {err : OsError}, e = .io path err →
      ∃ path err, (create d root id).2 = .error (.io path err) := by
    rintro path err rfl
    exact ⟨path, err, by rw [h]⟩
  unfold create at h
  dsimp only at h
  split at h
  · obtain ⟨rfl, -⟩ := Prod.mk.inj h
    exact .refl _ _
  · rename_i d₁ hroot
    have hmade := Disk.gains_makeDirectories hroot
    have hmade' : Disk.Gains (Leftover d root id) d d₁ := hmade.mono fun _ => .inl
    split at h
    · obtain ⟨rfl, -⟩ := Prod.mk.inj h
      exact hmade'
    · obtain ⟨rfl, -⟩ := Prod.mk.inj h
      exact hmade'
    · rename_i d₂ hdir
      split at h
      · obtain ⟨rfl, he⟩ := Prod.mk.inj h
        rw [hmade.locate_eq, locate_dirFor] at hdir
        refine hmade'.trans ((Disk.gains_makeDirectory hdir).mono ?_)
        rintro _ rfl
        exact .inr (.inl ⟨hio (Except.error.inj he).symm, rfl⟩)
      · cases h

theorem create_gains_ok {w : Workspace} (h : create d root id = (d', .ok w)) :
    Disk.Gains (fun l => l <+: d.locate root ∨ l = d.locate root ++ [sanitize id] ∨
      l = d.locate root ++ [sanitize id] ++ [findingsName]) d d' := by
  unfold create at h
  dsimp only at h
  split at h
  · cases h
  · rename_i d₁ hroot
    have hmade := Disk.gains_makeDirectories hroot
    split at h
    · cases h
    · cases h
    · rename_i d₂ hdir
      have hmade' := Disk.gains_makeDirectory hdir
      split at h
      · cases h
      · rename_i d₃ hfindings
        have hmade'' := Disk.gains_makeDirectory hfindings
        obtain ⟨rfl, -⟩ := Prod.mk.inj h
        rw [hmade'.locate_eq, hmade.locate_eq, locate_findingsDir] at hmade''
        rw [hmade.locate_eq, locate_dirFor] at hmade'
        exact ((hmade.mono fun _ => .inl).trans (hmade'.mono fun _ hl => .inr (.inl hl))).trans
          (hmade''.mono fun _ hl => .inr (.inr hl))

/-- **A directory that was made can be removed**, unless the system refuses, and nothing is left of it but
the root. -/
theorem removeTree_created {w : Workspace} (h : create d root id = (d', .ok w)) :
    (∃ d'', d'.removeTree (d'.locate w.dir) = .ok d'' ∧ Disk.Gains (Leftover d root id) d d'') ∨
      (∃ e, d'.removeTree (d'.locate w.dir) = .error e) ∧ Disk.Gains (Leftover d root id) d d' := by
  have hgains := create_gains_ok h
  obtain ⟨rfl, hhere, hreach, d₁, hroot, hfree, rfl⟩ := create_eq_ok h
  rw [Disk.locate_congr hhere, locate_dirFor]
  cases hretention : d.retention (d.locate root ++ [sanitize id]) with
  | none =>
    left
    refine ⟨_, Disk.removeTree_of_reach hreach (by rw [hgains.retention_eq, hretention]), ?_⟩
    have hmade : Disk.Gains (Leftover d root id) d d₁ :=
      (Disk.gains_makeDirectories hroot).mono fun _ => .inl
    exact hmade.trans
      ((Disk.gains_pruned_put hfree .directory [findingsName] .directory).mono fun _ => False.elim)
  | some e =>
    right
    refine ⟨⟨e, ?_⟩, hgains.mono fun l hl => hl.imp_right fun hl => .inr ⟨by simp [hretention], hl⟩⟩
    simp only [Disk.removeTree, hreach, hgains.retention_eq, hretention]

/-! ### The disk stays a tree -/

theorem archive_rooted (h : d.Rooted) {path : Option String}
    (harch : archive d root id stamp = .ok (d', path)) : d'.Rooted := by
  rcases archive_eq_ok harch with ⟨-, rfl⟩ | ⟨-, hren⟩
  · exact h
  · obtain ⟨-, hnew, rfl⟩ := Disk.rename_eq_ok hren
    obtain ⟨hbase, -, hfree⟩ := Disk.checkNew_concat hnew
    exact h.moved (Disk.reach_eq_ok.1 hbase).2.2 hfree (archiveName_ne id stamp).symm

theorem create_rooted (h : d.Rooted) (root : String) (id : RunId) : (create d root id).1.Rooted := by
  unfold create
  dsimp only
  split
  · exact h
  · rename_i d₁ hroot
    have h₁ := h.makeDirectories hroot
    split
    · exact h₁
    · exact h₁
    · rename_i d₂ hdir
      have h₂ := h₁.makeDirectory hdir
      split
      · exact h₂
      · rename_i d₃ hfindings
        exact h₂.makeDirectory hfindings

/-! ### Writing documents -/

theorem writeDocument_writes {folder name : String} {v : Json.Value}
    (h : writeDocument d folder name v = .ok d') :
    Disk.Writes (· = d.locate folder ++ [name]) d d' :=
  .write .refl rfl (writeDocument_eq_ok h)

end Workspace

end ReviewPanel
