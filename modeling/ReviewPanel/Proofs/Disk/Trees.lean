import ReviewPanel.Proofs.Disk

/-!
# What the calls of a disk do to a tree

A call that makes, removes or renames something in a directory has nothing to do with what else is in
that directory, nor with anything below it (`Disk.Untouched`).  What it does to the tree that it names is
said here exactly: a renamed tree is gone from its old place and is found, whole, at the new one.

## Main definitions

* `Disk.Untouched loc d d'` : both disks have the same at `loc`, on the way there and below it.
* `Disk.Writes P d d'` : documents were written, where `P` allows it.

## Main statements

* `Disk.checkNew_concat`, `Disk.makeDirectory_eq_ok`, `Disk.replaceFile_eq_put`, `Disk.rename_eq_ok` :
  what a call did that succeeded.
* `Disk.node?_rename_old`, `Disk.node?_rename_below` : **a renamed tree moves as a whole.**
* `Disk.node?_pruned_of_isPrefix` : nothing is left of a removed tree.
* `Disk.makeDirectory_untouched`, `Disk.removeTree_untouched`, `Disk.rename_untouched` : **the neighbours
  are left alone.**
* `Disk.Writes.reach_directory`, `Disk.Writes.reach_eq` : documents take no directory's place, and leave
  alone what is not on their way.
-/

namespace ReviewPanel.Disk

variable {d d' d'' : Disk} {loc l base : Location} {x y z : String}

/-! ### The way to a location -/

theorem reachFrom_congr {names : List String} : ∀ {start : Location},
    (∀ l, l <+: start ++ names → d'.node? l = d.node? l) →
    d'.reachFrom start names = d.reachFrom start names := by
  induction names with
  | nil =>
    intro start h
    rw [reachFrom, reachFrom, h start (by simp)]
  | cons name names ih =>
    intro start h
    have hstart : d'.node? start = d.node? start := h start (List.prefix_append _ _)
    have hrest : d'.reachFrom (start ++ [name]) names = d.reachFrom (start ++ [name]) names :=
      ih (by simpa using h)
    simp only [reachFrom, hstart, hrest]

/-- What a caller finds depends only on what is on the way. -/
theorem reach_eq_of_node?_eq (h : ∀ l, l <+: loc → d'.node? l = d.node? l) :
    d'.reach loc = d.reach loc :=
  reachFrom_congr (by simpa using h)

theorem reachFrom_concat (name : String) {names : List String} : ∀ {start : Location},
    d.reachFrom start names = .ok .directory →
    d.reachFrom start (names ++ [name]) =
      if maxName < name.utf8ByteSize then .error .nameTooLong
      else match d.node? (start ++ names ++ [name]) with
        | some n => .ok n
        | none => .error .notFound := by
  induction names with
  | nil =>
    intro start h
    have hstart : d.node? start = some .directory := by simpa using (reachFrom_eq_ok.1 h).2.2
    rw [List.nil_append, List.append_nil, reachFrom]
    simp only [hstart]
    rfl
  | cons first names ih =>
    intro start h
    obtain ⟨hdirs, hshort, -⟩ := reachFrom_eq_ok.1 h
    have hstart : d.node? start = some .directory := by simpa using hdirs 0 (by simp)
    have hfirst : ¬ maxName < first.utf8ByteSize :=
      Nat.not_lt.2 (hshort first List.mem_cons_self)
    rw [reachFrom] at h
    simp only [hstart, if_neg hfirst] at h
    rw [List.cons_append, reachFrom]
    simp only [hstart, if_neg hfirst]
    rw [ih h]
    simp

theorem reach_concat (h : d.reach loc = .ok .directory) (name : String) :
    d.reach (loc ++ [name]) =
      if maxName < name.utf8ByteSize then .error .nameTooLong
      else match d.node? (loc ++ [name]) with
        | some n => .ok n
        | none => .error .notFound :=
  reachFrom_concat name h

/-- There is a directory at every beginning of the location of a directory. -/
theorem reach_directory_of_isPrefix (h : d.reach loc = .ok .directory) (hl : l <+: loc) :
    d.reach l = .ok .directory := by
  by_cases hne : l = loc
  · exact hne ▸ h
  · obtain ⟨n, hn⟩ := reach_of_isPrefix h hl
    have hnode := (reach_eq_ok.1 hn).2.2
    rw [node?_of_isPrefix h hl hne] at hnode
    rw [hn, Option.some.inj hnode]

theorem reach_of_concat {n : Node} (h : d.reach (base ++ [x]) = .ok n) :
    d.reach base = .ok .directory := by
  obtain ⟨m, hm⟩ := reach_of_isPrefix h (List.prefix_append base [x])
  have hnode := node?_of_isPrefix h (List.prefix_append base [x]) (by simp)
  rw [(reach_eq_ok.1 hm).2.2] at hnode
  rw [hm, Option.some.inj hnode]

/-! ### Calls that succeeded -/

/-- A name can be given if the directory is there, nothing has the name, and the system does not
refuse. -/
theorem checkNew_concat (h : d.checkNew (base ++ [x]) = .ok ()) :
    d.reach base = .ok .directory ∧ x.utf8ByteSize ≤ maxName ∧ d.node? (base ++ [x]) = none := by
  have hbase : d.reach base = .ok .directory := by
    unfold checkNew at h
    rw [List.dropLast_concat] at h
    split at h
    · cases h
    · cases h
    · assumption
  have hfree := checkNew_eq_ok h
  rw [reach_concat hbase] at hfree
  split at hfree
  · cases hfree
  · rename_i hshort
    refine ⟨hbase, Nat.not_lt.1 hshort, ?_⟩
    split at hfree
    · cases hfree
    · assumption

theorem makeDirectory_eq_ok (h : d.makeDirectory loc = .ok d') :
    d.checkNew loc = .ok () ∧ d' = d.put loc .directory := by
  unfold makeDirectory at h
  cases hnew : d.checkNew loc with
  | error e =>
    rw [hnew] at h
    cases h
  | ok u =>
    rw [hnew] at h
    exact ⟨rfl, (Except.ok.inj h).symm⟩

theorem replaceFile_eq_put {name : String} {content : List Symbol}
    (h : d.replaceFile base name content = .ok d') :
    d.reach base = .ok .directory ∧ d.node? (base ++ [name]) ≠ some .directory ∧
      d' = d.put (base ++ [name]) (.file content) := by
  unfold replaceFile at h
  split at h
  · cases h
  · cases h
  · rename_i hbase
    dsimp only at h
    split at h
    · cases h
    · split at h
      · cases h
      · rename_i hnode
        exact ⟨hbase, hnode, (Except.ok.inj h).symm⟩

/-- A file can be written if its directory is there, it is none itself, and the system does not
refuse. -/
theorem replaceFile_of_reach (hbase : d.reach base = .ok .directory) {name : String}
    (hnode : d.node? (base ++ [name]) ≠ some .directory) (hrefusal : d.refusal (base ++ [name]) = none)
    (content : List Symbol) :
    d.replaceFile base name content = .ok (d.put (base ++ [name]) (.file content)) := by
  unfold replaceFile
  simp only [hbase, hrefusal]

/-- The disk with the tree at one location moved to another. -/
def moved (d : Disk) (old new : Location) : Disk :=
  { d with nodes := d.nodes.map fun n =>
    if old.isPrefixOf n.1 then (new ++ n.1.drop old.length, n.2) else n }

theorem rename_eq_ok (h : d.rename (base ++ [x]) y = .ok d') :
    (∃ n, d.reach (base ++ [x]) = .ok n) ∧ d.checkNew (base ++ [y]) = .ok () ∧
      d' = d.moved (base ++ [x]) (base ++ [y]) := by
  unfold rename at h
  rw [List.dropLast_concat] at h
  cases hreach : d.reach (base ++ [x]) with
  | error e =>
    rw [hreach] at h
    cases h
  | ok n =>
    cases hnew : d.checkNew (base ++ [y]) with
    | error e =>
      rw [hreach] at h
      simp only [bind, Except.bind, hnew] at h
      cases h
    | ok u =>
      rw [hreach] at h
      simp only [bind, Except.bind, hnew] at h
      exact ⟨⟨n, rfl⟩, rfl, (Except.ok.inj h).symm⟩

theorem makeDirectories_of_reach (h : d.reach loc = .ok .directory) : d.makeDirectories loc = .ok d := by
  have hway : ∀ p ∈ waypoints loc, d.reach p = .ok .directory := by
    intro p hp
    obtain ⟨n, -, rfl⟩ := List.mem_map.1 hp
    exact reach_directory_of_isPrefix h (List.take_prefix _ _)
  unfold makeDirectories
  generalize waypoints loc = ps at hway
  induction ps with
  | nil => rfl
  | cons p ps ih =>
    rw [List.foldlM_cons, hway p List.mem_cons_self]
    exact ih fun q hq => hway q (List.mem_cons_of_mem _ hq)

/-! ### Trees that are renamed or removed -/

theorem eq_of_isPrefix_siblings (hx : base ++ [x] <+: l) (hy : base ++ [y] <+: l) : x = y := by
  have hpre := List.prefix_of_prefix_length_le hx hy (by simp)
  rw [List.prefix_append_right_inj] at hpre
  exact (List.cons_prefix_cons.1 hpre).1

theorem not_isPrefix_base (base : Location) (x : String) {l : Location} (hl : l <+: base) :
    ¬ base ++ [x] <+: l := by
  intro hpre
  have hlen := (hpre.trans hl).length_le
  rw [List.length_append, List.length_singleton] at hlen
  omega

theorem node?_rename {old new : Location} (hold : ¬ old <+: l) (hnew : ¬ new <+: l) :
    (d.moved old new).node? l = d.node? l := by
  simp only [node?, moved]
  split_ifs
  · rfl
  · rw [find?_moved hold hnew]

/-- **Nothing is left of a renamed tree** at its old place. -/
theorem node?_rename_old (hxy : x ≠ y) (hl : base ++ [x] <+: l) :
    (d.moved (base ++ [x]) (base ++ [y])).node? l = none := by
  have hl' : l ≠ [] := by
    rintro rfl
    simp at hl
  simp only [node?, moved, if_neg hl', Option.map_eq_none_iff, List.find?_eq_none, List.mem_map]
  rintro m ⟨n, -, rfl⟩ hm
  have hm' := eq_of_beq hm
  split_ifs at hm' with hpre
  · -- what has moved is below the new name
    exact hxy (eq_of_isPrefix_siblings hl (hm' ▸ List.prefix_append _ _))
  · exact hpre (List.isPrefixOf_iff_prefix.2 (hm' ▸ hl))

theorem find?_moved_new {old new t : Location} {ns : List (Location × Node)}
    (hfree : ns.find? (fun m => m.1 == new ++ t) = none) :
    ((ns.map fun m => if old.isPrefixOf m.1 then (new ++ m.1.drop old.length, m.2) else m).find?
        fun m => m.1 == new ++ t).map Prod.snd =
      (ns.find? fun m => m.1 == old ++ t).map Prod.snd := by
  induction ns with
  | nil => rfl
  | cons m ns ih =>
    obtain ⟨hm, hns⟩ : (m.1 == new ++ t) = false ∧ ns.find? (fun m => m.1 == new ++ t) = none := by
      rw [List.find?_cons] at hfree
      split at hfree
      · cases hfree
      · rename_i hm
        exact ⟨hm, hfree⟩
    rw [List.map_cons, List.find?_cons, List.find?_cons]
    split_ifs with hpre
    · obtain ⟨u, hu⟩ := List.isPrefixOf_iff_prefix.1 hpre
      by_cases hut : u = t
      · simp [← hu, hut]
      · have hne : (m.1 == old ++ t) = false := by simp [← hu, hut]
        have hne' : (new ++ m.1.drop old.length == new ++ t) = false := by simp [← hu, hut]
        simp only [hne, hne']
        exact ih hns
    · have hne : (m.1 == old ++ t) = false := by
        refine Bool.eq_false_iff.2 fun heq => hpre ?_
        rw [eq_of_beq heq]
        exact List.isPrefixOf_iff_prefix.2 (List.prefix_append _ _)
      simp only [hne, hm]
      exact ih hns

/-- **A renamed tree is found at its new place**, where nothing was before. -/
theorem node?_rename_below {t : Location} (hfree : d.node? (base ++ [y] ++ t) = none) :
    (d.moved (base ++ [x]) (base ++ [y])).node? (base ++ [y] ++ t) = d.node? (base ++ [x] ++ t) := by
  have hne : ∀ z : String, base ++ [z] ++ t ≠ [] := by simp
  simp only [node?, if_neg (hne y), Option.map_eq_none_iff] at hfree
  simp only [node?, if_neg (hne y), if_neg (hne x), moved]
  exact find?_moved_new hfree

theorem node?_rename_new (hfree : d.node? (base ++ [y]) = none) :
    (d.moved (base ++ [x]) (base ++ [y])).node? (base ++ [y]) = d.node? (base ++ [x]) := by
  simpa using node?_rename_below (x := x) (t := []) (by simpa using hfree)

/-- **Nothing is left of a removed tree.** -/
theorem node?_pruned_of_isPrefix (hl : base ++ [x] <+: l) : (d.pruned (base ++ [x])).node? l = none := by
  have hl' : l ≠ [] := by
    rintro rfl
    simp at hl
  simp only [node?, pruned, if_neg hl', Option.map_eq_none_iff, List.find?_eq_none, List.mem_filter]
  rintro m ⟨-, hm⟩ heq
  rw [eq_of_beq heq, List.isPrefixOf_iff_prefix.2 hl] at hm
  cases hm

/-! ### The neighbours -/

/-- Both disks have the same at `loc`, on the way there and below it, and both have the same working
directory. -/
def Untouched (loc : Location) (d d' : Disk) : Prop :=
  d'.here = d.here ∧ ∀ l, l <+: loc ∨ loc <+: l → d'.node? l = d.node? l

@[refl] theorem Untouched.refl (loc : Location) (d : Disk) : Untouched loc d d :=
  ⟨rfl, fun _ _ => rfl⟩

theorem Untouched.trans (h : Untouched loc d d') (h' : Untouched loc d' d'') : Untouched loc d d'' :=
  ⟨h'.1.trans h.1, fun l hl => (h'.2 l hl).trans (h.2 l hl)⟩

theorem Untouched.reach_eq (h : Untouched loc d d') : d'.reach loc = d.reach loc :=
  reach_eq_of_node?_eq fun l hl => h.2 l (.inl hl)

theorem Untouched.locate_eq (h : Untouched loc d d') (path : String) :
    d'.locate path = d.locate path :=
  locate_congr h.1 path

theorem Untouched.reach_below (h : Untouched loc d d') (hl : loc <+: l) : d'.reach l = d.reach l := by
  refine reach_eq_of_node?_eq fun l' hl' => h.2 l' ?_
  rcases Nat.le_total l'.length loc.length with hle | hle
  · exact .inl (List.prefix_of_prefix_length_le hl' hl hle)
  · exact .inr (List.prefix_of_prefix_length_le hl hl' hle)

theorem not_isPrefix_of_ne (hxy : x ≠ y) (hl : l <+: base ++ [x] ∨ base ++ [x] <+: l) :
    ¬ base ++ [y] <+: l := by
  intro hy
  rcases hl with hl | hl
  · exact hxy (eq_of_isPrefix_siblings List.prefix_rfl (hy.trans hl))
  · exact hxy (eq_of_isPrefix_siblings hl hy)

theorem put_untouched (h : ∀ l', l' <+: loc ∨ loc <+: l' → l ≠ l') (d : Disk) (n : Node) :
    Untouched loc d (d.put l n) :=
  ⟨rfl, fun l' hl' => node?_put d l n (h l' hl').symm⟩

/-- Making a directory below a neighbour, or the neighbour itself. -/
theorem makeDirectory_untouched (hxy : x ≠ y) {t : Location}
    (h : d.makeDirectory (base ++ [y] ++ t) = .ok d') : Untouched (base ++ [x]) d d' := by
  obtain ⟨-, rfl⟩ := makeDirectory_eq_ok h
  refine put_untouched ?_ d _
  rintro _ hl rfl
  exact not_isPrefix_of_ne hxy hl (List.prefix_append _ _)

theorem removeTree_untouched (hxy : x ≠ y) (h : d.removeTree (base ++ [y]) = .ok d') :
    Untouched (base ++ [x]) d d' := by
  obtain rfl := removeTree_eq_ok h
  exact ⟨rfl, fun l hl => node?_pruned (not_isPrefix_of_ne hxy hl)⟩

theorem rename_untouched (hxy : x ≠ y) {n : Node} (hthere : d.reach (base ++ [x]) = .ok n)
    (h : d.rename (base ++ [y]) z = .ok d') : Untouched (base ++ [x]) d d' := by
  obtain ⟨-, hnew, rfl⟩ := rename_eq_ok h
  -- the new name is free, so it is not the neighbour's
  have hxz : x ≠ z := by
    rintro rfl
    exact not_isPrefix_of_checkNew hnew hthere List.prefix_rfl
  exact ⟨rfl, fun l hl => node?_rename (not_isPrefix_of_ne hxy hl) (not_isPrefix_of_ne hxz hl)⟩

/-! ### Documents -/

/-- The disk `d'` is `d` after some documents were written, all of them where `P` allows it. -/
inductive Writes (P : Location → Prop) (d : Disk) : Disk → Prop
  | refl : Writes P d d
  | write {d' d'' : Disk} {folder : Location} {name : String} {content : List Symbol}
      (h : Writes P d d') (hP : P (folder ++ [name]))
      (hwrite : d'.replaceFile folder name content = .ok d'') : Writes P d d''

namespace Writes

variable {P Q : Location → Prop}

theorem mono (h : Writes P d d') (hPQ : ∀ l, P l → Q l) : Writes Q d d' := by
  induction h with
  | refl => exact .refl
  | write _ hP hwrite ih => exact .write ih (hPQ _ hP) hwrite

theorem trans (h : Writes P d d') (h' : Writes P d' d'') : Writes P d d'' := by
  induction h' with
  | refl => exact h
  | write _ hP hwrite ih => exact .write ih hP hwrite

theorem here_eq (h : Writes P d d') : d'.here = d.here := by
  induction h with
  | refl => rfl
  | write _ _ hwrite ih =>
    obtain ⟨-, -, rfl⟩ := replaceFile_eq_put hwrite
    exact ih

/-- A document never takes the place of a directory. -/
theorem node?_directory (h : Writes P d d') (hl : d.node? l = some .directory) :
    d'.node? l = some .directory := by
  induction h with
  | refl => exact hl
  | @write _ _ folder name _ _ _ hwrite ih =>
    obtain ⟨-, hnode, rfl⟩ := replaceFile_eq_put hwrite
    have hne : l ≠ folder ++ [name] := fun heq => hnode (by rw [← heq, ih])
    rw [node?_put _ _ _ hne, ih]

/-- **Writing documents loses no directory.** -/
theorem reach_directory (h : Writes P d d') (hloc : d.reach loc = .ok .directory) :
    d'.reach loc = .ok .directory := by
  obtain ⟨hdirs, hnames, hnode⟩ := reach_eq_ok.1 hloc
  exact reach_eq_ok.2 ⟨fun k hk => h.node?_directory (hdirs k hk), hnames, h.node?_directory hnode⟩

/-- **What no document is written to, or on the way to,** is found as before. -/
theorem reach_eq (h : Writes P d d') (hP : ∀ l, P l → ¬ l <+: loc) : d'.reach loc = d.reach loc := by
  induction h with
  | refl => rfl
  | write _ hPl hwrite ih =>
    obtain ⟨-, -, rfl⟩ := replaceFile_eq_put hwrite
    rw [← ih]
    refine reach_eq_of_node?_eq fun l hl => node?_put _ _ _ ?_
    rintro rfl
    exact hP _ hPl hl

end Writes

end ReviewPanel.Disk
