import Mathlib.Tactic.SplitIfs
import ReviewPanel.Disk

/-!
# What the calls of a disk leave alone

A file is found by following names through directories, so a call can lose a file that it does not
name: by replacing a directory on the way to it.  No call does.  A call that makes or replaces something
keeps every other file, and one that removes or renames a tree keeps the files outside of that tree.

## Main definitions

* `Disk.Keeps loc d d'` : the file at `loc` is the same on both disks.

## Main statements

* `Disk.reach_eq_ok` : what it means to reach a location.
* `Disk.makeDirectories_induction` : what is preserved when the directories on a way are made.
* `Disk.replaceFile_keeps`, `Disk.makeDirectory_keeps`, `Disk.makeDirectories_keeps`,
  `Disk.removeTree_keeps`, `Disk.rename_keeps` : **the calls keep other files.**
-/

namespace ReviewPanel

namespace Disk

/-! ### What is at a location -/

/-- A path means the same wherever the working directory is the same. -/
theorem locate_congr {d d' : Disk} (h : d'.here = d.here) (path : String) :
    d'.locate path = d.locate path := by
  simp only [locate, h]

theorem node?_put (d : Disk) (loc : Location) (n : Node) {l : Location} (hne : l ≠ loc) :
    (d.put loc n).node? l = d.node? l := by
  simp only [node?, put]
  split_ifs
  · rfl
  · rw [List.find?_cons_of_neg (by simpa using hne.symm), List.find?_filter]
    congr 2
    funext m
    by_cases hm : m.1 = l
    · simp [hm, hne]
    · simp [hm]

theorem node?_put_self (d : Disk) {loc : Location} (h : loc ≠ []) (n : Node) :
    (d.put loc n).node? loc = some n := by
  simp [node?, put, h]

theorem reachFrom_eq_ok {d : Disk} {n : Node} :
    ∀ {names : List String} {start : Location}, d.reachFrom start names = .ok n ↔
      (∀ k < names.length, d.node? (start ++ names.take k) = some .directory) ∧
        (∀ name ∈ names, name.utf8ByteSize ≤ maxName) ∧ d.node? (start ++ names) = some n := by
  intro names
  induction names with
  | nil =>
    intro start
    simp only [reachFrom, List.append_nil]
    cases d.node? start <;> simp
  | cons name rest ih =>
    intro start
    rw [reachFrom]
    have hfirst : (∀ k < (name :: rest).length,
        d.node? (start ++ (name :: rest).take k) = some .directory) ↔
        d.node? start = some .directory ∧
          ∀ k < rest.length, d.node? (start ++ [name] ++ rest.take k) = some .directory := by
      constructor
      · intro h
        refine ⟨by simpa using h 0 (by simp), fun k hk => ?_⟩
        simpa using h (k + 1) (by simpa using hk)
      · rintro ⟨h0, h⟩ k hk
        cases k with
        | zero => simpa using h0
        | succ k => simpa using h k (by simpa using hk)
    rw [hfirst]
    cases hnode : d.node? start with
    | none => simp
    | some m =>
      cases m with
      | file c => simp
      | directory =>
        simp only
        split_ifs with hlong
        · simp [Nat.not_le.2 hlong]
        · rw [ih]
          simp [Nat.not_lt.1 hlong]

/-- **To reach a location** there has to be a directory at every beginning of it, and no name may be
too long. -/
theorem reach_eq_ok {d : Disk} {loc : Location} {n : Node} :
    d.reach loc = .ok n ↔
      (∀ k < loc.length, d.node? (loc.take k) = some .directory) ∧
        (∀ name ∈ loc, name.utf8ByteSize ≤ maxName) ∧ d.node? loc = some n := by
  rw [reach, reachFrom_eq_ok]
  simp only [List.nil_append]

theorem fileContent_eq_ok {d : Disk} {loc : Location} {c : List Symbol} :
    d.fileContent loc = .ok c ↔ d.reach loc = .ok (.file c) := by
  unfold fileContent
  cases d.reach loc with
  | error e => simp
  | ok n => cases n <;> simp

/-- There is a directory at every beginning of a location that can be reached. -/
theorem node?_of_isPrefix {d : Disk} {loc l : Location} {n : Node} (h : d.reach loc = .ok n)
    (hl : l <+: loc) (hne : l ≠ loc) : d.node? l = some .directory := by
  obtain ⟨hdirs, -, -⟩ := reach_eq_ok.1 h
  have htake : l = loc.take l.length := List.prefix_iff_eq_take.1 hl
  have hlt : l.length < loc.length := by
    refine Nat.lt_of_le_of_ne hl.length_le fun hlen => hne ?_
    rw [htake, hlen, List.take_length]
  rw [htake]
  exact hdirs _ hlt

/-- The beginnings of a location that can be reached can be reached. -/
theorem reach_of_isPrefix {d : Disk} {loc l : Location} {n : Node} (h : d.reach loc = .ok n)
    (hl : l <+: loc) : ∃ n', d.reach l = .ok n' := by
  by_cases hne : l = loc
  · exact ⟨n, hne ▸ h⟩
  · refine ⟨.directory, reach_eq_ok.2 ⟨fun k hk => ?_, fun name hname => ?_, ?_⟩⟩
    · have hk' : l.take k <+: loc := (List.take_prefix k l).trans hl
      refine node?_of_isPrefix h hk' fun heq => ?_
      have hlen := congrArg List.length heq
      have hle := hl.length_le
      simp only [List.length_take] at hlen
      omega
    · exact (reach_eq_ok.1 h).2.1 name (hl.subset hname)
    · exact node?_of_isPrefix h hl hne

theorem reach_congr {d d' : Disk} {loc : Location} {n : Node} (h : d.reach loc = .ok n)
    (hsame : ∀ l, l <+: loc → d'.node? l = d.node? l) : d'.reach loc = .ok n := by
  obtain ⟨hdirs, hnames, hnode⟩ := reach_eq_ok.1 h
  refine reach_eq_ok.2 ⟨fun k hk => ?_, hnames, ?_⟩
  · rw [hsame _ (List.take_prefix k loc), hdirs k hk]
  · rw [hsame _ List.prefix_rfl, hnode]

/-! ### Calls that keep a file -/

/-- If there is a file at `loc`, it is there on both disks, and both have the same working
directory. -/
def Keeps (loc : Location) (d d' : Disk) : Prop :=
  d'.here = d.here ∧ ∀ c, d.fileContent loc = .ok c → d'.fileContent loc = .ok c

@[refl] theorem Keeps.refl (loc : Location) (d : Disk) : Keeps loc d d := ⟨rfl, fun _ h => h⟩

theorem Keeps.trans {loc : Location} {d d' d'' : Disk} (h : Keeps loc d d') (h' : Keeps loc d' d'') :
    Keeps loc d d'' :=
  ⟨h'.1.trans h.1, fun c hc => h'.2 c (h.2 c hc)⟩

theorem Keeps.locate_eq {loc : Location} {d d' : Disk} (h : Keeps loc d d') (path : String) :
    d'.locate path = d.locate path :=
  locate_congr h.1 path

/-- Nothing was changed on the way to the file. -/
theorem keeps_of_node? {loc : Location} {d d' : Disk} (hhere : d'.here = d.here)
    (h : ∀ n, d.reach loc = .ok n → ∀ l, l <+: loc → d'.node? l = d.node? l) : Keeps loc d d' := by
  refine ⟨hhere, fun c hc => ?_⟩
  have hreach := fileContent_eq_ok.1 hc
  exact fileContent_eq_ok.2 (reach_congr hreach (h _ hreach))

/-- Putting something where it is not on the way to the file. -/
theorem put_keeps {loc loc' : Location} {d : Disk}
    (h : ∀ n, d.reach loc = .ok n → ¬ loc' <+: loc) (m : Node) : Keeps loc d (d.put loc' m) := by
  refine keeps_of_node? rfl fun n hn l hl => node?_put d loc' m ?_
  rintro rfl
  exact h n hn hl

theorem replaceFile_keeps {loc folder : Location} {name : String} {content : List Symbol}
    {d d' : Disk} (h : d.replaceFile folder name content = .ok d') (hne : folder ++ [name] ≠ loc) :
    Keeps loc d d' := by
  unfold replaceFile at h
  split at h
  · cases h
  · cases h
  · dsimp only at h
    split at h
    · cases h
    · split at h
      · cases h
      · rename_i hnode
        obtain rfl := Except.ok.inj h
        -- on the way to a file there are directories, which are not replaced
        exact put_keeps (fun n hn hpre => hnode (node?_of_isPrefix hn hpre hne)) _

theorem replaceFile_eq_ok {folder : Location} {name : String} {content : List Symbol} {d d' : Disk}
    (h : d.replaceFile folder name content = .ok d') (hname : name.utf8ByteSize ≤ maxName) :
    d'.here = d.here ∧ d'.fileContent (folder ++ [name]) = .ok content := by
  unfold replaceFile at h
  split at h
  · cases h
  · cases h
  · rename_i hfolder
    dsimp only at h
    split at h
    · cases h
    · split at h
      · cases h
      · obtain rfl := Except.ok.inj h
        obtain ⟨hdirs, hnames, hnode⟩ := reach_eq_ok.1 hfolder
        refine ⟨rfl, fileContent_eq_ok.2 (reach_eq_ok.2 ⟨fun k hk => ?_, ?_, ?_⟩)⟩
        · have hk' : k ≤ folder.length := by
            simp only [List.length_append, List.length_singleton] at hk
            omega
          have hne : folder.take k ≠ folder ++ [name] := by
            intro heq
            have hlen := congrArg List.length heq
            simp only [List.length_take, List.length_append, List.length_singleton] at hlen
            omega
          rw [List.take_append_of_le_length hk', node?_put d _ _ hne]
          by_cases hlt : k < folder.length
          · exact hdirs k hlt
          · rw [List.take_of_length_le (by omega)]
            exact hnode
        · intro m hm
          rcases List.mem_append.1 hm with hm | hm
          · exact hnames m hm
          · exact List.mem_singleton.1 hm ▸ hname
        · exact node?_put_self d (by simp) _

theorem checkNew_eq_ok {d : Disk} {loc : Location} (h : d.checkNew loc = .ok ()) :
    d.reach loc = .error .notFound := by
  unfold checkNew at h
  split at h
  · cases h
  · cases h
  · split at h
    · cases h
    · assumption
    · cases h

/-- A new name is not on the way to a file. -/
theorem not_isPrefix_of_checkNew {d : Disk} {loc loc' : Location} (h : d.checkNew loc' = .ok ())
    {n : Node} (hn : d.reach loc = .ok n) : ¬ loc' <+: loc := by
  intro hpre
  obtain ⟨n', hn'⟩ := reach_of_isPrefix hn hpre
  rw [checkNew_eq_ok h] at hn'
  cases hn'

theorem makeDirectory_keeps {loc loc' : Location} {d d' : Disk} (h : d.makeDirectory loc' = .ok d') :
    Keeps loc d d' := by
  unfold makeDirectory at h
  cases hnew : d.checkNew loc' with
  | error e =>
    rw [hnew] at h
    cases h
  | ok u =>
    rw [hnew] at h
    obtain rfl := Except.ok.inj h
    exact put_keeps (fun n hn => not_isPrefix_of_checkNew hnew hn) _

/-- **What making one directory on the way preserves**, making all of them preserves. -/
theorem makeDirectories_induction {d d' : Disk} {loc : Location} {R : Disk → Prop}
    (h : d.makeDirectories loc = .ok d') (hd : R d)
    (hstep : ∀ q d₁ d₂, q <+: loc → d₁.makeDirectory q = .ok d₂ → R d₁ → R d₂) : R d' := by
  have hway : ∀ q ∈ waypoints loc, q <+: loc := by
    intro q hq
    obtain ⟨n, -, rfl⟩ := List.mem_map.1 hq
    exact List.take_prefix _ _
  unfold makeDirectories at h
  generalize waypoints loc = ps at h hway
  induction ps generalizing d with
  | nil => exact Except.ok.inj h ▸ hd
  | cons q ps ih =>
    have hway' : ∀ q' ∈ ps, q' <+: loc := fun q' hq' => hway q' (List.mem_cons_of_mem _ hq')
    rw [List.foldlM_cons] at h
    split at h
    · exact ih hd h hway'
    · cases h
    · cases hmake : d.makeDirectory q with
      | error e =>
        rw [hmake] at h
        cases h
      | ok d₁ =>
        rw [hmake] at h
        exact ih (hstep q d d₁ (hway q List.mem_cons_self) hmake hd) h hway'

theorem makeDirectories_keeps {loc loc' : Location} {d d' : Disk}
    (h : d.makeDirectories loc' = .ok d') : Keeps loc d d' :=
  makeDirectories_induction h (.refl loc d) fun _ _ _ _ hmake hkeeps =>
    hkeeps.trans (makeDirectory_keeps hmake)

/-- The disk without the tree at a location. -/
def pruned (d : Disk) (loc : Location) : Disk :=
  { d with nodes := d.nodes.filter fun n => !loc.isPrefixOf n.1 }

theorem removeTree_of_reach {d : Disk} {loc : Location} {n : Node} (h : d.reach loc = .ok n)
    (hretention : d.retention loc = none) : d.removeTree loc = .ok (d.pruned loc) := by
  simp only [removeTree, h, hretention]
  rfl

theorem removeTree_eq_ok {d d' : Disk} {loc : Location} (h : d.removeTree loc = .ok d') :
    d' = d.pruned loc := by
  unfold removeTree at h
  split at h
  · split at h
    · cases h
    · exact (Except.ok.inj h).symm
  · cases h

theorem node?_pruned {d : Disk} {loc l : Location} (hl : ¬ loc <+: l) :
    (d.pruned loc).node? l = d.node? l := by
  simp only [node?, pruned, List.find?_filter]
  split_ifs
  · rfl
  · congr 2
    funext m
    by_cases hm : m.1 = l
    · have hnot : loc.isPrefixOf l = false :=
        Bool.eq_false_iff.2 fun hpre => hl (List.isPrefixOf_iff_prefix.1 hpre)
      simp [hm, hnot]
    · simp [hm]

theorem removeTree_keeps {loc loc' : Location} {d d' : Disk} (h : d.removeTree loc' = .ok d')
    (hout : ¬ loc' <+: loc) : Keeps loc d d' := by
  obtain rfl := removeTree_eq_ok h
  exact keeps_of_node? rfl fun n hn l hl => node?_pruned fun hpre => hout (hpre.trans hl)

/-- Moving a tree changes nothing at a location that is neither in the old tree nor in the new one. -/
theorem find?_moved {old new l : Location} (hold : ¬ old <+: l) (hnew : ¬ new <+: l)
    (ns : List (Location × Node)) :
    ((ns.map fun m => if old.isPrefixOf m.1 then (new ++ m.1.drop old.length, m.2) else m).find?
        fun m => m.1 == l) = ns.find? fun m => m.1 == l := by
  induction ns with
  | nil => rfl
  | cons m ns ih =>
    rw [List.map_cons]
    split_ifs with hpre
    · have hm : m.1 ≠ l := fun heq => hold (heq ▸ List.isPrefixOf_iff_prefix.1 hpre)
      have hm' : new ++ m.1.drop old.length ≠ l := fun heq => hnew (heq ▸ List.prefix_append _ _)
      rw [List.find?_cons_of_neg (by simpa using hm'), List.find?_cons_of_neg (by simpa using hm), ih]
    · rw [List.find?_cons, List.find?_cons, ih]

theorem rename_keeps {loc loc' : Location} {name : String} {d d' : Disk}
    (h : d.rename loc' name = .ok d') (hout : ¬ loc' <+: loc) : Keeps loc d d' := by
  unfold rename at h
  cases hreach : d.reach loc' with
  | error e =>
    rw [hreach] at h
    cases h
  | ok m =>
    cases hnew : d.checkNew (loc'.dropLast ++ [name]) with
    | error e =>
      rw [hreach] at h
      simp only [bind, Except.bind, hnew] at h
      cases h
    | ok u =>
      rw [hreach] at h
      simp only [bind, Except.bind, hnew] at h
      obtain rfl := Except.ok.inj h
      refine keeps_of_node? rfl fun n hn l hl => ?_
      -- neither an old nor a new location of the tree is on the way to the file
      have hnot : ¬ loc' <+: l := fun hpre => hout (hpre.trans hl)
      have hnot' : ¬ loc'.dropLast ++ [name] <+: l := fun hpre =>
        not_isPrefix_of_checkNew hnew hn (hpre.trans hl)
      simp only [node?]
      split_ifs
      · rfl
      · rw [find?_moved hnot hnot']

end Disk

end ReviewPanel
