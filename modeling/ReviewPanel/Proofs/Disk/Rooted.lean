import ReviewPanel.Proofs.Disk.Trees

/-!
# Disks that are trees

A disk is held as a list of locations, and nothing in that form says that what is in a directory has one
around it.  On a disk that is a tree (`Disk.Rooted`) it does, and every call keeps it a tree.  This is what
makes a renamed directory move with everything in it: nothing can be left over from before at a location
below a name that was free.

A call that makes directories only adds to what is there (`Disk.Gains`), on whatever disk.

## Main definitions

* `Disk.Gains P d d'` : everything that can be found on `d` is on `d'`, which has nothing more than some
  directories where `P` allows them.
* `Disk.Rooted` : what is in a directory has one around it.

## Main statements

* `Disk.gains_makeDirectories` : **making directories loses nothing**, and adds nothing but what was asked
  for.
* `Disk.Rooted.makeDirectories`, `Disk.Rooted.replaceFile`, `Disk.Rooted.pruned`, `Disk.Rooted.moved` :
  **a disk stays a tree.**
* `Disk.Rooted.reach_moved` : what was found below the old name is found below the new one.
-/

namespace ReviewPanel.Disk

variable {d d' d'' : Disk} {loc l base : Location} {x y : String} {P Q : Location → Prop}

/-! ### More directories -/

/-- Everything that can be found on `d` can be found on `d'`, and `d'` has nothing more than some
directories where `P` allows them. -/
structure Gains (P : Location → Prop) (d d' : Disk) : Prop where
  here_eq : d'.here = d.here
  refusal_eq : d'.refusal = d.refusal
  retention_eq : d'.retention = d.retention
  kept : ∀ l n, d.reach l = .ok n → d'.reach l = .ok n
  gained : ∀ l n, d'.node? l = some n → d.node? l = some n ∨ n = .directory ∧ P l

namespace Gains

@[refl] theorem refl (P : Location → Prop) (d : Disk) : Gains P d d :=
  ⟨rfl, rfl, rfl, fun _ _ h => h, fun _ _ h => .inl h⟩

theorem trans (h : Gains P d d') (h' : Gains P d' d'') : Gains P d d'' where
  here_eq := h'.here_eq.trans h.here_eq
  refusal_eq := h'.refusal_eq.trans h.refusal_eq
  retention_eq := h'.retention_eq.trans h.retention_eq
  kept l n hn := h'.kept l n (h.kept l n hn)
  gained l n hn := by
    rcases h'.gained l n hn with hn | hn
    · exact h.gained l n hn
    · exact .inr hn

theorem mono (h : Gains P d d') (hPQ : ∀ l, P l → Q l) : Gains Q d d' where
  here_eq := h.here_eq
  refusal_eq := h.refusal_eq
  retention_eq := h.retention_eq
  kept := h.kept
  gained l n hn := (h.gained l n hn).imp_right fun ⟨hdir, hP⟩ => ⟨hdir, hPQ l hP⟩

theorem locate_eq (h : Gains P d d') (path : String) : d'.locate path = d.locate path :=
  locate_congr h.here_eq path

end Gains

theorem gains_makeDirectory (h : d.makeDirectory loc = .ok d') : Gains (· = loc) d d' := by
  obtain ⟨hnew, rfl⟩ := makeDirectory_eq_ok h
  have hne : loc ≠ [] := by
    rintro rfl
    exact not_isPrefix_of_checkNew hnew (rfl : d.reach [] = .ok .directory) List.prefix_rfl
  refine ⟨rfl, rfl, rfl, fun l n hn => reach_congr hn fun l' hl' => node?_put d loc _ ?_,
    fun l n hn => ?_⟩
  · rintro rfl
    exact not_isPrefix_of_checkNew hnew hn hl'
  · by_cases hl : l = loc
    · subst hl
      rw [node?_put_self d hne] at hn
      exact .inr ⟨(Option.some.inj hn).symm, rfl⟩
    · rw [node?_put d loc _ hl] at hn
      exact .inl hn

/-- **Making directories loses nothing**, and adds nothing but what was asked for. -/
theorem gains_makeDirectories (h : d.makeDirectories loc = .ok d') : Gains (· <+: loc) d d' := by
  refine makeDirectories_induction h (.refl _ d) fun q d₁ d₂ hq hmake hgains => hgains.trans ?_
  refine (gains_makeDirectory hmake).mono ?_
  rintro _ rfl
  exact hq

/-- What was made where nothing was can be removed again. -/
theorem gains_pruned_put (hfree : d.node? (base ++ [x]) = none) (n : Node) (t : Location) (m : Node) :
    Gains (fun _ => False) d
      (((d.put (base ++ [x]) n).put (base ++ [x] ++ t) m).pruned (base ++ [x])) := by
  have hsame : ∀ l, ¬ base ++ [x] <+: l →
      (((d.put (base ++ [x]) n).put (base ++ [x] ++ t) m).pruned (base ++ [x])).node? l = d.node? l := by
    intro l hl
    rw [node?_pruned hl, node?_put, node?_put]
    · rintro rfl
      exact hl List.prefix_rfl
    · rintro rfl
      exact hl (List.prefix_append _ _)
  refine ⟨rfl, rfl, rfl, fun l k hk => reach_congr hk fun l' hl' => hsame l' fun hpre => ?_,
    fun l k hk => .inl ?_⟩
  · -- nothing can be found below a free name
    obtain ⟨k', hk'⟩ := reach_of_isPrefix hk (hpre.trans hl')
    have hnode := (reach_eq_ok.1 hk').2.2
    rw [hfree] at hnode
    cases hnode
  · by_cases hl : base ++ [x] <+: l
    · rw [node?_pruned_of_isPrefix hl] at hk
      cases hk
    · rw [← hsame l hl, hk]

/-! ### Trees -/

/-- What is in a directory has one around it. -/
def Rooted (d : Disk) : Prop := ∀ l x n, d.node? (l ++ [x]) = some n → d.node? l = some .directory

theorem rooted_blank : blank.Rooted := by
  intro l x n hn
  simp [node?, blank] at hn

namespace Rooted

/-- There is nothing below a location with nothing at it. -/
theorem node?_below (h : d.Rooted) (hl : d.node? l = none) (t : Location) : d.node? (l ++ t) = none := by
  induction t generalizing l with
  | nil => rwa [List.append_nil]
  | cons x t ih =>
    have hx : d.node? (l ++ [x]) = none := by
      cases hn : d.node? (l ++ [x]) with
      | none => rfl
      | some n =>
        rw [h l x n hn] at hl
        cases hl
    simpa using ih hx

/-- A directory may be put wherever there is one around it, and a file unless it takes the place of a
directory. -/
theorem put (h : d.Rooted) (hbase : d.node? base = some .directory) {n : Node}
    (hn : n = .directory ∨ d.node? (base ++ [x]) ≠ some .directory) : (d.put (base ++ [x]) n).Rooted := by
  intro l y m hm
  by_cases hl : l ++ [y] = base ++ [x]
  · obtain ⟨rfl, -⟩ := List.append_inj' hl rfl
    rw [node?_put _ _ _ (by simp), hbase]
  · rw [node?_put _ _ _ hl] at hm
    have hdir := h l y m hm
    by_cases hlx : l = base ++ [x]
    · subst hlx
      obtain rfl := hn.resolve_right fun hne => hne hdir
      exact node?_put_self _ (by simp) _
    · rw [node?_put _ _ _ hlx, hdir]

theorem makeDirectory (h : d.Rooted) (hmake : d.makeDirectory loc = .ok d') : d'.Rooted := by
  obtain ⟨hnew, rfl⟩ := makeDirectory_eq_ok hmake
  rcases List.eq_nil_or_concat loc with rfl | ⟨base, x, rfl⟩
  · exact absurd List.prefix_rfl (not_isPrefix_of_checkNew hnew (rfl : d.reach [] = .ok .directory))
  · rw [List.concat_eq_append] at hnew ⊢
    exact h.put (reach_eq_ok.1 (checkNew_concat hnew).1).2.2 (.inl rfl)

theorem makeDirectories (h : d.Rooted) (hmake : d.makeDirectories loc = .ok d') : d'.Rooted :=
  makeDirectories_induction hmake h fun _ _ _ _ hmake hrooted => hrooted.makeDirectory hmake

theorem replaceFile {name : String} {content : List Symbol} (h : d.Rooted)
    (hwrite : d.replaceFile base name content = .ok d') : d'.Rooted := by
  obtain ⟨hbase, hnode, rfl⟩ := replaceFile_eq_put hwrite
  exact h.put (reach_eq_ok.1 hbase).2.2 (.inr hnode)

theorem writes (h : d.Rooted) (hwrites : Writes P d d') : d'.Rooted := by
  induction hwrites with
  | refl => exact h
  | write _ _ hwrite ih => exact ih.replaceFile hwrite

theorem pruned (h : d.Rooted) (base : Location) (x : String) : (d.pruned (base ++ [x])).Rooted := by
  intro l y n hn
  by_cases hl : base ++ [x] <+: l ++ [y]
  · rw [node?_pruned_of_isPrefix hl] at hn
    cases hn
  · rw [node?_pruned hl] at hn
    rw [node?_pruned fun hpre => hl (hpre.trans (List.prefix_append _ _))]
    exact h l y n hn

/-- **A renamed tree leaves a tree behind.** -/
theorem moved (h : d.Rooted) (hbase : d.node? base = some .directory)
    (hfree : d.node? (base ++ [y]) = none) (hxy : x ≠ y) :
    (d.moved (base ++ [x]) (base ++ [y])).Rooted := by
  intro l z n hn
  by_cases hnew : base ++ [y] <+: l ++ [z]
  · obtain ⟨t, ht⟩ := hnew
    rcases List.eq_nil_or_concat t with rfl | ⟨t, w, rfl⟩
    · -- the new name itself
      rw [List.append_nil] at ht
      obtain ⟨rfl, -⟩ := List.append_inj' ht rfl
      rw [node?_rename (not_isPrefix_base _ _ List.prefix_rfl) (not_isPrefix_base _ _ List.prefix_rfl),
        hbase]
    · rw [List.concat_eq_append, ← List.append_assoc] at ht
      obtain ⟨rfl, hzw⟩ := List.append_inj' ht rfl
      rw [← hzw, List.append_assoc, node?_rename_below (h.node?_below hfree _), ← List.append_assoc] at hn
      rw [node?_rename_below (h.node?_below hfree _)]
      exact h _ _ _ hn
  · by_cases hold : base ++ [x] <+: l ++ [z]
    · rw [node?_rename_old hxy hold] at hn
      cases hn
    · have hshorter : ∀ {k : Location}, ¬ k <+: l ++ [z] → ¬ k <+: l := fun hk hpre =>
        hk (hpre.trans (List.prefix_append _ _))
      rw [node?_rename hold hnew] at hn
      rw [node?_rename (hshorter hold) (hshorter hnew)]
      exact h l z n hn

/-- **What was found below the old name is found below the new one.** -/
theorem reach_moved (h : d.Rooted) (hnew : d.checkNew (base ++ [y]) = .ok ()) {t : Location} {n : Node}
    (hn : d.reach (base ++ [x] ++ t) = .ok n) :
    (d.moved (base ++ [x]) (base ++ [y])).reach (base ++ [y] ++ t) = .ok n := by
  obtain ⟨hbase, hshort, hfree⟩ := checkNew_concat hnew
  have hbelow := fun t => node?_rename_below (x := x) (h.node?_below hfree t)
  obtain ⟨hdirs, hnames, hnode⟩ := reach_eq_ok.1 hn
  refine reach_eq_ok.2 ⟨fun k hk => ?_, fun name hname => ?_, ?_⟩
  · rcases Nat.lt_or_ge base.length k with hlt | hge
    · -- at or below the new name
      have htake : ∀ z : String, (base ++ [z] ++ t).take k =
          base ++ [z] ++ t.take (k - (base.length + 1)) := fun z => by
        have hlen : (base ++ [z]).length = base.length + 1 := List.length_append
        rw [List.take_append, hlen, List.take_of_length_le (hlen ▸ hlt)]
      have hdir := hdirs k (by simpa using hk)
      rw [htake] at hdir
      rw [htake, hbelow, hdir]
    · have htake : ∀ z : String, (base ++ [z] ++ t).take k = base.take k := fun z => by
        rw [List.append_assoc, List.take_append_of_le_length hge]
      have hpre : base.take k <+: base := List.take_prefix k base
      have hdir := hdirs k (by simpa using hk)
      rw [htake] at hdir
      rw [htake, node?_rename (not_isPrefix_base _ _ hpre) (not_isPrefix_base _ _ hpre), hdir]
  · simp only [List.mem_append, List.mem_singleton] at hname hnames
    rcases hname with (hname | rfl) | hname
    · exact hnames name (.inl (.inl hname))
    · exact hshort
    · exact hnames name (.inr hname)
  · rw [hbelow, hnode]

end Rooted

end ReviewPanel.Disk
