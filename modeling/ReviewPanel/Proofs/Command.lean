import Mathlib.Data.List.Forall2
import Mathlib.Data.List.Infix
import Mathlib.Logic.Function.Basic
import ReviewPanel.Command

/-!
# Placeholders are filled in all at once

The arguments of a command are filled in by two replacements, one after the other: first the name of the
role, then the reference of the unit of work.  In general this is not the same as filling in both at once,
since the second replacement also looks at what the first one brought in, and at the seams.  The reference
may have any placeholder in it and does no harm, as it comes last.  The name of a role comes first, and two
things about names save it: they have no braces, and they are longer than what stands between the braces of
a placeholder.  So no placeholder begins or ends in a name, and none goes across it.

## Main definitions

* `Placeholder`, `Piece` : what an argument consists of.
* `Reads` : the pieces of an argument, read from left to right.

## Main statements

* `substituteFrom_reads` : one replacement fills in the pieces of one kind.
* `Reads.settled` : **with the name of a role filled in, an argument has the placeholders that it had.**
* `Command.expand_simultaneous` : **both placeholders are filled in at once.**
-/

namespace ReviewPanel

/-! ### Placeholders -/

/-- What an argument may have a placeholder for. -/
inductive Placeholder where
  | role
  | task
deriving DecidableEq, Repr

namespace Placeholder

/-- The placeholder as it is written. -/
def text : Placeholder → List Char
  | .role => Command.rolePlaceholder.toList
  | .task => Command.taskPlaceholder.toList

/-- What stands between the braces. -/
def name : Placeholder → List Char
  | .role => "role".toList
  | .task => "task".toList

theorem text_eq (k : Placeholder) : k.text = '{' :: (k.name ++ ['}']) := by
  cases k <;> decide

theorem notMem_name (k : Placeholder) : '{' ∉ k.name ∧ '}' ∉ k.name := by
  cases k <;> decide

theorem length_name (k : Placeholder) : k.name.length = 4 := by
  cases k <;> decide

theorem name_inj {k l : Placeholder} (h : k.name = l.name) : k = l := by
  revert h
  cases k <;> cases l <;> decide

theorem eq_of_isPrefix {k l : Placeholder} {cs : List Char} (h : k.text <+: l.text ++ cs) : k = l := by
  have hlen : k.text.length = l.text.length := by simp [text_eq, length_name]
  have htext : k.text = l.text :=
    (List.prefix_of_prefix_length_le h (List.prefix_append _ _) hlen.le).eq_of_length hlen
  rw [text_eq, text_eq] at htext
  exact name_inj (List.append_cancel_right (List.cons.inj htext).2)

theorem not_isPrefix_cons {k : Placeholder} {c : Char} (hc : c ≠ '{') (cs : List Char) :
    ¬ k.text <+: c :: cs := by
  rw [text_eq, List.cons_prefix_cons]
  exact fun h => hc h.1.symm

end Placeholder

/-! ### Pieces -/

/-- A piece of an argument: a character that is copied, or a placeholder. -/
inductive Piece where
  | char (c : Char)
  | hole (k : Placeholder)
deriving DecidableEq, Repr

/-- What a piece becomes. -/
def Piece.value (f : Placeholder → List Char) : Piece → List Char
  | .char c => [c]
  | .hole k => f k

/-- The pieces of a text, read from left to right: a placeholder where one begins, else a character. -/
inductive Reads : List Char → List Piece → Prop where
  | nil : Reads [] []
  | hole (k : Placeholder) {cs : List Char} {ps : List Piece} (h : Reads cs ps) :
      Reads (k.text ++ cs) (.hole k :: ps)
  | char {c : Char} {cs : List Char} {ps : List Piece} (hnone : ∀ k : Placeholder, ¬ k.text <+: c :: cs)
      (h : Reads cs ps) : Reads (c :: cs) (.char c :: ps)

namespace Reads

variable {cs : List Char} {ps qs : List Piece}

theorem exists_reads (cs : List Char) : ∃ ps, Reads cs ps := by
  by_cases hk : ∃ k : Placeholder, k.text <+: cs
  · obtain ⟨k, rest, rfl⟩ := hk
    have hlt : rest.length < (k.text ++ rest).length := by
      rw [k.text_eq]
      simp
      omega
    obtain ⟨ps, h⟩ := exists_reads rest
    exact ⟨_, .hole k h⟩
  · match cs with
    | [] => exact ⟨_, .nil⟩
    | c :: cs =>
      obtain ⟨ps, h⟩ := exists_reads cs
      exact ⟨_, .char (not_exists.1 hk) h⟩
  termination_by cs.length

/-- **A text is read in one way.** -/
theorem unique (h : Reads cs ps) (h' : Reads cs qs) : ps = qs := by
  induction h generalizing qs with
  | nil =>
    generalize heq : [] = ds at h'
    cases h' with
    | nil => rfl
    | hole k => simp [k.text_eq] at heq
    | char => cases heq
  | @hole k cs ps h ih =>
    generalize heq : k.text ++ cs = ds at h'
    cases h' with
    | nil => simp [k.text_eq] at heq
    | @hole l ds qs h' =>
      have hpre : k.text <+: l.text ++ ds := ⟨cs, heq⟩
      obtain rfl := Placeholder.eq_of_isPrefix hpre
      rw [ih (List.append_cancel_left heq ▸ h')]
    | char hnone => exact absurd ⟨cs, heq⟩ (hnone k)
  | @char c cs ps hnone h ih =>
    generalize heq : c :: cs = ds at h'
    cases h' with
    | nil => cases heq
    | hole k => exact absurd ⟨_, heq.symm⟩ (hnone k)
    | char hnone' h' =>
      obtain ⟨rfl, rfl⟩ := List.cons.inj heq
      rw [ih h']

theorem plain {w : List Char} (hw : '{' ∉ w) (h : Reads cs ps) :
    Reads (w ++ cs) (w.map .char ++ ps) := by
  induction w with
  | nil => exact h
  | cons c w ih =>
    obtain ⟨hc, hw⟩ := not_or.1 (mt List.mem_cons.2 hw)
    exact .char (fun k => Placeholder.not_isPrefix_cons (Ne.symm hc) _) (ih hw)

end Reads

/-! ### One replacement -/

theorem substituteFrom_inside (pattern replacement as cs : List Char) :
    substituteFrom pattern replacement as.length (as ++ cs) =
      substituteFrom pattern replacement 0 cs := by
  induction as with
  | nil => rfl
  | cons a as ih => rw [List.length_cons, List.cons_append, substituteFrom, ih]

theorem substituteFrom_text (k : Placeholder) (replacement cs : List Char) :
    substituteFrom k.text replacement 0 (k.text ++ cs) =
      replacement ++ substituteFrom k.text replacement 0 cs := by
  have hpre : k.text.isPrefixOf (k.text ++ cs) = true :=
    List.isPrefixOf_iff_prefix.2 (List.prefix_append _ _)
  have hskip : substituteFrom k.text replacement (k.text.length - 1) (k.name ++ ['}'] ++ cs) =
      substituteFrom k.text replacement 0 cs := by
    rw [← substituteFrom_inside k.text replacement (k.name ++ ['}']) cs]
    simp [k.text_eq]
  rw [k.text_eq] at hpre hskip ⊢
  rw [List.cons_append] at hpre ⊢
  rw [substituteFrom, if_pos hpre, hskip]

theorem substituteFrom_char {k : Placeholder} {c : Char} {cs : List Char} (h : ¬ k.text <+: c :: cs)
    (replacement : List Char) :
    substituteFrom k.text replacement 0 (c :: cs) = c :: substituteFrom k.text replacement 0 cs := by
  rw [substituteFrom, if_neg (mt List.isPrefixOf_iff_prefix.1 h)]

theorem substituteFrom_plain (k : Placeholder) (replacement : List Char) {w : List Char} (hw : '{' ∉ w)
    (cs : List Char) :
    substituteFrom k.text replacement 0 (w ++ cs) = w ++ substituteFrom k.text replacement 0 cs := by
  induction w with
  | nil => rfl
  | cons c w ih =>
    obtain ⟨hc, hw⟩ := not_or.1 (mt List.mem_cons.2 hw)
    rw [List.cons_append, substituteFrom_char (Placeholder.not_isPrefix_cons (Ne.symm hc) _), ih hw]
    rfl

theorem substituteFrom_other {k l : Placeholder} (hne : l ≠ k) (replacement cs : List Char) :
    substituteFrom k.text replacement 0 (l.text ++ cs) =
      l.text ++ substituteFrom k.text replacement 0 cs := by
  have hnot : ¬ k.text <+: l.text ++ cs := fun h => hne (Placeholder.eq_of_isPrefix h).symm
  have hplain : '{' ∉ l.name ++ ['}'] := by simpa using l.notMem_name.1
  rw [l.text_eq, List.cons_append] at hnot ⊢
  rw [substituteFrom_char hnot, substituteFrom_plain k replacement hplain]
  rfl

/-- What the pieces become if one kind of placeholder is filled in and the other stays. -/
def fillOne (k : Placeholder) (w : List Char) : Placeholder → List Char :=
  Function.update Placeholder.text k w

/-- **One replacement fills in the placeholders of one kind**, and copies everything else. -/
theorem substituteFrom_reads {cs : List Char} {ps : List Piece} (h : Reads cs ps) (k : Placeholder)
    (w : List Char) : substituteFrom k.text w 0 cs = ps.flatMap (Piece.value (fillOne k w)) := by
  induction h with
  | nil => rfl
  | @hole l cs ps h ih =>
    rw [List.flatMap_cons, ← ih, Piece.value, fillOne]
    by_cases hl : l = k
    · rw [hl, substituteFrom_text, Function.update_self]
    · rw [substituteFrom_other hl, Function.update_of_ne hl]
  | @char c cs ps hnone h ih => rw [substituteFrom_char (hnone k), List.flatMap_cons, ih]; rfl

/-! ### Between the two replacements -/

/-- A text that takes no part in a placeholder, whatever stands around it. -/
structure Inert (w : List Char) : Prop where
  no_open : '{' ∉ w
  no_close : '}' ∉ w
  /-- It is longer than what stands between two braces. -/
  long : 4 < w.length

theorem inert_name (role : Role) : Inert role.name.toList := by
  cases role <;> exact ⟨by decide, by decide, by decide⟩

/-- The pieces after one kind of placeholder was filled in: what came in consists of characters. -/
def Piece.settle (k : Placeholder) (w : List Char) : Piece → List Piece
  | .char c => [.char c]
  | .hole l => if l = k then w.map .char else [.hole l]

namespace Reads

variable {cs : List Char} {ps : List Piece} {k : Placeholder} {w : List Char}

/-- The end of a placeholder that stands at the beginning of the text after the replacement stood there
before, since an inert text is too long to lie in between. -/
theorem close_of_close (h : Reads cs ps) (hw : Inert w) {u : List Char} (hopen : '{' ∉ u)
    (hlen : u.length ≤ 4) (hpre : u ++ ['}'] <+: ps.flatMap (Piece.value (fillOne k w))) :
    u ++ ['}'] <+: cs := by
  induction h generalizing u with
  | nil => simp at hpre
  | @hole l cs ps h ih =>
    rw [List.flatMap_cons, Piece.value, fillOne] at hpre
    by_cases hl : l = k
    · -- the closing brace would be in the text that was filled in
      rw [hl, Function.update_self] at hpre
      have hlong := hw.long
      have hin : u ++ ['}'] <+: w :=
        List.prefix_of_prefix_length_le hpre (List.prefix_append _ _) (by simp; omega)
      exact absurd (hin.subset (by simp)) hw.no_close
    · -- the placeholder that stays begins with a brace
      rw [Function.update_of_ne hl, l.text_eq, List.cons_append] at hpre
      cases u with
      | nil => exact absurd (List.cons_prefix_cons.1 hpre).1 (by decide)
      | cons a u =>
        have ha := (List.cons_prefix_cons.1 hpre).1
        exact absurd (ha ▸ List.mem_cons_self) hopen
  | @char c cs ps hnone h ih =>
    rw [List.flatMap_cons] at hpre
    cases u with
    | nil =>
      have hc := (List.cons_prefix_cons.1 hpre).1
      exact hc ▸ List.cons_prefix_cons.2 ⟨rfl, List.nil_prefix⟩
    | cons a u =>
      obtain ⟨ha, hpre⟩ := List.cons_prefix_cons.1 hpre
      refine ha ▸ List.cons_prefix_cons.2 ⟨rfl, ih (fun h => hopen (List.mem_cons_of_mem _ h)) ?_ hpre⟩
      exact Nat.le_of_succ_le hlen

/-- **An argument keeps its placeholders** when those of one kind are replaced by an inert text. -/
theorem settled (h : Reads cs ps) (hw : Inert w) :
    Reads (ps.flatMap (Piece.value (fillOne k w))) (ps.flatMap (Piece.settle k w)) := by
  induction h with
  | nil => exact .nil
  | @hole l cs ps h ih =>
    rw [List.flatMap_cons, List.flatMap_cons, Piece.value, Piece.settle]
    by_cases hl : l = k
    · rw [if_pos hl, hl, fillOne, Function.update_self]
      exact ih.plain hw.no_open
    · rw [if_neg hl, fillOne, Function.update_of_ne hl]
      exact .hole l ih
  | @char c cs ps hnone h ih =>
    refine .char (fun l hpre => hnone l ?_) ih
    rw [l.text_eq, List.cons_prefix_cons] at hpre ⊢
    exact ⟨hpre.1, h.close_of_close hw l.notMem_name.1 l.length_name.le hpre.2⟩

end Reads

/-! ### Both replacements -/

/-- What the placeholders stand for. -/
def Command.meaning (role : Role) (item : WorkItem) : Placeholder → List Char
  | .role => role.name.toList
  | .task => item.reference.toList

/-- Filling in one placeholder and then the other is filling in both. -/
theorem flatMap_settle (ps : List Piece) (role : Role) (item : WorkItem) :
    (ps.flatMap (Piece.settle .role role.name.toList)).flatMap
        (Piece.value (fillOne .task item.reference.toList)) =
      ps.flatMap (Piece.value (Command.meaning role item)) := by
  rw [List.flatMap_assoc]
  refine List.flatMap_congr fun p _ => ?_
  match p with
  | .char c => rfl
  | .hole .task => simp [Piece.settle, Piece.value, fillOne, Command.meaning]
  | .hole .role =>
    simp only [Piece.settle, if_pos, List.flatMap_map, Piece.value, Command.meaning]
    exact List.flatMap_singleton' _

namespace Command

/-- **Both placeholders are filled in at once.**  Every argument is read in one way, from left to right, as
characters and placeholders, and becomes what is put together from the characters, the name of the role for
one placeholder, and the reference of the unit of work for the other.  There are as many arguments as before,
in the same order.

What is filled in is never looked at again.  With the names of the role filled in, the argument reads as
before, and what came in reads as nothing but characters, so the second replacement finds the placeholders
that the argument had, and no other.  After the second one nothing is replaced, even if a reference such as
`role` between two braces now looks like a placeholder. -/
theorem expand_simultaneous (c : Command) (role : Role) (item : WorkItem) :
    List.Forall₂ (fun arg filled => ∃ ps, Reads arg.toList ps ∧ (∀ qs, Reads arg.toList qs → qs = ps) ∧
        filled.toList = ps.flatMap (Piece.value (meaning role item)) ∧
        Reads (substitute rolePlaceholder role.name arg).toList
          (ps.flatMap (Piece.settle .role role.name.toList)))
      c.args (c.expand role item) := by
  rw [expand, List.forall₂_map_right_iff, List.forall₂_same]
  intro arg _
  obtain ⟨ps, h⟩ := Reads.exists_reads arg.toList
  have hrole : (substitute rolePlaceholder role.name arg).toList =
      ps.flatMap (Piece.value (fillOne .role role.name.toList)) := by
    rw [substitute, String.toList_ofList]
    exact substituteFrom_reads h .role _
  have hsettled := h.settled (k := .role) (inert_name role)
  refine ⟨ps, h, fun qs h' => h'.unique h, ?_, hrole ▸ hsettled⟩
  rw [substitute, String.toList_ofList, hrole, ← flatMap_settle]
  exact substituteFrom_reads hsettled .task _

/-- A placeholder between braces of its own, and a reference that looks like the other placeholder. -/
theorem expand_simultaneous_nested :
    Reads "\x7b\x7brole\x7d\x7d\x7btask\x7d".toList [.char '{', .hole .role, .char '}', .hole .task] ∧
      (⟨"panel", ["\x7b\x7brole\x7d\x7d\x7btask\x7d"], .empty, none⟩ : Command).expand .build
        (.ofReference "\x7brole\x7d") = ["\x7bbuild\x7d\x7brole\x7d"] := by
  have hreads : Reads "\x7b\x7brole\x7d\x7d\x7btask\x7d".toList
      [.char '{', .hole .role, .char '}', .hole .task] := by
    refine .char (fun k => ?_) (.hole .role (.char (fun k => ?_) (.hole .task .nil)))
    all_goals cases k <;> decide
  refine ⟨hreads, ?_⟩
  generalize hfilled : expand _ _ _ = filled
  have h := hfilled ▸ expand_simultaneous
    ⟨"panel", ["\x7b\x7brole\x7d\x7d\x7btask\x7d"], .empty, none⟩ .build (.ofReference "\x7brole\x7d")
  obtain ⟨arg, rest, ⟨ps, -, hunique, hvalue, -⟩, hrest, rfl⟩ := List.forall₂_cons_left_iff.1 h
  rw [List.forall₂_nil_left_iff.1 hrest, ← String.ofList_toList (s := arg), hvalue, ← hunique _ hreads]
  rfl

end Command

end ReviewPanel
