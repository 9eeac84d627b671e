import Mathlib
import ReviewPanel.Category

/-!
# Which category an identifier names

An identifier names a category if it begins with white space, possibly none, a tag of the category in any
case, and a hyphen or an underscore; what follows does not count.  The category is found by three scans,
over white space, over letters and over the table of tags, each of which goes as far as it can.  That none of
them goes too far is seen from the parts of the identifier: a letter is no white space, and neither a hyphen
nor an underscore is a letter.  So the parts are where the scans stop, and there is only one way to take
an identifier apart.

## Main definitions

* `Category.spellings` : the tags of a category.
* `Category.Parts`, `Category.Parts.Of` : an identifier taken apart.
* `Category.Names` : an identifier names a category.

## Main statements

* `Category.leadingTag?_eq_some_iff`, `Category.ofId?_eq_some_iff` : the scans find the parts, and the tag.
* `Category.classify_grammar` : **an identifier is filed under the category that it names**, and under that
  of the reporting role if it names none.
-/

namespace ReviewPanel

namespace Category

/-! ### Tags -/

/-- The tags of a category. -/
def spellings : Category → List String
  | .architecture => ["ARCH"]
  | .security => ["SEC"]
  | .build => ["BUILD", "DEVOPS"]
  | .concurrency => ["CONC", "KRAKEN"]
  | .observability => ["OPS"]
  | .coverage => ["TEST"]
  | .custom => ["CUSTOM"]

/-- The same letters, whatever their case. -/
def SameLetters (as bs : List Char) : Prop := as.map Char.toLower = bs.map Char.toLower

theorem mem_tags {tag : String} {c : Category} : (tag, c) ∈ tags ↔ tag ∈ spellings c := by
  cases c <;> simp [tags, spellings]

theorem nodup_tags : (tags.map Prod.fst).Nodup := by decide

theorem letters_of_mem_spellings {tag : String} {c : Category} (h : tag ∈ spellings c) :
    tag.toList ≠ [] ∧ (∀ l ∈ tag.toList, l.isAlpha = true) ∧
      tag.toList.map Char.toUpper = tag.toList := by
  have hall : ∀ t ∈ tags, t.1.toList ≠ [] ∧ t.1.toList.all Char.isAlpha = true ∧
      t.1.toList.map Char.toUpper = t.1.toList := by decide
  obtain ⟨hne, hletters, hcaps⟩ := hall (tag, c) (mem_tags.2 h)
  exact ⟨hne, List.all_eq_true.1 hletters, hcaps⟩

theorem map_toUpper_eq_iff {letters : List Char} {tag : String} {c : Category}
    (h : tag ∈ spellings c) :
    String.ofList (letters.map Char.toUpper) = tag ↔ SameLetters letters tag.toList := by
  obtain ⟨-, -, hcaps⟩ := letters_of_mem_spellings h
  rw [← String.toList_inj, String.toList_ofList, SameLetters]
  constructor
  · intro heq
    rw [← heq, List.map_map]
    exact List.map_congr_left fun c _ => (Char.toLower_toUpper_eq_toLower c).symm
  · intro heq
    have hupper := congrArg (List.map Char.toUpper) heq
    simp only [List.map_map, Function.comp_def, Char.toUpper_toLower_eq_toUpper] at hupper
    rw [hupper, hcaps]

/-- **A word is found in the table of tags** under the category that has it among its tags. -/
theorem find?_tags_eq_some_iff {word : String} {c : Category} :
    ((tags.find? fun t => t.1 == word).map Prod.snd) = some c ↔ word ∈ spellings c := by
  rw [← mem_tags]
  constructor
  · intro h
    obtain ⟨⟨tag, c'⟩, hfind, rfl⟩ := Option.map_eq_some_iff.1 h
    have htag : tag = word := by simpa using List.find?_some hfind
    exact htag ▸ List.mem_of_find?_eq_some hfind
  · intro h
    have hsome : (tags.find? fun t => t.1 == word).isSome = true :=
      List.find?_isSome.2 ⟨(word, c), h, by simp⟩
    obtain ⟨t, hfind⟩ := Option.isSome_iff_exists.1 hsome
    have htag : t.1 = word := by simpa using List.find?_some hfind
    have heq : t = (word, c) :=
      List.inj_on_of_nodup_map nodup_tags (List.mem_of_find?_eq_some hfind) h htag
    rw [hfind, heq]
    rfl

/-! ### Taking an identifier apart -/

theorem isLetter_eq (c : Char) : isLetter c = c.isAlpha := by
  rw [Char.isAlpha, Bool.or_comm]
  simp [isLetter, Char.isLower, Char.isUpper]

theorem not_isWhite_of_isLetter {c : Char} (h : isLetter c = true) : Text.isWhite c = false := by
  simp only [isLetter, UInt32.le_iff_toNat_le, Bool.or_eq_true, Bool.and_eq_true, decide_eq_true_eq,
    Char.reduceVal, UInt32.reduceToNat, Char.toNat_val] at h
  simp only [Text.isWhite, Bool.or_eq_false_iff, Bool.and_eq_false_iff, decide_eq_false_iff_not,
    beq_eq_false_iff_ne]
  omega

/-- An identifier taken apart: white space, letters, the mark after them, and what follows. -/
structure Parts where
  white : List Char
  letters : List Char
  mark : Char
  rest : List Char

namespace Parts

/-- The parts make up the identifier, and each of them is of its kind. -/
structure Of (p : Parts) (id : String) : Prop where
  text : id.toList = p.white ++ p.letters ++ p.mark :: p.rest
  white : ∀ c ∈ p.white, Text.isWhite c = true
  some_letter : p.letters ≠ []
  letters : ∀ c ∈ p.letters, c.isAlpha = true
  mark : p.mark = '-' ∨ p.mark = '_'

variable {p q : Parts} {id : String}

theorem Of.dropWhile_white (h : p.Of id) :
    id.toList.dropWhile Text.isWhite = p.letters ++ p.mark :: p.rest ∧
      id.toList.takeWhile Text.isWhite = p.white := by
  obtain ⟨c, cs, hletters⟩ := List.exists_cons_of_ne_nil h.some_letter
  have hc : Text.isWhite c = false :=
    not_isWhite_of_isLetter ((isLetter_eq c).trans (h.letters c (by simp [hletters])))
  rw [h.text, List.append_assoc, List.dropWhile_append_of_pos h.white,
    List.takeWhile_append_of_pos h.white, hletters]
  simp [hc]

theorem Of.dropWhile_letters (h : p.Of id) :
    (p.letters ++ p.mark :: p.rest).dropWhile isLetter = p.mark :: p.rest ∧
      (p.letters ++ p.mark :: p.rest).takeWhile isLetter = p.letters := by
  have hletters : ∀ c ∈ p.letters, isLetter c = true := fun c hc => (isLetter_eq c).trans (h.letters c hc)
  have hmark : isLetter p.mark = false := by
    rcases h.mark with hm | hm <;> rw [hm] <;> decide
  rw [List.dropWhile_append_of_pos hletters, List.takeWhile_append_of_pos hletters]
  simp [hmark]

/-- **There is only one way to take an identifier apart.** -/
theorem Of.unique (hp : p.Of id) (hq : q.Of id) : p = q := by
  have hwhite : p.white = q.white := hp.dropWhile_white.2.symm.trans hq.dropWhile_white.2
  have htail := hp.dropWhile_white.1.symm.trans hq.dropWhile_white.1
  have hletters : p.letters = q.letters := by
    rw [← hp.dropWhile_letters.2, htail, hq.dropWhile_letters.2]
  have hrest : p.mark :: p.rest = q.mark :: q.rest := by
    rw [← hp.dropWhile_letters.1, htail, hq.dropWhile_letters.1]
  obtain ⟨hmark, hrest⟩ := List.cons.inj hrest
  cases p
  cases q
  simp_all

end Parts

/-- **The scans find the letters of the parts**, and nothing if there are no parts. -/
theorem leadingTag?_eq_some_iff {id : String} {letters : List Char} :
    leadingTag? id = some letters ↔ ∃ p : Parts, p.Of id ∧ p.letters = letters := by
  constructor
  · intro h
    unfold leadingTag? at h
    dsimp only at h
    split at h
    · rename_i mark rest hdrop
      split_ifs at h with hcond
      obtain rfl := Option.some.inj h
      refine ⟨⟨id.toList.takeWhile Text.isWhite, _, mark, rest⟩, ⟨?_, ?_, hcond.2, ?_, hcond.1⟩, rfl⟩
      · rw [← hdrop, List.append_assoc, List.takeWhile_append_dropWhile,
          List.takeWhile_append_dropWhile]
      · exact fun c hc => List.mem_takeWhile_imp hc
      · exact fun c hc => (isLetter_eq c).symm.trans (List.mem_takeWhile_imp hc)
    · cases h
  · rintro ⟨p, hp, rfl⟩
    unfold leadingTag?
    simp only [hp.dropWhile_white.1, hp.dropWhile_letters.1, hp.dropWhile_letters.2]
    exact if_pos ⟨hp.mark, hp.some_letter⟩

/-! ### Filing -/

/-- The parts of an identifier name a category: the letters are one of its tags. -/
def Names (id : String) (p : Parts) (c : Category) : Prop :=
  p.Of id ∧ ∃ tag ∈ spellings c, SameLetters p.letters tag.toList

variable {id : String} {p q : Parts} {c d : Category}

/-- **The category of an identifier is the one that its parts name**, and there is none if there are no
parts or their letters are no tag. -/
theorem ofId?_eq_some_iff : ofId? id = some c ↔ ∃ p, Names id p c := by
  unfold ofId?
  constructor
  · intro h
    split at h
    · rename_i letters htag
      obtain ⟨p, hp, rfl⟩ := leadingTag?_eq_some_iff.1 htag
      have hword := find?_tags_eq_some_iff.1 h
      exact ⟨p, hp, _, hword, (map_toUpper_eq_iff hword).1 rfl⟩
    · cases h
  · rintro ⟨p, hp, tag, htag, hsame⟩
    rw [leadingTag?_eq_some_iff.2 ⟨p, hp, rfl⟩]
    dsimp only
    rw [(map_toUpper_eq_iff htag).2 hsame]
    exact find?_tags_eq_some_iff.2 htag

theorem Names.unique (hp : Names id p c) (hq : Names id q d) : p = q ∧ c = d := by
  refine ⟨hp.1.unique hq.1, ?_⟩
  have hc := ofId?_eq_some_iff.2 ⟨p, hp⟩
  have hd := ofId?_eq_some_iff.2 ⟨q, hq⟩
  exact Option.some.inj (hc.symm.trans hd)

theorem classify_of_names (h : Names id p c) (role : Role) : classify id role = c := by
  rw [classify, ofId?_eq_some_iff.2 ⟨p, h⟩, Option.getD_some]

theorem classify_of_not_names (h : ¬ ∃ p c, Names id p c) (role : Role) :
    classify id role = ofRole role := by
  have hnone : ofId? id = none := by
    rw [Option.eq_none_iff_forall_ne_some]
    exact fun c hc => h ((ofId?_eq_some_iff.1 hc).imp fun p hp => ⟨c, hp⟩)
  rw [classify, hnone, Option.getD_none]

theorem tag_mem_spellings (role : Role) : role.tag ∈ spellings (ofRole role) := by
  cases role <;> decide

theorem names_of_tag {tag : String} {rest : List Char} (htag : tag ∈ spellings c)
    (h : id.toList = tag.toList ++ '-' :: rest) : Names id ⟨[], tag.toList, '-', rest⟩ c :=
  have hletters := letters_of_mem_spellings htag
  ⟨⟨h, fun _ => nofun, hletters.1, hletters.2.1, .inl rfl⟩, tag, htag, rfl⟩

/-- **An identifier is filed under the category that it names.**  An identifier names a category if it is
white space, a run of letters that is a tag of the category in any case, a hyphen or an underscore, and
anything after that.  This is so in one way at most, and for one category at most, which is then the one
under which the identifier is filed, whoever reports it.  An identifier that names none is filed under the
category of the role that reports it.  One that begins with the tag of a role and a hyphen is always filed
under the category of that role. -/
theorem classify_grammar (id : String) :
    (∀ c, ofId? id = some c ↔ ∃ p, Names id p c) ∧
    (∀ p q c d, Names id p c → Names id q d → p = q ∧ c = d) ∧
    (∀ p c role, Names id p c → classify id role = c) ∧
    ((¬ ∃ p c, Names id p c) → ∀ role, classify id role = ofRole role) ∧
    ∀ owner rest role, id.toList = owner.tag.toList ++ '-' :: rest → classify id role = ofRole owner :=
  ⟨fun _ => ofId?_eq_some_iff, fun _ _ _ _ => Names.unique, fun _ _ role h => classify_of_names h role,
    classify_of_not_names,
    fun owner _ role h => classify_of_names (names_of_tag (tag_mem_spellings owner) h) role⟩

/-- An identifier behind an ideographic space, one whose letters are no tag, and one that begins with two
tags. -/
theorem classify_grammar_cases :
    classify "\u3000kRaKen_SEC-1" .build = .concurrency ∧ classify "LINT-1" .build = .build ∧
      classify "OPS-SEC-1" .build = .observability := by
  refine ⟨?_, ?_, ?_⟩
  · refine (classify_grammar _).2.2.1 ⟨['\u3000'], "kRaKen".toList, '_', "SEC-1".toList⟩ _ .build ?_
    exact ⟨⟨by simp, by simp [Text.isWhite], by simp, by simp, .inr rfl⟩, "KRAKEN", by decide, rfl⟩
  · refine (classify_grammar _).2.2.2.1 (fun ⟨p, c, h⟩ => ?_) .build
    have hnone : ofId? "LINT-1" = none := by decide +kernel
    rw [ofId?_eq_some_iff.2 ⟨p, h⟩] at hnone
    cases hnone
  · exact (classify_grammar _).2.2.2.2 .observability "SEC-1".toList .build rfl

end Category

end ReviewPanel
