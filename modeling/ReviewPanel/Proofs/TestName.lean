import Mathlib
import ReviewPanel.Proofs.Synthesis

/-!
# Names of tests are in snake case

The name of a test is put together from words: runs of lower-case letters and digits with one underscore
between them.  A slug is such a list of words, or empty, and so is what a cut leaves of one, since
underscores at the cut are dropped.

A field is not blank as soon as it has a character that is no white space, but only ASCII letters and
digits leave anything in a slug.  For a location this is provided for: if its slug is empty, the name goes
on with its ending.  An identifier such as `***` has an empty slug as well, and then the name has an empty
word where its own words should begin.

## Main definitions

* `SnakeCase` : one or more words with single underscores between them.

## Main statements

* `slug_snakeCase`, `locationSlug_snakeCase` : a slug, and what a cut leaves of it, is in snake case
  unless it is empty.
* `slug_eq_nil_iff` : only letters and digits leave anything.
* `testName_snakeCase_iff` : **the name of a test is in snake case exactly if the identifier
  has a letter or a digit.**
-/

namespace ReviewPanel

/-! ### Letters and digits -/

theorem not_isDigit_of_isAlpha {c : Char} (h : c.isAlpha = true) : c.isDigit = false := by
  simp only [Char.isAlpha, Char.isUpper, Char.isLower, Char.isDigit, UInt32.le_iff_toNat_le, ge_iff_le,
    Bool.or_eq_true, Bool.and_eq_true, Bool.and_eq_false_iff, decide_eq_true_eq, decide_eq_false_iff_not,
    Char.reduceVal, UInt32.reduceToNat] at h ⊢
  omega

theorem isDigit_toLower (c : Char) : c.toLower.isDigit = c.isDigit := by
  by_cases h : c.isUpper = true
  · have halpha : c.isAlpha = true := by rw [Char.isAlpha, h, Bool.true_or]
    rw [not_isDigit_of_isAlpha halpha,
      not_isDigit_of_isAlpha ((Char.isAlpha_toLower_eq_isAlpha c).trans halpha)]
  · rw [Char.toLower_eq_of_not_isUpper h]

theorem isSlugChar_eq (c : Char) : isSlugChar c = (c.isLower || c.isDigit) := rfl

/-- In lower case the letters and digits are those that stay. -/
theorem isSlugChar_toLower (c : Char) : isSlugChar c.toLower = c.isAlphanum := by
  rw [isSlugChar_eq, Char.isLower_toLower_eq_isAlpha, isDigit_toLower, Char.isAlphanum]

theorem ne_underscore_of_isSlugChar {c : Char} (h : isSlugChar c = true) : c ≠ '_' := by
  rintro rfl
  exact absurd h (by decide)

/-! ### Words -/

/-- One or more words with single underscores between them.  A word is a run of lower-case letters and
digits that is not empty. -/
inductive SnakeCase : List Char → Prop where
  | word {w : List Char} (hne : w ≠ []) (hw : ∀ c ∈ w, isSlugChar c = true) : SnakeCase w
  | more {w cs : List Char} (hne : w ≠ []) (hw : ∀ c ∈ w, isSlugChar c = true) (h : SnakeCase cs) :
      SnakeCase (w ++ '_' :: cs)

namespace SnakeCase

variable {cs ds : List Char} {c : Char}

/-- One more letter in front belongs to the first word. -/
theorem cons (hc : isSlugChar c = true) (h : SnakeCase cs) : SnakeCase (c :: cs) := by
  cases h with
  | word hne hw => exact .word (by simp) (by simpa [hc] using hw)
  | more hne hw h =>
    rw [← List.cons_append]
    exact .more (by simp) (by simpa [hc] using hw) h

theorem append (h : SnakeCase cs) (h' : SnakeCase ds) : SnakeCase (cs ++ '_' :: ds) := by
  induction h with
  | word hne hw => exact .more hne hw h'
  | more hne hw h ih =>
    rw [List.append_assoc, List.cons_append]
    exact .more hne hw ih

/-- Snake case begins with a letter or a digit. -/
theorem exists_eq_cons (h : SnakeCase cs) : ∃ c ds, cs = c :: ds ∧ isSlugChar c = true := by
  cases h with
  | @word w hne hw =>
    obtain ⟨c, w, rfl⟩ := List.exists_cons_of_ne_nil hne
    exact ⟨c, w, rfl, hw c List.mem_cons_self⟩
  | @more w cs hne hw h =>
    obtain ⟨c, w, rfl⟩ := List.exists_cons_of_ne_nil hne
    exact ⟨c, w ++ '_' :: cs, rfl, hw c List.mem_cons_self⟩

theorem ne_nil (h : SnakeCase cs) : cs ≠ [] := by
  obtain ⟨c, ds, rfl, -⟩ := h.exists_eq_cons
  simp

/-- There is no empty word in front. -/
theorem not_underscore : ¬ SnakeCase ('_' :: cs) := by
  intro h
  obtain ⟨c, ds, heq, hc⟩ := h.exists_eq_cons
  exact ne_underscore_of_isSlugChar hc (List.cons.inj heq).1.symm

end SnakeCase

/-- Letters, digits and underscores, of which no two stand together. -/
structure Spaced (cs : List Char) : Prop where
  chars : ∀ c ∈ cs, isSlugChar c = true ∨ c = '_'
  single : cs.IsChain fun a b => a = '_' → b ≠ '_'

namespace Spaced

variable {cs ds : List Char}

theorem of_isInfix (h : Spaced cs) (hin : ds <:+: cs) : Spaced ds :=
  ⟨fun c hc => h.chars c (hin.subset hc), h.single.infix hin⟩

/-- **Without underscores at the ends nothing but words is left.** -/
theorem snakeCase {cs : List Char} (h : Spaced cs) (hne : cs ≠ []) (hhead : cs.head? ≠ some '_')
    (hlast : cs.getLast? ≠ some '_') : SnakeCase cs := by
  match cs with
  | [] => exact absurd rfl hne
  | [c] =>
    have hc : isSlugChar c = true := (h.chars c (by simp)).resolve_right (by simpa using hhead)
    exact .word hne (by simpa using hc)
  | c :: d :: ds =>
    have hc : isSlugChar c = true := (h.chars c (by simp)).resolve_right (by simpa using hhead)
    have hlast' : (d :: ds).getLast? ≠ some '_' := by
      rwa [List.getLast?_cons_cons] at hlast
    by_cases hd : d = '_'
    · subst hd
      -- this underscore is not the last character, and the next one is a letter again
      cases ds with
      | nil => exact absurd rfl hlast'
      | cons e es =>
        have he : e ≠ '_' := h.single.tail.rel rfl
        have hrest : SnakeCase (e :: es) :=
          (h.of_isInfix ⟨[c, '_'], [], by simp⟩).snakeCase (by simp) (by simpa using he)
            (by rwa [List.getLast?_cons_cons] at hlast')
        exact .more (w := [c]) (by simp) (by simpa using hc) hrest
    · have hrest : SnakeCase (d :: ds) :=
        (h.of_isInfix ⟨[c], [], by simp⟩).snakeCase (by simp) (by simpa using hd) hlast'
      exact hrest.cons hc
  termination_by cs.length

end Spaced

/-! ### Slugs -/

/-- What no letter or digit leaves in front of the rest: one underscore, if there is none yet. -/
theorem underscored_of_other {c : Char} (h : ¬ isSlugChar c = true) (cs : List Char) :
    underscored (c :: cs) =
      if (underscored cs).head? = some '_' then underscored cs else '_' :: underscored cs := by
  rw [underscored, if_neg h]
  split
  · rename_i heq
    rw [heq]
    rfl
  · rename_i hhead
    refine (if_neg fun heq => ?_).symm
    obtain ⟨rest, hrest⟩ := List.head?_eq_some_iff.1 heq
    exact hhead rest hrest

theorem spaced_underscored (cs : List Char) : Spaced (underscored cs) := by
  induction cs with
  | nil => exact ⟨by simp [underscored], by simp [underscored]⟩
  | cons c cs ih =>
    by_cases hc : isSlugChar c = true
    · rw [underscored, if_pos hc]
      refine ⟨by simpa [hc] using ih.chars, List.isChain_cons.2 ⟨fun d _ h => ?_, ih.single⟩⟩
      exact absurd h (ne_underscore_of_isSlugChar hc)
    · rw [underscored_of_other hc]
      split_ifs with hhead
      · exact ih
      · refine ⟨by simpa using ih.chars, List.isChain_cons.2 ⟨fun d hd _ => ?_, ih.single⟩⟩
        rintro rfl
        exact hhead hd

theorem trimUnderscoresEnd_eq (cs : List Char) :
    trimUnderscoresEnd cs = cs.rdropWhile (· = '_') := rfl

theorem trimUnderscoresEnd_isPrefix (cs : List Char) : trimUnderscoresEnd cs <+: cs :=
  List.rdropWhile_prefix _ _

theorem getLast?_trimUnderscoresEnd (cs : List Char) :
    (trimUnderscoresEnd cs).getLast? ≠ some '_' := by
  intro h
  obtain ⟨hne, hlast⟩ := List.mem_getLast?_eq_getLast h
  have hnot := List.rdropWhile_last_not (· = '_') cs hne
  simp [← trimUnderscoresEnd_eq, ← hlast] at hnot

/-- What a text begins with is not changed by leaving out its end. -/
theorem head?_ne_of_isPrefix {as bs : List Char} (h : as <+: bs) (hhead : bs.head? ≠ some '_') :
    as.head? ≠ some '_' := by
  obtain ⟨cs, rfl⟩ := h
  intro heq
  exact hhead (by simp [heq])

theorem head?_slug (text : String) : (slug text).head? ≠ some '_' := by
  refine head?_ne_of_isPrefix (trimUnderscoresEnd_isPrefix _) fun h => ?_
  have hnot := List.head?_dropWhile_not (· = '_') (underscored (text.toList.map Char.toLower))
  rw [h] at hnot
  simp at hnot

theorem getLast?_slug (text : String) : (slug text).getLast? ≠ some '_' :=
  getLast?_trimUnderscoresEnd _

theorem spaced_slug (text : String) : Spaced (slug text) :=
  (spaced_underscored (text.toList.map Char.toLower)).of_isInfix
    ((trimUnderscoresEnd_isPrefix _).isInfix.trans (List.dropWhile_suffix _).isInfix)

/-- **A slug is in snake case** unless it is empty. -/
theorem slug_snakeCase {text : String} (h : slug text ≠ []) : SnakeCase (slug text) :=
  (spaced_slug text).snakeCase h (head?_slug text) (getLast?_slug text)

theorem locationSlug_isPrefix (location : String) : locationSlug location <+: slug location := by
  rw [locationSlug]
  split_ifs
  · exact (trimUnderscoresEnd_isPrefix _).trans (List.take_prefix _ _)
  · exact List.prefix_refl _

theorem length_locationSlug_le (location : String) : (locationSlug location).length ≤ 48 := by
  rw [locationSlug]
  split_ifs with hlong
  · exact (trimUnderscoresEnd_isPrefix _).length_le.trans (List.length_take_le _ _)
  · exact Nat.le_of_not_lt hlong

theorem getLast?_locationSlug (location : String) : (locationSlug location).getLast? ≠ some '_' := by
  rw [locationSlug]
  split_ifs
  · exact getLast?_trimUnderscoresEnd _
  · exact getLast?_slug location

/-- **What a cut leaves of a slug is in snake case** unless it is empty. -/
theorem locationSlug_snakeCase {location : String} (h : locationSlug location ≠ []) :
    SnakeCase (locationSlug location) :=
  have hprefix := locationSlug_isPrefix location
  ((spaced_slug location).of_isInfix hprefix.isInfix).snakeCase h
    (head?_ne_of_isPrefix hprefix (head?_slug location)) (getLast?_locationSlug location)

/-! ### What stays in a slug -/

theorem filter_underscored (cs : List Char) :
    (underscored cs).filter isSlugChar = cs.filter isSlugChar := by
  induction cs with
  | nil => rfl
  | cons c cs ih =>
    by_cases hc : isSlugChar c = true
    · rw [underscored, if_pos hc, List.filter_cons_of_pos hc, List.filter_cons_of_pos hc, ih]
    · rw [underscored_of_other hc, List.filter_cons_of_neg hc]
      split_ifs
      · exact ih
      · rw [List.filter_cons_of_neg (by decide), ih]

theorem filter_dropWhile_underscore (cs : List Char) :
    (cs.dropWhile (· = '_')).filter isSlugChar = cs.filter isSlugChar := by
  induction cs with
  | nil => rfl
  | cons c cs ih =>
    by_cases hc : c = '_'
    · subst hc
      rw [List.dropWhile_cons_of_pos (by simp), List.filter_cons_of_neg (by decide), ih]
    · rw [List.dropWhile_cons_of_neg (by simpa using hc)]

theorem filter_trimUnderscoresEnd (cs : List Char) :
    (trimUnderscoresEnd cs).filter isSlugChar = cs.filter isSlugChar := by
  rw [trimUnderscoresEnd, List.filter_reverse, filter_dropWhile_underscore, List.filter_reverse,
    List.reverse_reverse]

/-- **A slug has the letters and digits of its text**, in lower case and in their order. -/
theorem filter_slug (text : String) :
    (slug text).filter isSlugChar = (text.toList.filter Char.isAlphanum).map Char.toLower := by
  have hcomp : isSlugChar ∘ Char.toLower = Char.isAlphanum := funext isSlugChar_toLower
  rw [slug, trimUnderscores, filter_trimUnderscoresEnd, filter_dropWhile_underscore,
    filter_underscored, List.filter_map, hcomp]

/-- **Only letters and digits leave anything in a slug.** -/
theorem slug_eq_nil_iff {text : String} :
    slug text = [] ↔ ∀ c ∈ text.toList, ¬ c.isAlphanum = true := by
  rw [← List.filter_eq_nil_iff, ← List.map_eq_nil_iff (l := text.toList.filter _), ← filter_slug]
  constructor
  · intro h
    rw [h, List.filter_nil]
  · intro h
    by_contra hne
    obtain ⟨c, cs, heq, hc⟩ := (slug_snakeCase hne).exists_eq_cons
    rw [heq, List.filter_cons_of_pos hc] at h
    cases h

/-! ### Names -/

theorem ofList_between (first last : String) (cs ds : List Char) :
    String.ofList (first.toList ++ cs ++ ds ++ last.toList) =
      first ++ String.ofList (cs ++ ds) ++ last := by
  simp [String.append_assoc]

theorem testName_eq (id location : String) :
    testName id location = "test_" ++ String.ofList (slug id ++
      if (locationSlug location).isEmpty then [] else '_' :: locationSlug location) ++ "_compliant" :=
  ofList_between _ _ _ _

/-- **The name of a test is in snake case exactly if the identifier has a letter or a digit.**  The name is
`test_…_compliant`.  What stands in the middle begins with the slug of the identifier and goes on with at
most 48 characters of the slug of the location, which an underscore separates from it.  It consists of words
with single underscores between them if and only if a character of the identifier is an ASCII letter or
digit.  If none is, the slug of the identifier is empty, and so is the first word of the name. -/
theorem testName_snakeCase_iff {role : Role} {f : Finding} {t : GeneratedTest}
    (h : GeneratedTest.ofFinding role f = .ok t) :
    ∃ words part, t.testName = "test_" ++ String.ofList words ++ "_compliant" ∧
      words = slug f.id ++ (if part.isEmpty then [] else '_' :: part) ∧
      part <+: slug f.location ∧ part.length ≤ 48 ∧
      (SnakeCase words ↔ ∃ c ∈ f.id.toList, c.isAlphanum = true) := by
  obtain ⟨-, -, -, hname⟩ := GeneratedTest.of_ofFinding h
  refine ⟨_, locationSlug f.location, hname.trans (testName_eq f.id f.location), rfl,
    locationSlug_isPrefix f.location, length_locationSlug_le f.location, ?_⟩
  have hid : slug f.id ≠ [] ↔ ∃ c ∈ f.id.toList, c.isAlphanum = true := by
    rw [Ne, slug_eq_nil_iff]
    simp
  rw [← hid]
  constructor
  · rintro hwords hnil
    rw [hnil, List.nil_append] at hwords
    split_ifs at hwords
    · exact hwords.ne_nil rfl
    · exact hwords.not_underscore
  · intro hne
    have hwords := slug_snakeCase hne
    split_ifs with hpart
    · rwa [List.append_nil]
    · exact hwords.append (locationSlug_snakeCase (mt List.isEmpty_iff.2 hpart))

/-- A finding whose identifier is not blank and leaves nothing in a slug. -/
def starred : Finding := ⟨"***", .blocker, "src/a.rs", .violation, "no check", none, none⟩

/-- A finding whose location is cut at an underscore. -/
def farAway : Finding :=
  ⟨"SEC-é.7", .blocker, "src/engine/supervisor/settle/join/failure/paths/mod.rs:42", .violation, "no check",
    none, none⟩

theorem testName_snakeCase_iff_starred :
    (∃ t, GeneratedTest.ofFinding .security starred = .ok t ∧ t.testName = "test__src_a_rs_compliant" ∧
      ∃ words, t.testName = "test_" ++ String.ofList words ++ "_compliant" ∧ ¬ SnakeCase words) ∧
    ∃ t, GeneratedTest.ofFinding .security farAway = .ok t ∧
      t.testName = "test_sec_7_src_engine_supervisor_settle_join_failure_paths_compliant" ∧
      ∃ words, t.testName = "test_" ++ String.ofList words ++ "_compliant" ∧ SnakeCase words := by
  constructor
  · have h : GeneratedTest.ofFinding .security starred = .ok _ := rfl
    obtain ⟨words, -, hname, -, -, -, hiff⟩ := testName_snakeCase_iff h
    have hnone : ¬ ∃ c ∈ starred.id.toList, c.isAlphanum = true := by simp [starred]
    exact ⟨_, h, rfl, words, hname, mt hiff.1 hnone⟩
  · have h : GeneratedTest.ofFinding .security farAway = .ok _ := rfl
    obtain ⟨words, -, hname, -, -, -, hiff⟩ := testName_snakeCase_iff h
    have hsome : ∃ c ∈ farAway.id.toList, c.isAlphanum = true := ⟨'S', by simp [farAway], rfl⟩
    exact ⟨_, h, rfl, words, hname, hiff.2 hsome⟩

end ReviewPanel
