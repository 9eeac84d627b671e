import ReviewPanel.Proofs.TestName

/-!
# Slugs are normal forms

A slug is what is left of a text when only its letters and digits count.  It has them all, in lower case
and in their order, and of everything else it shows no more than that there was something between two of
them.  So there is nothing left to do for a second slug: the texts that stay as they are are exactly those
with letters, digits and single underscores, none of them at an end.

The size of a location is measured in bytes, and a text in UTF-8 cannot be cut in the middle of a character.
A slug can be cut anywhere, for each of its characters is one byte.  What the cut leaves may end in an
underscore, which is dropped; it is never empty, since a slug begins with a letter or a digit.

## Main definitions

* `IsSlug` : the texts that are slugs.
* `firstBytes?`, `cutSlug?` : cutting a text, and the slug of a location, at a number of bytes.

## Main statements

* `slug_eq_self_iff` : **a slug stays as it is**, and nothing else does.
* `firstBytes?_eq_some_iff` : where a text can be cut.
* `cutSlug?_eq` : the slug of a location can be cut in bytes, with the same outcome as in characters.
* `slug_normalForm` : **slugs are normal forms, and cutting them is safe.**
-/

namespace ReviewPanel

variable {cs ds : List Char} {n : Nat}

/-! ### The texts that are slugs -/

/-- Letters, digits and single underscores, none of them at an end. -/
structure IsSlug (cs : List Char) : Prop extends Spaced cs where
  head : cs.head? ≠ some '_'
  last : cs.getLast? ≠ some '_'

theorem isSlug_slug (text : String) : IsSlug (slug text) :=
  ⟨spaced_slug text, head?_slug text, getLast?_slug text⟩

theorem toLower_eq_self {c : Char} (h : isSlugChar c = true ∨ c = '_') : c.toLower = c := by
  refine Char.toLower_eq_of_not_isUpper ?_
  rcases h with hc | rfl
  · simp only [isSlugChar, Char.isUpper, UInt32.le_iff_toNat_le, ge_iff_le, Bool.or_eq_true,
      Bool.and_eq_true, decide_eq_true_eq, Char.reduceVal, UInt32.reduceToNat] at hc ⊢
    omega
  · decide

namespace Spaced

theorem map_toLower (h : Spaced cs) : cs.map Char.toLower = cs := by
  conv_rhs => rw [← List.map_id cs]
  exact List.map_congr_left fun c hc => toLower_eq_self (h.chars c hc)

/-- There is nothing to replace where underscores stand alone. -/
theorem underscored_eq_self (h : Spaced cs) : underscored cs = cs := by
  induction cs with
  | nil => rfl
  | cons c cs ih =>
    have hrest : underscored cs = cs := ih (h.of_isInfix (List.suffix_cons c cs).isInfix)
    by_cases hc : isSlugChar c = true
    · rw [underscored, if_pos hc, hrest]
    · obtain rfl : c = '_' := (h.chars c List.mem_cons_self).resolve_left hc
      rw [underscored_of_other hc, hrest, if_neg]
      intro hhead
      obtain ⟨ds, rfl⟩ := List.head?_eq_some_iff.1 hhead
      exact h.single.rel rfl rfl

theorem filter_ne_underscore (h : Spaced cs) : cs.filter (· ≠ '_') = cs.filter isSlugChar := by
  refine List.filter_congr fun c hc => ?_
  rcases h.chars c hc with hslug | rfl
  · rw [hslug]
    exact decide_eq_true (ne_underscore_of_isSlugChar hslug)
  · rfl

end Spaced

theorem dropWhile_underscore_eq_self (h : cs.head? ≠ some '_') : cs.dropWhile (· = '_') = cs := by
  cases cs with
  | nil => rfl
  | cons c cs => exact List.dropWhile_cons_of_neg (by simpa using h)

theorem trimUnderscores_eq_self (hhead : cs.head? ≠ some '_') (hlast : cs.getLast? ≠ some '_') :
    trimUnderscores cs = cs := by
  rw [trimUnderscores, dropWhile_underscore_eq_self hhead, trimUnderscoresEnd,
    dropWhile_underscore_eq_self (by rwa [List.head?_reverse]), List.reverse_reverse]

/-- **A slug stays as it is**, and nothing else does. -/
theorem slug_eq_self_iff : slug (String.ofList cs) = cs ↔ IsSlug cs := by
  constructor
  · intro h
    exact h ▸ isSlug_slug (String.ofList cs)
  · intro h
    rw [slug, String.toList_ofList, h.map_toLower, h.underscored_eq_self,
      trimUnderscores_eq_self h.head h.last]

/-! ### Cutting at a number of bytes -/

/-- The first `n` bytes of a text, or all of it if it has no more.  There is no such text if a character
begins within these bytes and ends after them. -/
def firstBytes? : Nat → List Char → Option (List Char)
  | _, [] => some []
  | n, c :: cs =>
    if n = 0 then some []
    else if c.utf8Size ≤ n then (firstBytes? (n - c.utf8Size) cs).map (c :: ·)
    else none

/-- The number of bytes of a text. -/
abbrev byteSize (cs : List Char) : Nat := (String.ofList cs).utf8ByteSize

theorem byteSize_nil : byteSize [] = 0 := rfl

theorem byteSize_cons (c : Char) (cs : List Char) : byteSize (c :: cs) = byteSize cs + c.utf8Size := by
  simp [byteSize, Nat.add_comm]

/-- **A text can be cut where one of its beginnings ends**, and that is what is left of it. -/
theorem firstBytes?_eq_some_iff :
    firstBytes? n cs = some ds ↔ ds <+: cs ∧ byteSize ds = min n (byteSize cs) := by
  induction cs generalizing n ds with
  | nil =>
    rw [firstBytes?, Option.some_inj, List.prefix_nil, byteSize_nil]
    constructor
    · rintro rfl
      exact ⟨rfl, (Nat.min_zero n).symm⟩
    · rintro ⟨rfl, -⟩
      rfl
  | cons c cs ih =>
    have hpos := c.utf8Size_pos
    rw [firstBytes?, List.prefix_cons_iff, byteSize_cons]
    split_ifs with hn hc
    · rw [Option.some_inj]
      constructor
      · rintro rfl
        exact ⟨.inl rfl, by rw [hn, byteSize_nil, Nat.zero_min]⟩
      · rintro ⟨rfl | ⟨es, rfl, -⟩, hsize⟩
        · rfl
        · rw [byteSize_cons] at hsize
          omega
    · rw [Option.map_eq_some_iff]
      constructor
      · rintro ⟨es, hes, rfl⟩
        obtain ⟨hbegins, hsize⟩ := ih.1 hes
        refine ⟨.inr ⟨es, rfl, hbegins⟩, ?_⟩
        rw [byteSize_cons, hsize]
        omega
      · rintro ⟨rfl | ⟨es, rfl, hbegins⟩, hsize⟩
        · rw [byteSize_nil] at hsize
          omega
        · rw [byteSize_cons] at hsize
          exact ⟨es, ih.2 ⟨hbegins, by omega⟩, rfl⟩
    · -- the first character is larger than what may be left
      constructor
      · intro hnone
        cases hnone
      · rintro ⟨rfl | ⟨es, rfl, -⟩, hsize⟩
        · rw [byteSize_nil] at hsize
          omega
        · rw [byteSize_cons] at hsize
          omega

example : firstBytes? 2 "aé".toList = none ∧ firstBytes? 3 "aé".toList = some ['a', 'é'] := by decide

/-- A text whose characters are all one byte can be cut anywhere. -/
theorem firstBytes?_eq_take (h : ∀ c ∈ cs, c.utf8Size = 1) (n : Nat) :
    firstBytes? n cs = some (cs.take n) := by
  induction cs generalizing n with
  | nil => rw [firstBytes?, List.take_nil]
  | cons c cs ih =>
    obtain ⟨hc, hcs⟩ := List.forall_mem_cons.1 h
    cases n with
    | zero => rfl
    | succ n =>
      rw [firstBytes?, if_neg (Nat.succ_ne_zero n), hc, if_pos (Nat.le_add_left 1 n),
        Nat.add_sub_cancel, ih hcs n, Option.map_some, List.take_succ_cons]

theorem byteSize_eq_length (h : ∀ c ∈ cs, c.utf8Size = 1) : byteSize cs = cs.length := by
  induction cs with
  | nil => rfl
  | cons c cs ih =>
    obtain ⟨hc, hcs⟩ := List.forall_mem_cons.1 h
    rw [byteSize_cons, ih hcs, hc, List.length_cons]

theorem Spaced.utf8Size_eq_one (h : Spaced cs) : ∀ c ∈ cs, c.utf8Size = 1 := by
  intro c hc
  rw [Char.utf8Size_eq_one_iff]
  rcases h.chars c hc with hslug | rfl
  · simp only [isSlugChar, UInt32.le_iff_toNat_le, Bool.or_eq_true, Bool.and_eq_true,
      decide_eq_true_eq, Char.reduceVal, UInt32.reduceToNat] at hslug ⊢
    omega
  · decide

/-- The slug of a location, cut to size in bytes, if it can be cut there. -/
def cutSlug? (location : String) : Option (List Char) :=
  let s := slug location
  if maxLocationSlug < byteSize s then (firstBytes? maxLocationSlug s).map trimUnderscoresEnd else some s

/-- **The slug of a location can be cut in bytes**, with the same outcome as in characters. -/
theorem cutSlug?_eq (location : String) : cutSlug? location = some (locationSlug location) := by
  have hone := (spaced_slug location).utf8Size_eq_one
  rw [cutSlug?, locationSlug, byteSize_eq_length hone, firstBytes?_eq_take hone, Option.map_some]
  split_ifs <;> rfl

theorem slug_eq_nil_of_locationSlug {location : String} (h : locationSlug location = []) :
    slug location = [] := by
  by_contra hne
  obtain ⟨c, cs, heq, hc⟩ := (slug_snakeCase hne).exists_eq_cons
  -- the letter or digit at the beginning is neither cut off nor an underscore
  have hkept : (locationSlug location).filter isSlugChar ≠ [] := by
    rw [locationSlug, heq]
    split_ifs
    · rw [filter_trimUnderscoresEnd, maxLocationSlug, List.take_succ_cons, List.filter_cons_of_pos hc]
      exact List.cons_ne_nil _ _
    · rw [List.filter_cons_of_pos hc]
      exact List.cons_ne_nil _ _
  exact hkept (by rw [h, List.filter_nil])

/-- **Slugs are normal forms, and cutting them is safe.**  The slug of any text consists of lower-case
letters, digits and single underscores, none of them at an end.  It is empty exactly if the text has no
ASCII letter or digit, and its characters other than underscores are the ASCII letters and digits of the
text, in order and in lower case.  The slug of a slug is the slug itself.  It can be cut after 48 bytes, as
it is for the name of a test, which has at most 48 bytes from the location: a beginning of its slug that does
not end in an underscore, and is empty only if the slug is. -/
theorem slug_normalForm (text : String) :
    IsSlug (slug text) ∧
      (slug text = [] ↔ ∀ c ∈ text.toList, ¬ c.isAlphanum = true) ∧
      (slug text).filter (· ≠ '_') = (text.toList.filter Char.isAlphanum).map Char.toLower ∧
      slug (String.ofList (slug text)) = slug text ∧
      firstBytes? maxLocationSlug (slug text) = some ((slug text).take maxLocationSlug) ∧
      ∃ part, cutSlug? text = some part ∧
        (∀ id, testName id text = "test_" ++ String.ofList (slug id ++
          if part.isEmpty then [] else '_' :: part) ++ "_compliant") ∧
        part <+: slug text ∧ byteSize part ≤ 48 ∧ part.getLast? ≠ some '_' ∧
        (part = [] → slug text = []) := by
  have hslug := isSlug_slug text
  have hbegins := locationSlug_isPrefix text
  have hsize : byteSize (locationSlug text) ≤ 48 := by
    rw [byteSize_eq_length fun c hc => hslug.utf8Size_eq_one c (hbegins.subset hc)]
    exact length_locationSlug_le text
  refine ⟨hslug, slug_eq_nil_iff, ?_, slug_eq_self_iff.2 hslug,
    firstBytes?_eq_take hslug.utf8Size_eq_one _, locationSlug text, cutSlug?_eq text,
    fun id => testName_eq id text, hbegins, hsize, getLast?_locationSlug text,
    slug_eq_nil_of_locationSlug⟩
  rw [hslug.filter_ne_underscore, filter_slug]

end ReviewPanel
