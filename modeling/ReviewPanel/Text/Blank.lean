/-!
# White space

White space is the Unicode property `White_Space`: tab to carriage return, space, next line,
no-break space, the ogham space mark, U+2000 to U+200A, the line and paragraph separators, the
narrow no-break and medium mathematical spaces and the ideographic space.  Zero-width characters
and the information separators U+001C to U+001F are not white space.
-/

namespace ReviewPanel.Text

/-- The `White_Space` property. -/
def isWhite (c : Char) : Bool :=
  let n := c.toNat
  (0x09 ≤ n && n ≤ 0x0D) || n == 0x20 || n == 0x85 || n == 0xA0 || n == 0x1680 ||
    (0x2000 ≤ n && n ≤ 0x200A) || n == 0x2028 || n == 0x2029 || n == 0x202F || n == 0x205F ||
    n == 0x3000

/-- The characters from the first one that is not white space on. -/
def trimStart (cs : List Char) : List Char := cs.dropWhile isWhite

/-- The characters up to the last one that is not white space. -/
def trimEnd (cs : List Char) : List Char := (cs.reverse.dropWhile isWhite).reverse

/-- The text without white space at either end. -/
def trim (s : String) : String := String.ofList (trimEnd (trimStart s.toList))

/-- Nothing but white space. -/
def isBlank (s : String) : Bool := s.toList.all isWhite

/-- Every character that core counts as white space is white space. -/
theorem isWhite_of_isWhitespace {c : Char} (h : c.isWhitespace) : isWhite c := by
  simp only [Char.isWhitespace, Bool.or_eq_true, decide_eq_true_eq] at h
  rcases h with ((rfl | rfl) | rfl) | rfl <;> rfl

end ReviewPanel.Text
