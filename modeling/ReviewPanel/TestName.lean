/-!
# Names of tests

A test is named for the finding that it detects: the slug of its identifier and the beginning of the
slug of its location.

* `slug` keeps the ASCII letters and digits of a text, in lower case, and puts one underscore
  wherever something else stands between two of them.
* `testName` cuts the slug of the location to 48 characters and drops underscores at the cut.
-/

namespace ReviewPanel

/-- An ASCII letter in lower case or a digit. -/
def isSlugChar (c : Char) : Bool :=
  ('a'.val ≤ c.val && c.val ≤ 'z'.val) || ('0'.val ≤ c.val && c.val ≤ '9'.val)

/-- Replaces every run of other characters by an underscore. -/
def underscored : List Char → List Char
  | [] => []
  | c :: cs =>
    if isSlugChar c then c :: underscored cs
    else
      match underscored cs with
      | '_' :: rest => '_' :: rest
      | rest => '_' :: rest

/-- Drops underscores at the end. -/
def trimUnderscoresEnd (cs : List Char) : List Char :=
  (cs.reverse.dropWhile (· = '_')).reverse

/-- Drops underscores at both ends. -/
def trimUnderscores (cs : List Char) : List Char := trimUnderscoresEnd (cs.dropWhile (· = '_'))

/-- The letters and digits of a text, in lower case, with underscores between them. -/
def slug (text : String) : List Char :=
  trimUnderscores (underscored (text.toList.map Char.toLower))

/-- The longest part of a name that a location provides. -/
def maxLocationSlug : Nat := 48

/-- The slug of a location, cut to size. -/
def locationSlug (location : String) : List Char :=
  let s := slug location
  if maxLocationSlug < s.length then trimUnderscoresEnd (s.take maxLocationSlug) else s

/-- The name of the test for a finding. -/
def testName (id location : String) : String :=
  let i := slug id
  let l := locationSlug location
  String.ofList ("test_".toList ++ i ++ (if l.isEmpty then [] else '_' :: l) ++ "_compliant".toList)

end ReviewPanel
