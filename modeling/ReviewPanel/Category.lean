import ReviewPanel.Role

/-!
# Categories of violations

A violation is filed under the category that its identifier names: white space, a run of ASCII
letters that is a known tag in any case, and a hyphen or an underscore.  Any other identifier is filed
under the category of the role that reports it.
-/

namespace ReviewPanel

/-- What a violation is about. -/
inductive Category where
  | architecture
  | security
  | build
  | concurrency
  | observability
  | coverage
  /-- Anything else. -/
  | custom
deriving DecidableEq, Repr

namespace Category

/-- The name of the category. -/
def name : Category → String
  | .architecture => "architecture"
  | .security => "security"
  | .build => "build"
  | .concurrency => "concurrency"
  | .observability => "observability"
  | .coverage => "coverage"
  | .custom => "custom"

/-- Position in the canonical order. -/
def rank : Category → Nat
  | .architecture => 0
  | .security => 1
  | .build => 2
  | .concurrency => 3
  | .observability => 4
  | .coverage => 5
  | .custom => 6

instance : Named Category where
  all := [.architecture, .security, .build, .concurrency, .observability, .coverage, .custom]
  mem_all := by intro c; cases c <;> decide
  nodup_all := by decide
  name := name
  name_inj := by intro a b; cases a <;> cases b <;> simp [name]

/-- What identifiers of the category conventionally start with. -/
def tag? : Category → Option String
  | .architecture => some "ARCH"
  | .security => some "SEC"
  | .build => some "BUILD"
  | .concurrency => some "CONC"
  | .observability => some "OPS"
  | .coverage => some "TEST"
  | .custom => none

/-- The category in a heading. -/
def display (c : Category) : String := c.tag?.getD "CUSTOM"

/-- The suite that holds the tests of the category. -/
def suite : Category → String
  | .architecture => "TestArchitecturalCompliance"
  | .security => "TestSecurityCompliance"
  | .build => "TestBuildCompliance"
  | .concurrency => "TestConcurrencyCompliance"
  | .observability => "TestObservabilityCompliance"
  | .coverage => "TestCoverageCompliance"
  | .custom => "TestCustomCompliance"

/-- The category that a role is in charge of. -/
def ofRole : Role → Category
  | .architecture => .architecture
  | .security => .security
  | .build => .build
  | .concurrency => .concurrency
  | .observability => .observability
  | .coverage => .coverage

/-- The tags of every category, in capitals. -/
def tags : List (String × Category) :=
  [("ARCH", .architecture), ("SEC", .security), ("BUILD", .build), ("DEVOPS", .build),
    ("CONC", .concurrency), ("KRAKEN", .concurrency), ("OPS", .observability), ("TEST", .coverage),
    ("CUSTOM", .custom)]

/-- An ASCII letter. -/
def isLetter (c : Char) : Bool :=
  ('a'.val ≤ c.val && c.val ≤ 'z'.val) || ('A'.val ≤ c.val && c.val ≤ 'Z'.val)

/-- The letters before the first hyphen or underscore, after white space. -/
def leadingTag? (id : String) : Option (List Char) :=
  let cs := id.toList.dropWhile Text.isWhite
  match cs.dropWhile isLetter with
  | c :: _ =>
    let letters := cs.takeWhile isLetter
    if (c = '-' ∨ c = '_') ∧ letters ≠ [] then some letters else none
  | [] => none

/-- The category that an identifier names. -/
def ofId? (id : String) : Option Category :=
  match leadingTag? id with
  | some letters =>
    let word := String.ofList (letters.map Char.toUpper)
    (tags.find? fun t => t.1 == word).map Prod.snd
  | none => none

/-- The category of a violation that a role reports. -/
def classify (id : String) (role : Role) : Category := (ofId? id).getD (ofRole role)

end Category

end ReviewPanel
