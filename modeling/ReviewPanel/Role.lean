import ReviewPanel.Table
import ReviewPanel.Text.Blank

/-!
# Roles

A panel looks at a task from six perspectives.  Each is a role: it has a name, an output slot of its
own, and a tag that its findings conventionally start with.  Reports list roles in the order of
`Role.all`.
-/

namespace ReviewPanel

/-- A perspective of the panel. -/
inductive Role where
  /-- Layering, naming, schema drift. -/
  | architecture
  /-- Access policies, isolation, credentials. -/
  | security
  /-- Build and deployment hygiene. -/
  | build
  /-- Blocking calls, pools, rate limits. -/
  | concurrency
  /-- Logging, error reporting, health checks. -/
  | observability
  /-- Test coverage. -/
  | coverage
deriving DecidableEq, Repr

namespace Role

/-- Every role, in canonical order. -/
def all : List Role :=
  [.architecture, .security, .build, .concurrency, .observability, .coverage]

/-- The name of the role. -/
def name : Role → String
  | .architecture => "architecture"
  | .security => "security"
  | .build => "build"
  | .concurrency => "concurrency"
  | .observability => "observability"
  | .coverage => "coverage"

/-- The role in a description. -/
def title : Role → String
  | .architecture => "Architecture"
  | .security => "Security"
  | .build => "Build"
  | .concurrency => "Concurrency"
  | .observability => "Observability"
  | .coverage => "Coverage"

/-- Position in the canonical order. -/
def rank : Role → Nat
  | .architecture => 0
  | .security => 1
  | .build => 2
  | .concurrency => 3
  | .observability => 4
  | .coverage => 5

instance : Named Role where
  all := all
  mem_all := by intro r; cases r <;> decide
  nodup_all := by decide
  name := name
  name_inj := by intro a b; cases a <;> cases b <;> simp [name]

/-- What identifiers of the role's findings conventionally start with. -/
def tag : Role → String
  | .architecture => "ARCH"
  | .security => "SEC"
  | .build => "BUILD"
  | .concurrency => "CONC"
  | .observability => "OPS"
  | .coverage => "TEST"

/-- The name of the document that holds the role's findings. -/
def slotName (r : Role) : String := r.name ++ ".findings.json"

/-- The text with ASCII letters in lower case. -/
def lowerAscii (s : String) : String := String.ofList (s.toList.map Char.toLower)

/-- Reads a role name, whatever its case and the white space around it. -/
def parse? (s : String) : Option Role :=
  all.find? fun r => r.name == lowerAscii (Text.trim s)

/-- The message for a text that names no role. -/
def unknownMessage (s : String) : String := "unknown worker role: " ++ s

theorem rank_inj {a b : Role} (h : a.rank = b.rank) : a = b := by
  cases a <;> cases b <;> simp_all [rank]

end Role

end ReviewPanel
