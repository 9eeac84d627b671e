import ReviewPanel.Dictionary
import ReviewPanel.Json.Record

/-!
# Labels

Labels are free pairs of texts, at most one for each name, kept in the order of the names.
-/

namespace ReviewPanel

open Json (Value Reader)

/-- Labels, in the order of their names. -/
abbrev Labels := Dictionary String

namespace Labels

/-- The document of labels. -/
def toValue (l : Labels) : Value := .obj (l.entries.map fun e => (e.1, .str e.2))

/-- Reads labels. -/
def reader : Reader Labels := fun o d =>
  (Reader.members .ok Reader.string o d).map Dictionary.ofList

end Labels

end ReviewPanel
