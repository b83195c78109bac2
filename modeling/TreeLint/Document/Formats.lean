import TreeLint.Json.Reader
import TreeLint.Yaml.Reader

/-!
Contract: what a run needs of the formats of documents.

Owns: `Formats`, which say which document a text denotes, or why it denotes none; and the formats that the readers of
JSON and YAML read. The words about a text that is no document are theirs, and a report shows them.
-/

set_option autoImplicit false

namespace TreeLint

/-- The formats of documents as far as a run depends on them. -/
structure Formats where
  json : String → Except String Json
  yaml : String → Except String Yaml

namespace Formats

/-- What is said about a text that a reader refuses. -/
def malformed : String := "malformed document"

def standard : Formats where
  json text := (Json.read? text.toList).elim (.error malformed) .ok
  yaml text := (Yaml.read? text).elim (.error malformed) .ok

theorem json_standard_eq_ok_iff {text : String} {document : Json} :
    standard.json text = .ok document ↔ Json.read? text.toList = some document := by
  cases found : Json.read? text.toList <;> simp [standard, found]

end Formats

end TreeLint
