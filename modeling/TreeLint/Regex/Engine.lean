/-!
Contract: what the rest of the library needs to know about regular expressions.

Owns: the interface of a regular expression engine: which expressions it accepts, and the outcome of a
search. The parser and the matcher take the engine as a parameter and depend on nothing else.
-/

set_option autoImplicit false

namespace TreeLint

inductive SearchOutcome where
  | found
  | absent
  /-- The search was given up because it took too many steps. -/
  | gaveUp
  deriving DecidableEq, Repr

/-- A regular expression engine. Expressions are given by their source and their flags. -/
structure RegexEngine where
  /-- Accepts an expression, or says why not. -/
  check : (source flags : String) → Except String Unit
  /-- Searches a text for an expression, at any place. -/
  search : (source flags text : String) → SearchOutcome

end TreeLint
