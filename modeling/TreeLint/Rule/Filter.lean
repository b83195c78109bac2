/-!
Contract: which rules are asked for.

Owns: filters by name. A filter may name the only rules that are wanted, and rules that are not wanted.
-/

set_option autoImplicit false

namespace TreeLint

/-- A choice of rules by name. -/
structure RuleFilter where
  /-- The only wanted rules; no name stands for all rules. -/
  only : List String
  /-- The rules that are not wanted. -/
  except : List String
  deriving DecidableEq, Repr

namespace RuleFilter

def all : RuleFilter := ⟨[], []⟩

def allows (filter : RuleFilter) (name : String) : Bool :=
  (filter.only.isEmpty || filter.only.contains name) && !filter.except.contains name

end RuleFilter

end TreeLint
