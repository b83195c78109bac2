import TreeLint.Matching.Attribute
import TreeLint.Matching.FieldSearch

/-!
Contract: what selectors mean.

Owns: `Selector.holds`, whether a selector matches a node. It says what matching is and computes nothing
twice only by chance; the matcher with memory agrees with it.
-/

set_option autoImplicit false

namespace TreeLint

def Atom.verdict (tree : Tree) (engine : RegexEngine) (id : Nat) : Atom → Verdict
  | .identifier name => .plain (tree.kind? id == some name)
  | .wildcard => .plain true
  | .field path => .plain (tree.fieldReaches path id)
  | .attribute path none => .plain (Value.isTruthy (tree.resolve id path))
  | .attribute path (some test) => test.verdict engine (tree.resolve id path)

namespace Selector

mutual

def holds (tree : Tree) (engine : RegexEngine) : Selector → Nat → Bool
  | .atom _ condition, id => (condition.verdict tree engine id).holds
  | .joined _ .child left right, id =>
      holds tree engine right id && (tree.parent? id).any (holds tree engine left)
  | .joined _ .descendant left right, id =>
      holds tree engine right id && (tree.ancestors id).any (holds tree engine left)
  | .compound _ members, id => allHold tree engine members id
  | .union _ members, id => anyHolds tree engine members id

def allHold (tree : Tree) (engine : RegexEngine) : List Selector → Nat → Bool
  | [], _ => true
  | member :: rest, id => holds tree engine member id && allHold tree engine rest id

def anyHolds (tree : Tree) (engine : RegexEngine) : List Selector → Nat → Bool
  | [], _ => false
  | member :: rest, id => holds tree engine member id || anyHolds tree engine rest id

end

end Selector

end TreeLint
