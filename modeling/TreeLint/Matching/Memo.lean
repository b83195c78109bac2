import Std.Data.HashMap
import TreeLint.Matching.Semantics

/-!
Contract: matching with memory.

Owns:
- places of terms, which tell equal terms at different places apart;
- the memory of one traversal of one tree: which terms match which nodes, and which terms match an ancestor
  of which nodes;
- `Matcher.isMatch` and `Matcher.matchesAncestor`, which consult the memory before they decide anything;
- `Matcher.counted`, which counts a decision where it is made, whoever asks for it;
- the fault of a comparison that is not well formed, which ends all matching.
-/

set_option autoImplicit false

namespace TreeLint

/-- The place of a term: the number of a selector, and the steps down to the term, last step first. -/
structure Place where
  root : Nat
  steps : List Nat
  deriving DecidableEq, Hashable, Repr

namespace Place

def ofRoot (root : Nat) : Place := ⟨root, []⟩

def child (place : Place) (index : Nat) : Place := ⟨place.root, index :: place.steps⟩

end Place

/-- A comparison that cannot be made: an operator that orders values, and an operand that has no
order. -/
structure MatchFault where
  path : List String
  test : Test
  deriving DecidableEq, Repr

def MatchFault.message (fault : MatchFault) : String :=
  "attribute operator \x60" ++ fault.test.comparison.symbol ++ "\x60 cannot be applied to \x60"
    ++ String.ofList fault.test.operand.render ++ "\x60 in [" ++ ".".intercalate fault.path ++ "]"

/-- What has been found out in a traversal. -/
structure Memo where
  /-- Whether the term at a place matches a node. -/
  direct : Std.HashMap (Place × Nat) Bool
  /-- Whether the term at a place matches a strict ancestor of a node. -/
  ancestor : Std.HashMap (Place × Nat) Bool
  /-- How often a term has been decided on a node, whether the answer was remembered or not. -/
  decisions : Nat
  /-- The sources of the regular expressions whose search was given up, last one first. -/
  gaveUp : List String

def Memo.empty : Memo := ⟨∅, ∅, 0, []⟩

/-- Matching changes the memory, and may end in a fault. -/
abbrev Matcher := StateT Memo (Except MatchFault)

namespace Matcher

/-- The answer in memory, or else a decision that is then remembered. -/
def remember (place : Place) (id : Nat) (decision : Matcher Bool) : Matcher Bool := do
  match (← get).direct[(place, id)]? with
  | some known => return known
  | none =>
      let answer ← decision
      modify fun memo => { memo with direct := memo.direct.insert (place, id) answer }
      return answer

/-- A decision that is counted whenever it is made. -/
def counted (decision : Matcher Bool) : Matcher Bool := do
  modify fun memo => { memo with decisions := memo.decisions + 1 }
  decision

def decideAtom (tree : Tree) (engine : RegexEngine) (condition : Atom) (id : Nat) :
    Matcher Bool :=
  match condition with
  | .attribute path (some test) =>
      if test.WellFormed then do
        let verdict := test.verdict engine (tree.resolve id path)
        if verdict.gaveUp then
          match test.operand with
          | .regex source _ => modify fun memo => { memo with gaveUp := source :: memo.gaveUp }
          | _ => pure ()
        return verdict.holds
      else throw ⟨path, test⟩
  | condition => return (condition.verdict tree engine id).holds

/-- The answer in memory about the ancestors of a node, or else a decision that is then remembered. -/
def rememberAncestor (place : Place) (id : Nat) (decision : Matcher Bool) : Matcher Bool := do
  match (← get).ancestor[(place, id)]? with
  | some known => return known
  | none =>
      let answer ← decision
      modify fun memo => { memo with ancestor := memo.ancestor.insert (place, id) answer }
      return answer

/-- Whether `test` succeeds on one of the nodes above a node, which are given nearest first. Every node on
the way for which there is no answer in memory gets the same answer. -/
def climb (place : Place) (test : Nat → Matcher Bool) :
    Nat → (above : List Nat) → Matcher Bool
  | id, [] => rememberAncestor place id (pure false)
  | id, parent :: rest =>
      rememberAncestor place id do
        if ← test parent then return true else climb place test parent rest

mutual

def isMatch (tree : Tree) (engine : RegexEngine) :
    Selector → Place → Nat → Matcher Bool
  | .atom _ condition, place, id => remember place id (counted (decideAtom tree engine condition id))
  | .joined _ .child left right, place, id =>
      remember place id <| counted do
        if ← isMatch tree engine right (place.child 1) id then
          match tree.parent? id with
          | some parent => isMatch tree engine left (place.child 0) parent
          | none => return false
        else return false
  | .joined _ .descendant left right, place, id =>
      remember place id <| counted do
        if ← isMatch tree engine right (place.child 1) id then
          climb (place.child 0) (isMatch tree engine left (place.child 0)) id (tree.ancestors id)
        else return false
  | .compound _ members, place, id => remember place id (counted (allMatch tree engine members place 0 id))
  | .union _ members, place, id => remember place id (counted (anyMatch tree engine members place 0 id))

/-- Whether all members from number `index` on match a node. -/
def allMatch (tree : Tree) (engine : RegexEngine) :
    List Selector → Place → (index : Nat) → Nat → Matcher Bool
  | [], _, _, _ => return true
  | member :: rest, place, index, id => do
      if ← isMatch tree engine member (place.child index) id then
        allMatch tree engine rest place (index + 1) id
      else return false

/-- Whether one of the members from number `index` on matches a node. -/
def anyMatch (tree : Tree) (engine : RegexEngine) :
    List Selector → Place → (index : Nat) → Nat → Matcher Bool
  | [], _, _, _ => return false
  | member :: rest, place, index, id => do
      if ← isMatch tree engine member (place.child index) id then return true
      else anyMatch tree engine rest place (index + 1) id

end

/-- Whether the selector at a place matches a strict ancestor of a node. -/
def matchesAncestor (tree : Tree) (engine : RegexEngine) (selector : Selector) (place : Place)
    (id : Nat) : Matcher Bool :=
  climb place (isMatch tree engine selector place) id (tree.ancestors id)

end Matcher

end TreeLint
