import TreeLint.Tree.Basic

/-!
Contract: the depth-first walk through a tree.

Owns: the walk with a stack of its own, and the recursive tour that it follows. Every node is entered
before and left after all nodes below it.
-/

set_option autoImplicit false

namespace TreeLint

inductive Visit where
  | enter (id : Nat)
  | leave (id : Nat)
  deriving DecidableEq, Repr

def Visit.node : Visit → Nat
  | .enter id | .leave id => id

namespace Tree

/-- Takes steps from a stack of steps to come; entering a node puts its children and its leaving on the
stack. `count` is the number of steps to take at most. -/
def steps (tree : Tree) : (count : Nat) → (stack : List Visit) → List Visit
  | 0, _ => []
  | _ + 1, [] => []
  | count + 1, .leave id :: rest => .leave id :: tree.steps count rest
  | count + 1, .enter id :: rest =>
      .enter id :: tree.steps count ((tree.children id).map Visit.enter ++ .leave id :: rest)

/-- The walk through the whole tree. Every node takes two steps. -/
def walk (tree : Tree) : List Visit :=
  tree.steps (2 * tree.size) [.enter root]

/-- The recursive tour below a node: enter it, tour its children in order, leave it. Children come after
their parent, so the tour ends. -/
def tour (tree : Tree) (id : Nat) : List Visit :=
  .enter id ::
    ((tree.children id).flatMap fun child =>
      if _later : id < child ∧ child < tree.size then tree.tour child else []) ++ [.leave id]
termination_by tree.size - id
decreasing_by
  have := _later
  omega

end Tree

end TreeLint
