import TreeLint.Proofs.Tree.Forest

/-!
Contract: parents and ancestors in the tree of a document.

Owns:
- `Tree.StrictAncestor`, the ancestors of a node by parent links alone;
- the law that a parent comes before its children, by which the chain of ancestors reaches the root;
- the agreement of `Tree.ancestors` with both.
-/

set_option autoImplicit false

namespace TreeLint.Tree

/-- The node `above` is reached from `below` by one or more parent links. -/
inductive StrictAncestor (tree : Tree) : (above below : Nat) → Prop where
  | parent {above below : Nat} :
      tree.parent? below = some above → StrictAncestor tree above below
  | further {above middle below : Nat} :
      tree.parent? below = some middle → StrictAncestor tree above middle →
        StrictAncestor tree above below

variable {document : Json} {tree : Tree}

theorem parent?_lt (built : ofJson document = .ok tree) {id above : Nat}
    (isParent : tree.parent? id = some above) : above < id := by
  obtain ⟨node, found, linked⟩ := Option.bind_eq_some_iff.mp isParent
  have placed : tree.nodes.toList[id]? = some node := by simpa [node?] using found
  have earlier := (forest_of_ofJson built).parent_lt (by simp) placed linked
  simpa [root] using earlier

theorem ancestors_of_parent?_none {id : Nat} (noParent : tree.parent? id = none) :
    tree.ancestors id = [] := by
  rw [ancestors, noParent]

theorem ancestors_of_parent?_some (built : ofJson document = .ok tree) {id above : Nat}
    (isParent : tree.parent? id = some above) :
    tree.ancestors id = above :: tree.ancestors above := by
  rw [ancestors, isParent]
  exact if_pos (parent?_lt built isParent)

/-- The list of ancestors holds exactly the nodes that parent links lead to. -/
theorem mem_ancestors_iff (built : ofJson document = .ok tree) {above below : Nat} :
    above ∈ tree.ancestors below ↔ tree.StrictAncestor above below := by
  constructor
  · intro member
    induction below using Nat.strongRecOn with
    | ind below inductionHypothesis =>
        cases link : tree.parent? below with
        | none =>
            rw [ancestors_of_parent?_none link] at member
            exact absurd member List.not_mem_nil
        | some middle =>
            rw [ancestors_of_parent?_some built link] at member
            rcases List.mem_cons.mp member with rfl | higher
            · exact .parent link
            · exact .further link (inductionHypothesis middle (parent?_lt built link) higher)
  · intro chain
    induction chain with
    | parent link =>
        rw [ancestors_of_parent?_some built link]
        exact List.mem_cons_self
    | further link _ inductionHypothesis =>
        rw [ancestors_of_parent?_some built link]
        exact List.mem_cons_of_mem _ inductionHypothesis

/-- A search among the ancestors succeeds if it succeeds on a strict ancestor. -/
theorem any_ancestors_iff (built : ofJson document = .ok tree) {test : Nat → Bool} {id : Nat} :
    (tree.ancestors id).any test = true ↔
      ∃ above, tree.StrictAncestor above id ∧ test above = true := by
  simp only [List.any_eq_true, mem_ancestors_iff built]

end TreeLint.Tree
