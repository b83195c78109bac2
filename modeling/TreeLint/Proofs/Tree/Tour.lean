import Mathlib.Data.List.Nodup
import TreeLint.Proofs.Tree.Forest
import TreeLint.Tree.Walk

/-!
Contract: the walk through the tree of a document.

Owns:
- the proof that the walk with a stack takes the steps of the recursive tour, no more and no fewer;
- the count of every step: each node is entered once and left once.

Does not own: the nesting of the steps of different nodes.
-/

set_option autoImplicit false

namespace TreeLint.Tree

variable {tree : Tree} {parent : Option Nat} {next : Nat} {roots : List Nat} {nodes : List Node}

/-- The tour of a node tours all of its children. -/
theorem tour_of_children {id : Nat}
    (later : ∀ child ∈ tree.children id, id < child ∧ child < tree.size) :
    tree.tour id = .enter id :: ((tree.children id).flatMap tree.tour ++ [.leave id]) := by
  rw [tour, List.cons_append]
  congr 2
  exact List.flatMap_congr fun child member => dif_pos (later child member)

/-- The tour of the first root of a forest. -/
theorem tour_of_forest_cons {kind : String} {fields : List (String × Value)}
    {children : List Nat} {below beside : List Node}
    (lower : Forest (some next) (next + 1) children below)
    (segment : tree.Segment next (⟨kind, parent, children, fields⟩ :: (below ++ beside))) :
    tree.tour next = .enter next :: (children.flatMap tree.tour ++ [.leave next]) := by
  have isChildren : tree.children next = children := by
    simp only [Tree.children, segment.head, Option.map_some, Option.getD_some]
  have later : ∀ child ∈ tree.children next, next < child ∧ child < tree.size := by
    intro child member
    rw [isChildren] at member
    have bounds := lower.root_bounds child member
    exact ⟨by omega, segment.below.lt_size bounds.1 bounds.2⟩
  rw [tour_of_children later, isChildren]

/-- The walk takes the tours of the roots that are on top of the stack, and goes on with what is below
them. Every node costs two steps. -/
theorem steps_of_forest (forest : Forest parent next roots nodes)
    (segment : tree.Segment next nodes) :
    ∀ (count : Nat) (stack : List Visit),
      tree.steps (2 * nodes.length + count) (roots.map .enter ++ stack)
        = roots.flatMap tree.tour ++ tree.steps count stack := by
  induction forest with
  | nil =>
      intro count stack
      simp
  | @cons parent next kind fields children siblings below beside lower _ belowHypothesis
      besideHypothesis =>
      intro count stack
      have isChildren : tree.children next = children := by
        simp only [Tree.children, segment.head, Option.map_some, Option.getD_some]
      have budget : 2 * (⟨kind, parent, children, fields⟩ :: (below ++ beside)).length + count
          = (2 * below.length + ((2 * beside.length + count) + 1)) + 1 := by
        simp only [List.length_cons, List.length_append]
        omega
      rw [budget, List.map_cons, List.cons_append, steps, isChildren,
        belowHypothesis segment.below, steps, besideHypothesis segment.beside,
        List.flatMap_cons, tour_of_forest_cons lower segment]
      simp only [List.cons_append, List.append_assoc, List.nil_append]

theorem count_own_steps (id : Nat) (step : Visit) :
    [Visit.enter id].count step + [Visit.leave id].count step = if step.node = id then 1 else 0 := by
  rcases step with other | other
  all_goals
    by_cases same : id = other
    · subst same
      simp [Visit.node]
    · simp [Visit.node, same, Ne.symm same]

/-- The tours of the roots of a forest take every step of its nodes once, and no other step. -/
theorem count_tours_of_forest (forest : Forest parent next roots nodes)
    (segment : tree.Segment next nodes) (step : Visit) :
    (roots.flatMap tree.tour).count step
      = if next ≤ step.node ∧ step.node < next + nodes.length then 1 else 0 := by
  induction forest with
  | nil =>
      rw [if_neg (by simp only [List.length_nil]; omega)]
      rfl
  | @cons parent next kind fields children siblings below beside lower _ belowHypothesis
      besideHypothesis =>
      have own := count_own_steps next step
      have inner := belowHypothesis segment.below
      have outer := besideHypothesis segment.beside
      rw [List.flatMap_cons, List.count_append, tour_of_forest_cons lower segment,
        ← List.singleton_append, List.count_append, List.count_append, List.length_cons,
        List.length_append]
      split at own <;> split at inner <;> split at outer <;> split <;> omega

/-! ### Whole documents -/

variable {document : Json}

/-- The walk through a tree is its recursive tour. -/
theorem walk_eq_tour (built : ofJson document = .ok tree) : tree.walk = tree.tour root := by
  have steps := steps_of_forest (forest_of_ofJson built) (segment_root tree) 0 []
  simpa [walk, size, Tree.steps] using steps

/-- A tour through a tree enters every node once and leaves every node once. -/
theorem count_tour (built : ofJson document = .ok tree) (step : Visit) :
    (tree.tour root).count step = if step.node < tree.size then 1 else 0 := by
  have count := count_tours_of_forest (forest_of_ofJson built) (segment_root tree) step
  rw [List.flatMap_cons, List.flatMap_nil, List.append_nil] at count
  rw [count]
  exact if_congr (by simp [size, root]) rfl rfl

theorem nodup_walk (built : ofJson document = .ok tree) : tree.walk.Nodup := by
  rw [List.nodup_iff_count_le_one]
  intro step
  rw [walk_eq_tour built, count_tour built]
  split <;> omega

theorem mem_walk_iff (built : ofJson document = .ok tree) (step : Visit) :
    step ∈ tree.walk ↔ step.node < tree.size := by
  rw [← List.count_pos_iff, walk_eq_tour built, count_tour built]
  split <;> omega

end TreeLint.Tree
