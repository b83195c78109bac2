import TreeLint.Proofs.Lists
import TreeLint.Proofs.Tree.Arena

/-!
Contract: how the steps of different nodes lie in a walk.

Owns:
- the steps in the tour below a node, which are those of the node and of the nodes that it is an ancestor of;
- `Visit.Encloses`, by which the steps of one node lie between those of another, and its agreement with parent
  links;
- the order in which nodes are entered, which is that of their numbers;
- `Tree.IsTraversal`, which puts together what a depth-first traversal is, and the proof that a walk ends and is
  one.

Does not own: what is done at the steps of a walk.
-/

set_option autoImplicit false

namespace TreeLint

namespace Visit

def entered? : Visit → Option Nat
  | .enter id => some id
  | .leave _ => none

/-- Both steps of the node `inner` lie between those of the node `outer`. -/
def Encloses (steps : List Visit) (outer inner : Nat) : Prop :=
  ∃ before within after, steps = before ++ .enter outer :: (within ++ .leave outer :: after) ∧
    .enter inner ∈ within ∧ .leave inner ∈ within

end Visit

namespace Tree

variable {document : Json} {tree : Tree}

/-! ### Ancestors from above -/

theorem StrictAncestor.above {above child below : Nat} (isParent : tree.parent? child = some above)
    (ancestor : tree.StrictAncestor child below) : tree.StrictAncestor above below := by
  induction ancestor with
  | parent link => exact .further link (.parent isParent)
  | further link _ inductionHypothesis => exact .further link inductionHypothesis

/-- A strict ancestor is the parent, or has a child that is a strict ancestor. -/
theorem strictAncestor_iff_child (built : ofJson document = .ok tree) {above below : Nat} :
    tree.StrictAncestor above below ↔
      ∃ child ∈ tree.children above, below = child ∨ tree.StrictAncestor child below := by
  constructor
  · intro ancestor
    induction ancestor with
    | parent link => exact ⟨_, (mem_children_iff built).mpr link, .inl rfl⟩
    | @further middle below link _ inductionHypothesis =>
        obtain ⟨child, isChild, rfl | ancestor⟩ := inductionHypothesis
        · exact ⟨middle, isChild, .inr (.parent link)⟩
        · exact ⟨child, isChild, .inr (.further link ancestor)⟩
  · rintro ⟨child, isChild, rfl | ancestor⟩
    · exact .parent ((mem_children_iff built).mp isChild)
    · exact ancestor.above ((mem_children_iff built).mp isChild)

/-! ### Tours -/

theorem child_bounds (built : ofJson document = .ok tree) {id child : Nat}
    (isChild : child ∈ tree.children id) : id < child ∧ child < tree.size :=
  ⟨parent?_lt built ((mem_children_iff built).mp isChild), (closed_of_ofJson built).child id child isChild⟩

/-- A tour enters a node, tours its children in order, and leaves the node. -/
theorem tour_eq (built : ofJson document = .ok tree) (id : Nat) :
    tree.tour id = .enter id :: ((tree.children id).flatMap tree.tour ++ [.leave id]) :=
  tour_of_children fun _ isChild => child_bounds built isChild

/-- What holds of a node if it holds of all of its children holds of every node. -/
theorem induction_on_children (built : ofJson document = .ok tree) {motive : Nat → Prop}
    (step : ∀ id, (∀ child ∈ tree.children id, motive child) → motive id) (id : Nat) : motive id := by
  induction remaining : tree.size - id using Nat.strongRecOn generalizing id with
  | ind remaining inductionHypothesis =>
      refine step id fun child isChild => ?_
      have bounds := child_bounds built isChild
      exact inductionHypothesis (tree.size - child) (by omega) child rfl

/-- The tour of a node takes the steps of the node and of the nodes that it is an ancestor of. -/
theorem mem_tour_iff (built : ofJson document = .ok tree) {id : Nat} {step : Visit} :
    step ∈ tree.tour id ↔ step.node = id ∨ tree.StrictAncestor id step.node := by
  induction id using induction_on_children built with
  | step id inductionHypothesis =>
      have own : step = .enter id ∨ step = .leave id ↔ step.node = id := by
        cases step <;> simp [Visit.node]
      have below : step ∈ (tree.children id).flatMap tree.tour ↔ tree.StrictAncestor id step.node := by
        rw [List.mem_flatMap, strictAncestor_iff_child built]
        refine exists_congr fun child => and_congr_right fun isChild => ?_
        exact inductionHypothesis child isChild
      rw [tour_eq built, List.mem_cons, List.mem_append, below, List.mem_singleton, or_left_comm,
        or_comm, own]

/-- Between entering and leaving a node, a tour takes the steps of the nodes that it is an ancestor of. -/
theorem mem_below_iff (built : ofJson document = .ok tree) {id : Nat} {step : Visit} :
    step ∈ (tree.children id).flatMap tree.tour ↔ tree.StrictAncestor id step.node := by
  rw [List.mem_flatMap, strictAncestor_iff_child built]
  simp only [mem_tour_iff built]

/-- A walk takes the tour of every node without a break. -/
theorem tour_infix_walk (built : ofJson document = .ok tree) {id : Nat} (inTree : id < tree.size) :
    tree.tour id <:+: tree.walk := by
  induction id using Nat.strongRecOn with
  | ind id inductionHypothesis =>
      obtain ⟨position, found⟩ := exists_position built inTree
      rcases parent?_of_position built found with rfl | ⟨above, _, isParent, _⟩
      · exact walk_eq_tour built ▸ List.infix_rfl
      · have earlier := parent?_lt built isParent
        have isChild := (mem_children_iff built).mpr isParent
        have inBelow : tree.tour id <:+: (tree.children above).flatMap tree.tour :=
          List.infix_of_mem_flatten (List.mem_map_of_mem isChild)
        have inTour : (tree.children above).flatMap tree.tour <:+: tree.tour above :=
          ⟨[.enter above], [.leave above], (tour_eq built above).symm⟩
        exact inBelow.trans (inTour.trans (inductionHypothesis above earlier (by omega)))

/-- The steps of a node lie between those of another exactly if the other one is a strict ancestor of it. -/
theorem encloses_walk_iff (built : ofJson document = .ok tree) {outer inner : Nat}
    (inTree : outer < tree.size) :
    Visit.Encloses tree.walk outer inner ↔ tree.StrictAncestor outer inner := by
  obtain ⟨before, after, whole⟩ := tour_infix_walk built inTree
  have split : tree.walk
      = before ++ .enter outer :: ((tree.children outer).flatMap tree.tour ++ .leave outer :: after) := by
    rw [← whole, tour_eq built]
    simp only [List.append_assoc, List.cons_append, List.nil_append]
  constructor
  · rintro ⟨before', within, after', isWalk, entered, _⟩
    obtain rfl := within_eq_of_nodup (split ▸ nodup_walk built) (split.symm.trans isWalk)
    exact (mem_below_iff built).mp entered
  · intro ancestor
    exact ⟨before, _, after, split, (mem_below_iff built).mpr ancestor, (mem_below_iff built).mpr ancestor⟩

/-! ### The order of entering -/

/-- The tours of the roots of a forest enter its nodes in the order of their numbers. -/
theorem entered_tours_of_forest {parent : Option Nat} {next : Nat} {roots : List Nat} {nodes : List Node}
    (forest : Forest parent next roots nodes) (segment : tree.Segment next nodes) :
    (roots.flatMap tree.tour).filterMap Visit.entered? = List.range' next nodes.length := by
  induction forest with
  | nil => rfl
  | @cons parent next kind fields children siblings below beside lower _ belowHypothesis besideHypothesis =>
      have enters : (Visit.enter next).entered? = some next := rfl
      have leaves : [Visit.leave next].filterMap Visit.entered? = [] := rfl
      rw [List.flatMap_cons, List.filterMap_append, besideHypothesis segment.beside,
        tour_of_forest_cons lower segment, List.filterMap_cons_some enters, List.filterMap_append,
        belowHypothesis segment.below, leaves, List.append_nil, List.length_cons, List.length_append,
        List.range'_succ, List.cons_append, List.range'_append_1]

theorem entered_walk (built : ofJson document = .ok tree) :
    tree.walk.filterMap Visit.entered? = List.range tree.size := by
  have entered := entered_tours_of_forest (forest_of_ofJson built) (segment_root tree)
  rw [List.flatMap_singleton, ← walk_eq_tour built] at entered
  rw [entered, List.range_eq_range']
  rfl

/-! ### The end of a walk -/

theorem length_steps_le (tree : Tree) (count : Nat) (stack : List Visit) :
    (tree.steps count stack).length ≤ count := by
  induction count generalizing stack with
  | zero => exact Nat.le_refl 0
  | succ count inductionHypothesis =>
      match stack with
      | [] => exact Nat.zero_le _
      | .leave id :: rest => exact Nat.succ_le_succ (inductionHypothesis rest)
      | .enter id :: rest => exact Nat.succ_le_succ (inductionHypothesis _)

/-- Once the stack is empty it stays empty, and no further step is taken. -/
theorem steps_of_stackAt_nil {count : Nat} (isEmpty : tree.stackAt count = []) (further : Nat) :
    tree.stackAt (count + further) = [] ∧
      tree.steps (count + further) [.enter root] = tree.steps count [.enter root] := by
  induction further with
  | zero => exact ⟨isEmpty, rfl⟩
  | succ further inductionHypothesis =>
      obtain ⟨stillEmpty, sameSteps⟩ := inductionHypothesis
      refine ⟨?_, ?_⟩
      · rw [← Nat.add_assoc, stackAt_succ, stillEmpty]
        rfl
      · have nothing : (tree.afterStep^[count + further] [.enter root]).head?.toList = [] := by
          rw [show tree.afterStep^[count + further] [.enter root] = tree.stackAt (count + further) from rfl,
            stillEmpty]
          rfl
        rw [← Nat.add_assoc, steps_succ_last, nothing, List.append_nil, sameSteps]

theorem length_tours_of_forest {parent : Option Nat} {next : Nat} {roots : List Nat} {nodes : List Node}
    (forest : Forest parent next roots nodes) (segment : tree.Segment next nodes) :
    (roots.flatMap tree.tour).length = 2 * nodes.length := by
  induction forest with
  | nil => rfl
  | cons lower _ belowHypothesis besideHypothesis =>
      rw [List.flatMap_cons, List.length_append, besideHypothesis segment.beside,
        tour_of_forest_cons lower segment, List.length_cons, List.length_append,
        belowHypothesis segment.below]
      simp only [List.length_cons, List.length_nil, List.length_append]
      omega

/-- A walk takes two steps for every node. -/
theorem length_walk (built : ofJson document = .ok tree) : tree.walk.length = 2 * tree.size := by
  have length := length_tours_of_forest (forest_of_ofJson built) (segment_root tree)
  rwa [List.flatMap_singleton, ← walk_eq_tour built] at length

/-- The stack of a walk runs empty after two steps for every node, and not before. -/
theorem stackAt_eq_nil_iff (built : ofJson document = .ok tree) {count : Nat} :
    tree.stackAt count = [] ↔ 2 * tree.size ≤ count := by
  constructor
  · intro isEmpty
    by_contra tooFew
    obtain ⟨further, isFurther⟩ := Nat.exists_eq_add_of_le (Nat.le_of_not_le tooFew)
    have taken : tree.walk = tree.steps count [.enter root] := by
      rw [walk, isFurther]
      exact (steps_of_stackAt_nil isEmpty further).2
    have bound := tree.length_steps_le count [.enter root]
    rw [← taken, length_walk built] at bound
    exact tooFew bound
  · intro enough
    obtain ⟨further, rfl⟩ := Nat.exists_eq_add_of_le enough
    exact (steps_of_stackAt_nil (stackAt_finish built) further).1

/-! ### Traversals -/

/-- The steps are those of the depth-first traversal of the tree. -/
structure IsTraversal (tree : Tree) (steps : List Visit) : Prop where
  /-- They are the tour of the root. -/
  whole : steps = tree.tour root
  /-- A tour enters a node, tours its children in order, and leaves the node. -/
  recursive : ∀ id, tree.tour id = .enter id :: ((tree.children id).flatMap tree.tour ++ [.leave id])
  /-- Nodes are entered in the order of their numbers. -/
  entered : steps.filterMap Visit.entered? = List.range tree.size
  /-- Every node is entered once and left once. -/
  once : ∀ step, steps.count step = if step.node < tree.size then 1 else 0
  /-- Of two nodes, the one whose steps lie between those of the other is below it. -/
  nested : ∀ outer inner, outer < tree.size → inner < tree.size →
    (Visit.Encloses steps outer inner ↔ tree.StrictAncestor outer inner)

/-- A walk ends after two steps for every node. The steps that it takes from the top of its stack until then
are the traversal of the tree. -/
theorem isTraversal_walk (built : ofJson document = .ok tree) :
    (∀ count, tree.stackAt count = [] ↔ 2 * tree.size ≤ count) ∧
      tree.walk = (List.range (2 * tree.size)).flatMap
        (fun count => (tree.stackAt count).head?.toList) ∧
      tree.IsTraversal tree.walk := by
  refine ⟨fun count => stackAt_eq_nil_iff built, tree.walk_eq_tops, ?_⟩
  constructor
  · exact walk_eq_tour built
  · exact tour_eq built
  · exact entered_walk built
  · intro step
    rw [walk_eq_tour built]
    exact count_tour built step
  · exact fun outer inner outerInTree _ => encloses_walk_iff built outerInTree

/-- A node with a node below it, and one beside it in a list. -/
theorem isTraversal_walk_branching :
    ∃ document tree,
      document = Json.object [("type", .string "A"),
        ("left", .object [("type", .string "B"), ("in", .object [("type", .string "C")])]),
        ("right", .array [.null, .object [("type", .string "D")]])] ∧
      ofJson document = .ok tree ∧ tree.stackAt 7 ≠ [] ∧ tree.stackAt 8 = [] ∧
      tree.walk = [.enter 0, .enter 1, .enter 2, .leave 2, .leave 1, .enter 3, .leave 3, .leave 0] ∧
      tree.IsTraversal tree.walk ∧ Visit.Encloses tree.walk 1 2 ∧ ¬Visit.Encloses tree.walk 1 3 := by
  obtain ⟨tree, built⟩ : ∃ tree, ofJson (.object [("type", .string "A"),
      ("left", .object [("type", .string "B"), ("in", .object [("type", .string "C")])]),
      ("right", .array [.null, .object [("type", .string "D")]])]) = .ok tree := ⟨_, rfl⟩
  obtain ⟨ends, -, traversal⟩ := isTraversal_walk built
  obtain rfl := Except.ok.inj built
  refine ⟨_, _, rfl, rfl, ?_, ?_, rfl, traversal, ?_, ?_⟩
  · exact fun isEmpty => absurd ((ends 7).mp isEmpty) (by decide)
  · exact (ends 8).mpr (by decide)
  · exact (traversal.nested 1 2 (by decide) (by decide)).mpr (.parent rfl)
  · rw [traversal.nested 1 3 (by decide) (by decide)]
    rintro (isParent | ⟨isParent, further⟩)
    · exact absurd isParent (by decide)
    · obtain rfl := Option.some.inj isParent
      rcases further with isRootParent | ⟨isRootParent, _⟩
      · exact nomatch isRootParent
      · exact nomatch isRootParent

end Tree

end TreeLint
