import TreeLint.Tree.Build

/-!
Contract: how the nodes of a document lie in the array of its tree.

Owns:
- `Forest`, the layout of several trees side by side: every node stands before all nodes below it, and
  these before the nodes beside it;
- the proof that growing a document lays its nodes out as a forest;
- `Tree.Segment`, which places a forest at an offset of a tree, and the laws that split it.

Does not own: what the layout means for walks and for ancestors.
-/

set_option autoImplicit false

namespace TreeLint

/-- The list `nodes` holds the nodes of several trees side by side, numbered from `next` on. The numbers of
their roots are `roots`, and the parent of the roots is `parent`. -/
inductive Forest : (parent : Option Nat) → (next : Nat) → (roots : List Nat) → (nodes : List Node) →
    Prop where
  | nil {parent : Option Nat} {next : Nat} : Forest parent next [] []
  | cons {parent : Option Nat} {next : Nat} {kind : String} {fields : List (String × Value)}
      {children siblings : List Nat} {below beside : List Node} :
      Forest (some next) (next + 1) children below →
      Forest parent (next + 1 + below.length) siblings beside →
      Forest parent next (next :: siblings) (⟨kind, parent, children, fields⟩ :: (below ++ beside))

namespace Forest

theorem append {parent : Option Nat} {next : Nat} {roots roots' : List Nat}
    {nodes nodes' : List Node} (left : Forest parent next roots nodes)
    (right : Forest parent (next + nodes.length) roots' nodes') :
    Forest parent next (roots ++ roots') (nodes ++ nodes') := by
  induction left with
  | nil => simpa using right
  | @cons parent next kind fields children siblings below beside lower _ _ besideHypothesis =>
      rw [List.cons_append, List.cons_append, List.append_assoc]
      refine .cons lower (besideHypothesis ?_)
      rw [List.length_cons, List.length_append] at right
      rwa [show next + 1 + below.length + beside.length
        = next + (below.length + beside.length + 1) from by omega]

theorem root_bounds {parent : Option Nat} {next : Nat} {roots : List Nat} {nodes : List Node}
    (forest : Forest parent next roots nodes) :
    ∀ root ∈ roots, next ≤ root ∧ root < next + nodes.length := by
  induction forest with
  | nil => simp
  | @cons parent next kind fields children siblings below beside _ _ _ besideHypothesis =>
      intro root member
      simp only [List.length_cons, List.length_append]
      rcases List.mem_cons.mp member with rfl | further
      · omega
      · have bounds := besideHypothesis root further
        omega

/-- Every node comes after its parent. -/
theorem parent_lt {parent : Option Nat} {next : Nat} {roots : List Nat} {nodes : List Node}
    (forest : Forest parent next roots nodes) (earlier : ∀ above, parent = some above → above < next)
    {index above : Nat} {node : Node} (found : nodes[index]? = some node)
    (isParent : node.parent = some above) : above < next + index := by
  induction forest generalizing index with
  | nil => simp at found
  | @cons parent next kind fields children siblings below beside _ _ belowHypothesis
      besideHypothesis =>
      cases index with
      | zero =>
          simp only [List.getElem?_cons_zero, Option.some.injEq] at found
          subst found
          exact earlier above isParent
      | succ index =>
          rw [List.getElem?_cons_succ, List.getElem?_append] at found
          split at found
          · have := belowHypothesis (by simp) found
            omega
          · have := besideHypothesis
              (fun above isAbove => by have := earlier above isAbove; omega) found
            omega

end Forest

/-! ### Growing -/

namespace Tree

mutual

/-- A part of a document grows into a forest. -/
theorem grow_forest (parent next : Nat) :
    ∀ document : Json,
      Forest (some parent) next (grow parent next document).children (grow parent next document).nodes
  | .null | .bool _ | .number _ | .string _ => by
      simp only [grow, Grown.plain]
      exact .nil
  | .array items => by
      simp only [grow, Grown.map]
      exact growItems_forest parent next items
  | .object members => by
      rw [grow]
      split
      · have inner := growMembers_forest next (next + 1) members
        simpa [Grown.toNode] using Forest.cons inner .nil
      · exact growMembers_forest parent next members

theorem growItems_forest (parent next : Nat) :
    ∀ items : List Json,
      Forest (some parent) next (growItems parent next items).children
        (growItems parent next items).nodes
  | [] => .nil
  | item :: rest => by
      simp only [growItems, Grown.join]
      exact (grow_forest parent next item).append (growItems_forest parent _ rest)

theorem growMembers_forest (parent next : Nat) :
    ∀ members : List (String × Json),
      Forest (some parent) next (growMembers parent next members).children
        (growMembers parent next members).nodes
  | [] => .nil
  | (key, value) :: rest => by
      rw [growMembers]
      split
      · exact growMembers_forest parent next rest
      · exact (grow_forest parent next value).append (growMembers_forest parent _ rest)

end

/-- The nodes of a whole document are a forest of one tree, whose root has number zero. -/
theorem forest_of_ofJson {document : Json} {tree : Tree} (built : ofJson document = .ok tree) :
    Forest none root [root] tree.nodes.toList := by
  obtain ⟨members, kind, rfl, _, rfl, _⟩ := exists_of_ofJson built
  have below := growMembers_forest root (root + 1) members
  simpa [Grown.toNode] using @Forest.cons none _ _ _ _ _ _ _ below .nil

/-! ### A forest within a tree -/

/-- The tree has the given nodes from number `next` on. -/
def Segment (tree : Tree) (next : Nat) (nodes : List Node) : Prop :=
  ∀ index node, nodes[index]? = some node → tree.node? (next + index) = some node

theorem segment_root (tree : Tree) : tree.Segment root tree.nodes.toList := by
  intro index node found
  simpa [node?, root] using found

variable {tree : Tree} {next : Nat} {node : Node} {nodes lower further : List Node}

theorem Segment.head (segment : tree.Segment next (node :: nodes)) : tree.node? next = some node :=
  segment 0 node rfl

theorem Segment.below (segment : tree.Segment next (node :: (lower ++ further))) :
    tree.Segment (next + 1) lower := by
  intro index inner found
  rw [Nat.add_assoc, Nat.add_comm 1]
  apply segment (index + 1) inner
  have inside : index < lower.length := (List.getElem?_eq_some_iff.mp found).1
  rwa [List.getElem?_cons_succ, List.getElem?_append_left inside]

theorem Segment.beside (segment : tree.Segment next (node :: (lower ++ further))) :
    tree.Segment (next + 1 + lower.length) further := by
  intro index outer found
  rw [show next + 1 + lower.length + index = next + (lower.length + index + 1) from by omega]
  apply segment (lower.length + index + 1) outer
  rwa [List.getElem?_cons_succ, List.getElem?_append_right (by omega), Nat.add_sub_cancel_left]

/-- The numbers of a segment are numbers of nodes. -/
theorem Segment.lt_size (segment : tree.Segment next nodes) {id : Nat} (from_ : next ≤ id)
    (below : id < next + nodes.length) : id < tree.size := by
  have inside : id - next < nodes.length := by omega
  have found := segment (id - next) nodes[id - next] (List.getElem?_eq_getElem inside)
  rw [Nat.add_sub_cancel' from_] at found
  exact (Array.getElem?_eq_some_iff.mp found).1

end Tree

end TreeLint
