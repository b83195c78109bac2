import Mathlib.Logic.Function.Iterate
import TreeLint.Proofs.Tree.Ancestry
import TreeLint.Proofs.Tree.Tour

/-!
Contract: the numbers that the tree of a document holds are numbers of its nodes.

Owns:
- `Value.nodeIds`, the nodes that a value refers to, however deep in arrays and plain objects;
- the law that the fields of a node refer to exactly its children, in their order;
- `Tree.Closed`, by which parent links, children and the values of fields lead to nodes of the tree;
- the outcome of reading a text: the tree of a document, or what is wrong with the text;
- `Tree.stackAt`, the stack of the walk after any number of steps, which holds steps about nodes of the tree
  only and runs empty.
-/

set_option autoImplicit false

namespace TreeLint

/-! ### The nodes in a value -/

namespace Value

mutual

def nodeIds : Value → List Nat
  | .node id => [id]
  | .array items => nodeIdsOfItems items
  | .object fields => nodeIdsOfFields fields
  | .null | .bool _ | .number _ | .string _ => []

def nodeIdsOfItems : List Value → List Nat
  | [] => []
  | item :: rest => nodeIds item ++ nodeIdsOfItems rest

def nodeIdsOfFields : List (String × Value) → List Nat
  | [] => []
  | (_, value) :: rest => nodeIds value ++ nodeIdsOfFields rest

end

end Value

namespace Tree

mutual

/-- A grown value refers to the nodes directly in it. -/
theorem nodeIds_grow (parent next : Nat) :
    ∀ document : Json,
      (grow parent next document).value.nodeIds = (grow parent next document).children
  | .null | .bool _ | .number _ | .string _ => rfl
  | .array items => by
      rw [grow, Grown.map, Value.nodeIds]
      exact nodeIds_growItems parent next items
  | .object members => by
      rw [grow]
      split
      · rfl
      · exact nodeIds_growMembers parent next members

theorem nodeIds_growItems (parent next : Nat) :
    ∀ items : List Json,
      Value.nodeIdsOfItems (growItems parent next items).value
        = (growItems parent next items).children
  | [] => rfl
  | item :: rest => by
      simp only [growItems, Grown.join, Value.nodeIdsOfItems]
      rw [nodeIds_grow parent next item, nodeIds_growItems parent _ rest]

theorem nodeIds_growMembers (parent next : Nat) :
    ∀ members : List (String × Json),
      Value.nodeIdsOfFields (growMembers parent next members).value
        = (growMembers parent next members).children
  | [] => rfl
  | (key, value) :: rest => by
      rw [growMembers]
      split
      · exact nodeIds_growMembers parent next rest
      · simp only [Grown.join, Value.nodeIdsOfFields]
        rw [nodeIds_grow parent next value, nodeIds_growMembers parent _ rest]

end

end Tree

/-- The fields of a node refer to exactly its children. -/
def Node.Linked (node : Node) : Prop := Value.nodeIdsOfFields node.fields = node.children

namespace Tree

mutual

theorem linked_grow (parent next : Nat) :
    ∀ (document : Json), ∀ node ∈ (grow parent next document).nodes, node.Linked
  | .null | .bool _ | .number _ | .string _ => fun _ member => nomatch member
  | .array items => by
      rw [grow, Grown.map]
      exact linked_growItems parent next items
  | .object members => by
      rw [grow]
      split
      · rw [Grown.toNode, List.forall_mem_cons]
        exact ⟨nodeIds_growMembers next (next + 1) members, linked_growMembers next (next + 1) members⟩
      · exact linked_growMembers parent next members

theorem linked_growItems (parent next : Nat) :
    ∀ (items : List Json), ∀ node ∈ (growItems parent next items).nodes, node.Linked
  | [] => fun _ member => nomatch member
  | item :: rest => by
      simp only [growItems, Grown.join, List.forall_mem_append]
      exact ⟨linked_grow parent next item, linked_growItems parent _ rest⟩

theorem linked_growMembers (parent next : Nat) :
    ∀ (members : List (String × Json)), ∀ node ∈ (growMembers parent next members).nodes, node.Linked
  | [] => fun _ member => nomatch member
  | (key, value) :: rest => by
      rw [growMembers]
      split
      · exact linked_growMembers parent next rest
      · simp only [Grown.join, List.forall_mem_append]
        exact ⟨linked_grow parent next value, linked_growMembers parent _ rest⟩

end

variable {document : Json} {tree : Tree}

theorem linked_of_ofJson (built : ofJson document = .ok tree) {id : Nat} {node : Node}
    (found : tree.node? id = some node) : node.Linked := by
  have member : node ∈ tree.nodes := Array.mem_of_getElem? found
  obtain ⟨members, kind, rfl, _, rfl, _⟩ := exists_of_ofJson built
  rw [Grown.toNode, List.mem_toArray] at member
  rcases List.mem_cons.mp member with rfl | below
  · exact nodeIds_growMembers root (root + 1) members
  · exact linked_growMembers root (root + 1) members node below

end Tree

/-! ### Closed trees -/

theorem Forest.child_bounds {parent : Option Nat} {next : Nat} {roots : List Nat} {nodes : List Node}
    (forest : Forest parent next roots nodes) :
    ∀ node ∈ nodes, ∀ child ∈ node.children, child < next + nodes.length := by
  induction forest with
  | nil => exact fun _ member => nomatch member
  | @cons parent next kind fields children siblings below beside lower _ belowHypothesis
      besideHypothesis =>
      intro node member child isChild
      simp only [List.length_cons, List.length_append]
      rcases List.mem_cons.mp member with rfl | further
      · have bounds := lower.root_bounds child isChild
        omega
      · rcases List.mem_append.mp further with inBelow | inBeside
        · have bound := belowHypothesis node inBelow child isChild
          omega
        · have bound := besideHypothesis node inBeside child isChild
          omega

namespace Tree

/-- Every node that a tree refers to is a node of the tree. -/
structure Closed (tree : Tree) : Prop where
  parent : ∀ id above, tree.parent? id = some above → above < tree.size
  child : ∀ id, ∀ below ∈ tree.children id, below < tree.size
  field : ∀ id, ∀ below ∈ Value.nodeIdsOfFields (tree.fields id), below < tree.size

variable {document : Json} {tree : Tree}

theorem exists_ofJson_of_read {formats : Formats} {text : String} {tree : Tree}
    (isRead : read formats text = .ok tree) :
    ∃ document, ofJson document = .ok tree := by
  unfold read at isRead
  split at isRead
  · exact ⟨_, isRead⟩
  · contradiction

/-- A text is no tree because it is no document, or because its document is refused. -/
theorem error_of_read {formats : Formats} {text : String} {error : TreeError}
    (failed : read formats text = .error error) :
    (∃ reason, formats.json text = .error reason ∧ error = .invalidJson reason) ∨
      ∃ document, formats.json text = .ok document ∧ (error = .rootNotNode ∨ error = .tooManyNodes) := by
  unfold read at failed
  split at failed
  · rename_i document isDocument
    refine .inr ⟨document, isDocument, ?_⟩
    unfold ofJson at failed
    split at failed
    · split at failed
      · dsimp only at failed
        split at failed
        · contradiction
        · exact .inr (Except.error.inj failed).symm
      · exact .inl (Except.error.inj failed).symm
    · exact .inl (Except.error.inj failed).symm
  · rename_i reason isReason
    exact .inl ⟨reason, isReason, (Except.error.inj failed).symm⟩

theorem lt_size_of_node? {id : Nat} {node : Node} (found : tree.node? id = some node) :
    id < tree.size :=
  (Array.getElem?_eq_some_iff.mp found).1

theorem closed_of_ofJson (built : ofJson document = .ok tree) : tree.Closed := by
  have inRange : ∀ {id : Nat} {node : Node}, tree.node? id = some node →
      ∀ child ∈ node.children, child < tree.size := by
    intro id node found child isChild
    have member : node ∈ tree.nodes.toList := Array.mem_toList_iff.mpr (Array.mem_of_getElem? found)
    have bound := (forest_of_ofJson built).child_bounds node member child isChild
    simpa [root, size] using bound
  constructor
  · intro id above isParent
    obtain ⟨node, found, _⟩ := Option.bind_eq_some_iff.mp isParent
    exact Nat.lt_trans (parent?_lt built isParent) (lt_size_of_node? found)
  · intro id below isChild
    rw [children] at isChild
    cases found : tree.node? id with
    | none =>
        rw [found] at isChild
        exact absurd isChild List.not_mem_nil
    | some node =>
        rw [found] at isChild
        exact inRange found below isChild
  · intro id below isField
    rw [fields] at isField
    cases found : tree.node? id with
    | none =>
        rw [found] at isField
        exact absurd isField List.not_mem_nil
    | some node =>
        rw [found] at isField
        have linked : Value.nodeIdsOfFields node.fields = node.children := linked_of_ofJson built found
        exact inRange found below (linked ▸ isField)

/-! ### The stack of the walk -/

def afterStep (tree : Tree) : List Visit → List Visit
  | [] => []
  | .leave _ :: rest => rest
  | .enter id :: rest => (tree.children id).map Visit.enter ++ .leave id :: rest

def stackAt (tree : Tree) (count : Nat) : List Visit := tree.afterStep^[count] [.enter root]

theorem stackAt_succ (tree : Tree) (count : Nat) :
    tree.stackAt (count + 1) = tree.afterStep (tree.stackAt count) :=
  Function.iterate_succ_apply' ..

theorem root_lt_size (built : ofJson document = .ok tree) : root < tree.size := by
  have bounds := (forest_of_ofJson built).root_bounds root List.mem_cons_self
  simpa [root, size] using bounds.2

/-- A step puts only steps about children of its node on the stack, besides its own leaving. -/
theorem node_lt_size_afterStep (closed : tree.Closed) {stack : List Visit}
    (inRange : ∀ step ∈ stack, step.node < tree.size) :
    ∀ step ∈ tree.afterStep stack, step.node < tree.size := by
  match stack with
  | [] => exact inRange
  | .leave _ :: rest => exact fun step member => inRange step (List.mem_cons_of_mem _ member)
  | .enter id :: rest =>
      intro step member
      rcases List.mem_append.mp member with entered | below
      · obtain ⟨child, isChild, rfl⟩ := List.mem_map.mp entered
        exact closed.child id child isChild
      · rcases List.mem_cons.mp below with rfl | further
        · exact inRange (.enter id) List.mem_cons_self
        · exact inRange step (List.mem_cons_of_mem _ further)

/-- At any moment of a walk, all steps on its stack are about nodes of the tree. -/
theorem node_lt_size_stackAt (built : ofJson document = .ok tree) (count : Nat) :
    ∀ step ∈ tree.stackAt count, step.node < tree.size := by
  induction count with
  | zero =>
      intro step member
      obtain rfl := List.mem_singleton.mp member
      exact root_lt_size built
  | succ count inductionHypothesis =>
      rw [stackAt_succ]
      exact node_lt_size_afterStep (closed_of_ofJson built) inductionHypothesis

theorem steps_nil (tree : Tree) (count : Nat) : tree.steps count [] = [] := by
  cases count <;> rfl

/-- The first step of a walk is the one on top of its stack. -/
theorem steps_succ (tree : Tree) (count : Nat) (stack : List Visit) :
    tree.steps (count + 1) stack = stack.head?.toList ++ tree.steps count (tree.afterStep stack) := by
  match stack with
  | [] => exact (tree.steps_nil count).symm
  | .leave id :: rest => rfl
  | .enter id :: rest => rfl

/-- So is the last one. -/
theorem steps_succ_last (tree : Tree) (count : Nat) (stack : List Visit) :
    tree.steps (count + 1) stack
      = tree.steps count stack ++ (tree.afterStep^[count] stack).head?.toList := by
  induction count generalizing stack with
  | zero => rw [steps_succ, steps, steps, List.append_nil, List.nil_append, Function.iterate_zero_apply]
  | succ count inductionHypothesis =>
      rw [steps_succ, inductionHypothesis, ← List.append_assoc, ← steps_succ,
        Function.iterate_succ_apply]

/-- The steps of a walk are those on top of its stack, moment by moment. -/
theorem walk_eq_tops (tree : Tree) :
    tree.walk = (List.range (2 * tree.size)).flatMap fun count =>
      (tree.stackAt count).head?.toList := by
  have tops : ∀ count, tree.steps count [.enter root]
      = (List.range count).flatMap fun moment => (tree.stackAt moment).head?.toList := by
    intro count
    induction count with
    | zero => rfl
    | succ count inductionHypothesis =>
        rw [steps_succ_last, inductionHypothesis, List.range_succ, List.flatMap_append,
          List.flatMap_singleton]
        rfl
  exact tops _

/-- At the end of a walk its stack is empty. -/
theorem stackAt_finish (built : ofJson document = .ok tree) : tree.stackAt (2 * tree.size) = [] := by
  -- One step more than the budget takes nothing more, so there is no top of the stack to take.
  have all : ∀ further, tree.steps (2 * tree.size + further) [.enter root] = tree.tour root := by
    intro further
    have steps := steps_of_forest (forest_of_ofJson built) (segment_root tree) further []
    rwa [steps_nil, List.append_nil, List.map_singleton, List.append_nil, List.flatMap_singleton] at steps
  have last := tree.steps_succ_last (2 * tree.size) [.enter root]
  rw [all 1] at last
  have nothingLeft : (tree.stackAt (2 * tree.size)).head?.toList = [] := by
    have before := all 0
    rw [Nat.add_zero] at before
    rw [before] at last
    exact List.self_eq_append_right.mp last
  cases stack : tree.stackAt (2 * tree.size) with
  | nil => rfl
  | cons step rest =>
      rw [stack] at nothingLeft
      contradiction

end Tree

end TreeLint
