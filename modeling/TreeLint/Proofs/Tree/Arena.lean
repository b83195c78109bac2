import TreeLint.Proofs.Tree.Closed
import TreeLint.Proofs.Tree.Image

/-!
Contract: the numbers and the links of the tree of a document.

Owns:
- children as the other side of parent links: a node is listed once, by its parent, and children ascend;
- `Tree.IsArena`, by which a tree numbers the nodes of a document in its order and links every node with the
  nearest one around it;
- the proof that every tree of a document is such an arena.

Does not own: the values of the fields, and what paths resolve to.
-/

set_option autoImplicit false

namespace TreeLint

/-! ### Links in a forest -/

theorem Forest.pairwise_roots {parent : Option Nat} {next : Nat} {roots : List Nat} {nodes : List Node}
    (forest : Forest parent next roots nodes) : roots.Pairwise (· < ·) := by
  induction forest with
  | nil => exact .nil
  | cons _ beside _ besideHypothesis =>
      refine List.pairwise_cons.mpr ⟨fun sibling member => ?_, besideHypothesis⟩
      have bounds := beside.root_bounds sibling member
      omega

theorem Forest.pairwise_children {parent : Option Nat} {next : Nat} {roots : List Nat} {nodes : List Node}
    (forest : Forest parent next roots nodes) :
    ∀ node ∈ nodes, node.children.Pairwise (· < ·) := by
  induction forest with
  | nil => exact fun _ member => nomatch member
  | cons lower _ belowHypothesis besideHypothesis =>
      intro node member
      rcases List.mem_cons.mp member with rfl | further
      · exact lower.pairwise_roots
      · rcases List.mem_append.mp further with inBelow | inBeside
        · exact belowHypothesis node inBelow
        · exact besideHypothesis node inBeside

namespace Tree

variable {tree : Tree}

theorem parent?_of_node? {id : Nat} {node : Node} (found : tree.node? id = some node) :
    tree.parent? id = node.parent := by
  rw [parent?, found, Option.bind_some]

theorem children_of_node? {id : Nat} {node : Node} (found : tree.node? id = some node) :
    tree.children id = node.children := by
  rw [children, found]
  rfl

theorem fields_of_node? {id : Nat} {node : Node} (found : tree.node? id = some node) :
    tree.fields id = node.fields := by
  rw [fields, found]
  rfl

theorem exists_node_of_mem_children {id child : Nat} (isChild : child ∈ tree.children id) :
    ∃ node, tree.node? id = some node ∧ child ∈ node.children := by
  cases found : tree.node? id with
  | none =>
      rw [children, found] at isChild
      exact absurd isChild List.not_mem_nil
  | some node => exact ⟨node, rfl, children_of_node? found ▸ isChild⟩

/-- The roots of a forest have the parent of the forest. -/
theorem parent?_root {parent : Option Nat} {next : Nat} {roots : List Nat} {nodes : List Node}
    (forest : Forest parent next roots nodes) (segment : tree.Segment next nodes) :
    ∀ top ∈ roots, tree.parent? top = parent := by
  induction forest with
  | nil => exact fun _ member => nomatch member
  | cons _ _ _ besideHypothesis =>
      intro top member
      rcases List.mem_cons.mp member with rfl | sibling
      · exact parent?_of_node? segment.head
      · exact besideHypothesis segment.beside top sibling

/-- Every node of a forest is a root or a child of a node, and all children name the node that lists them as
their parent. -/
theorem linked_of_forest {parent : Option Nat} {next : Nat} {roots : List Nat} {nodes : List Node}
    (forest : Forest parent next roots nodes) (segment : tree.Segment next nodes) :
    ∀ id, next ≤ id → id < next + nodes.length →
      (id ∈ roots ∨ ∃ above, id ∈ tree.children above) ∧
      ∀ child ∈ tree.children id, tree.parent? child = some id := by
  induction forest with
  | nil =>
      intro id low high
      rw [List.length_nil] at high
      omega
  | @cons parent next kind fields children siblings below beside lower _ belowHypothesis besideHypothesis =>
      intro id low high
      rw [List.length_cons, List.length_append] at high
      have isChildren : tree.children next = children := children_of_node? segment.head
      rcases Nat.lt_trichotomy id next with before | rfl | after
      · omega
      · refine ⟨.inl List.mem_cons_self, fun child isChild => ?_⟩
        exact parent?_root lower segment.below child (isChildren ▸ isChild)
      · by_cases isBelow : id < next + 1 + below.length
        · obtain ⟨listed, ofChildren⟩ := belowHypothesis segment.below id after isBelow
          refine ⟨.inr ?_, ofChildren⟩
          rcases listed with isRoot | isChild
          · exact ⟨next, isChildren.symm ▸ isRoot⟩
          · exact isChild
        · obtain ⟨listed, ofChildren⟩ :=
            besideHypothesis segment.beside id (Nat.le_of_not_lt isBelow) (by omega)
          exact ⟨listed.imp_left (List.mem_cons_of_mem next), ofChildren⟩

/-! ### Links in a tree -/

variable {document : Json}

theorem parent?_top (built : ofJson document = .ok tree) : tree.parent? root = none :=
  parent?_root (forest_of_ofJson built) (segment_root tree) root List.mem_cons_self

/-- The children of a node are the nodes that have it as their parent. -/
theorem mem_children_iff (built : ofJson document = .ok tree) {id above : Nat} :
    id ∈ tree.children above ↔ tree.parent? id = some above := by
  have linked : ∀ {id : Nat}, id < tree.size → _ := fun {id} inTree =>
    linked_of_forest (forest_of_ofJson built) (segment_root tree) id (Nat.zero_le id)
      (by simpa [root, size] using inTree)
  constructor
  · intro isChild
    obtain ⟨_, found, _⟩ := exists_node_of_mem_children isChild
    exact (linked (lt_size_of_node? found)).2 id isChild
  · intro isParent
    obtain ⟨_, found, _⟩ := Option.bind_eq_some_iff.mp isParent
    rcases (linked (lt_size_of_node? found)).1 with isRoot | ⟨other, isChild⟩
    · obtain rfl := List.mem_singleton.mp isRoot
      rw [parent?_top built] at isParent
      contradiction
    · obtain ⟨_, foundOther, _⟩ := exists_node_of_mem_children isChild
      have isOther := (linked (lt_size_of_node? foundOther)).2 id isChild
      rw [isParent] at isOther
      exact Option.some.inj isOther ▸ isChild

theorem pairwise_children (built : ofJson document = .ok tree) (id : Nat) :
    (tree.children id).Pairwise (· < ·) := by
  cases found : tree.node? id with
  | none =>
      rw [children, found]
      exact .nil
  | some node =>
      rw [children_of_node? found]
      exact (forest_of_ofJson built).pairwise_children node
        (Array.mem_toList_iff.mpr (Array.mem_of_getElem? found))

/-- A node is listed once by its parent and by no other node. -/
theorem count_children (built : ofJson document = .ok tree) (id above : Nat) :
    (tree.children above).count id = if tree.parent? id = some above then 1 else 0 := by
  have distinct : (tree.children above).Nodup :=
    (pairwise_children built above).imp fun earlier => Nat.ne_of_lt earlier
  rw [distinct.count]
  exact if_congr (mem_children_iff built) rfl rfl

/-- The fields of a node refer to exactly its children. -/
theorem nodeIds_fields (built : ofJson document = .ok tree) (id : Nat) :
    Value.nodeIdsOfFields (tree.fields id) = tree.children id := by
  cases found : tree.node? id with
  | none =>
      rw [fields, children, found]
      rfl
  | some node =>
      rw [fields_of_node? found, children_of_node? found]
      exact linked_of_ofJson built found

/-! ### Numbers and positions -/

theorem getElem?_root (built : ofJson document = .ok tree) : document.nodePositions[root]? = some [] := by
  obtain ⟨below, _, _, isPositions, _⟩ := exists_stored built
  rw [isPositions]
  rfl

theorem kind?_of_position (built : ofJson document = .ok tree) {id : Nat} {position : Position}
    (found : document.nodePositions[id]? = some position) :
    tree.kind? id = document.kindAt? position := by
  obtain ⟨node, isHere, ⟨members, isObject, isNode, _⟩, _⟩ := exists_node_of_position built found
  rw [kind?, isHere, Json.kindAt?, isObject]
  exact isNode.symm

theorem exists_position (built : ofJson document = .ok tree) {id : Nat} (inTree : id < tree.size) :
    ∃ position, document.nodePositions[id]? = some position := by
  rw [← length_nodePositions built] at inTree
  exact ⟨_, List.getElem?_eq_getElem inTree⟩

/-- Every node but the root has the nearest node around it as its parent. -/
theorem parent?_of_position (built : ofJson document = .ok tree) {id : Nat} {position : Position}
    (found : document.nodePositions[id]? = some position) :
    id = root ∨ ∃ above outer, tree.parent? id = some above ∧
      document.nodePositions[above]? = some outer ∧ document.IsNearest outer position := by
  obtain ⟨node, isHere, _, ⟨isRoot, _⟩ | ⟨outer, nearest, isParent⟩⟩ := exists_node_of_position built found
  · exact .inl isRoot
  · refine .inr ⟨document.numberAt outer, outer, ?_, Json.getElem?_numberAt nearest.isNode, nearest⟩
    rw [parent?_of_node? isHere, isParent]

/-- The field `type` of a node is its type. -/
theorem fieldValue?_type (built : ofJson document = .ok tree) {id : Nat} {kind : String}
    (isKind : tree.kind? id = some kind) :
    fieldValue? "type" (tree.fields id) = some (.string kind) := by
  obtain ⟨node, isHere, rfl⟩ := Option.map_eq_some_iff.mp isKind
  obtain ⟨position, found⟩ := exists_position built (lt_size_of_node? isHere)
  obtain ⟨_, isSame, ⟨members, _, isNode, isFields⟩, _⟩ := exists_node_of_position built found
  obtain rfl := Option.some.inj (isHere.symm.trans isSame)
  rw [fields_of_node? isHere, isFields, Json.fieldValue?_imageOfMembers (by decide)]
  unfold nodeType? at isNode
  split at isNode
  · rename_i kind isType
    obtain rfl := Option.some.inj isNode
    rw [Json.lookup?_eq] at isType
    obtain ⟨index, isNumber, isMember⟩ := Option.bind_eq_some_iff.mp isType
    obtain ⟨member, isHere, isValue⟩ := Option.map_eq_some_iff.mp isMember
    rw [isNumber, Option.bind_some, isHere, Option.map_some, isValue]
    rfl
  · contradiction

/-- The tree numbers the nodes of a document and links them. The positions of a document that hold nodes, which
lie in no member with the key `parent`, are its `nodePositions`. -/
structure IsArena (tree : Tree) (document : Json) : Prop where
  /-- The list holds exactly the positions of nodes. -/
  listed : ∀ position, position ∈ document.nodePositions ↔ (document.kindAt? position).isSome = true
  /-- It is in the order of the document. The place of a position in it is the number of the node. -/
  ordered : document.nodePositions.Pairwise (· < ·)
  size : document.nodePositions.length = tree.size
  /-- The root is the whole document. -/
  root : document.nodePositions[root]? = some []
  /-- A node has the type of the object at its position. -/
  kind : ∀ id position, document.nodePositions[id]? = some position →
    tree.kind? id = document.kindAt? position
  /-- The root alone has no parent. -/
  parentless : ∀ id, id < tree.size → (tree.parent? id = none ↔ id = Tree.root)
  /-- A parent is the nearest node around its child, and comes before it. -/
  parent : ∀ id above, tree.parent? id = some above → above < id ∧
    ∃ position outer, document.nodePositions[id]? = some position ∧
      document.nodePositions[above]? = some outer ∧ document.IsNearest outer position
  /-- A node is once among the children of its parent, and not among those of another node. -/
  child : ∀ id above, (tree.children above).count id = if tree.parent? id = some above then 1 else 0
  /-- Children are listed in the order of the document. -/
  ascending : ∀ id, (tree.children id).Pairwise (· < ·)
  /-- A node is once in the fields of its parent, and not in those of another node. -/
  reference : ∀ id above, (Value.nodeIdsOfFields (tree.fields above)).count id
    = if tree.parent? id = some above then 1 else 0
  /-- The field `type` of a node is its type. -/
  type : ∀ id kind, tree.kind? id = some kind →
    fieldValue? "type" (tree.fields id) = some (.string kind)

/-- Every tree of a document is an arena of it. -/
theorem isArena_of_ofJson (built : ofJson document = .ok tree) : tree.IsArena document where
  listed := document.mem_nodePositions_iff
  ordered := document.pairwise_nodePositions
  size := length_nodePositions built
  root := getElem?_root built
  kind _ _ found := kind?_of_position built found
  parentless id inTree := by
    constructor
    · intro noParent
      obtain ⟨position, found⟩ := exists_position built inTree
      rcases parent?_of_position built found with isRoot | ⟨above, _, isParent, _⟩
      · exact isRoot
      · rw [noParent] at isParent
        contradiction
    · rintro rfl
      exact parent?_top built
  parent id above isParent := by
    refine ⟨parent?_lt built isParent, ?_⟩
    obtain ⟨_, isHere, _⟩ := Option.bind_eq_some_iff.mp isParent
    obtain ⟨position, found⟩ := exists_position built (lt_size_of_node? isHere)
    rcases parent?_of_position built found with rfl | ⟨other, outer, isOther, isOuter, nearest⟩
    · rw [parent?_top built] at isParent
      contradiction
    · obtain rfl := Option.some.inj (isParent.symm.trans isOther)
      exact ⟨position, outer, found, isOuter, nearest⟩
  child := count_children built
  ascending := pairwise_children built
  reference id above := by rw [nodeIds_fields built, count_children built]
  type _ _ isKind := fieldValue?_type built isKind

/-- Nodes in a list inside a plain object, and one in a member that is left out. -/
theorem isArena_of_ofJson_wrapped :
    ∃ document tree,
      document = Json.object [("type", .string "A"), ("parent", .object [("type", .string "B")]),
        ("data", .object [("list", .array
          [.null, .object [("type", .string "C"), ("of", .object [("type", .string "D")])]])]),
        ("last", .object [("type", .string "E")])] ∧
      ofJson document = .ok tree ∧ tree.IsArena document ∧
      document.nodePositions = [[], [2, 0, 1], [2, 0, 1, 1], [3]] ∧
      tree.children root = [1, 3] ∧ tree.parent? 2 = some 1 :=
  ⟨_, _, rfl, rfl, isArena_of_ofJson rfl, rfl, rfl, rfl⟩

end Tree

end TreeLint
