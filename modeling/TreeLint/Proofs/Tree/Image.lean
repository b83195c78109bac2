import Mathlib.Data.List.Forall2
import TreeLint.Proofs.Tree.Positions
import TreeLint.Tree.Lookup

/-!
Contract: what the parts of a document are stored as.

Owns:
- `Json.image`, the value that a part of a document is stored as once the numbers of all nodes are known;
- `Json.StoredAs`, the relation between the position of a node in a document and the node in the tree of it;
- the proof that a tree stores every node of its document so, in the order of their positions, and with the
  nearest node around it as its parent.

Does not own: which nodes a node is the parent of, and what is read back from a tree.
-/

set_option autoImplicit false

namespace TreeLint

namespace Json

mutual

/-- The value that the part at a position is stored as. The function `number` gives the numbers of nodes by
their positions. -/
def image (number : Position → Nat) (position : Position) : Json → Value
  | .null => .null
  | .bool value => .bool value
  | .number value => .number value.toDouble
  | .string value => .string value
  | .array items => .array (imageOfItems number position 0 items)
  | .object members =>
      if (nodeType? members).isSome then .node (number position)
      else .object (imageOfMembers number position 0 members)

/-- The values of the items of the array at a position, the first of which has the number `index`. -/
def imageOfItems (number : Position → Nat) (position : Position) (index : Nat) : List Json → List Value
  | [] => []
  | item :: rest => image number (position ++ [index]) item :: imageOfItems number position (index + 1) rest

/-- The fields for the members of the object at a position, the first of which has the number `index`. -/
def imageOfMembers (number : Position → Nat) (position : Position) (index : Nat) :
    List (String × Json) → List (String × Value)
  | [] => []
  | (key, value) :: rest =>
      if key = "parent" then imageOfMembers number position (index + 1) rest
      else (key, image number (position ++ [index]) value) :: imageOfMembers number position (index + 1) rest

end

def memberNumber? (key : String) (members : List (String × Json)) : Option Nat :=
  members.findIdx? (·.1 == key)

theorem memberNumber?_cons (key other : String) (value : Json) (rest : List (String × Json)) :
    memberNumber? key ((other, value) :: rest)
      = if other = key then some 0 else (memberNumber? key rest).map (· + 1) := by
  rw [memberNumber?, List.findIdx?_cons]
  by_cases same : other = key
  · rw [if_pos same, if_pos (beq_iff_eq.mpr same)]
  · rw [if_neg same, if_neg (mt beq_iff_eq.mp same)]
    rfl

theorem lookup?_eq (key : String) (members : List (String × Json)) :
    lookup? key members
      = (memberNumber? key members).bind fun index => (members[index]?).map Prod.snd := by
  induction members with
  | nil => rfl
  | cons member rest inductionHypothesis =>
      obtain ⟨other, value⟩ := member
      rw [lookup?, memberNumber?_cons]
      by_cases same : other = key
      · rw [if_pos same, if_pos same]
        rfl
      · rw [if_neg same, if_neg same, inductionHypothesis, Option.bind_map]
        rfl

/-- The field with a key is the image of the first member with that key. -/
theorem fieldValue?_imageOfMembers {number : Position → Nat} {position : Position} {key : String}
    (notParent : key ≠ "parent") (start : Nat) (members : List (String × Json)) :
    fieldValue? key (imageOfMembers number position start members)
      = (memberNumber? key members).bind fun index =>
          (members[index]?).map fun member => image number (position ++ [start + index]) member.2 := by
  induction members generalizing start with
  | nil => rfl
  | cons member rest inductionHypothesis =>
      obtain ⟨other, value⟩ := member
      have further : ((memberNumber? key rest).bind fun index => (rest[index]?).map fun member =>
            image number (position ++ [start + 1 + index]) member.2)
          = ((memberNumber? key rest).map (· + 1)).bind fun index =>
              (((other, value) :: rest)[index]?).map fun member =>
                image number (position ++ [start + index]) member.2 := by
        rw [Option.bind_map]
        apply Option.bind_congr
        intro index _
        rw [Function.comp_apply, List.getElem?_cons_succ, Nat.add_assoc, Nat.add_comm 1]
      rw [imageOfMembers, memberNumber?_cons]
      by_cases isParent : other = "parent"
      · rw [if_pos isParent, if_neg (isParent ▸ notParent.symm), inductionHypothesis, further]
      · rw [if_neg isParent, fieldValue?]
        by_cases same : other = key
        · rw [if_pos same, if_pos same]
          rfl
        · rw [if_neg same, if_neg same, inductionHypothesis, further]

/-- The node is stored for the object at a position. -/
def StoredAs (document : Json) (number : Position → Nat) (position : Position) (node : Node) : Prop :=
  ∃ members, document.at? position = some (.object members) ∧ nodeType? members = some node.kind ∧
    node.fields = imageOfMembers number position 0 members

/-- The parent of a node is the nearest node around its position. -/
def ParentOf (document : Json) (number : Position → Nat) (position : Position) (node : Node) : Prop :=
  ∃ above, document.IsNearest above position ∧ node.parent = some (number above)

end Json

/-! ### Numbers of positions -/

/-- The positions `below`, seen from `position`, have consecutive numbers. -/
def NumberedFrom (number : Position → Nat) (position : Position) (next : Nat) (below : List Position) : Prop :=
  ∀ (index : Nat) (rest : Position), below[index]? = some rest → number (position ++ rest) = next + index

namespace NumberedFrom

variable {number : Position → Nat} {position : Position} {next : Nat} {first further below : List Position}

theorem left (numbered : NumberedFrom number position next (first ++ further)) :
    NumberedFrom number position next first := by
  intro index rest found
  apply numbered index rest
  rwa [List.getElem?_append_left (List.getElem?_eq_some_iff.mp found).1]

theorem right (numbered : NumberedFrom number position next (first ++ further)) :
    NumberedFrom number position (next + first.length) further := by
  intro index rest found
  rw [Nat.add_assoc]
  apply numbered (first.length + index) rest
  rwa [List.getElem?_append_right (Nat.le_add_right ..), Nat.add_sub_cancel_left]

theorem through {index : Nat} (numbered : NumberedFrom number position next (below.map (index :: ·))) :
    NumberedFrom number (position ++ [index]) next below := by
  intro offset rest found
  have inside := numbered offset (index :: rest) (by rw [List.getElem?_map, found, Option.map_some])
  rwa [List.append_assoc]

/-- The first position is the one that the others are seen from, so it has the first number. -/
theorem head (numbered : NumberedFrom number position next ([] :: below)) : number position = next := by
  simpa using numbered 0 [] rfl

theorem tail (numbered : NumberedFrom number position next ([] :: below)) :
    NumberedFrom number position (next + 1) below := by
  rw [← List.singleton_append] at numbered
  exact numbered.right

end NumberedFrom

namespace Tree

open Json

/-! ### Nodes of parts -/

def growParts (parent next : Nat) : List (Json × Nat) → List Node
  | [] => []
  | (part, _) :: rest =>
      (grow parent next part).nodes
        ++ growParts parent (next + (grow parent next part).nodes.length) rest

theorem nodes_growItems (parent next index : Nat) (items : List Json) :
    (growItems parent next items).nodes = growParts parent next (items.zipIdx index) := by
  induction items generalizing next index with
  | nil => rfl
  | cons item rest inductionHypothesis =>
      rw [List.zipIdx_cons, growParts, ← inductionHypothesis]
      rfl

theorem nodes_growMembers (parent next index : Nat) (members : List (String × Json)) :
    (growMembers parent next members).nodes
      = growParts parent next (partsOfMembers (members.zipIdx index)) := by
  induction members generalizing next index with
  | nil => rfl
  | cons member rest inductionHypothesis =>
      obtain ⟨key, value⟩ := member
      rw [List.zipIdx_cons, partsOfMembers_cons, growMembers]
      by_cases isParent : key = "parent"
      · rw [if_pos isParent, if_pos isParent, ← inductionHypothesis]
      · rw [if_neg isParent, if_neg isParent, growParts, ← inductionHypothesis]
        rfl

/-- A part that is no node adds the nodes of its own parts. -/
theorem nodes_grow_of_plain {document : Json} (noNode : document.kind? = none) (parent next : Nat) :
    (grow parent next document).nodes = growParts parent next document.parts := by
  cases document with
  | array items => exact nodes_growItems parent next 0 items
  | object members =>
      rw [grow, show nodeType? members = none from noNode]
      exact nodes_growMembers parent next 0 members
  | _ => rfl

/-- A node comes before the nodes of its parts. -/
theorem nodes_grow_of_node {members : List (String × Json)} {kind : String}
    (isNode : nodeType? members = some kind) (parent next : Nat) :
    (grow parent next (.object members)).nodes
      = ⟨kind, some parent, (growMembers next (next + 1) members).children,
          (growMembers next (next + 1) members).value⟩
        :: growParts next (next + 1) (Json.object members).parts := by
  rw [grow, isNode]
  exact congrArg _ (nodes_growMembers next (next + 1) 0 members)

theorem length_growParts {parts : List (Json × Nat)}
    (each : ∀ part ∈ parts, ∀ parent next : Nat,
      (grow parent next part.1).nodes.length = part.1.nodePositions.length) (parent next : Nat) :
    (growParts parent next parts).length = (parts.flatMap positionsThrough).length := by
  induction parts generalizing next with
  | nil => rfl
  | cons part rest inductionHypothesis =>
      rw [growParts, List.length_append, List.flatMap_cons, List.length_append, positionsThrough,
        List.length_map, each part List.mem_cons_self,
        inductionHypothesis fun other member => each other (List.mem_cons_of_mem _ member)]

/-- A document grows as many nodes as it has. -/
theorem length_grow (document : Json) (parent next : Nat) :
    (grow parent next document).nodes.length = document.nodePositions.length := by
  induction document using induction_on_parts generalizing parent next with
  | step document inductionHypothesis =>
      have ofParts : ∀ parent next : Nat,
          (growParts parent next document.parts).length = (document.parts.flatMap positionsThrough).length :=
        length_growParts fun part member parent next =>
          inductionHypothesis part.2 part.1 (mem_parts_iff.mp member) parent next
      rw [nodePositions_eq, List.length_append]
      cases isNode : document.kind? with
      | none =>
          rw [nodes_grow_of_plain isNode, ofParts]
          simp
      | some kind =>
          cases document with
          | object members =>
              rw [nodes_grow_of_node isNode, List.length_cons, ofParts, Nat.add_comm]
              rfl
          | _ => contradiction

/-! ### Values and fields -/

variable {number : Position → Nat}

mutual

/-- A document grows into what it is stored as. -/
theorem value_grow {position : Position} {next : Nat} (parent : Nat) :
    ∀ document : Json, NumberedFrom number position next document.nodePositions →
      (grow parent next document).value = image number position document
  | .null, _ | .bool _, _ | .number _, _ | .string _, _ => rfl
  | .array items, numbered => congrArg Value.array (value_growItems parent items numbered)
  | .object members, numbered => by
      rw [nodePositions] at numbered
      rw [grow, image]
      cases isNode : nodeType? members with
      | none =>
          rw [isNode] at numbered
          exact congrArg Value.object (value_growMembers parent members numbered)
      | some kind =>
          rw [isNode] at numbered
          exact congrArg Value.node numbered.head.symm

theorem value_growItems {position : Position} {next index : Nat} (parent : Nat) :
    ∀ items : List Json, NumberedFrom number position next (nodePositionsOfItems index items) →
      (growItems parent next items).value = imageOfItems number position index items
  | [], _ => rfl
  | item :: rest, numbered => by
      have further := numbered.right
      rw [List.length_map, ← length_grow item parent next] at further
      exact congrArg₂ List.cons (value_grow parent item numbered.left.through)
        (value_growItems parent rest further)

theorem value_growMembers {position : Position} {next index : Nat} (parent : Nat) :
    ∀ members : List (String × Json),
      NumberedFrom number position next (nodePositionsOfMembers index members) →
      (growMembers parent next members).value = imageOfMembers number position index members
  | [], _ => rfl
  | (key, value) :: rest, numbered => by
      rw [nodePositionsOfMembers] at numbered
      rw [growMembers, imageOfMembers]
      by_cases isParent : key = "parent"
      · rw [if_pos isParent] at numbered
        rw [if_pos isParent, if_pos isParent]
        exact value_growMembers parent rest numbered
      · rw [if_neg isParent] at numbered
        rw [if_neg isParent, if_neg isParent]
        have further := numbered.right
        rw [List.length_map, ← length_grow value parent next] at further
        rw [← value_grow parent value numbered.left.through, ← value_growMembers parent rest further]
        rfl

end

/-! ### Stored nodes -/

/-- The nodes from a part on are stored for the positions in it, each below its parent. -/
def StoresFrom (document : Json) (number : Position → Nat) (position : Position) (below : List Position)
    (nodes : List Node) : Prop :=
  List.Forall₂ (fun rest node => document.StoredAs number (position ++ rest) node ∧
    document.ParentOf number (position ++ rest) node) below nodes

/-- Parts side by side are stored if each of them is. -/
theorem storesFrom_growParts {document : Json} {position : Position} {parent : Nat}
    {parts : List (Json × Nat)}
    (each : ∀ part ∈ parts, ∀ next : Nat,
      NumberedFrom number (position ++ [part.2]) next part.1.nodePositions →
        StoresFrom document number (position ++ [part.2]) part.1.nodePositions
          (grow parent next part.1).nodes) {next : Nat}
    (numbered : NumberedFrom number position next (parts.flatMap positionsThrough)) :
    StoresFrom document number position (parts.flatMap positionsThrough) (growParts parent next parts) := by
  induction parts generalizing next with
  | nil => exact .nil
  | cons part rest inductionHypothesis =>
      rw [List.flatMap_cons] at numbered ⊢
      have further := numbered.right
      rw [positionsThrough, List.length_map, ← length_grow part.1 parent next] at further
      have first := each part List.mem_cons_self next numbered.left.through
      refine List.rel_append ?_
        (inductionHypothesis (fun other member => each other (List.mem_cons_of_mem _ member)) further)
      rw [positionsThrough, List.forall₂_map_left_iff]
      simpa only [StoresFrom, List.append_assoc, List.singleton_append] using first

/-- A part of a document grows into nodes that are stored for its nodes, if the parent of the growth is the
nearest node around it. -/
theorem storesFrom_grow {document : Json} (part : Json) {position above : Position} {next : Nat}
    (isPart : document.at? position = some part) (nearest : document.IsNearest above position)
    (numbered : NumberedFrom number position next part.nodePositions) :
    StoresFrom document number position part.nodePositions (grow (number above) next part).nodes := by
  induction part using induction_on_parts generalizing position above next with
  | step part inductionHypothesis =>
      have located : ∀ inner index, (inner, index) ∈ part.parts →
          document.at? (position ++ [index]) = some inner := by
        intro inner index member
        rw [at?_concat, isPart, Option.bind_some, mem_parts_iff.mp member]
      have isKind : document.kindAt? position = part.kind? := by rw [kindAt?, isPart, Option.bind_some]
      rw [nodePositions_eq] at numbered ⊢
      cases isNode : part.kind? with
      | none =>
          rw [isNode] at numbered isKind
          rw [nodes_grow_of_plain isNode]
          refine storesFrom_growParts ?_ numbered
          rintro ⟨inner, index⟩ member next numbered
          exact inductionHypothesis index inner (mem_parts_iff.mp member) (located inner index member)
            (nearest.through isKind index) numbered
      | some kind =>
          cases part with
          | object members =>
              rw [isNode] at numbered isKind
              have isNumber : number position = next := numbered.head
              have fields : (growMembers next (next + 1) members).value
                  = imageOfMembers number position 0 members := by
                apply value_growMembers
                rw [nodePositionsOfMembers_eq]
                exact numbered.tail
              rw [nodes_grow_of_node isNode]
              refine .cons ⟨?_, ?_⟩ ?_
              · rw [List.append_nil]
                exact ⟨members, isPart, isNode, fields⟩
              · rw [List.append_nil]
                exact ⟨above, nearest, rfl⟩
              · rw [← isNumber]
                refine storesFrom_growParts ?_ (isNumber ▸ numbered.tail)
                rintro ⟨inner, index⟩ member next numbered
                exact inductionHypothesis index inner (mem_parts_iff.mp member)
                  (located inner index member) (.ofNode (by rw [isKind]; rfl) index) numbered
          | _ => contradiction

/-! ### Whole documents -/

end Tree

def Json.numberAt (document : Json) (position : Position) : Nat := document.nodePositions.idxOf position

theorem Json.numberAt_of_getElem? {document : Json} {id : Nat} {position : Position}
    (found : document.nodePositions[id]? = some position) : document.numberAt position = id := by
  obtain ⟨inside, rfl⟩ := List.getElem?_eq_some_iff.mp found
  exact document.nodup_nodePositions.idxOf_getElem id inside

/-- The number of a node is its place in the list of all positions of nodes. -/
theorem Json.getElem?_numberAt {document : Json} {position : Position}
    (isNode : (document.kindAt? position).isSome = true) :
    document.nodePositions[document.numberAt position]? = some position :=
  List.getElem?_idxOf ((document.mem_nodePositions_iff position).mpr isNode)

theorem Json.numberedFrom_root (document : Json) :
    NumberedFrom document.numberAt [] Tree.root document.nodePositions := by
  intro index rest found
  rw [List.nil_append, numberAt_of_getElem? found, Tree.root, Nat.zero_add]

namespace Tree

open Json

variable {document : Json} {tree : Tree}

/-- The tree of a document stores the node at every position, the first one as the root. -/
theorem exists_stored (built : ofJson document = .ok tree) :
    ∃ below top nodes,
      document.nodePositions = [] :: below ∧ tree.nodes.toList = top :: nodes ∧
      document.StoredAs document.numberAt [] top ∧ top.parent = none ∧
      StoresFrom document document.numberAt [] below nodes := by
  obtain ⟨members, kind, rfl, isNode, rfl, _⟩ := exists_of_ofJson built
  have positions : (Json.object members).nodePositions
      = [] :: (Json.object members).parts.flatMap positionsThrough := by
    rw [nodePositions_eq, Json.kind?, isNode]
    rfl
  have numbered := (Json.object members).numberedFrom_root
  rw [positions] at numbered
  have isRoot : (Json.object members).numberAt [] = root := numbered.head
  refine ⟨_, _, _, positions, rfl, ⟨members, rfl, isNode, ?_⟩, rfl, ?_⟩
  · apply value_growMembers
    rw [nodePositionsOfMembers_eq]
    exact numbered.tail
  · rw [nodes_growMembers root (root + 1) 0 members, ← isRoot]
    refine storesFrom_growParts ?_ (isRoot ▸ numbered.tail)
    rintro ⟨part, index⟩ member next partNumbered
    have isPart : (Json.object members).at? ([] ++ [index]) = some part := by
      rw [at?_concat, at?, Option.bind_some, mem_parts_iff.mp member]
    have isTop : ((Json.object members).kindAt? []).isSome = true := by
      rw [kindAt?, at?, Option.bind_some, Json.kind?, isNode]
      rfl
    exact storesFrom_grow part isPart (.ofNode isTop index) partNumbered

theorem length_nodePositions (built : ofJson document = .ok tree) :
    document.nodePositions.length = tree.size := by
  obtain ⟨below, top, nodes, isPositions, isNodes, _, _, stored⟩ := exists_stored built
  rw [size, ← Array.length_toList, isPositions, isNodes, List.length_cons, List.length_cons,
    stored.length_eq]

/-- The node of a tree with the number of a position is stored for that position. -/
theorem exists_node_of_position (built : ofJson document = .ok tree) {id : Nat} {position : Position}
    (found : document.nodePositions[id]? = some position) :
    ∃ node, tree.node? id = some node ∧ document.StoredAs document.numberAt position node ∧
      (id = root ∧ node.parent = none ∨ document.ParentOf document.numberAt position node) := by
  obtain ⟨below, top, nodes, isPositions, isNodes, topStored, noParent, stored⟩ := exists_stored built
  rw [isPositions] at found
  have isNode : ∀ {node : Node}, (top :: nodes)[id]? = some node → tree.node? id = some node := by
    intro node isHere
    rwa [node?, ← Array.getElem?_toList, isNodes]
  cases id with
  | zero =>
      obtain rfl := Option.some.inj found
      exact ⟨top, isNode rfl, topStored, .inl ⟨rfl, noParent⟩⟩
  | succ index =>
      rw [List.getElem?_cons_succ] at found
      obtain ⟨inside, rfl⟩ := List.getElem?_eq_some_iff.mp found
      have insideNodes : index < nodes.length := stored.length_eq ▸ inside
      obtain ⟨isStored, isParent⟩ := stored.get inside insideNodes
      exact ⟨nodes[index], isNode (List.getElem?_eq_getElem insideNodes), isStored, .inr isParent⟩

end Tree

end TreeLint
