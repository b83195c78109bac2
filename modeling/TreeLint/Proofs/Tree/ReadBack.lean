import TreeLint.Proofs.Tree.Arena

/-!
Contract: what the tree of a document gives back.

Owns:
- `Json.stored`, a document without its members `parent` and with its numbers rounded, and navigation in it;
- `Tree.objectOf`, the object that is read back for a node by putting the objects of other nodes in their places;
- the proof that the root gives back the stored document, and that paths lead in a tree where they lead in the
  object of the node.

Does not own: the order and the links of nodes.
-/

set_option autoImplicit false

namespace TreeLint

/-! ### Stored documents -/

namespace Json

mutual

/-- The document without all members called `parent`, and with its numbers rounded to binary64. -/
def stored : Json → Json
  | .null => .null
  | .bool value => .bool value
  | .number value => .number (.decimal value.toDouble)
  | .string value => .string value
  | .array items => .array (storedItems items)
  | .object members => .object (storedMembers members)

def storedItems : List Json → List Json
  | [] => []
  | item :: rest => item.stored :: storedItems rest

def storedMembers : List (String × Json) → List (String × Json)
  | [] => []
  | (key, value) :: rest =>
      if key = "parent" then storedMembers rest else (key, value.stored) :: storedMembers rest

end

/-- One step of navigation: members by their keys, items by their numbers, and the lengths of arrays and
strings. -/
def inner? : Json → String → Option Json
  | .object members, segment => lookup? segment members
  | .array items, segment =>
      if segment = "length" then some (.number (.decimal (.ofNat items.length)))
      else (arrayIndex? segment).bind fun index => items[index]?
  | .string text, segment =>
      if segment = "length" then some (.number (.decimal (.ofNat text.length))) else none
  | _, _ => none

def navigate (document : Json) : List String → Option Json
  | [] => some document
  | segment :: rest => (document.inner? segment).bind (·.navigate rest)

/-- The number of the part that a segment of a path denotes. -/
def step? : Json → String → Option Nat
  | .object members, segment => if segment = "parent" then none else memberNumber? segment members
  | .array items, segment =>
      if segment = "length" then none else (arrayIndex? segment).filter (· < items.length)
  | _, _ => none

/-- The position that a path leads to from a position. A path that ends in a length leads to none. -/
def target? (document : Json) (position : Position) : List String → Option Position
  | [] => some position
  | segment :: rest =>
      ((document.at? position).bind (·.step? segment)).bind fun index =>
        document.target? (position ++ [index]) rest

end Json

/-! ### Reading back -/

namespace Value

mutual

/-- The document that a value stands for, if the function `object` gives those of nodes. -/
def toJson (object : Nat → Json) : Value → Json
  | .null => .null
  | .bool value => .bool value
  | .number value => .number (.decimal value)
  | .string value => .string value
  | .array items => .array (itemsToJson object items)
  | .object fields => .object (fieldsToJson object fields)
  | .node id => object id

def itemsToJson (object : Nat → Json) : List Value → List Json
  | [] => []
  | item :: rest => item.toJson object :: itemsToJson object rest

def fieldsToJson (object : Nat → Json) : List (String × Value) → List (String × Json)
  | [] => []
  | (key, value) :: rest => (key, value.toJson object) :: fieldsToJson object rest

end

variable {object other : Nat → Json}

mutual

/-- Only the objects of the nodes in a value matter. -/
theorem toJson_congr :
    ∀ value : Value, (∀ id ∈ value.nodeIds, object id = other id) →
      value.toJson object = value.toJson other
  | .null, _ | .bool _, _ | .number _, _ | .string _, _ => rfl
  | .array items, same => congrArg Json.array (itemsToJson_congr items same)
  | .object fields, same => congrArg Json.object (fieldsToJson_congr fields same)
  | .node id, same => same id List.mem_cons_self

theorem itemsToJson_congr :
    ∀ items : List Value, (∀ id ∈ nodeIdsOfItems items, object id = other id) →
      itemsToJson object items = itemsToJson other items
  | [], _ => rfl
  | item :: rest, same => by
      rw [nodeIdsOfItems, List.forall_mem_append] at same
      rw [itemsToJson, itemsToJson, toJson_congr item same.1, itemsToJson_congr rest same.2]

theorem fieldsToJson_congr :
    ∀ fields : List (String × Value), (∀ id ∈ nodeIdsOfFields fields, object id = other id) →
      fieldsToJson object fields = fieldsToJson other fields
  | [], _ => rfl
  | (key, value) :: rest, same => by
      rw [nodeIdsOfFields, List.forall_mem_append] at same
      rw [fieldsToJson, fieldsToJson, toJson_congr value same.1, fieldsToJson_congr rest same.2]

end

end Value

namespace Tree

/-- The object made of the fields of a node, with every node in them replaced by its own object. The nodes in
the fields come after the node, so the replacement ends. -/
def objectOf (tree : Tree) (id : Nat) : Json :=
  .object (Value.fieldsToJson
    (fun child => if _later : id < child ∧ child < tree.size then tree.objectOf child else .null)
    (tree.fields id))
termination_by tree.size - id
decreasing_by
  have := _later
  omega

def readBack (tree : Tree) (value : Value) : Json := value.toJson tree.objectOf

variable {document : Json} {tree : Tree}

theorem objectOf_eq (built : ofJson document = .ok tree) (id : Nat) :
    tree.objectOf id = .object (Value.fieldsToJson tree.objectOf (tree.fields id)) := by
  rw [objectOf]
  congr 1
  apply Value.fieldsToJson_congr
  intro child isReferred
  rw [nodeIds_fields built] at isReferred
  have later := parent?_lt built ((mem_children_iff built).mp isReferred)
  exact dif_pos ⟨later, (closed_of_ofJson built).child id child isReferred⟩

/-- The fields of the node at the position of an object. -/
theorem fields_of_position (built : ofJson document = .ok tree) {position : Position}
    {members : List (String × Json)} (isObject : document.at? position = some (.object members))
    (isNode : (nodeType? members).isSome = true) :
    tree.fields (document.numberAt position) = Json.imageOfMembers document.numberAt position 0 members := by
  have found : document.nodePositions[document.numberAt position]? = some position := by
    apply Json.getElem?_numberAt
    rw [Json.kindAt?, isObject]
    exact isNode
  obtain ⟨node, isHere, ⟨others, isSame, _, isFields⟩, _⟩ := exists_node_of_position built found
  rw [isObject] at isSame
  obtain rfl : members = others := by injection isSame with same; injection same
  rw [fields_of_node? isHere, isFields]

mutual

/-- What a part is stored as gives back the stored part. -/
theorem readBack_image (built : ofJson document = .ok tree) {position : Position} :
    ∀ part : Json, document.at? position = some part →
      tree.readBack (part.image document.numberAt position) = part.stored
  | .null, _ | .bool _, _ | .number _, _ | .string _, _ => rfl
  | .array items, isPart => by
      refine congrArg Json.array (readBack_imageOfItems built items fun index item found => ?_)
      rw [Json.at?_concat, isPart, Option.bind_some, Nat.zero_add]
      exact found
  | .object members, isPart => by
      have fields : Value.fieldsToJson tree.objectOf (Json.imageOfMembers document.numberAt position 0 members)
          = Json.storedMembers members := by
        refine readBack_imageOfMembers built members fun index key value found notParent => ?_
        rw [Json.at?_concat, isPart, Option.bind_some, Nat.zero_add, Json.part?, found, Option.bind_some]
        exact if_neg notParent
      rw [Json.image]
      by_cases isNode : (nodeType? members).isSome = true
      · rw [if_pos isNode, readBack, Value.toJson, objectOf_eq built,
          fields_of_position built isPart isNode, fields]
        rfl
      · rw [if_neg isNode]
        exact congrArg Json.object fields

theorem readBack_imageOfItems (built : ofJson document = .ok tree) {position : Position} {start : Nat} :
    ∀ items : List Json,
      (∀ index item, items[index]? = some item → document.at? (position ++ [start + index]) = some item) →
      Value.itemsToJson tree.objectOf (Json.imageOfItems document.numberAt position start items)
        = Json.storedItems items
  | [], _ => rfl
  | item :: rest, located => by
      refine congrArg₂ List.cons (readBack_image built item (located 0 item rfl))
        (readBack_imageOfItems built rest fun index other found => ?_)
      rw [Nat.add_assoc, Nat.add_comm 1]
      exact located (index + 1) other found

theorem readBack_imageOfMembers (built : ofJson document = .ok tree) {position : Position} {start : Nat} :
    ∀ members : List (String × Json),
      (∀ index key value, members[index]? = some (key, value) → key ≠ "parent" →
        document.at? (position ++ [start + index]) = some value) →
      Value.fieldsToJson tree.objectOf (Json.imageOfMembers document.numberAt position start members)
        = Json.storedMembers members
  | [], _ => rfl
  | (key, value) :: rest, located => by
      have further : Value.fieldsToJson tree.objectOf
          (Json.imageOfMembers document.numberAt position (start + 1) rest) = Json.storedMembers rest := by
        refine readBack_imageOfMembers built rest fun index other inner found notParent => ?_
        rw [Nat.add_assoc, Nat.add_comm 1]
        exact located (index + 1) other inner found notParent
      rw [Json.imageOfMembers, Json.storedMembers]
      by_cases isParent : key = "parent"
      · rw [if_pos isParent, if_pos isParent, further]
      · rw [if_neg isParent, if_neg isParent, Value.fieldsToJson, further]
        exact congrArg (fun first => (key, first) :: Json.storedMembers rest)
          (readBack_image built value (located 0 key value rfl isParent))

end

end Tree

/-! ### One step of navigation -/

namespace Json

def length? : Json → String → Option Nat
  | .array items, segment => if segment = "length" then some items.length else none
  | .string text, segment => if segment = "length" then some text.length else none
  | _, _ => none

theorem exists_member {key : String} {members : List (String × Json)} {index : Nat}
    (isNumber : memberNumber? key members = some index) : ∃ value, members[index]? = some (key, value) := by
  obtain ⟨inside, isKey, _⟩ := List.findIdx?_eq_some_iff_getElem.mp isNumber
  refine ⟨members[index].2, ?_⟩
  rw [List.getElem?_eq_getElem inside, ← beq_iff_eq.mp isKey]

/-- A segment that denotes a part leads to one. -/
theorem exists_part_of_step? {part : Json} {segment : String} {index : Nat}
    (isStep : part.step? segment = some index) : ∃ inner, part.part? index = some inner := by
  cases part with
  | array items =>
      rw [step?] at isStep
      split at isStep
      · contradiction
      · obtain ⟨_, inside⟩ := Option.filter_eq_some_iff.mp isStep
        exact ⟨_, List.getElem?_eq_getElem (of_decide_eq_true inside)⟩
  | object members =>
      rw [step?] at isStep
      split at isStep
      · contradiction
      · rename_i notParent
        obtain ⟨value, found⟩ := exists_member isStep
        refine ⟨value, ?_⟩
        rw [part?, found, Option.bind_some]
        exact if_neg notParent
  | _ => contradiction

theorem storedItems_eq (items : List Json) : storedItems items = items.map stored := by
  induction items with
  | nil => rfl
  | cons item rest inductionHypothesis => rw [storedItems, inductionHypothesis, List.map_cons]

theorem lookup?_storedMembers {key : String} (notParent : key ≠ "parent") (members : List (String × Json)) :
    lookup? key (storedMembers members) = (lookup? key members).map stored := by
  induction members with
  | nil => rfl
  | cons member rest inductionHypothesis =>
      obtain ⟨other, value⟩ := member
      rw [storedMembers, lookup?]
      by_cases isParent : other = "parent"
      · rw [if_pos isParent, if_neg (isParent ▸ notParent.symm), inductionHypothesis]
      · rw [if_neg isParent, lookup?]
        by_cases same : other = key
        · rw [if_pos same, if_pos same]
          rfl
        · rw [if_neg same, if_neg same, inductionHypothesis]

theorem lookup?_parent_storedMembers (members : List (String × Json)) :
    lookup? "parent" (storedMembers members) = none := by
  induction members with
  | nil => rfl
  | cons member rest inductionHypothesis =>
      obtain ⟨other, value⟩ := member
      rw [storedMembers]
      by_cases isParent : other = "parent"
      · rw [if_pos isParent, inductionHypothesis]
      · rw [if_neg isParent, lookup?, if_neg isParent, inductionHypothesis]

/-- A step in a stored document leads to a stored part or to a length. -/
theorem inner?_stored (part : Json) (segment : String) :
    part.stored.inner? segment
      = match part.step? segment with
        | some index => (part.part? index).map stored
        | none => (part.length? segment).map fun count => .number (.decimal (.ofNat count)) := by
  cases part with
  | array items =>
      rw [stored, inner?, step?, length?, storedItems_eq, List.length_map]
      by_cases isLength : segment = "length"
      · simp only [if_pos isLength, Option.map_some]
      · simp only [if_neg isLength, Option.map_none, part?, List.getElem?_map]
        cases arrayIndex? segment with
        | none => rfl
        | some index =>
            by_cases inside : index < items.length
            · simp [Option.filter_some, inside]
            · simp [Option.filter_some, inside]
  | object members =>
      rw [stored, inner?, step?]
      by_cases isParent : segment = "parent"
      · rw [if_pos isParent, isParent, lookup?_parent_storedMembers]
        rfl
      · rw [if_neg isParent, lookup?_storedMembers isParent, lookup?_eq]
        cases isNumber : memberNumber? segment members with
        | none => rfl
        | some index =>
            obtain ⟨value, found⟩ := exists_member isNumber
            simp only [Option.bind_some, found, Option.map_some, part?, if_neg isParent]
  | string text =>
      rw [stored, inner?]
      by_cases isLength : segment = "length"
      · simp only [step?, length?, if_pos isLength, Option.map_some]
      · simp only [step?, length?, if_neg isLength, Option.map_none]
  | _ => rfl

variable {number : Position → Nat} {position : Position}

theorem length_imageOfItems (start : Nat) (items : List Json) :
    (imageOfItems number position start items).length = items.length := by
  induction items generalizing start with
  | nil => rfl
  | cons item rest inductionHypothesis =>
      rw [imageOfItems, List.length_cons, List.length_cons, inductionHypothesis]

theorem getElem?_imageOfItems (start : Nat) (items : List Json) (index : Nat) :
    (imageOfItems number position start items)[index]?
      = (items[index]?).map (image number (position ++ [start + index])) := by
  induction items generalizing start index with
  | nil => rfl
  | cons item rest inductionHypothesis =>
      rw [imageOfItems]
      cases index with
      | zero => rfl
      | succ index =>
          rw [List.getElem?_cons_succ, List.getElem?_cons_succ, inductionHypothesis, Nat.add_assoc,
            Nat.add_comm 1]

theorem fieldValue?_parent_imageOfMembers (start : Nat) (members : List (String × Json)) :
    fieldValue? "parent" (imageOfMembers number position start members) = none := by
  induction members generalizing start with
  | nil => rfl
  | cons member rest inductionHypothesis =>
      obtain ⟨other, value⟩ := member
      rw [imageOfMembers]
      by_cases isParent : other = "parent"
      · rw [if_pos isParent, inductionHypothesis]
      · rw [if_neg isParent, fieldValue?, if_neg isParent, inductionHypothesis]

end Json

namespace Tree

variable {document : Json} {tree : Tree}

/-- The fields that are stored for members are looked up as the members are. -/
theorem fieldValue?_image {position : Position} (members : List (String × Json)) (segment : String) :
    fieldValue? segment (Json.imageOfMembers document.numberAt position 0 members)
      = match (Json.object members).step? segment with
        | some index =>
            ((Json.object members).part? index).map (Json.image document.numberAt (position ++ [index]))
        | none => none := by
  rw [Json.step?]
  by_cases isParent : segment = "parent"
  · rw [if_pos isParent, isParent, Json.fieldValue?_parent_imageOfMembers]
  · rw [if_neg isParent, Json.fieldValue?_imageOfMembers isParent]
    cases isNumber : Json.memberNumber? segment members with
    | none => rfl
    | some index =>
        obtain ⟨value, found⟩ := Json.exists_member isNumber
        simp only [Option.bind_some, found, Option.map_some, Json.part?, if_neg isParent, Nat.zero_add]

/-- A step in a tree leads to what the part is stored as that the segment denotes, or to a length. -/
theorem lookup_image (built : ofJson document = .ok tree) {position : Position} {part : Json}
    (isPart : document.at? position = some part) (segment : String) :
    tree.lookup (part.image document.numberAt position) segment
      = match part.step? segment with
        | some index => (part.part? index).map (Json.image document.numberAt (position ++ [index]))
        | none => (part.length? segment).map fun count => .number (.ofNat count) := by
  cases part with
  | array items =>
      rw [Json.image, lookup, Json.step?, Json.length?, Json.length_imageOfItems]
      by_cases isLength : segment = "length"
      · simp only [if_pos isLength, Option.map_some]
      · simp only [if_neg isLength, Option.map_none, Json.part?, Json.getElem?_imageOfItems, Nat.zero_add]
        cases arrayIndex? segment with
        | none => rfl
        | some index =>
            by_cases inside : index < items.length
            · simp [Option.filter_some, inside]
            · simp [Option.filter_some, inside]
  | object members =>
      rw [Json.image]
      by_cases isNode : (nodeType? members).isSome = true
      · rw [if_pos isNode, lookup, fields_of_position built isPart isNode, fieldValue?_image]
        rfl
      · rw [if_neg isNode, lookup, fieldValue?_image]
        rfl
  | string text =>
      rw [Json.image, lookup]
      by_cases isLength : segment = "length"
      · simp only [Json.step?, Json.length?, if_pos isLength, Option.map_some]
      · simp only [Json.step?, Json.length?, if_neg isLength, Option.map_none]
  | _ => rfl

/-! ### Navigation along paths -/

/-- A path leads from what a part is stored as to what it leads to from the stored part. -/
theorem follow_image (built : ofJson document = .ok tree) (path : List String) {position : Position}
    {part : Json} (isPart : document.at? position = some part) :
    (tree.follow (part.image document.numberAt position) path).map tree.readBack
      = part.stored.navigate path := by
  induction path generalizing position part with
  | nil => exact congrArg some (readBack_image built part isPart)
  | cons segment rest inductionHypothesis =>
      rw [follow, lookup_image built isPart, Json.navigate, Json.inner?_stored]
      cases isStep : part.step? segment with
      | some index =>
          obtain ⟨inner, isInner⟩ := Json.exists_part_of_step? isStep
          simp only [isInner, Option.map_some, Option.bind_some]
          apply inductionHypothesis
          rw [Json.at?_concat, isPart, Option.bind_some, isInner]
      | none =>
          cases part.length? segment with
          | none => rfl
          | some count =>
              cases rest with
              | nil => rfl
              | cons further rest => rfl

/-- What a part is stored as is the node with a number exactly if the number is that of its position. -/
theorem image_eq_node_iff {position : Position} {part : Json} (isPart : document.at? position = some part)
    (id : Nat) :
    part.image document.numberAt position = .node id ↔ document.nodePositions[id]? = some position := by
  have isKind : document.kindAt? position = part.kind? := by rw [Json.kindAt?, isPart, Option.bind_some]
  constructor
  · intro isNode
    cases part with
    | object members =>
        rw [Json.image] at isNode
        split at isNode
        · rename_i isObject
          obtain rfl := Value.node.inj isNode
          exact Json.getElem?_numberAt (isKind ▸ isObject)
        · contradiction
    | _ => contradiction
  · intro found
    have isNode := (document.mem_nodePositions_iff position).mp (List.mem_of_getElem? found)
    rw [isKind] at isNode
    cases part with
    | object members =>
        rw [Json.image, Json.numberAt_of_getElem? found]
        exact if_pos isNode
    | _ => contradiction

/-- A path leads to a node exactly if it leads to the position with the number of the node. -/
theorem follow_eq_node_iff (built : ofJson document = .ok tree) (path : List String) {position : Position}
    {part : Json} (isPart : document.at? position = some part) (id : Nat) :
    tree.follow (part.image document.numberAt position) path = some (.node id) ↔
      ∃ target, document.nodePositions[id]? = some target ∧ document.target? position path = some target := by
  induction path generalizing position part with
  | nil =>
      rw [follow, Option.some.injEq, image_eq_node_iff isPart]
      constructor
      · intro found
        exact ⟨position, found, rfl⟩
      · rintro ⟨_, found, ⟨⟩⟩
        exact found
  | cons segment rest inductionHypothesis =>
      rw [follow, lookup_image built isPart, Json.target?, isPart, Option.bind_some]
      cases isStep : part.step? segment with
      | some index =>
          obtain ⟨inner, isInner⟩ := Json.exists_part_of_step? isStep
          simp only [isInner, Option.map_some, Option.bind_some]
          apply inductionHypothesis
          rw [Json.at?_concat, isPart, Option.bind_some, isInner]
      | none =>
          have nowhere : ¬∃ target, document.nodePositions[id]? = some target ∧
              (none : Option Position) = some target := fun ⟨_, _, absent⟩ => nomatch absent
          rw [Option.bind_none, iff_false_right nowhere]
          cases part.length? segment with
          | none => exact Option.some_ne_none _ ∘ Eq.symm
          | some count =>
              cases rest with
              | nil => exact fun same => nomatch same
              | cons further rest => exact fun same => nomatch same

/-- The objects that are read back for the nodes of a tree are made of their fields, and the root gives back the
stored document. A path leads from a node to what it leads to in the stored object of the node, and to another
node exactly if it leads to the position of that one. -/
theorem reads_back (built : ofJson document = .ok tree) :
    (∀ id, tree.objectOf id = .object (Value.fieldsToJson tree.objectOf (tree.fields id))) ∧
    tree.objectOf root = document.stored ∧
    ∀ id, id < tree.size → ∃ position object,
      document.nodePositions[id]? = some position ∧ document.at? position = some object ∧
      ∀ path,
        (tree.resolve id path).map tree.readBack = object.stored.navigate path ∧
        ∀ other, tree.resolve id path = some (.node other) ↔
          ∃ target, document.nodePositions[other]? = some target ∧
            document.target? position path = some target := by
  refine ⟨objectOf_eq built, ?_, fun id inTree => ?_⟩
  · have isWhole : document.at? [] = some document := rfl
    have whole := readBack_image built document isWhole
    rwa [(image_eq_node_iff isWhole root).mpr (getElem?_root built)] at whole
  · obtain ⟨position, found⟩ := exists_position built inTree
    obtain ⟨_, _, ⟨members, isObject, _⟩, _⟩ := exists_node_of_position built found
    have image := (image_eq_node_iff isObject id).mpr found
    refine ⟨position, .object members, found, isObject, fun path => ⟨?_, fun other => ?_⟩⟩
    · rw [resolve, ← image]
      exact follow_image built path isObject
    · rw [resolve, ← image]
      exact follow_eq_node_iff built path isObject other

/-- A path through a plain object and a list, which is the same with and without a member that is left out. -/
theorem reads_back_wrapped :
    ∃ document tree,
      document = Json.object [("type", .string "A"), ("parent", .object [("type", .string "B")]),
        ("data", .object [("list", .array
          [.null, .object [("type", .string "C"), ("size", .number (.whole false 3))]])])] ∧
      ofJson document = .ok tree ∧
      tree.objectOf root = .object [("type", .string "A"), ("data", .object [("list", .array
        [.null, .object [("type", .string "C"), ("size", .number (.decimal (.ofNat 3)))]])])] ∧
      tree.resolve root ["data", "list", "1"] = some (.node 1) ∧
      (tree.resolve root ["data", "list", "+1", "size"]).map tree.readBack
        = some (.number (.decimal (.ofNat 3))) := by
  obtain ⟨tree, built⟩ : ∃ tree, ofJson (.object
      [("type", .string "A"), ("parent", .object [("type", .string "B")]),
        ("data", .object [("list", .array
          [.null, .object [("type", .string "C"), ("size", .number (.whole false 3))]])])])
      = .ok tree := ⟨_, rfl⟩
  obtain ⟨_, whole, nodes⟩ := reads_back built
  obtain ⟨position, object, isPosition, isObject, paths⟩ := nodes root (root_lt_size built)
  obtain rfl := Option.some.inj isPosition
  obtain rfl := Option.some.inj isObject
  refine ⟨_, tree, rfl, built, whole, ?_, ?_⟩
  · exact ((paths _).2 1).mpr ⟨[2, 0, 1], rfl, by decide +kernel⟩
  · rw [(paths _).1]
    rfl

end Tree

end TreeLint
