import TreeLint.Proofs.Lists
import TreeLint.Tree.Build

/-!
Contract: positions in a document.

Owns:
- `Position`, a way into a document, and `Json.at?`, the part of a document that lies at a position; no position
  leads into a member with the key `parent`;
- `Json.nodePositions`, the positions of the nodes of a document, and the proof that it lists exactly these, in
  document order;
- `Json.IsNearest`, the relation between the position of a part and that of the nearest node around it.

Does not own: how trees number these nodes.
-/

set_option autoImplicit false

namespace TreeLint

/-- A way into a document: for each step down, the number of an item or of a member. In the order of lists of
numbers a part comes after all parts around it and before all parts that begin behind it, so that this is the
order of the document. -/
abbrev Position := List Nat

namespace Json

/-- The part one step below a document: an item of an array, or the value of a member that is not called
`parent`. -/
def part? : Json → Nat → Option Json
  | .array items, index => items[index]?
  | .object members, index =>
      (members[index]?).bind fun (key, value) => if key = "parent" then none else some value
  | _, _ => none

def at? (document : Json) : Position → Option Json
  | [] => some document
  | index :: rest => (document.part? index).bind (·.at? rest)

/-- The type of the node that a document is, if it is one. -/
def kind? : Json → Option String
  | .object members => nodeType? members
  | _ => none

def kindAt? (document : Json) (position : Position) : Option String := (document.at? position).bind kind?

mutual

/-- The positions of the nodes of a document. -/
def nodePositions : Json → List Position
  | .array items => nodePositionsOfItems 0 items
  | .object members =>
      if (nodeType? members).isSome then [] :: nodePositionsOfMembers 0 members
      else nodePositionsOfMembers 0 members
  | .null | .bool _ | .number _ | .string _ => []

def nodePositionsOfItems (index : Nat) : List Json → List Position
  | [] => []
  | item :: rest => item.nodePositions.map (index :: ·) ++ nodePositionsOfItems (index + 1) rest

def nodePositionsOfMembers (index : Nat) : List (String × Json) → List Position
  | [] => []
  | (key, value) :: rest =>
      if key = "parent" then nodePositionsOfMembers (index + 1) rest
      else value.nodePositions.map (index :: ·) ++ nodePositionsOfMembers (index + 1) rest

end

/-! ### Parts -/

def partsOfMembers (members : List ((String × Json) × Nat)) : List (Json × Nat) :=
  members.filterMap fun ((key, value), index) => if key = "parent" then none else some (value, index)

def parts : Json → List (Json × Nat)
  | .array items => items.zipIdx
  | .object members => partsOfMembers members.zipIdx
  | _ => []

theorem partsOfMembers_cons (key : String) (value : Json) (index : Nat)
    (rest : List ((String × Json) × Nat)) :
    partsOfMembers (((key, value), index) :: rest)
      = if key = "parent" then partsOfMembers rest else (value, index) :: partsOfMembers rest := by
  rw [partsOfMembers, List.filterMap_cons]
  by_cases isParent : key = "parent"
  · simp only [if_pos isParent]
    rfl
  · simp only [if_neg isParent]
    rfl

theorem mem_parts_iff {document part : Json} {index : Nat} :
    (part, index) ∈ document.parts ↔ document.part? index = some part := by
  cases document with
  | array items => exact List.mem_zipIdx_iff_getElem?
  | object members =>
      simp only [parts, partsOfMembers, part?, List.mem_filterMap, Option.bind_eq_some_iff, Prod.exists,
        List.mem_zipIdx_iff_getElem?, Option.ite_none_left_eq_some, Option.some.injEq, Prod.mk.injEq]
      constructor
      · rintro ⟨key, value, _, found, notParent, rfl, rfl⟩
        exact ⟨key, value, found, notParent, rfl⟩
      · rintro ⟨key, value, found, notParent, rfl⟩
        exact ⟨key, value, index, found, notParent, rfl, rfl⟩
  | _ => simp [parts, part?]

/-- The parts of a document have ascending numbers. -/
theorem pairwise_parts (document : Json) :
    document.parts.Pairwise fun first second => first.2 < second.2 := by
  cases document with
  | array items => exact pairwise_zipIdx items 0
  | object members =>
      refine (pairwise_zipIdx members 0).filterMap _ ?_
      intro first second ascending kept isKept kept' isKept'
      obtain ⟨_, ⟨⟩⟩ := Option.ite_none_left_eq_some.mp isKept
      obtain ⟨_, ⟨⟩⟩ := Option.ite_none_left_eq_some.mp isKept'
      exact ascending
  | _ => exact .nil

theorem sizeOf_lt_of_part? {document part : Json} {index : Nat}
    (isPart : document.part? index = some part) : sizeOf part < sizeOf document := by
  cases document with
  | array items =>
      have smaller := List.sizeOf_lt_of_mem (List.mem_of_getElem? isPart)
      rw [array.sizeOf_spec]
      omega
  | object members =>
      obtain ⟨⟨key, value⟩, found, isValue⟩ := Option.bind_eq_some_iff.mp isPart
      obtain ⟨_, ⟨⟩⟩ := Option.ite_none_left_eq_some.mp isValue
      have smaller := List.sizeOf_lt_of_mem (List.mem_of_getElem? found)
      rw [Prod.mk.sizeOf_spec] at smaller
      rw [object.sizeOf_spec]
      omega
  | _ => contradiction

/-- What holds of a document if it holds of its parts holds of all documents. -/
theorem induction_on_parts {motive : Json → Prop}
    (step : ∀ document, (∀ index part, document.part? index = some part → motive part) → motive document)
    (document : Json) : motive document :=
  step document fun _ part _isPart => induction_on_parts step part
termination_by sizeOf document
decreasing_by exact sizeOf_lt_of_part? _isPart

/-! ### The positions of nodes -/

/-- The positions of the nodes in a numbered part, seen from the document that it is a part of. -/
def positionsThrough (part : Json × Nat) : List Position := part.1.nodePositions.map (part.2 :: ·)

theorem nodePositionsOfItems_eq (index : Nat) (items : List Json) :
    nodePositionsOfItems index items = (items.zipIdx index).flatMap positionsThrough := by
  induction items generalizing index with
  | nil => rfl
  | cons item rest inductionHypothesis =>
      rw [nodePositionsOfItems, List.zipIdx_cons, List.flatMap_cons, inductionHypothesis]
      rfl

theorem nodePositionsOfMembers_eq (index : Nat) (members : List (String × Json)) :
    nodePositionsOfMembers index members
      = (partsOfMembers (members.zipIdx index)).flatMap positionsThrough := by
  induction members generalizing index with
  | nil => rfl
  | cons member rest inductionHypothesis =>
      obtain ⟨key, value⟩ := member
      rw [nodePositionsOfMembers, List.zipIdx_cons, partsOfMembers_cons, inductionHypothesis]
      by_cases isParent : key = "parent"
      · rw [if_pos isParent, if_pos isParent]
      · rw [if_neg isParent, if_neg isParent, List.flatMap_cons]
        rfl

/-- The nodes of a document are itself, if it is a node, and the nodes in its parts. -/
theorem nodePositions_eq (document : Json) :
    document.nodePositions
      = (if document.kind?.isSome then [[]] else []) ++ document.parts.flatMap positionsThrough := by
  cases document with
  | array items => exact nodePositionsOfItems_eq 0 items
  | object members =>
      rw [nodePositions, nodePositionsOfMembers_eq]
      by_cases isNode : (nodeType? members).isSome = true
      · simp only [kind?, isNode, if_true]
        rfl
      · simp only [kind?, isNode]
        rfl
  | _ => rfl

theorem kindAt?_cons (document : Json) (index : Nat) (rest : Position) :
    document.kindAt? (index :: rest) = (document.part? index).bind (·.kindAt? rest) := by
  rw [kindAt?, at?, Option.bind_assoc]
  rfl

theorem mem_positionsThrough_iff {part : Json × Nat} {index : Nat} {rest : Position} :
    index :: rest ∈ positionsThrough part ↔ part.2 = index ∧ rest ∈ part.1.nodePositions := by
  rw [positionsThrough, List.mem_map]
  constructor
  · rintro ⟨_, member, ⟨⟩⟩
    exact ⟨rfl, member⟩
  · rintro ⟨rfl, member⟩
    exact ⟨rest, member, rfl⟩

theorem ne_nil_of_mem_positionsThrough {part : Json × Nat} {position : Position}
    (member : position ∈ positionsThrough part) : position ≠ [] := by
  obtain ⟨_, _, rfl⟩ := List.mem_map.mp member
  exact List.cons_ne_nil _ _

/-- Exactly the positions of nodes are listed. -/
theorem mem_nodePositions_iff (document : Json) (position : Position) :
    position ∈ document.nodePositions ↔ (document.kindAt? position).isSome = true := by
  induction document using induction_on_parts generalizing position with
  | step document inductionHypothesis =>
      rw [nodePositions_eq, List.mem_append, List.mem_flatMap]
      cases position with
      | nil =>
          have notInside : ¬∃ part ∈ document.parts, [] ∈ positionsThrough part :=
            fun ⟨part, _, member⟩ => ne_nil_of_mem_positionsThrough member rfl
          rw [or_iff_left notInside]
          change _ ↔ document.kind?.isSome = true
          cases document.kind? <;> simp
      | cons index rest =>
          have notItself : index :: rest ∉ if document.kind?.isSome then [([] : Position)] else [] := by
            split <;> simp
          rw [or_iff_right notItself, kindAt?_cons]
          constructor
          · rintro ⟨⟨part, number⟩, isPart, member⟩
            obtain ⟨rfl, inPart⟩ := mem_positionsThrough_iff.mp member
            have reached := mem_parts_iff.mp isPart
            rw [reached, Option.bind_some, ← inductionHypothesis _ part reached]
            exact inPart
          · intro isNode
            cases reached : document.part? index with
            | none =>
                rw [reached] at isNode
                contradiction
            | some part =>
                rw [reached, Option.bind_some, ← inductionHypothesis _ part reached] at isNode
                exact ⟨(part, index), mem_parts_iff.mpr reached, mem_positionsThrough_iff.mpr ⟨rfl, isNode⟩⟩

/-- The positions are listed in the order of the document. -/
theorem pairwise_nodePositions (document : Json) : document.nodePositions.Pairwise (· < ·) := by
  induction document using induction_on_parts with
  | step document inductionHypothesis =>
      rw [nodePositions_eq, List.pairwise_append, List.pairwise_flatMap]
      refine ⟨?_, ⟨?_, ?_⟩, ?_⟩
      · split
        · exact List.pairwise_singleton _ _
        · exact .nil
      · rintro ⟨part, index⟩ member
        rw [positionsThrough, List.pairwise_map]
        exact (inductionHypothesis index part (mem_parts_iff.mp member)).imp fun earlier =>
          List.cons_lt_cons_iff.mpr (.inr ⟨rfl, earlier⟩)
      · refine document.pairwise_parts.imp fun ascending position member position' member' => ?_
        obtain ⟨rest, _, rfl⟩ := List.mem_map.mp member
        obtain ⟨rest', _, rfl⟩ := List.mem_map.mp member'
        exact List.cons_lt_cons_iff.mpr (.inl ascending)
      · intro first isFirst position member
        obtain ⟨part, _, inPart⟩ := List.mem_flatMap.mp member
        obtain ⟨rest, _, rfl⟩ := List.mem_map.mp inPart
        split at isFirst
        · obtain rfl := List.mem_singleton.mp isFirst
          exact List.nil_lt_cons _ _
        · contradiction

theorem nodup_nodePositions (document : Json) : document.nodePositions.Nodup := by
  refine document.pairwise_nodePositions.imp ?_
  rintro position _ earlier rfl
  exact List.lt_irrefl position earlier

/-! ### Parts around parts -/

/-- A position is reached from the position around it by one more step. -/
theorem at?_concat (document : Json) (position : Position) (index : Nat) :
    document.at? (position ++ [index]) = (document.at? position).bind (·.part? index) := by
  induction position generalizing document with
  | nil => simp only [List.nil_append, at?, Option.bind_some, Option.bind_fun_some]
  | cons first rest inductionHypothesis =>
      rw [List.cons_append, at?, at?, Option.bind_assoc]
      exact Option.bind_congr fun part _ => inductionHypothesis part

/-- The node at `above` is around `position`, and every other node around `position` is around it. -/
structure IsNearest (document : Json) (above position : Position) : Prop where
  isNode : (document.kindAt? above).isSome = true
  around : above <+: position ∧ above ≠ position
  nearest : ∀ other, other <+: position → other ≠ position → (document.kindAt? other).isSome = true →
    other <+: above

variable {document : Json} {above position : Position}

/-- A node is the nearest one around its own parts. -/
theorem IsNearest.ofNode (isNode : (document.kindAt? position).isSome = true) (index : Nat) :
    document.IsNearest position (position ++ [index]) where
  isNode := isNode
  around := ⟨List.prefix_append _ _, by simp⟩
  nearest other isPrefix isOther _ := by
    rcases List.prefix_concat_iff.mp isPrefix with same | around
    · exact absurd same isOther
    · exact around

/-- The node around a part that is no node is around its parts too. -/
theorem IsNearest.through (nearest : document.IsNearest above position)
    (noNode : document.kindAt? position = none) (index : Nat) :
    document.IsNearest above (position ++ [index]) where
  isNode := nearest.isNode
  around := by
    refine ⟨nearest.around.1.trans (List.prefix_append _ _), ?_⟩
    rintro rfl
    exact absurd (nearest.around.1.length_le) (by simp)
  nearest other isPrefix isOther isNode := by
    rcases List.prefix_concat_iff.mp isPrefix with same | around
    · exact absurd same isOther
    · by_cases isPosition : other = position
      · rw [isPosition, noNode] at isNode
        contradiction
      · exact nearest.nearest other around isPosition isNode

end Json

end TreeLint
