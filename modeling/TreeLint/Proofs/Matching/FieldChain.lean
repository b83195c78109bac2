import TreeLint.Matching.Semantics
import TreeLint.Proofs.Selector.Grammar
import TreeLint.Proofs.Tree.Arena
import TreeLint.Regex.Standard

/-!
Contract: a chain of fields holds level by level.

Owns:
- `Tree.depth`, the number of ancestors of a node, and the law that one step of navigation goes down by at most
  one level, and by none unless it starts at a node;
- `Tree.LeadsTo`, by which a path leads from a value to a node, and what the stack of a search says of it;
- `Tree.Descends`, by which fields lead from a node to one below it, each to a child or to an item of an array;
- the agreement of a chain of fields with all of them, and with one child combinator for each field.

A search along a path may wander through plain objects, nested arrays, indices and lengths. It starts as many
levels above its goal as the path is long, so each of these steps would leave too few for the levels that remain.
-/

set_option autoImplicit false

namespace TreeLint

/-! ### Nodes in parts of a value -/

namespace Value

theorem mem_nodeIdsOfItems_iff {id : Nat} {items : List Value} :
    id ∈ nodeIdsOfItems items ↔ ∃ item ∈ items, id ∈ item.nodeIds := by
  induction items with
  | nil => simp [nodeIdsOfItems]
  | cons item rest inductionHypothesis =>
      rw [nodeIdsOfItems, List.mem_append, inductionHypothesis, List.exists_mem_cons_iff]

theorem mem_nodeIdsOfFields_of_fieldValue? {id : Nat} {name : String} {fields : List (String × Value)}
    {value : Value} (found : fieldValue? name fields = some value) (refers : id ∈ value.nodeIds) :
    id ∈ nodeIdsOfFields fields := by
  induction fields with
  | nil => contradiction
  | cons field rest inductionHypothesis =>
      rw [nodeIdsOfFields, List.mem_append]
      rw [fieldValue?] at found
      split at found
      · obtain rfl := Option.some.inj found
        exact .inl refers
      · exact .inr (inductionHypothesis found)

theorem mem_nodeIds_of_searched {id : Nat} {value part : Value} (isPart : part ∈ value.searched)
    (refers : id ∈ part.nodeIds) : id ∈ value.nodeIds := by
  cases value with
  | array items => exact mem_nodeIdsOfItems_iff.mpr ⟨part, isPart, refers⟩
  | _ => exact List.mem_singleton.mp isPart ▸ refers

end Value

namespace Tree

variable {document : Json} {tree : Tree}

theorem mem_searchedAt_iff {value part : Value} {segment : String} :
    part ∈ tree.searchedAt value segment ↔
      ∃ next, tree.lookup value segment = some next ∧ part ∈ next.searched := by
  rw [searchedAt]
  cases tree.lookup value segment with
  | none => simp
  | some next => simp

/-! ### Levels -/

/-- The number of strict ancestors of a node. -/
def depth (tree : Tree) (id : Nat) : Nat := (tree.ancestors id).length

theorem depth_of_child (built : ofJson document = .ok tree) {id above : Nat}
    (isChild : id ∈ tree.children above) : tree.depth id = tree.depth above + 1 := by
  rw [depth, ancestors_of_parent?_some built ((mem_children_iff built).mp isChild), List.length_cons, depth]

/-- An ancestor lies above a node by as many levels as its place in the chain of ancestors says. -/
theorem depth_of_ancestors (built : ofJson document = .ok tree) {id above levels : Nat}
    (found : (tree.ancestors id)[levels]? = some above) :
    tree.depth id = tree.depth above + (levels + 1) := by
  cases link : tree.parent? id with
  | none =>
      rw [ancestors_of_parent?_none link] at found
      contradiction
  | some parent =>
      have below := depth_of_child built ((mem_children_iff built).mpr link)
      rw [ancestors_of_parent?_some built link] at found
      cases levels with
      | zero => rwa [Option.some.inj found] at below
      | succ levels =>
          rw [List.getElem?_cons_succ] at found
          have further := depth_of_ancestors built found
          omega

/-- All nodes that a value refers to lie at most at a level. -/
def Within (tree : Tree) (level : Nat) (value : Value) : Prop :=
  ∀ id ∈ value.nodeIds, tree.depth id ≤ level

theorem within_node (tree : Tree) (id : Nat) : tree.Within (tree.depth id) (.node id) := by
  intro other refers
  exact Nat.le_of_eq (congrArg tree.depth (List.mem_singleton.mp refers))

theorem Within.searched {level : Nat} {value part : Value} (within : tree.Within level value)
    (isPart : part ∈ value.searched) : tree.Within level part :=
  fun id refers => within id (Value.mem_nodeIds_of_searched isPart refers)

/-- A step of a search that does not start at a node stays within the same node. -/
theorem Within.searchedAt_of_plain {level : Nat} {value part : Value} {segment : String}
    (within : tree.Within level value) (isPlain : ¬∃ id, value = .node id)
    (isPart : part ∈ tree.searchedAt value segment) : tree.Within level part := by
  obtain ⟨next, found, member⟩ := mem_searchedAt_iff.mp isPart
  refine Within.searched ?_ member
  intro id refers
  cases value with
  | node other => exact absurd ⟨other, rfl⟩ isPlain
  | object fields => exact within id (Value.mem_nodeIdsOfFields_of_fieldValue? found refers)
  | array items =>
      rw [lookup] at found
      split at found
      · obtain rfl := Option.some.inj found
        contradiction
      · obtain ⟨index, _, isItem⟩ := Option.bind_eq_some_iff.mp found
        exact within id (Value.mem_nodeIdsOfItems_iff.mpr ⟨next, List.mem_of_getElem? isItem, refers⟩)
  | string text =>
      rw [lookup] at found
      split at found
      · obtain rfl := Option.some.inj found
        contradiction
      · contradiction
  | _ => contradiction

theorem mem_children_of_searchedAt (built : ofJson document = .ok tree) {id above : Nat} {segment : String}
    {part : Value} (isPart : part ∈ tree.searchedAt (.node above) segment) (refers : id ∈ part.nodeIds) :
    id ∈ tree.children above := by
  obtain ⟨next, found, member⟩ := mem_searchedAt_iff.mp isPart
  rw [← nodeIds_fields built]
  exact Value.mem_nodeIdsOfFields_of_fieldValue? found (Value.mem_nodeIds_of_searched member refers)

/-- A step of a search goes down by at most one level. -/
theorem Within.searchedAt (built : ofJson document = .ok tree) {level : Nat} {value part : Value}
    {segment : String} (within : tree.Within level value)
    (isPart : part ∈ tree.searchedAt value segment) : tree.Within (level + 1) part := by
  intro id refers
  by_cases isNode : ∃ above, value = .node above
  · obtain ⟨above, rfl⟩ := isNode
    rw [depth_of_child built (mem_children_of_searchedAt built isPart refers)]
    exact Nat.succ_le_succ (within above (List.mem_singleton_self above))
  · exact Nat.le_succ_of_le (within.searchedAt_of_plain isNode isPart id refers)

/-! ### Searches -/

/-- The path leads from the value to the node `goal`. -/
inductive LeadsTo (tree : Tree) (goal : Nat) : (value : Value) → (path : List String) → Prop where
  | here : LeadsTo tree goal (.node goal) []
  | step {value part : Value} {segment : String} {rest : List String} :
      part ∈ tree.searchedAt value segment → LeadsTo tree goal part rest →
        LeadsTo tree goal value (segment :: rest)

variable {goal level : Nat} {value : Value} {path : List String}

theorem leadsTo_nil_iff : tree.LeadsTo goal value [] ↔ value = .node goal := by
  constructor
  · rintro ⟨⟩
    rfl
  · rintro rfl
    exact .here

theorem leadsTo_cons_iff {segment : String} {rest : List String} :
    tree.LeadsTo goal value (segment :: rest) ↔
      ∃ part ∈ tree.searchedAt value segment, tree.LeadsTo goal part rest := by
  constructor
  · rintro (_ | ⟨isPart, further⟩)
    exact ⟨_, isPart, further⟩
  · rintro ⟨part, isPart, further⟩
    exact .step isPart further

/-- A search comes to a node exactly if something on its stack leads there. -/
theorem searchReaches_iff (tree : Tree) (goal : Nat) (stack : List (Value × List String)) :
    tree.searchReaches goal stack = true ↔ ∃ entry ∈ stack, tree.LeadsTo goal entry.1 entry.2 := by
  fun_induction searchReaches tree goal stack with
  | case1 => simp
  | case2 value stack inductionHypothesis =>
      rw [Bool.or_eq_true, Value.refersTo_iff, inductionHypothesis, List.exists_mem_cons_iff, leadsTo_nil_iff]
  | case3 value segment rest stack inductionHypothesis =>
      rw [inductionHypothesis, List.exists_mem_cons_iff, leadsTo_cons_iff]
      simp only [List.mem_append, List.mem_map, or_and_right, exists_or, exists_exists_and_eq_and]

/-- A search goes down by at most as many levels as its path has segments. -/
theorem depth_le_of_leadsTo (built : ofJson document = .ok tree) (leads : tree.LeadsTo goal value path)
    (within : tree.Within level value) : tree.depth goal ≤ level + path.length := by
  induction leads generalizing level with
  | here => exact within goal (List.mem_singleton_self goal)
  | step isPart _ inductionHypothesis =>
      have bound := inductionHypothesis (within.searchedAt built isPart)
      rw [List.length_cons]
      omega

/-- A search that goes down by as many levels as its path has segments starts at a node. -/
theorem exists_node_of_leadsTo (built : ofJson document = .ok tree) (leads : tree.LeadsTo goal value path)
    (within : tree.Within level value) (deep : level + path.length ≤ tree.depth goal) :
    ∃ id, value = .node id := by
  cases leads with
  | here => exact ⟨goal, rfl⟩
  | step isPart further =>
      by_contra isPlain
      have bound := depth_le_of_leadsTo built further (within.searchedAt_of_plain isPlain isPart)
      rw [List.length_cons] at deep
      omega

/-! ### Descents -/

/-- The field of the node `above` is the node `below`, or an array with this node among its items. -/
def HasUnder (tree : Tree) (segment : String) (above below : Nat) : Prop :=
  fieldValue? segment (tree.fields above) = some (.node below) ∨
    ∃ items, fieldValue? segment (tree.fields above) = some (.array items) ∧ .node below ∈ items

/-- Fields that lead from the node `above` to the node `below`, each to a node right below. -/
inductive Descends (tree : Tree) : (path : List String) → (above below : Nat) → Prop where
  | here {id : Nat} : Descends tree [] id id
  | down {segment : String} {rest : List String} {above middle below : Nat} :
      tree.HasUnder segment above middle → Descends tree rest middle below →
        Descends tree (segment :: rest) above below

theorem hasUnder_iff_searchedAt {segment : String} {above below : Nat} :
    tree.HasUnder segment above below ↔ .node below ∈ tree.searchedAt (.node above) segment := by
  rw [mem_searchedAt_iff]
  constructor
  · rintro (isNode | ⟨items, isArray, member⟩)
    · exact ⟨_, isNode, List.mem_singleton_self _⟩
    · exact ⟨_, isArray, member⟩
  · rintro ⟨next, found, member⟩
    cases next with
    | array items => exact .inr ⟨items, found, member⟩
    | _ => exact .inl (List.mem_singleton.mp member ▸ found)

theorem HasUnder.mem_children (built : ofJson document = .ok tree) {segment : String} {above below : Nat}
    (hasUnder : tree.HasUnder segment above below) : below ∈ tree.children above :=
  mem_children_of_searchedAt built (hasUnder_iff_searchedAt.mp hasUnder) (List.mem_singleton_self below)

theorem leadsTo_of_descends {above : Nat} (descends : tree.Descends path above goal) :
    tree.LeadsTo goal (.node above) path := by
  induction descends with
  | here => exact .here
  | down hasUnder _ inductionHypothesis =>
      exact .step (hasUnder_iff_searchedAt.mp hasUnder) inductionHypothesis

/-- A search with no level to spare descends in every step. -/
theorem descends_of_leadsTo (built : ofJson document = .ok tree) {above : Nat}
    (leads : tree.LeadsTo goal (.node above) path)
    (deep : tree.depth above + path.length ≤ tree.depth goal) : tree.Descends path above goal := by
  induction path generalizing above with
  | nil =>
      obtain rfl := Value.node.inj (leadsTo_nil_iff.mp leads)
      exact .here
  | cons segment rest inductionHypothesis =>
      rw [List.length_cons] at deep
      obtain ⟨part, isPart, further⟩ := leadsTo_cons_iff.mp leads
      have within := (tree.within_node above).searchedAt built isPart
      obtain ⟨middle, rfl⟩ := exists_node_of_leadsTo built further within (by omega)
      have hasUnder : tree.HasUnder segment above middle := hasUnder_iff_searchedAt.mpr isPart
      have below := depth_of_child built (hasUnder.mem_children built)
      exact .down hasUnder (inductionHypothesis further (by omega))

/-- A node and its strict ancestors, nearest first. -/
def lineage (tree : Tree) (id : Nat) : List Nat := id :: tree.ancestors id

theorem lineage_of_descends (built : ofJson document = .ok tree) {above : Nat}
    (descends : tree.Descends path above goal) :
    (tree.lineage goal)[path.length]? = some above := by
  -- The lineage below a node of the chain is kept general: it ends in the lineage of that node.
  suffices ends : ∃ lower, tree.lineage goal = lower ++ tree.lineage above ∧ lower.length = path.length by
    obtain ⟨lower, whole, length⟩ := ends
    rw [whole, ← length, List.getElem?_append_right (Nat.le_refl _), Nat.sub_self]
    rfl
  induction descends with
  | here => exact ⟨[], rfl, rfl⟩
  | @down segment rest above middle below hasUnder _ inductionHypothesis =>
      obtain ⟨lower, whole, length⟩ := inductionHypothesis
      have isParent := (mem_children_iff built).mp (hasUnder.mem_children built)
      refine ⟨lower ++ [middle], ?_, ?_⟩
      · rw [whole, lineage, ancestors_of_parent?_some built isParent, List.append_assoc]
        rfl
      · rw [List.length_append, length]
        rfl

/-- A chain of fields reaches a node exactly if it descends to the node from somewhere. -/
theorem fieldReaches_iff_descends (built : ofJson document = .ok tree) (first : String)
    (rest : List String) (id : Nat) :
    tree.fieldReaches (first :: rest) id = true ↔ ∃ above, tree.Descends (first :: rest) above id := by
  rw [fieldReaches, List.length_cons]
  constructor
  · intro reaches
    cases found : (tree.ancestors id)[rest.length]? with
    | none =>
        simp only [found] at reaches
        contradiction
    | some above =>
        simp only [found, searchReaches_iff, List.mem_singleton, exists_eq_left] at reaches
        have deep := depth_of_ancestors built found
        exact ⟨above, descends_of_leadsTo built reaches (Nat.le_of_eq deep.symm)⟩
  · rintro ⟨above, descends⟩
    have found := lineage_of_descends built descends
    rw [lineage, List.length_cons, List.getElem?_cons_succ] at found
    simp only [found, searchReaches_iff, List.mem_singleton, exists_eq_left]
    exact leadsTo_of_descends descends

/-- What a descent says of each level. -/
theorem exists_descends_iff_levels (built : ofJson document = .ok tree) {id : Nat} :
    (∃ above, tree.Descends path above id) ↔
      path.length ≤ (tree.ancestors id).length ∧
        ∀ (level : Nat) (segment : String) (above below : Nat), path[level]? = some segment →
          (tree.lineage id)[path.length - level]? = some above →
            (tree.lineage id)[path.length - (level + 1)]? = some below →
              tree.HasUnder segment above below := by
  induction path with
  | nil => exact ⟨fun _ => ⟨Nat.zero_le _, fun _ _ _ _ absent => nomatch absent⟩, fun _ => ⟨id, .here⟩⟩
  | cons first rest inductionHypothesis =>
      rw [List.length_cons]
      constructor
      · rintro ⟨above, descends⟩
        have isAbove := lineage_of_descends built descends
        cases descends with
        | @down _ _ _ middle _ hasUnder further =>
            have isMiddle := lineage_of_descends built further
            obtain ⟨_, levels⟩ := inductionHypothesis.mp ⟨middle, further⟩
            refine ⟨Nat.le_of_lt_succ (List.getElem?_eq_some_iff.mp isAbove).1, ?_⟩
            intro level segment upper lower isSegment isUpper isLower
            cases level with
            | zero =>
                obtain rfl := Option.some.inj isSegment
                obtain rfl := Option.some.inj (isAbove.symm.trans isUpper)
                obtain rfl := Option.some.inj (isMiddle.symm.trans isLower)
                exact hasUnder
            | succ level =>
                rw [Nat.add_sub_add_right] at isUpper isLower
                exact levels level segment upper lower isSegment isUpper isLower
      · rintro ⟨enough, levels⟩
        have further : ∃ middle, tree.Descends rest middle id := by
          refine inductionHypothesis.mpr ⟨Nat.le_of_succ_le enough, ?_⟩
          intro level segment upper lower isSegment isUpper isLower
          exact levels (level + 1) segment upper lower isSegment
            (by rwa [Nat.add_sub_add_right]) (by rwa [Nat.add_sub_add_right])
        obtain ⟨middle, descends⟩ := further
        have inLineage : rest.length + 1 < (tree.lineage id).length := Nat.lt_succ_of_le enough
        have hasUnder := levels 0 first _ middle rfl (List.getElem?_eq_getElem inLineage)
          (lineage_of_descends built descends)
        exact ⟨_, .down hasUnder descends⟩

end Tree

/-! ### One combinator for each field -/

namespace Selector

/-- The selector that asks for one field at a time, `.first > .second > …`. -/
def fieldByField (first : String) (rest : List String) : Selector :=
  SelectorGrammar.joinAll (.ofAtom (.field [first]))
    (rest.map fun segment => (.child, .ofAtom (.field [segment])))

end Selector

namespace Tree

variable {document : Json} {tree : Tree} {engine : RegexEngine}

/-- A single field holds of the nodes under it. -/
theorem fieldReaches_single_iff (built : ofJson document = .ok tree) {segment : String} {id : Nat} :
    tree.fieldReaches [segment] id = true ↔ ∃ above, tree.HasUnder segment above id := by
  rw [fieldReaches_iff_descends built]
  refine exists_congr fun above => ⟨?_, fun hasUnder => .down hasUnder .here⟩
  rintro (_ | ⟨hasUnder, _ | _⟩)
  exact hasUnder

/-- Child combinators after a selector, one for each field, descend from a node that the selector matches. -/
theorem holds_joinAll_fields_iff (built : ofJson document = .ok tree) (left : Selector)
    (rest : List String) (id : Nat) :
    (SelectorGrammar.joinAll left
        (rest.map fun segment => (.child, .ofAtom (.field [segment])))).holds tree engine id = true ↔
      ∃ above, tree.Descends rest above id ∧ left.holds tree engine above = true := by
  induction rest generalizing left with
  | nil =>
      constructor
      · exact fun holds => ⟨id, .here, holds⟩
      · rintro ⟨above, _ | _, holds⟩
        exact holds
  | cons segment rest inductionHypothesis =>
      rw [List.map_cons, SelectorGrammar.joinAll, List.foldl_cons]
      refine (inductionHypothesis _).trans ?_
      constructor
      · rintro ⟨middle, descends, holds⟩
        rw [Selector.holds, Bool.and_eq_true] at holds
        obtain ⟨above, hasUnder⟩ := (fieldReaches_single_iff built).mp holds.1
        have isParent := (mem_children_iff built).mp (hasUnder.mem_children built)
        rw [isParent] at holds
        exact ⟨above, .down hasUnder descends, holds.2⟩
      · rintro ⟨above, _ | ⟨hasUnder, descends⟩, holds⟩
        have isParent := (mem_children_iff built).mp (hasUnder.mem_children built)
        refine ⟨_, descends, ?_⟩
        rw [Selector.holds, Bool.and_eq_true, isParent]
        exact ⟨(fieldReaches_single_iff built).mpr ⟨above, hasUnder⟩, holds⟩

theorem holds_fieldByField_iff (built : ofJson document = .ok tree) (first : String)
    (rest : List String) (id : Nat) :
    (Selector.fieldByField first rest).holds tree engine id = true ↔
      ∃ above, tree.Descends (first :: rest) above id := by
  rw [Selector.fieldByField, holds_joinAll_fields_iff built]
  constructor
  · rintro ⟨middle, descends, holds⟩
    obtain ⟨above, hasUnder⟩ := (fieldReaches_single_iff built).mp holds
    exact ⟨above, .down hasUnder descends⟩
  · rintro ⟨above, _ | ⟨hasUnder, descends⟩⟩
    exact ⟨_, descends, (fieldReaches_single_iff built).mpr ⟨above, hasUnder⟩⟩

/-- A chain of fields reaches a node exactly if the node has as many ancestors as the chain has fields, and each
field leads from one ancestor to the next one below it, or to an array with that one. One child combinator for
each field asks for the same. -/
theorem field_holds_iff_levels (built : ofJson document = .ok tree) (engine : RegexEngine)
    (first : String) (rest : List String) (id : Nat) :
    (tree.fieldReaches (first :: rest) id = true ↔
        (first :: rest).length ≤ (tree.ancestors id).length ∧
          ∀ (level : Nat) (segment : String) (above below : Nat),
            (first :: rest)[level]? = some segment →
              (id :: tree.ancestors id)[(first :: rest).length - level]? = some above →
                (id :: tree.ancestors id)[(first :: rest).length - (level + 1)]? = some below →
                  tree.HasUnder segment above below) ∧
      (Selector.ofAtom (.field (first :: rest))).holds tree engine id
        = (Selector.fieldByField first rest).holds tree engine id := by
  have reaches := fieldReaches_iff_descends built first rest id
  refine ⟨reaches.trans (exists_descends_iff_levels built), ?_⟩
  rw [Bool.eq_iff_iff, holds_fieldByField_iff built]
  exact reaches

/-- A node in an array is reached, and a node in an array within that array is not. -/
theorem field_holds_iff_levels_nested :
    ∃ document tree,
      document = Json.object [("type", .string "A"),
        ("body", .object [("type", .string "B"), ("args", .array
          [.object [("type", .string "C")], .array [.object [("type", .string "D")]]])])] ∧
      ofJson document = .ok tree ∧
      (Selector.ofAtom (.field ["body", "args"])).text = ".body.args" ∧
      (Selector.fieldByField "body" ["args"]).text = ".body > .args" ∧
      tree.HasUnder "body" 0 1 ∧ tree.HasUnder "args" 1 2 ∧
      (Selector.ofAtom (.field ["body", "args"])).holds tree .standard 2 = true ∧
      (Selector.fieldByField "body" ["args"]).holds tree .standard 2 = true ∧
      tree.fieldReaches ["body", "args"] 3 = false := by
  obtain ⟨tree, built⟩ : ∃ tree, ofJson (.object [("type", .string "A"),
      ("body", .object [("type", .string "B"), ("args", .array
        [.object [("type", .string "C")], .array [.object [("type", .string "D")]]])])]) = .ok tree :=
    ⟨_, rfl⟩
  obtain ⟨levels, same⟩ := field_holds_iff_levels built .standard "body" ["args"] 2
  obtain ⟨nestedLevels, -⟩ := field_holds_iff_levels built .standard "body" ["args"] 3
  have parents : tree.parent? 3 = some 1 ∧ tree.parent? 2 = some 1 ∧ tree.parent? 1 = some 0 ∧
      tree.parent? 0 = none := by
    obtain rfl := Except.ok.inj built
    exact ⟨rfl, rfl, rfl, rfl⟩
  have fields : fieldValue? "body" (tree.fields 0) = some (.node 1) ∧
      fieldValue? "args" (tree.fields 1) = some (.array [.node 2, .array [.node 3]]) := by
    obtain rfl := Except.ok.inj built
    exact ⟨rfl, rfl⟩
  have ancestors : tree.ancestors 1 = [0] := by
    rw [ancestors_of_parent?_some built parents.2.2.1, ancestors_of_parent?_none parents.2.2.2]
  rw [ancestors_of_parent?_some built parents.2.1, ancestors] at levels
  rw [ancestors_of_parent?_some built parents.1, ancestors] at nestedLevels
  have body : tree.HasUnder "body" 0 1 := .inl fields.1
  have args : tree.HasUnder "args" 1 2 := .inr ⟨_, fields.2, List.mem_cons_self⟩
  have reached : tree.fieldReaches ["body", "args"] 2 = true := by
    refine levels.mpr ⟨Nat.le_refl 2, fun level segment above below isSegment isAbove isBelow => ?_⟩
    match level with
    | 0 =>
        obtain ⟨rfl, rfl, rfl⟩ : "body" = segment ∧ 0 = above ∧ 1 = below :=
          ⟨Option.some.inj isSegment, Option.some.inj isAbove, Option.some.inj isBelow⟩
        exact body
    | 1 =>
        obtain ⟨rfl, rfl, rfl⟩ : "args" = segment ∧ 1 = above ∧ 2 = below :=
          ⟨Option.some.inj isSegment, Option.some.inj isAbove, Option.some.inj isBelow⟩
        exact args
    | _ + 2 => contradiction
  refine ⟨_, tree, rfl, built, by decide, by decide, body, args, reached, same ▸ reached, ?_⟩
  refine Bool.eq_false_iff.mpr fun nested => ?_
  rcases (nestedLevels.mp nested).2 1 "args" 1 3 rfl rfl rfl with isNode | ⟨items, isArray, member⟩
  · rw [fields.2] at isNode
    exact nomatch Option.some.inj isNode
  · obtain rfl := Value.array.inj (Option.some.inj (fields.2.symm.trans isArray))
    simp at member

end Tree

end TreeLint
