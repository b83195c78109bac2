import TreeLint.Proofs.Event.Dispatch

/-!
Contract: the nodes on which a pattern fires in a run.

Owns:
- which lists of patterns can be registered;
- the events of a run, as the brute force of the steps of the walk;
- `Tree.visited`, the nodes of a tree in the order in which they are entered or left;
- the nodes of the events of one pattern: those that it matches, in the order of the walk, whatever is
  registered beside it.
-/

set_option autoImplicit false

namespace TreeLint

namespace Registry

variable {tree : Tree} {engine : RegexEngine} {patterns : List String} {registry : Registry}

/-! ### Registration -/

theorem exists_entry {pattern : String}
    (denotes : (Pattern.selector? engine pattern).isSome = true) :
    ∃ entry, Registration.ofPattern engine pattern = .ok entry := by
  unfold Pattern.selector? at denotes
  unfold Registration.ofPattern
  simp only
  split
  · exact ⟨_, rfl⟩
  · rename_i failed
    rw [failed] at denotes
    contradiction

theorem exists_register (registry : Registry)
    (denote : ∀ pattern ∈ patterns, (Pattern.selector? engine pattern).isSome = true) :
    ∃ after, register engine registry patterns = .ok after := by
  induction patterns generalizing registry with
  | nil => exact ⟨registry, rfl⟩
  | cons pattern rest inductionHypothesis =>
      rw [List.forall_mem_cons] at denote
      obtain ⟨entry, isEntry⟩ := exists_entry denote.1
      rw [register, isEntry]
      split
      · exact inductionHypothesis registry denote.2
      · exact inductionHypothesis (registry.add entry) denote.2

/-- Patterns can be registered together exactly if the text of each of them denotes a selector. -/
theorem exists_ofPatterns_iff :
    (∃ registry, ofPatterns engine patterns = .ok registry) ↔
      ∀ pattern ∈ patterns, (Pattern.selector? engine pattern).isSome = true := by
  refine ⟨?_, exists_register empty⟩
  rintro ⟨registry, isRegistry⟩ pattern member
  have isRaw : pattern ∈ registry.raws := by
    rw [raws_ofPatterns isRegistry]
    exact List.mem_eraseDups.mpr member
  obtain ⟨entry, isEntry, rfl⟩ := List.mem_map.mp isRaw
  rw [selector?_raw (registered_ofPatterns isRegistry) isEntry]
  rfl

/-! ### Runs -/

/-- A run fires what the patterns fire by brute force, step by step along the walk. -/
theorem exists_run (isRegistry : ofPatterns engine patterns = .ok registry) (tree : Tree) :
    ∃ memo, registry.run tree engine
      = .ok (tree.walk.flatMap (bruteForce tree engine patterns), memo) := by
  obtain ⟨memo, runs, _⟩ := answers_visitAll (registered_ofPatterns isRegistry) tree.walk .empty
    Memo.Sound.empty
  have sameEvents : tree.walk.flatMap (registry.expected tree engine)
      = tree.walk.flatMap (bruteForce tree engine patterns) :=
    List.flatMap_congr fun step _ => expected_eq_bruteForce isRegistry step
  exact ⟨memo, sameEvents ▸ runs⟩

end Registry

/-! ### Nodes in the order of the walk -/

/-- The nodes of a tree in the order in which a walk leaves them, or enters them. -/
def Tree.visited (tree : Tree) (onLeave : Bool) : List Nat :=
  (tree.walk.filter (·.leaves == onLeave)).map Visit.node

theorem Visit.eq_of_turn {step other : Visit} (sameTurn : step.leaves = other.leaves)
    (sameNode : step.node = other.node) : step = other := by
  cases step <;> cases other
  · exact congrArg _ sameNode
  · exact Bool.noConfusion sameTurn
  · exact Bool.noConfusion sameTurn
  · exact congrArg _ sameNode

theorem Tree.nodup_visited {tree : Tree} {document : Json}
    (built : Tree.ofJson document = .ok tree) (onLeave : Bool) : (tree.visited onLeave).Nodup := by
  refine List.Nodup.map_on ?_ ((Tree.nodup_walk built).filter _)
  intro step member other otherMember sameNode
  have turn : step.leaves = onLeave := beq_iff_eq.mp (List.mem_filter.mp member).2
  have otherTurn : other.leaves = onLeave := beq_iff_eq.mp (List.mem_filter.mp otherMember).2
  exact Visit.eq_of_turn (turn.trans otherTurn.symm) sameNode

/-- A walk enters every node once and leaves every node once. -/
theorem Tree.visited_perm {tree : Tree} {document : Json}
    (built : Tree.ofJson document = .ok tree) (onLeave : Bool) :
    (tree.visited onLeave).Perm (List.range tree.size) := by
  rw [List.perm_ext_iff_of_nodup (Tree.nodup_visited built onLeave) List.nodup_range]
  intro id
  simp only [Tree.visited, List.mem_map, List.mem_filter, Tree.mem_walk_iff built, List.mem_range,
    beq_iff_eq]
  constructor
  · rintro ⟨step, ⟨inTree, _⟩, rfl⟩
    exact inTree
  · intro inTree
    cases onLeave with
    | false => exact ⟨.enter id, ⟨inTree, rfl⟩, rfl⟩
    | true => exact ⟨.leave id, ⟨inTree, rfl⟩, rfl⟩

section Nodes

variable {tree : Tree} {engine : RegexEngine} {patterns : List String}

theorem nodesFor_append (events others : List Event) (name : String) :
    nodesFor (events ++ others) name = nodesFor events name ++ nodesFor others name := by
  rw [nodesFor, List.filter_append, List.map_append, nodesFor, nodesFor]

theorem node_of_mem_bruteForce {step : Visit} {event : Event}
    (member : event ∈ bruteForce tree engine patterns step) : event.node = step.node := by
  obtain ⟨_, _, rfl⟩ := List.mem_map.mp member
  rfl

/-- In one step, a registered pattern fires once or not at all. -/
theorem nodesFor_bruteForce {pattern : String} (given : pattern ∈ patterns) (step : Visit) :
    nodesFor (bruteForce tree engine patterns step) pattern
      = if Pattern.fires tree engine step pattern then [step.node] else [] := by
  have named : (bruteForce tree engine patterns step).filter (·.name == pattern)
      = (bruteForce tree engine patterns step).filter (· == ⟨pattern, step.node⟩) := by
    apply List.filter_congr
    rintro ⟨name, id⟩ member
    have isHere : id = step.node := node_of_mem_bruteForce member
    subst isHere
    rw [Bool.eq_iff_iff]
    simp
  have fires : Pattern.fires tree engine step pattern = true ↔
      step = Pattern.turn pattern step.node ∧ pattern ∈ patterns ∧
        Pattern.holds tree engine pattern step.node = true := by
    rw [Pattern.eq_turn_iff, Pattern.fires, Bool.and_eq_true, beq_iff_eq]
    simp [given]
  rw [nodesFor, named, List.filter_beq, count_bruteForce, List.map_replicate]
  simp only [← fires]
  split <;> rfl

theorem nodesFor_flatMap_bruteForce {pattern : String} (given : pattern ∈ patterns)
    (steps : List Visit) :
    nodesFor (steps.flatMap (bruteForce tree engine patterns)) pattern
      = (steps.filter (Pattern.fires tree engine · pattern)).map Visit.node := by
  induction steps with
  | nil => rfl
  | cons step rest inductionHypothesis =>
      rw [List.flatMap_cons, nodesFor_append, inductionHypothesis, nodesFor_bruteForce given,
        List.filter_cons]
      split <;> rfl

/-- The nodes of the steps in which a pattern fires are those that it matches. -/
theorem map_node_fires (pattern : String) :
    (tree.walk.filter (Pattern.fires tree engine · pattern)).map Visit.node
      = (tree.visited (splitExit pattern).2).filter (Pattern.holds tree engine pattern) := by
  rw [Tree.visited, List.filter_map, List.filter_filter]
  congr 1
  apply List.filter_congr
  intro step _
  rw [Pattern.fires, Bool.and_comm, Bool.beq_comm]
  rfl

/-- A pattern fires on the nodes that it matches, in the order of the walk. -/
theorem nodesFor_walk {pattern : String} (given : pattern ∈ patterns) :
    nodesFor (tree.walk.flatMap (bruteForce tree engine patterns)) pattern
      = (tree.visited (splitExit pattern).2).filter (Pattern.holds tree engine pattern) := by
  rw [nodesFor_flatMap_bruteForce given, map_node_fires]

end Nodes

end TreeLint
