import TreeLint.Proofs.Event.Firing
import TreeLint.Proofs.Lists
import TreeLint.Proofs.Tree.Tour
import TreeLint.Regex.Standard

/-!
Contract: dispatch is brute force.

Owns:
- what a pattern means by itself, whatever is registered beside it: the selector that its text denotes,
  whether it has a hint, and the steps in which it fires;
- the events of a step by brute force, from the patterns as they are given;
- the equality of a run and the brute force over the depth-first tour, with the count of every event.
-/

set_option autoImplicit false

namespace TreeLint

/-! ### Patterns by themselves -/

namespace Pattern

def selector? (engine : RegexEngine) (pattern : String) : Option Selector :=
  (Selector.parse engine (splitExit pattern).1).toOption

def holds (tree : Tree) (engine : RegexEngine) (pattern : String) (id : Nat) : Bool :=
  (selector? engine pattern).any (·.holds tree engine id)

def isHinted (engine : RegexEngine) (pattern : String) : Bool :=
  (selector? engine pattern).any (·.hint.isSome)

def fires (tree : Tree) (engine : RegexEngine) (step : Visit) (pattern : String) : Bool :=
  (splitExit pattern).2 == step.leaves && holds tree engine pattern step.node

/-- The only step about a node in which a pattern can fire. -/
def turn (pattern : String) (id : Nat) : Visit :=
  if (splitExit pattern).2 then .leave id else .enter id

theorem turn_node (pattern : String) (id : Nat) : (turn pattern id).node = id := by
  unfold turn
  split <;> rfl

theorem eq_turn_iff (pattern : String) (id : Nat) (step : Visit) :
    step = turn pattern id ↔ step.node = id ∧ (splitExit pattern).2 = step.leaves := by
  unfold turn
  cases step <;> cases (splitExit pattern).2 <;> simp [Visit.node, Visit.leaves]

end Pattern

/-- The events of a step by brute force: every distinct pattern is tried, those with a hint first, in the
order in which they are given. -/
def bruteForce (tree : Tree) (engine : RegexEngine) (patterns : List String) (step : Visit) :
    List Event :=
  let tried := patterns.eraseDups
  let first := tried.filter fun pattern =>
    Pattern.isHinted engine pattern && Pattern.fires tree engine step pattern
  let second := tried.filter fun pattern =>
    !Pattern.isHinted engine pattern && Pattern.fires tree engine step pattern
  (first ++ second).map fun pattern => ⟨pattern, step.node⟩

/-! ### Each pattern once -/

section BruteForce

variable {tree : Tree} {engine : RegexEngine} {patterns : List String}

theorem nodup_bruteForce (step : Visit) : (bruteForce tree engine patterns step).Nodup := by
  have distinct := nodup_eraseDups patterns
  apply List.Nodup.map (fun pattern other same => congrArg Event.name same)
  apply List.Nodup.append (distinct.filter _) (distinct.filter _)
  intro pattern inFirst inSecond
  have hinted := List.of_mem_filter inFirst
  have notHinted := List.of_mem_filter inSecond
  simp only [Bool.and_eq_true, Bool.not_eq_true'] at hinted notHinted
  rw [hinted.1] at notHinted
  exact Bool.noConfusion notHinted.1

/-- Brute force names a pattern in its turn if the pattern is given and matches the node. -/
theorem mem_bruteForce_iff (step : Visit) (pattern : String) (id : Nat) :
    ⟨pattern, id⟩ ∈ bruteForce tree engine patterns step ↔
      step = Pattern.turn pattern id ∧ pattern ∈ patterns ∧
        Pattern.holds tree engine pattern id = true := by
  rw [Pattern.eq_turn_iff]
  simp only [bruteForce, List.mem_map, List.mem_append, List.mem_filter, List.mem_eraseDups,
    Event.mk.injEq, Pattern.fires, Bool.and_eq_true, beq_iff_eq]
  constructor
  · rintro ⟨_, found | found, rfl, rfl⟩
    · exact ⟨⟨rfl, found.2.2.1⟩, found.1, found.2.2.2⟩
    · exact ⟨⟨rfl, found.2.2.1⟩, found.1, found.2.2.2⟩
  · rintro ⟨⟨rfl, isTurn⟩, given, holds⟩
    refine ⟨pattern, ?_, rfl, rfl⟩
    cases hinted : Pattern.isHinted engine pattern with
    | true => exact .inl ⟨given, rfl, isTurn, holds⟩
    | false => exact .inr ⟨given, rfl, isTurn, holds⟩

theorem count_bruteForce (step : Visit) (pattern : String) (id : Nat) :
    (bruteForce tree engine patterns step).count ⟨pattern, id⟩
      = if step = Pattern.turn pattern id ∧ pattern ∈ patterns ∧
          Pattern.holds tree engine pattern id = true then 1 else 0 := by
  rw [(nodup_bruteForce step).count]
  exact if_congr (mem_bruteForce_iff step pattern id) rfl rfl

theorem count_flatMap_bruteForce (steps : List Visit) (pattern : String) (id : Nat) :
    (steps.flatMap (bruteForce tree engine patterns)).count ⟨pattern, id⟩
      = if pattern ∈ patterns ∧ Pattern.holds tree engine pattern id = true
        then steps.count (Pattern.turn pattern id) else 0 := by
  induction steps with
  | nil => simp
  | cons step rest inductionHypothesis =>
      rw [List.flatMap_cons, List.count_append, inductionHypothesis, count_bruteForce,
        List.count_cons]
      by_cases isTurn : step = Pattern.turn pattern id
      · by_cases fires : pattern ∈ patterns ∧ Pattern.holds tree engine pattern id = true
        · rw [if_pos ⟨isTurn, fires⟩, if_pos fires, if_pos fires, if_pos (by simp [isTurn]),
            Nat.add_comm]
        · rw [if_neg (fun both => fires both.2), if_neg fires, if_neg fires]
      · have noTurn : (step == Pattern.turn pattern id) = false := beq_eq_false_iff_ne.mpr isTurn
        rw [if_neg (fun both => isTurn both.1), noTurn, Nat.zero_add]
        rfl

end BruteForce

/-! ### Registered patterns -/

namespace Registry

variable {tree : Tree} {engine : RegexEngine} {patterns : List String} {registry : Registry}

theorem selector?_raw (registered : registry.Registered engine) {entry : Registration}
    (member : entry ∈ registry.entries.toList) :
    Pattern.selector? engine entry.raw = some entry.selector := by
  have parsed := (Registration.of_ofPattern (registered.entry entry member)).2.2.1
  rw [Pattern.selector?, parsed]
  rfl

theorem isHinted_raw (registered : registry.Registered engine) {entry : Registration}
    (member : entry ∈ registry.entries.toList) :
    Pattern.isHinted engine entry.raw = entry.hint.isSome := by
  have isHint := (Registration.of_ofPattern (registered.entry entry member)).2.2.2
  rw [Pattern.isHinted, selector?_raw registered member, isHint, Option.any_some]

theorem fires_raw (registered : registry.Registered engine) (step : Visit) {entry : Registration}
    (member : entry ∈ registry.entries.toList) :
    Pattern.fires tree engine step entry.raw = fires tree engine step entry := by
  have onLeave := (Registration.of_ofPattern (registered.entry entry member)).2.1
  rw [Pattern.fires, Pattern.holds, selector?_raw registered member, ← onLeave]
  rfl

/-- What a registry expects of a step is what its patterns fire by brute force. -/
theorem expected_eq_bruteForce (isRegistry : ofPatterns engine patterns = .ok registry)
    (step : Visit) : registry.expected tree engine step = bruteForce tree engine patterns step := by
  have registered := registered_ofPatterns isRegistry
  rw [expected_eq, bruteForce]
  simp only [← raws_ofPatterns isRegistry, raws, List.filter_map]
  rw [← List.map_append, List.map_map]
  congr 2
  · apply List.filter_congr
    intro entry member
    rw [Function.comp_apply, isHinted_raw registered member, fires_raw registered step member]
  · apply List.filter_congr
    intro entry member
    rw [Function.comp_apply, isHinted_raw registered member, fires_raw registered step member,
      Option.not_isSome]

/-- A run over the tree of a document fires, step by step along the depth-first tour, what the patterns
fire by brute force. So each distinct pattern fires once on each node that it matches and on no other node,
whatever is registered beside it and in whatever order. -/
theorem run_eq_bruteForce {document : Json} (built : Tree.ofJson document = .ok tree)
    (isRegistry : ofPatterns engine patterns = .ok registry) :
    ∃ events memo, registry.run tree engine = .ok (events, memo) ∧
      events = (tree.tour Tree.root).flatMap (bruteForce tree engine patterns) ∧
      ∀ pattern id, events.count ⟨pattern, id⟩
        = if id < tree.size ∧ pattern ∈ patterns ∧ Pattern.holds tree engine pattern id = true
          then 1 else 0 := by
  obtain ⟨memo, runs, _⟩ := answers_visitAll (registered_ofPatterns isRegistry) tree.walk .empty
    Memo.Sound.empty
  have sameSteps : tree.walk.flatMap (registry.expected tree engine)
      = (tree.tour Tree.root).flatMap (bruteForce tree engine patterns) := by
    rw [Tree.walk_eq_tour built]
    exact List.flatMap_congr fun step _ => expected_eq_bruteForce isRegistry step
  refine ⟨_, memo, runs, sameSteps, fun pattern id => ?_⟩
  rw [sameSteps, count_flatMap_bruteForce, Tree.count_tour built, Pattern.turn_node]
  by_cases inTree : id < tree.size
  · rw [if_pos inTree]
    exact if_congr (by simp [inTree]) rfl rfl
  · rw [if_neg inTree, ite_self, if_neg (fun all => inTree all.1)]

/-- A node below another one, and four patterns of which two are the same. -/
theorem run_eq_bruteForce_nested :
    ∃ tree registry events memo,
      Tree.ofJson (.object [("type", .string "A"), ("b", .object [("type", .string "B")])])
        = .ok tree ∧
      ofPatterns .standard ["B:exit", "[b]", "A > B", "B:exit"] = .ok registry ∧
      registry.run tree .standard = .ok (events, memo) ∧
      events = [⟨"[b]", 0⟩, ⟨"A > B", 1⟩, ⟨"B:exit", 1⟩] ∧ events.count ⟨"B:exit", 1⟩ = 1 := by
  have accepted : (ofPatterns .standard ["B:exit", "[b]", "A > B", "B:exit"]).toOption.isSome
      = true := by decide +kernel
  have built : Tree.ofJson (.object [("type", .string "A"), ("b", .object [("type", .string "B")])])
      = .ok _ := rfl
  cases isRegistry : ofPatterns .standard ["B:exit", "[b]", "A > B", "B:exit"] with
  | error error =>
      rw [isRegistry] at accepted
      exact Bool.noConfusion accepted
  | ok registry =>
      obtain ⟨events, memo, runs, isBruteForce, counts⟩ := run_eq_bruteForce built isRegistry
      refine ⟨_, registry, events, memo, built, rfl, runs, ?_, ?_⟩
      · rw [isBruteForce]
        decide +kernel
      · rw [counts]
        decide +kernel

end Registry

end TreeLint
