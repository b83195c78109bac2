import TreeLint.Proofs.Event.Histories
import TreeLint.Proofs.Event.Union
import TreeLint.Proofs.Selector.Variation

/-!
Contract: variants of a selector behave alike.

Owns:
- `Memo.Reached`, the memories that a matcher can have after queries about some selectors;
- what variants have in common: the hint, the answers of matchers in any state, and the nodes on which their patterns
  fire, with their order if both patterns fire on entering or both on leaving.
-/

set_option autoImplicit false

namespace TreeLint

/-- The memories that queries lead to from the empty one. -/
inductive Memo.Reached (tree : Tree) (engine : RegexEngine) (roots : List Selector) : Memo → Prop where
  | empty : Reached tree engine roots .empty
  | ask {memo after : Memo} {answer : Bool} (query : Query roots) : Reached tree engine roots memo →
      (query.ask tree engine).run memo = .ok (answer, after) → Reached tree engine roots after

theorem Memo.Reached.sound {tree : Tree} {engine : RegexEngine} {roots : List Selector}
    (wellFormed : ∀ root ∈ roots, root.WellFormed) {memo : Memo} (reached : memo.Reached tree engine roots) :
    memo.Sound tree engine roots := by
  induction reached with
  | empty => exact .empty
  | ask query _ ran inductionHypothesis =>
      obtain ⟨after, runs, sound⟩ := query.answers_ask wellFormed _ inductionHypothesis
      obtain ⟨_, rfl⟩ := Prod.mk.inj (Except.ok.inj (ran.symm.trans runs))
      exact sound

/-- In any state that queries lead to, a matcher of well-formed selectors says of each part what it means. -/
theorem Memo.Reached.exists_run {tree : Tree} {engine : RegexEngine} {roots : List Selector}
    (wellFormed : ∀ root ∈ roots, root.WellFormed) {memo : Memo} (reached : memo.Reached tree engine roots)
    (part : Part roots) (id : Nat) :
    ∃ after, ((Query.node part id).ask tree engine).run memo
      = .ok (part.selector.holds tree engine id, after) := by
  obtain ⟨after, runs, _⟩ := (Query.node part id).answers_ask wellFormed memo (reached.sound wellFormed)
  exact ⟨after, runs⟩

section Patterns

variable {tree : Tree} {engine : RegexEngine} {selector other : Selector} {pattern otherPattern : String}

theorem Selector.Variants.pattern_holds_eq (variants : selector.Variants other)
    (denotes : Pattern.selector? engine pattern = some selector)
    (otherDenotes : Pattern.selector? engine otherPattern = some other) :
    Pattern.holds tree engine pattern = Pattern.holds tree engine otherPattern := by
  funext id
  rw [Pattern.holds, Pattern.holds, denotes, otherDenotes, Option.any_some, Option.any_some]
  exact variants.holds_eq tree engine id

end Patterns

/-- Selectors that differ in subject marks, in the order of members and in repeated members have the same hint. On
every node of the tree of a document, two matchers of well-formed selectors, or one, in any states that queries
lead to, say the same of both. Patterns of theirs that are registered together fire on the same nodes, and in the same
order if both or neither of them fire on leaving. -/
theorem variants_alike {document : Json} {tree : Tree} (engine : RegexEngine)
    (built : Tree.ofJson document = .ok tree) {selector other : Selector} (variants : selector.Variants other) :
    selector.hint = other.hint ∧
      (∀ roots otherRoots : List Selector, (∀ root ∈ roots, root.WellFormed) →
        (∀ root ∈ otherRoots, root.WellFormed) →
        ∀ (part : Part roots) (otherPart : Part otherRoots), part.selector = selector →
          otherPart.selector = other →
          ∀ memo otherMemo : Memo, memo.Reached tree engine roots → otherMemo.Reached tree engine otherRoots →
            ∀ id : Nat, ∃ answer after otherAfter,
              ((Query.node part id).ask tree engine).run memo = .ok (answer, after) ∧
              ((Query.node otherPart id).ask tree engine).run otherMemo = .ok (answer, otherAfter)) ∧
      ∀ (patterns : List String) (registry : Registry), Registry.ofPatterns engine patterns = .ok registry →
        ∃ events memo, registry.run tree engine = .ok (events, memo) ∧
          ∀ pattern ∈ patterns, ∀ otherPattern ∈ patterns,
            Pattern.selector? engine pattern = some selector →
            Pattern.selector? engine otherPattern = some other →
              (nodesFor events pattern).Perm (nodesFor events otherPattern) ∧
                ((splitExit pattern).2 = (splitExit otherPattern).2 →
                  nodesFor events pattern = nodesFor events otherPattern) := by
  refine ⟨variants.hint_eq, ?_, ?_⟩
  · rintro roots otherRoots wellFormed otherWellFormed part otherPart rfl rfl memo otherMemo reached
      otherReached id
    obtain ⟨after, runs⟩ := reached.exists_run wellFormed part id
    obtain ⟨otherAfter, otherRuns⟩ := otherReached.exists_run otherWellFormed otherPart id
    rw [← variants.holds_eq tree engine id] at otherRuns
    exact ⟨_, after, otherAfter, runs, otherRuns⟩
  · intro patterns registry isRegistry
    obtain ⟨memo, runs⟩ := Registry.exists_run isRegistry tree
    refine ⟨_, memo, runs, fun pattern given otherPattern otherGiven denotes otherDenotes => ?_⟩
    have sameNodes : Pattern.holds tree engine pattern = Pattern.holds tree engine otherPattern :=
      variants.pattern_holds_eq denotes otherDenotes
    rw [nodesFor_walk given, nodesFor_walk otherGiven, sameNodes]
    constructor
    · have allNodes := Tree.visited_perm built (splitExit pattern).2
      exact (allNodes.trans (Tree.visited_perm built (splitExit otherPattern).2).symm).filter _
    · intro sameTurn
      rw [sameTurn]

/-- Another order, a mark and a repeated member, in two patterns that fire on entering. -/
theorem variants_alike_union :
    ∃ tree registry events memo,
      Tree.ofJson (.object [("type", .string "A"), ("b", .object [("type", .string "B")])]) = .ok tree ∧
      Registry.ofPatterns .standard ["A, B", "B, B, !A"] = .ok registry ∧
      registry.run tree .standard = .ok (events, memo) ∧
      nodesFor events "A, B" = nodesFor events "B, B, !A" := by
  have built : Tree.ofJson (.object [("type", .string "A"), ("b", .object [("type", .string "B")])])
      = .ok _ := rfl
  have denotes : Pattern.selector? .standard "A, B"
      = some (.union false [.ofAtom (.identifier "A"), .ofAtom (.identifier "B")]) := by
    with_unfolding_all rfl
  have otherDenotes : Pattern.selector? .standard "B, B, !A"
      = some (.union false [.ofAtom (.identifier "B"), .ofAtom (.identifier "B"),
          .atom true (.identifier "A")]) := by
    with_unfolding_all rfl
  have variants : Selector.Variants
      (.union false [.ofAtom (.identifier "A"), .ofAtom (.identifier "B")])
      (.union false [.ofAtom (.identifier "B"), .ofAtom (.identifier "B"), .atom true (.identifier "A")]) := by
    refine .trans _ _ _ (.rel _ _ (.memberOfAny [] _ (.mark true _))) ?_
    refine .trans _ _ _ (.rel _ _ (.repeatAny (List.mem_cons_of_mem _ List.mem_cons_self))) ?_
    exact .rel _ _ (.permuteAny (.cons _ (.swap _ _ _)))
  obtain ⟨registry, isRegistry⟩ := Registry.exists_ofPatterns_iff.mpr
    (show ∀ pattern ∈ ["A, B", "B, B, !A"], (Pattern.selector? .standard pattern).isSome = true by
      simp [denotes, otherDenotes])
  obtain ⟨_, _, fire⟩ := variants_alike .standard built variants
  obtain ⟨events, memo, runs, alike⟩ := fire _ registry isRegistry
  obtain ⟨_, sameOrder⟩ := alike "A, B" (by decide) "B, B, !A" (by decide) denotes otherDenotes
  exact ⟨_, registry, events, memo, built, isRegistry, runs, sameOrder (by decide)⟩

/-- Two patterns with the same selector, of which one fires on leaving, fire on nested nodes in opposite orders. -/
theorem variants_fire_in_other_order :
    ∃ tree registry events memo selector,
      Tree.ofJson (.object [("type", .string "A"), ("b", .object [("type", .string "A")])]) = .ok tree ∧
      Registry.ofPatterns .standard ["A", "A:exit"] = .ok registry ∧
      registry.run tree .standard = .ok (events, memo) ∧
      Pattern.selector? .standard "A" = some selector ∧ Pattern.selector? .standard "A:exit" = some selector ∧
      selector.Variants selector ∧ nodesFor events "A" = [0, 1] ∧ nodesFor events "A:exit" = [1, 0] := by
  have built : Tree.ofJson (.object [("type", .string "A"), ("b", .object [("type", .string "A")])])
      = .ok _ := rfl
  have denotes : Pattern.selector? .standard "A" = some (.ofAtom (.identifier "A")) := by
    with_unfolding_all rfl
  have denotesMarked : Pattern.selector? .standard "A:exit" = some (.ofAtom (.identifier "A")) := by
    with_unfolding_all rfl
  obtain ⟨registry, isRegistry⟩ := Registry.exists_ofPatterns_iff.mpr
    (show ∀ pattern ∈ ["A", "A:exit"], (Pattern.selector? .standard pattern).isSome = true by
      simp [denotes, denotesMarked])
  obtain ⟨memo, runs⟩ := Registry.exists_run isRegistry _
  refine ⟨_, registry, _, memo, _, built, isRegistry, runs, denotes, denotesMarked, .refl _, ?_, ?_⟩
  · rw [nodesFor_walk (by decide)]
    decide +kernel
  · rw [nodesFor_walk (by decide)]
    decide +kernel

end TreeLint
