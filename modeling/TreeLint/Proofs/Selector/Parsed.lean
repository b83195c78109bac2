import TreeLint.Proofs.Selector.ParserSoundness
import TreeLint.Proofs.Selector.WellFormed

/-!
Contract: what every selector that the grammar derives has in common.

Owns: the proof that all tests in it are well formed, so that matching it never ends in a fault.
-/

set_option autoImplicit false

namespace TreeLint

namespace SelectorGrammar

variable {engine : RegexEngine} {kinds : List TokenKind}

theorem Value.wellFormed {comparison : Comparison} {operand : Operand}
    (derived : Value engine comparison kinds operand) : Test.WellFormed ⟨comparison, operand⟩ := by
  cases derived with
  | string => exact .inr rfl
  | number => exact .inr rfl
  | path _ => exact .inr rfl
  | typeName isEquality => exact .inl (SelectorParser.isEquality_iff.mpr isEquality)
  | regex isEquality _ _ => exact .inl (SelectorParser.isEquality_iff.mpr isEquality)

theorem AtomOf.wellFormed {condition : Atom} (derived : AtomOf engine kinds condition) :
    condition.WellFormed := by
  cases derived with
  | tested _ value => exact value.wellFormed
  | _ => trivial

theorem Atoms.wellFormed {conditions : List Atom} (derived : Atoms engine kinds conditions) :
    ∀ condition ∈ conditions, condition.WellFormed := by
  induction derived with
  | one first =>
      intro condition member
      rw [List.mem_singleton.mp member]
      exact first.wellFormed
  | cons first _ _ inductionHypothesis =>
      intro condition member
      rcases List.mem_cons.mp member with rfl | further
      · exact first.wellFormed
      · exact inductionHypothesis condition further

theorem Sequence.wellFormed {selector : Selector} (derived : Sequence engine kinds selector) :
    selector.WellFormed := by
  cases derived with
  | single subject first => exact .atom first.wellFormed
  | several subject atoms _ =>
      refine .compound fun member isMember => ?_
      obtain ⟨condition, isCondition, rfl⟩ := List.mem_map.mp isMember
      exact .atom (atoms.wellFormed condition isCondition)

theorem Links.wellFormed {links : List (Combinator × Selector)}
    (derived : Links engine kinds links) :
    ∀ {first : Selector}, first.WellFormed → (joinAll first links).WellFormed := by
  induction derived with
  | nil => exact fun first => first
  | child _ _ right _ inductionHypothesis =>
      exact fun first => inductionHypothesis (.joined first right.wellFormed)
  | descendant _ _ right _ inductionHypothesis =>
      exact fun first => inductionHypothesis (.joined first right.wellFormed)

theorem Chain.wellFormed {selector : Selector} (derived : Chain engine kinds selector) :
    selector.WellFormed := by
  cases derived with
  | intro first links => exact links.wellFormed first.wellFormed

theorem Further.wellFormed {others : List Selector} (derived : Further engine kinds others) :
    ∀ alternative ∈ others, alternative.WellFormed := by
  induction derived with
  | nil => simp
  | cons _ _ first _ inductionHypothesis =>
      intro alternative member
      rcases List.mem_cons.mp member with rfl | further
      · exact first.wellFormed
      · exact inductionHypothesis alternative further

theorem Derives.wellFormed {selector : Selector} (derived : Derives engine kinds selector) :
    selector.WellFormed := by
  cases derived with
  | @intro _ _ _ _ first others _ chain further _ =>
      cases others with
      | nil => exact chain.wellFormed
      | cons other others =>
          refine .union fun member isMember => ?_
          rcases List.mem_cons.mp isMember with rfl | isFurther
          · exact chain.wellFormed
          · exact further.wellFormed member isFurther

end SelectorGrammar

namespace Selector

theorem derives_of_parse {engine : RegexEngine} {text : String} {selector : Selector}
    (parsed : parse engine text = .ok selector) :
    ∃ tokens, Token.ofText text = .ok tokens ∧
      SelectorGrammar.Derives engine (SelectorParser.kindsOf tokens) selector := by
  unfold parse at parsed
  split at parsed
  · simp at parsed
  · rename_i tokens read
    exact ⟨tokens, read, SelectorParser.derives_of_ofTokens parsed⟩

theorem wellFormed_of_parse {engine : RegexEngine} {text : String} {selector : Selector}
    (parsed : parse engine text = .ok selector) : selector.WellFormed := by
  obtain ⟨_, _, derived⟩ := derives_of_parse parsed
  exact derived.wellFormed

end Selector

end TreeLint
