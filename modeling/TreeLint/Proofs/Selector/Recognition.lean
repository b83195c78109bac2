import TreeLint.Proofs.Selector.ParserCompleteness

/-!
Contract: the parser and the grammar of the selector language agree.

Owns: the equivalence of acceptance and derivation over all token lists, also those that no text has, with
the uniqueness of what a token list derives.
-/

set_option autoImplicit false

namespace TreeLint.SelectorParser

open SelectorGrammar

/-- The parser accepts exactly the token lists that the grammar derives and returns what they derive; a
token list derives at most one selector. Positions do not matter. -/
theorem ofTokens_iff_derives_unique (engine : RegexEngine) (finish : Nat) (tokens : List Token) :
    (∀ selector : Selector,
        Selector.ofTokens engine finish tokens = .ok selector ↔
          Derives engine (kindsOf tokens) selector) ∧
      ∀ selector other : Selector,
        Derives engine (kindsOf tokens) selector → Derives engine (kindsOf tokens) other →
          selector = other := by
  refine ⟨fun selector => ⟨derives_of_ofTokens, ofTokens_of_derives finish⟩, ?_⟩
  intro selector other derived derivedOther
  have read := ofTokens_of_derives finish derived
  rw [ofTokens_of_derives finish derivedOther, Except.ok.injEq] at read
  exact read.symm

end TreeLint.SelectorParser
