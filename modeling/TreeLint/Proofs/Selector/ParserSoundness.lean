import TreeLint.Proofs.Selector.Grammar
import TreeLint.Selector.Parser

/-!
Contract: what the parser reads has a derivation.

Owns one lemma for each function of the parser: the kinds of the tokens that it took are derived by the rule
of the grammar, for the result that it returned. Maximal runs of fields are recorded by the token that
stopped them.
-/

set_option autoImplicit false

namespace TreeLint.SelectorParser

open SelectorGrammar

abbrev kindsOf (tokens : List Token) : List TokenKind := tokens.map Token.kind

variable {engine : RegexEngine} {finish : Nat}

/-! ### Layout -/

theorem kindsOf_skipSpace (tokens : List Token) :
    kindsOf (skipSpace tokens) = (kindsOf tokens).dropWhile (· == .space) := by
  rw [skipSpace, kindsOf, List.dropWhile_map]
  rfl

theorem skipSpace_sound (tokens : List Token) :
    ∃ gap, kindsOf tokens = gap ++ kindsOf (skipSpace tokens) ∧ Layout gap := by
  refine ⟨(kindsOf tokens).takeWhile (· == .space), ?_, ?_⟩
  · rw [kindsOf_skipSpace, List.takeWhile_append_dropWhile]
  · intro kind member
    simpa using List.all_eq_true.mp List.all_takeWhile kind member

/-! ### Paths and values -/

theorem dottedPath_sound {tokens rest : List Token} {names : List String}
    (read : dottedPath finish tokens = .ok (names, rest)) :
    ∃ used, kindsOf tokens = used ++ kindsOf rest ∧ Segments used names ∧
      (kindsOf rest).head? ≠ some .dot := by
  fun_induction dottedPath finish tokens generalizing names rest with
  | case1 position name position' after names' rest' inner inductionHypothesis =>
      simp only [Except.ok.injEq, Prod.mk.injEq] at read
      rcases read with ⟨rfl, rfl⟩
      obtain ⟨used, split, segments, stops⟩ := inductionHypothesis inner
      refine ⟨.dot :: .name name :: used, ?_, segments.cons, stops⟩
      simp only [kindsOf, List.map_cons, List.cons_append] at split ⊢
      rw [split]
  | case2 => simp at read
  | case3 => simp at read
  | case4 tokens noSegment noDot =>
      simp only [Except.ok.injEq, Prod.mk.injEq] at read
      rcases read with ⟨rfl, rfl⟩
      refine ⟨[], rfl, .nil, ?_⟩
      cases tokens with
      | nil => simp
      | cons token rest =>
          rcases token with ⟨kind, position⟩
          intro isDot
          simp only [kindsOf, List.map_cons, List.head?_cons, Option.some.injEq] at isDot
          subst isDot
          exact noDot position rest rfl

theorem namePath_sound {tokens rest : List Token} {names : List String}
    (read : namePath finish tokens = .ok (names, rest)) :
    ∃ used, kindsOf tokens = used ++ kindsOf rest ∧ SelectorGrammar.Path used names := by
  unfold namePath at read
  split at read
  · rename_i name position after
    split at read
    · rename_i inner
      simp only [Except.ok.injEq, Prod.mk.injEq] at read
      rcases read with ⟨rfl, rfl⟩
      obtain ⟨used, split, segments, _⟩ := dottedPath_sound inner
      refine ⟨.name name :: used, ?_, .intro segments⟩
      simp only [kindsOf, List.map_cons, List.cons_append] at split ⊢
      rw [split]
    · simp at read
  · simp at read

theorem isEquality_iff {comparison : Comparison} :
    comparison.isEquality = true ↔ comparison = .equal ∨ comparison = .notEqual := by
  cases comparison <;> simp [Comparison.isEquality]

theorem isRegexFlag_iff {flag : Char} : isRegexFlag flag = true ↔ flag ∈ SelectorGrammar.flags := by
  simp [isRegexFlag, SelectorGrammar.flags, or_assoc]

/-- A regular expression passes the check if its flags are known and the engine accepts it. -/
theorem checkRegex_iff {source letters : String} {position : Nat} :
    checkRegex engine source letters position = .ok () ↔
      (∀ flag ∈ letters.toList, flag ∈ SelectorGrammar.flags) ∧
        engine.check source letters = .ok () := by
  unfold checkRegex
  simp only
  split
  · rename_i flag found
    have unknown := List.find?_some found
    have member := List.mem_of_find?_eq_some found
    constructor
    · simp
    · rintro ⟨known, _⟩
      simp [isRegexFlag_iff.mpr (known flag member)] at unknown
  · rename_i noUnknown
    have known : ∀ flag ∈ letters.toList, flag ∈ SelectorGrammar.flags := by
      intro flag member
      have passes := List.find?_eq_none.mp noUnknown flag member
      exact isRegexFlag_iff.mp (by simpa using passes)
    split
    · rename_i accepted
      exact ⟨fun _ => ⟨known, accepted⟩, fun _ => rfl⟩
    · rename_i refused
      simp [refused]

theorem operand_sound {comparison : Comparison} {tokens rest : List Token} {value : Operand}
    (read : operand engine finish comparison tokens = .ok (value, rest)) :
    ∃ used, kindsOf tokens = used ++ kindsOf rest ∧ SelectorGrammar.Value engine comparison used value := by
  unfold operand at read
  split at read
  · rename_i text position after
    simp only [Except.ok.injEq, Prod.mk.injEq] at read
    rcases read with ⟨rfl, rfl⟩
    exact ⟨[.string text], rfl, .string⟩
  · rename_i number position after
    simp only [Except.ok.injEq, Prod.mk.injEq] at read
    rcases read with ⟨rfl, rfl⟩
    exact ⟨[.number number], rfl, .number⟩
  · split at read
    · rename_i inner
      simp only [Except.ok.injEq, Prod.mk.injEq] at read
      rcases read with ⟨rfl, rfl⟩
      obtain ⟨used, split, path⟩ := namePath_sound inner
      exact ⟨used, split, .path path⟩
    · simp at read
  · split at read
    · rename_i name position after isEquality
      simp only [Except.ok.injEq, Prod.mk.injEq] at read
      rcases read with ⟨rfl, rfl⟩
      exact ⟨[.typeName name], rfl, .typeName (isEquality_iff.mp isEquality)⟩
    · simp at read
  · split at read
    · rename_i source letters position after isEquality
      split at read
      · rename_i accepted
        simp only [Except.ok.injEq, Prod.mk.injEq] at read
        rcases read with ⟨rfl, rfl⟩
        obtain ⟨known, compiles⟩ := checkRegex_iff.mp accepted
        exact ⟨[.regex source letters], rfl,
          .regex (isEquality_iff.mp isEquality) known compiles⟩
      · simp at read
    · simp at read
  · simp at read

/-! ### Atoms and sequences -/

theorem bracketed_sound {tokens rest : List Token} {condition : Atom}
    (read : bracketed engine finish tokens = .ok (condition, rest)) :
    ∃ used, kindsOf tokens = used ++ kindsOf rest ∧
      AtomOf engine (.leftBracket :: used) condition ∧ isField condition = false := by
  unfold bracketed at read
  split at read
  · simp at read
  · rename_i path position after inner
    simp only [Except.ok.injEq, Prod.mk.injEq] at read
    rcases read with ⟨rfl, rfl⟩
    obtain ⟨used, split, derived⟩ := namePath_sound inner
    refine ⟨used ++ [.rightBracket], ?_, .present derived, rfl⟩
    rw [split, List.append_assoc]
    rfl
  · rename_i path comparison position after inner
    obtain ⟨used, split, derived⟩ := namePath_sound inner
    split at read
    · simp at read
    · rename_i value position' after' innerValue
      simp only [Except.ok.injEq, Prod.mk.injEq] at read
      rcases read with ⟨rfl, rfl⟩
      obtain ⟨usedValue, splitValue, derivedValue⟩ := operand_sound innerValue
      refine ⟨used ++ .comparison comparison :: (usedValue ++ [.rightBracket]), ?_,
        .tested derived derivedValue, rfl⟩
      rw [split, List.append_assoc]
      simp only [kindsOf, List.map_cons, List.cons_append, List.append_assoc,
        List.nil_append] at splitValue ⊢
      rw [splitValue]
    · simp at read
  · simp at read

theorem atom_sound {tokens rest : List Token} {condition : Atom}
    (read : atom engine finish tokens = .ok (condition, rest)) :
    ∃ used, kindsOf tokens = used ++ kindsOf rest ∧ AtomOf engine used condition ∧
      (isField condition = true → (kindsOf rest).head? ≠ some .dot) := by
  unfold atom at read
  split at read
  · simp only [Except.ok.injEq, Prod.mk.injEq] at read
    rcases read with ⟨rfl, rfl⟩
    exact ⟨[.star], rfl, .wildcard, by simp [isField]⟩
  · rename_i name position after
    simp only [Except.ok.injEq, Prod.mk.injEq] at read
    rcases read with ⟨rfl, rfl⟩
    exact ⟨[.hash, .name name], rfl, .hashed, by simp [isField]⟩
  · simp at read
  · rename_i name position after
    simp only [Except.ok.injEq, Prod.mk.injEq] at read
    rcases read with ⟨rfl, rfl⟩
    exact ⟨[.name name], rfl, .identifier, by simp [isField]⟩
  · rename_i name position after
    split at read
    · rename_i names rest' inner
      simp only [Except.ok.injEq, Prod.mk.injEq] at read
      rcases read with ⟨rfl, rfl⟩
      obtain ⟨used, split, segments, stops⟩ := dottedPath_sound inner
      refine ⟨.dot :: .name name :: used, ?_, .field segments.cons, fun _ => stops⟩
      simp only [kindsOf, List.map_cons, List.cons_append] at split ⊢
      rw [split]
    · simp at read
  · simp at read
  · obtain ⟨used, split, derived, notField⟩ := bracketed_sound read
    refine ⟨.leftBracket :: used, ?_, derived, by simp [notField]⟩
    simp only [kindsOf, List.map_cons, List.cons_append] at split ⊢
    rw [split]
  · simp at read

theorem atoms_sound {tokens rest : List Token} {found : List Selector}
    (read : atoms engine finish tokens = .ok (found, rest)) :
    ∃ used conditions, kindsOf tokens = used ++ kindsOf rest ∧
      found = conditions.map Selector.ofAtom ∧
      (conditions = [] ∧ used = [] ∨ Atoms engine used conditions) := by
  fun_induction atoms engine finish tokens generalizing found rest with
  | case1 => simp at read
  | case2 => simp at read
  | case3 tokens _ condition after one others rest' more inductionHypothesis =>
      simp only [Except.ok.injEq, Prod.mk.injEq] at read
      rcases read with ⟨rfl, rfl⟩
      obtain ⟨usedFirst, splitFirst, derivedFirst, stops⟩ := atom_sound one
      obtain ⟨usedRest, conditions, splitRest, rfl, derivedRest⟩ := inductionHypothesis more
      rcases derivedRest with ⟨rfl, rfl⟩ | derivedRest
      · refine ⟨usedFirst, [condition], ?_, rfl, .inr (.one derivedFirst)⟩
        rw [splitFirst, splitRest, List.nil_append]
      · refine ⟨usedFirst ++ usedRest, condition :: conditions, ?_, rfl,
          .inr (.cons derivedFirst derivedRest ?_)⟩
        · rw [splitFirst, splitRest, List.append_assoc]
        · intro field
          have stopsHere := stops field
          obtain ⟨kind, further, rfl, _⟩ := derivedRest.exists_head
          rw [splitRest] at stopsHere
          exact stopsHere
  | case4 =>
      simp only [Except.ok.injEq, Prod.mk.injEq] at read
      rcases read with ⟨rfl, rfl⟩
      exact ⟨[], [], rfl, rfl, .inl ⟨rfl, rfl⟩⟩

theorem kindsOf_mark (tokens : List Token) :
    kindsOf tokens = mark (nextIs (· == .bang) tokens)
      ++ kindsOf (if nextIs (· == .bang) tokens then tokens.tail else tokens) := by
  cases tokens with
  | nil => rfl
  | cons token rest =>
      by_cases isBang : token.kind = .bang
      · simp [nextIs, isBang, mark]
      · simp [nextIs, isBang, mark]

theorem ofAtoms_map (marked : Bool) {conditions : List Atom} (nonempty : conditions ≠ []) :
    ofAtoms marked (conditions.map Selector.ofAtom)
      = some (Selector.ofSequence marked conditions) := by
  unfold Selector.ofSequence
  split
  · rfl
  · rename_i several
    rcases List.exists_cons_of_ne_nil nonempty with ⟨first, others, rfl⟩
    cases others with
    | nil => exact absurd rfl (several first)
    | cons second others => rfl

theorem sequence_sound {tokens rest : List Token} {selector : Selector}
    (read : sequence engine finish tokens = .ok (selector, rest)) :
    ∃ used, kindsOf tokens = used ++ kindsOf rest ∧ Sequence engine used selector := by
  unfold sequence at read
  simp only at read
  have marked := kindsOf_mark tokens
  split at read
  · simp at read
  · rename_i found after inner
    obtain ⟨used, conditions, split, rfl, derived⟩ := atoms_sound inner
    rw [split, ← List.append_assoc] at marked
    split at read
    · simp at read
    · rename_i chosen isChosen
      simp only [Except.ok.injEq, Prod.mk.injEq] at read
      rcases read with ⟨rfl, rfl⟩
      refine ⟨_, marked, ?_⟩
      rcases derived with ⟨rfl, rfl⟩ | derived
      · simp [ofAtoms] at isChosen
      · rw [ofAtoms_map _ derived.ne_nil] at isChosen
        obtain rfl := Option.some.inj isChosen
        exact .ofAtoms _ derived

/-! ### Selectors and alternatives -/

theorem combinator?_sound {tokens rest : List Token} {combinator : Combinator}
    (read : combinator? tokens = some (combinator, rest)) :
    (∃ before after, combinator = .child ∧ Layout before ∧ Layout after ∧
        kindsOf tokens = before ++ .greater :: (after ++ kindsOf rest)) ∨
      ∃ gap, combinator = .descendant ∧ Layout gap ∧ gap ≠ [] ∧
        kindsOf tokens = gap ++ kindsOf rest := by
  obtain ⟨gap, split, layout⟩ := skipSpace_sound tokens
  unfold combinator? at read
  split at read
  · rename_i position after found
    simp only [Option.some.injEq, Prod.mk.injEq] at read
    rcases read with ⟨rfl, rfl⟩
    obtain ⟨gapAfter, splitAfter, layoutAfter⟩ := skipSpace_sound after
    refine .inl ⟨gap, gapAfter, rfl, layout, layoutAfter, ?_⟩
    rw [split, found, ← splitAfter]
    rfl
  · split at read
    · rename_i conditions
      simp only [Option.some.injEq, Prod.mk.injEq] at read
      rcases read with ⟨rfl, rfl⟩
      refine .inr ⟨gap, rfl, layout, ?_, split⟩
      rintro rfl
      simp only [Bool.and_eq_true] at conditions
      rw [List.nil_append] at split
      cases tokens with
      | nil => simp [nextIs] at conditions
      | cons token further =>
          have isSpace : token.kind = .space := by simpa [nextIs] using conditions.1
          have shorter := skipSpace_length_le further
          have same := congrArg List.length split
          simp only [skipSpace, List.dropWhile_cons, isSpace, kindsOf, List.length_map] at same
          simp only [skipSpace] at shorter
          simp at same
          omega
    · simp at read

theorem selectorFrom_sound {left selector : Selector} {tokens rest : List Token}
    (read : selectorFrom engine finish left tokens = .ok (selector, rest)) :
    ∃ used links, kindsOf tokens = used ++ kindsOf rest ∧ Links engine used links ∧
      selector = joinAll left links := by
  fun_induction selectorFrom engine finish left tokens generalizing selector rest with
  | case1 =>
      simp only [Except.ok.injEq, Prod.mk.injEq] at read
      rcases read with ⟨rfl, rfl⟩
      exact ⟨[], [], rfl, .nil, rfl⟩
  | case2 => simp at read
  | case3 left tokens combinator after joint right more inner inductionHypothesis =>
      obtain ⟨used, split, derived⟩ := sequence_sound inner
      obtain ⟨usedRest, links, splitRest, derivedRest, rfl⟩ := inductionHypothesis read
      rcases combinator?_sound joint with
        ⟨before, gap, rfl, layoutBefore, layoutGap, whole⟩ | ⟨gap, rfl, layoutGap, isGap, whole⟩
      · refine ⟨_, _, ?_, .child layoutBefore layoutGap derived derivedRest, rfl⟩
        rw [whole, split, splitRest]
        simp only [List.append_assoc, List.cons_append]
      · refine ⟨_, _, ?_, .descendant layoutGap isGap derived derivedRest, rfl⟩
        rw [whole, split, splitRest]
        simp only [List.append_assoc]

theorem selector_sound {tokens rest : List Token} {found : Selector}
    (read : selector engine finish tokens = .ok (found, rest)) :
    ∃ used, kindsOf tokens = used ++ kindsOf rest ∧ Chain engine used found := by
  unfold selector at read
  split at read
  · simp at read
  · rename_i inner
    obtain ⟨used, split, derived⟩ := sequence_sound inner
    obtain ⟨usedRest, links, splitRest, derivedRest, rfl⟩ := selectorFrom_sound read
    refine ⟨used ++ usedRest, ?_, .intro derived derivedRest⟩
    rw [split, splitRest, List.append_assoc]

theorem afterComma?_sound {tokens rest : List Token} (read : afterComma? tokens = some rest) :
    ∃ before after, Layout before ∧ Layout after ∧
      kindsOf tokens = before ++ .comma :: (after ++ kindsOf rest) := by
  obtain ⟨gap, split, layout⟩ := skipSpace_sound tokens
  unfold afterComma? at read
  split at read
  · rename_i position after found
    simp only [Option.some.injEq] at read
    subst read
    obtain ⟨gapAfter, splitAfter, layoutAfter⟩ := skipSpace_sound after
    refine ⟨gap, gapAfter, layout, layoutAfter, ?_⟩
    rw [split, found, ← splitAfter]
    rfl
  · simp at read

theorem alternativesFrom_sound {tokens rest : List Token} {others : List Selector}
    (read : alternativesFrom engine finish tokens = .ok (others, rest)) :
    ∃ used, kindsOf tokens = used ++ kindsOf rest ∧ Further engine used others := by
  fun_induction alternativesFrom engine finish tokens generalizing others rest with
  | case1 =>
      simp only [Except.ok.injEq, Prod.mk.injEq] at read
      rcases read with ⟨rfl, rfl⟩
      exact ⟨[], rfl, .nil⟩
  | case2 => simp at read
  | case3 => simp at read
  | case4 tokens after comma first more inner others' rest' further inductionHypothesis =>
      simp only [Except.ok.injEq, Prod.mk.injEq] at read
      rcases read with ⟨rfl, rfl⟩
      obtain ⟨before, gap, layoutBefore, layoutGap, whole⟩ := afterComma?_sound comma
      obtain ⟨used, split, derived⟩ := selector_sound inner
      obtain ⟨usedRest, splitRest, derivedRest⟩ := inductionHypothesis further
      refine ⟨_, ?_, .cons layoutBefore layoutGap derived derivedRest⟩
      rw [whole, split, splitRest]
      simp only [List.append_assoc, List.cons_append]

theorem alternatives_sound {tokens rest : List Token} {found : Selector}
    (read : alternatives engine finish tokens = .ok (found, rest)) :
    ∃ used usedFurther first others, kindsOf tokens = used ++ (usedFurther ++ kindsOf rest) ∧
      Chain engine used first ∧ Further engine usedFurther others ∧
        found = unite first others := by
  unfold alternatives at read
  split at read
  · simp at read
  · rename_i first after inner
    obtain ⟨used, split, derived⟩ := selector_sound inner
    split at read
    · simp at read
    · rename_i further
      simp only [Except.ok.injEq, Prod.mk.injEq] at read
      rcases read with ⟨rfl, rfl⟩
      obtain ⟨usedFurther, splitFurther, derivedFurther⟩ := alternativesFrom_sound further
      exact ⟨used, usedFurther, first, [], by rw [split, splitFurther], derived, derivedFurther,
        rfl⟩
    · rename_i others rest' several further
      simp only [Except.ok.injEq, Prod.mk.injEq] at read
      rcases read with ⟨rfl, rfl⟩
      obtain ⟨usedFurther, splitFurther, derivedFurther⟩ := alternativesFrom_sound further
      refine ⟨used, usedFurther, first, others, by rw [split, splitFurther], derived,
        derivedFurther, ?_⟩
      cases others with
      | nil => exact (several rfl).elim
      | cons _ _ => rfl

/-- A token list that the parser accepts derives the selector that it returns. -/
theorem derives_of_ofTokens {tokens : List Token} {selector : Selector}
    (read : Selector.ofTokens engine finish tokens = .ok selector) :
    Derives engine (kindsOf tokens) selector := by
  obtain ⟨before, split, layout⟩ := skipSpace_sound tokens
  unfold Selector.ofTokens at read
  split at read
  · simp at read
  · split at read
    · simp at read
    · rename_i chosen rest inner
      obtain ⟨used, usedFurther, first, others, splitPresent, derived, derivedFurther, rfl⟩ :=
        alternatives_sound inner
      split at read
      · rename_i nothing
        simp only [Except.ok.injEq] at read
        subst read
        obtain ⟨after, splitRest, layoutAfter⟩ := skipSpace_sound rest
        rw [nothing, show kindsOf [] = [] from rfl, List.append_nil] at splitRest
        rw [split, splitPresent, splitRest]
        exact .intro layout derived derivedFurther layoutAfter
      · simp at read

end TreeLint.SelectorParser
