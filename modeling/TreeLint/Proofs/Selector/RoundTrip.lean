import TreeLint.Proofs.Selector.ParserCompleteness
import TreeLint.Proofs.Selector.Spelling
import TreeLint.Regex.Standard

/-!
Contract: the text of a parsed selector can be parsed, and gives an equal selector exactly if it is legible.

Owns:
- the text of joined atoms, which is that of the atoms they are joined from;
- the tokens of sequences, of chains and of alternatives;
- the round trip from a parsed selector over its text to the reread selector.
-/

set_option autoImplicit false

namespace TreeLint

open SelectorGrammar

variable {engine : RegexEngine}

/-! ### Joined atoms -/

namespace Atom

theorem names_append {name letters : String} (isName : LexerMode.selector.Names name)
    (areLetters : letters.toList.all isNameCharacter = true) :
    LexerMode.selector.Names (name ++ letters) := by
  obtain ⟨c, rest, shape⟩ := List.exists_cons_of_ne_nil isName.nonempty
  have noStar := isName.noStar rfl
  rw [shape, List.head?_cons] at noStar
  refine ⟨⟨?_, ?_⟩, fun _ => ?_⟩
  · rw [String.toList_append, shape]
    exact List.cons_ne_nil _ _
  · rw [String.toList_append, List.all_append, isName.all, areLetters]
    rfl
  · rw [String.toList_append, shape]
    exact noStar

theorem names_extendLast {letters : String} (areLetters : letters.toList.all isNameCharacter = true)
    {path : List String} (areNames : ∀ name ∈ path, LexerMode.selector.Names name) :
    ∀ name ∈ extendLast letters path, LexerMode.selector.Names name := by
  fun_induction extendLast letters path with
  | case1 => exact areNames
  | case2 last =>
      rw [List.forall_mem_singleton] at areNames ⊢
      exact names_append areNames areLetters
  | case3 name rest _ inductionHypothesis =>
      rw [List.forall_mem_cons] at areNames ⊢
      exact ⟨areNames.1, inductionHypothesis areNames.2⟩

theorem flatMap_extendLast (letters : String) {path : List String} (nonempty : path ≠ []) :
    (extendLast letters path).flatMap LexerMode.dotted
      = path.flatMap LexerMode.dotted ++ letters.toList := by
  fun_induction extendLast letters path with
  | case1 => exact absurd rfl nonempty
  | case2 last => simp [LexerMode.dotted]
  | case3 name rest several inductionHypothesis =>
      have rest_ne_nil : rest ≠ [] := fun isNil => several isNil
      rw [List.flatMap_cons, inductionHypothesis rest_ne_nil, List.flatMap_cons, List.append_assoc]

theorem extendLast_ne_nil (letters : String) {path : List String} (nonempty : path ≠ []) :
    extendLast letters path ≠ [] := by
  fun_induction extendLast letters path with
  | case1 => exact absurd rfl nonempty
  | _ => exact List.cons_ne_nil _ _

/-- Two atoms of which the first runs on into the second are spelled as the atom they are joined to. -/
theorem join?_spelled {left right joined : Atom} (isJoined : left.join? right = some joined)
    (isLeft : left.Printable engine) (isRight : right.Printable engine) :
    joined.Printable engine ∧ joined.render = left.render ++ right.render := by
  have star : "*".toList.all isNameCharacter = true := by decide
  have ofField : ∀ {path : List String} {letters : String}, (field path).Printable engine →
      letters.toList.all isNameCharacter = true →
        (field (extendLast letters path)).Printable engine ∧
          (field (extendLast letters path)).render = (field path).render ++ letters.toList := by
    rintro path letters ⟨nonempty, areNames⟩ areLetters
    have extended := extendLast_ne_nil letters nonempty
    refine ⟨⟨extended, names_extendLast areLetters areNames⟩, ?_⟩
    rw [LexerMode.render_field extended, LexerMode.render_field nonempty,
      flatMap_extendLast letters nonempty]
  unfold join? at isJoined
  split at isJoined
  case h_6 => contradiction
  all_goals obtain rfl := Option.some.inj isJoined
  case h_1 name letters => exact ⟨names_append isLeft isRight.all, String.toList_append⟩
  case h_2 name => exact ⟨names_append isLeft star, String.toList_append⟩
  case h_3 path letters => exact ofField isLeft isRight.all
  case h_4 path => exact ofField isLeft star
  case h_5 path others =>
      have nonempty : path ++ others ≠ [] := List.append_ne_nil_of_left_ne_nil isLeft.1 _
      refine ⟨⟨nonempty, List.forall_mem_append.mpr ⟨isLeft.2, isRight.2⟩⟩, ?_⟩
      rw [LexerMode.render_field nonempty, LexerMode.render_field isLeft.1,
        LexerMode.render_field isRight.1, List.flatMap_append]

/-- Joining keeps the text of a sequence. -/
theorem joinRuns_spelled (rest : List Atom) :
    ∀ {current : Atom}, (∀ condition ∈ current :: rest, condition.Printable engine) →
      (∀ condition ∈ joinRuns current rest, condition.Printable engine) ∧
        (joinRuns current rest).flatMap render = (current :: rest).flatMap render := by
  induction rest with
  | nil => exact fun printable => ⟨printable, rfl⟩
  | cons next rest inductionHypothesis =>
      intro current printable
      obtain ⟨isCurrent, further⟩ := List.forall_mem_cons.mp printable
      obtain ⟨isNext, others⟩ := List.forall_mem_cons.mp further
      unfold joinRuns
      split
      · rename_i joined isJoined
        obtain ⟨isPrintable, isText⟩ := join?_spelled isJoined isCurrent isNext
        obtain ⟨allPrintable, sameText⟩ :=
          inductionHypothesis (List.forall_mem_cons.mpr ⟨isPrintable, others⟩)
        refine ⟨allPrintable, sameText.trans ?_⟩
        simp [isText]
      · obtain ⟨allPrintable, sameText⟩ := inductionHypothesis further
        refine ⟨List.forall_mem_cons.mpr ⟨isCurrent, allPrintable⟩, ?_⟩
        rw [List.flatMap_cons, sameText, ← List.flatMap_cons]

end Atom

/-! ### Sequences -/

namespace SelectorGrammar

theorem AtomOf.head?_ne_dot {kinds : List TokenKind} {condition : Atom}
    (derived : AtomOf engine kinds condition) (noField : isField condition = false) (rest : List TokenKind) :
    (kinds ++ rest).head? ≠ some .dot := by
  cases derived with
  | field _ => exact Bool.noConfusion noField
  | _ => simp

theorem Atoms.head?_ne_dot {kinds : List TokenKind} {condition : Atom} {others : List Atom}
    (derived : Atoms engine kinds (condition :: others)) (noField : isField condition = false) :
    kinds.head? ≠ some .dot := by
  cases derived with
  | one first => simpa using first.head?_ne_dot noField []
  | cons first _ _ => exact first.head?_ne_dot noField _

end SelectorGrammar

namespace Selector

theorem isField_reread (condition : Atom) : isField condition.reread = isField condition := by
  unfold Atom.reread
  split <;> rfl

/-- Atoms none of which runs on are spelled one by one. -/
theorem spells_atoms {others : List Atom} :
    ∀ {first : Atom}, (∀ condition ∈ first :: others, condition.Printable engine) →
      (first :: others).IsChain (fun left right => left.runsOn right = false) →
        ∃ kinds, Atoms engine kinds ((first :: others).map Atom.reread) ∧
          LexerMode.selector.Spells .selector ((first :: others).flatMap Atom.render) kinds := by
  induction others with
  | nil =>
      intro first printable _
      obtain ⟨kinds, derived, lexes⟩ := LexerMode.lexes_atom (printable first List.mem_cons_self)
      refine ⟨kinds, .one derived, fun ends further => ?_⟩
      rw [List.flatMap_singleton]
      exact lexes (fun _ => ends) further
  | cons next others inductionHypothesis =>
      intro first printable chain
      rw [List.isChain_cons_cons] at chain
      obtain ⟨isFirst, areOthers⟩ := List.forall_mem_cons.mp printable
      obtain ⟨kinds, derived, lexes⟩ := LexerMode.lexes_atom isFirst
      obtain ⟨rest, derivedRest, spells⟩ := inductionHypothesis areOthers chain.2
      have maximal : isField first.reread = true → rest.head? ≠ some .dot := by
        intro isRun
        rw [isField_reread] at isRun
        have noField : isField next.reread = false := by
          rw [isField_reread]
          cases first with
          | field path =>
              cases next with
              | field path' => exact absurd chain.1 (by simp [Atom.runsOn])
              | _ => rfl
          | _ => exact Bool.noConfusion isRun
        exact derivedRest.head?_ne_dot noField
      refine ⟨_, .cons derived derivedRest maximal, fun {after further} ends lexed => ?_⟩
      have nextEnds : LexerMode.endsInName first = true →
          LexerMode.EndsName ((next :: others).flatMap Atom.render ++ after) := by
        intro endsIn
        rw [List.flatMap_cons, List.append_assoc]
        exact LexerMode.endsName_of_apart (areOthers next List.mem_cons_self) chain.1 endsIn _
      rw [List.flatMap_cons, List.append_assoc, List.append_assoc]
      exact lexes nextEnds (spells ends lexed)

theorem renderSequence_ofAtom (conditions : List Atom) :
    renderSequence (conditions.map ofAtom) = conditions.flatMap Atom.render := by
  induction conditions with
  | nil => rfl
  | cons condition rest inductionHypothesis =>
      rw [List.map_cons, renderSequence, inductionHypothesis]
      rfl

theorem render_ofSequence (marked : Bool) (conditions : List Atom) :
    (ofSequence marked conditions).render = renderMark marked ++ conditions.flatMap Atom.render := by
  unfold ofSequence
  split
  · rw [render, List.flatMap_singleton]
  · rw [render, renderSequence_ofAtom]

/-- A sequence is spelled as what its joined atoms are reread as. -/
theorem spells_sequence (marked : Bool) {first : Atom} {others : List Atom}
    (printable : ∀ condition ∈ first :: others, condition.Printable engine) :
    ∃ kinds, Sequence engine kinds
        (ofSequence marked ((first.joinRuns others).map Atom.reread)) ∧
      LexerMode.selector.Spells .selector (ofSequence marked (first :: others)).render kinds := by
  obtain ⟨allPrintable, sameText⟩ := Atom.joinRuns_spelled others printable
  obtain ⟨joined, rest, shape, _⟩ := Atom.joinRuns_head others first
  have chain := Atom.isChain_joinRuns others first
  rw [render_ofSequence, ← sameText]
  rw [shape] at allPrintable chain ⊢
  obtain ⟨kinds, derived, spells⟩ := spells_atoms allPrintable chain
  refine ⟨_, .ofAtoms marked derived, fun {after further} ends lexes => ?_⟩
  rw [List.append_assoc, List.append_assoc]
  cases marked with
  | true => exact .cons LexerMode.scans_bang (spells ends lexes)
  | false => exact spells ends lexes

theorem head?_render_sequence (marked : Bool) {first : Atom} {others : List Atom}
    (printable : first.Printable engine) (after : List Char) :
    ((ofSequence marked (first :: others)).render ++ after).head?.any Text.isLayout = false := by
  obtain ⟨c, rest, shape, noLayout⟩ := LexerMode.head?_render_atom printable
  rw [render_ofSequence, List.flatMap_cons, shape]
  cases marked with
  | true => rfl
  | false => exact noLayout

end Selector

/-! ### Chains -/

namespace SelectorGrammar

/-- The tokens that the canonical text of a combinator has. -/
def between : Combinator → List TokenKind
  | .child => [.space, .greater, .space]
  | .descendant => [.space]

theorem layout_space : Layout [.space] := fun _ member => List.mem_singleton.mp member

theorem Links.append {kinds further : List TokenKind} {links others : List (Combinator × Selector)}
    (derived : Links engine kinds links) (derivedOthers : Links engine further others) :
    Links engine (kinds ++ further) (links ++ others) := by
  induction derived with
  | nil => exact derivedOthers
  | child layoutBefore layoutAfter right _ inductionHypothesis =>
      have whole := Links.child layoutBefore layoutAfter right inductionHypothesis
      simpa only [List.append_assoc, List.cons_append] using whole
  | descendant layout nonempty right _ inductionHypothesis =>
      have whole := Links.descendant layout nonempty right inductionHypothesis
      simpa only [List.append_assoc, List.cons_append] using whole

theorem Chain.joined {kinds further : List TokenKind} {left right : Selector}
    (derived : Chain engine kinds left) (combinator : Combinator)
    (derivedRight : Sequence engine further right) :
    Chain engine (kinds ++ (between combinator ++ further)) (.joined false combinator left right) := by
  cases derived with
  | @intro _ rest first links derivedFirst derivedLinks =>
      have last : Links engine (between combinator ++ further) [(combinator, right)] := by
        cases combinator with
        | child =>
            have link := Links.child layout_space layout_space derivedRight .nil
            rwa [List.append_nil] at link
        | descendant =>
            have link := Links.descendant layout_space (List.cons_ne_nil _ _) derivedRight .nil
            rwa [List.append_nil] at link
      have whole := Chain.intro derivedFirst (derivedLinks.append last)
      rw [joinAll, List.foldl_append, ← joinAll, ← List.append_assoc] at whole
      exact whole

end SelectorGrammar

namespace LexerMode

theorem lexes_combinator (combinator : Combinator) {after : List Char} {further : List TokenKind}
    (ends : after.head?.any Text.isLayout = false) (lexes : selector.Lexes after further) :
    selector.Lexes (combinator.render ++ after) (between combinator ++ further) := by
  cases combinator with
  | child => exact .cons (scans_space rfl) (.cons scans_greater (.cons (scans_space ends) lexes))
  | descendant => exact .cons (scans_space ends) lexes

end LexerMode

namespace Selector

theorem spells_printableSequence {selector : Selector}
    (printable : selector.PrintableSequence engine) :
    ∃ kinds again, Sequence engine kinds again ∧ RereadChain selector again ∧
      LexerMode.selector.Spells .selector selector.render kinds ∧
      ∀ after, (selector.render ++ after).head?.any Text.isLayout = false := by
  rcases printable with ⟨marked, nonempty, areAtoms⟩
  obtain ⟨first, others, rfl⟩ := List.exists_cons_of_ne_nil nonempty
  obtain ⟨kinds, derived, spells⟩ := spells_sequence marked areAtoms
  exact ⟨kinds, _, derived, .sequence marked first others, spells,
    head?_render_sequence marked (areAtoms first List.mem_cons_self)⟩

/-- A chain is spelled as the chain that it is reread as, and its text begins with no layout. -/
theorem spells_chain {selector : Selector} (printable : selector.PrintableChain engine) :
    ∃ kinds again, Chain engine kinds again ∧ RereadChain selector again ∧
      LexerMode.selector.Spells .selector selector.render kinds ∧
      ∀ after, (selector.render ++ after).head?.any Text.isLayout = false := by
  induction printable with
  | sequence isSequence =>
      obtain ⟨kinds, again, derived, reread, spells, starts⟩ := spells_printableSequence isSequence
      have single := Chain.intro derived .nil
      rw [List.append_nil] at single
      exact ⟨kinds, again, single, reread, spells, starts⟩
  | joined combinator _ isRight inductionHypothesis =>
      rename_i left right _
      rcases inductionHypothesis with ⟨kinds, again, derived, reread, spells, starts⟩
      obtain ⟨rightKinds, rightAgain, derivedRight, rereadRight, spellsRight, rightStarts⟩ :=
        spells_printableSequence isRight
      have isText : ∀ after, (Selector.joined false combinator left right).render ++ after
          = left.render ++ (combinator.render ++ (right.render ++ after)) := by
        intro after
        simp [render, renderMark]
      refine ⟨_, _, derived.joined combinator derivedRight, .joined combinator reread rereadRight,
        fun {after further} ends lexes => ?_, fun after => isText after ▸ starts _⟩
      rw [isText, List.append_assoc, List.append_assoc]
      refine spells ?_ (LexerMode.lexes_combinator combinator (rightStarts after)
        (spellsRight ends lexes))
      cases combinator with
      | child => exact LexerMode.endsName_cons (by decide) _
      | descendant => exact LexerMode.endsName_cons (by decide) _

/-! ### Alternatives -/

theorem spells_further {others : List Selector}
    (printable : ∀ other ∈ others, other.PrintableChain engine) :
    ∃ kinds again, Further engine kinds again ∧ List.Forall₂ RereadChain others again ∧
      LexerMode.selector.Spells .selector (renderFurther others) kinds := by
  induction others with
  | nil => exact ⟨[], [], .nil, .nil, fun _ lexes => lexes⟩
  | cons other rest inductionHypothesis =>
      rw [List.forall_mem_cons] at printable
      obtain ⟨kinds, again, derived, reread, spells, starts⟩ := spells_chain printable.1
      obtain ⟨restKinds, restAgain, derivedRest, rereadRest, spellsRest⟩ :=
        inductionHypothesis printable.2
      refine ⟨_, _, .cons .nil layout_space derived derivedRest,
        .cons reread rereadRest, fun {after further} ends lexes => ?_⟩
      have isText : renderFurther (other :: rest) ++ after
          = ',' :: ' ' :: (other.render ++ (renderFurther rest ++ after)) := by
        simp [renderFurther]
      rw [isText]
      simp only [List.nil_append, List.cons_append, List.append_assoc]
      refine .cons LexerMode.scans_comma (.cons (LexerMode.scans_space (starts _)) ?_)
      refine spells ?_ (spellsRest ends lexes)
      cases rest with
      | nil => exact ends
      | cons next others => exact LexerMode.endsName_cons (by decide) _

/-- The text of a printable selector has tokens that derive what the selector is reread as. -/
theorem lexes_printable {selector : Selector} (printable : selector.Printable engine) :
    ∃ kinds again, Derives engine kinds again ∧ Reread selector again ∧
      LexerMode.selector.Lexes selector.render kinds := by
  have nothing : LexerMode.EndsName [] := rfl
  cases printable with
  | chain isChain =>
      obtain ⟨kinds, again, derived, reread, spells, _⟩ := spells_chain isChain
      have whole := spells nothing (LexerMode.lexes_nil .selector)
      rw [List.append_nil] at whole
      exact ⟨_, again, .intro .nil derived .nil .nil, .chain reread, whole⟩
  | @union first others nonempty isFirst areOthers =>
      obtain ⟨kinds, again, derived, reread, spells, _⟩ := spells_chain isFirst
      obtain ⟨restKinds, restAgain, derivedRest, rereadRest, spellsRest⟩ := spells_further areOthers
      have isText : (Selector.union false (first :: others)).render
          = first.render ++ (renderFurther others ++ []) := by
        rw [List.append_nil]
        rfl
      have lexed : LexerMode.selector.Lexes (Selector.union false (first :: others)).render
          (kinds ++ (restKinds ++ [])) := by
        rw [isText]
        refine spells ?_ (spellsRest nothing (LexerMode.lexes_nil .selector))
        cases others with
        | nil => exact nothing
        | cons next others => exact LexerMode.endsName_cons (by decide) _
      refine ⟨_, _, .intro .nil derived derivedRest .nil, ?_, lexed⟩
      cases rereadRest with
      | nil => exact absurd rfl nonempty
      | cons next further => exact .union (.cons reread (.cons next further))

theorem parse_of_lexes {text : String} {kinds : List TokenKind} {selector : Selector}
    (derived : Derives engine kinds selector)
    (lexes : LexerMode.selector.Lexes text.toList kinds) : parse engine text = .ok selector := by
  obtain ⟨tokens, read, areKinds⟩ := lexes.ofText
  subst areKinds
  rw [parse, read]
  exact SelectorParser.ofTokens_of_derives _ derived

/-- The text of a parsed selector can be parsed. It gives an equal selector exactly if the selector is legible:
if no atom of a sequence runs on into the next one, and all numbers are finite. Then it gives the selector
itself. -/
theorem parse_text_same_iff_legible {text : String} {selector : Selector}
    (parsed : parse engine text = .ok selector) :
    ∃ again, parse engine selector.text = .ok again ∧
      (selector.same again = true ↔ selector.Legible) ∧ (selector.Legible → again = selector) := by
  obtain ⟨kinds, again, derived, reread, lexes⟩ := lexes_printable (printable_of_parse parsed)
  have lexesText : LexerMode.selector.Lexes selector.text.toList kinds := by
    rw [Selector.text, String.toList_ofList]
    exact lexes
  obtain ⟨tokens, read, areKinds⟩ := lexesText.ofText
  subst areKinds
  refine ⟨again, ?_, reread.same_iff_legible⟩
  rw [parse, read]
  exact SelectorParser.ofTokens_of_derives _ derived

/-- Two marked names run on into each other, and a name and a field do not. -/
theorem parse_text_same_iff_legible_marked :
    (∃ selector again, parse .standard "#A#B" = .ok selector ∧
      parse .standard selector.text = .ok again ∧ selector.same again = false) ∧
    ∃ selector, parse .standard "#A.b" = .ok selector ∧
      parse .standard selector.text = .ok selector := by
  constructor
  · have parsed : parse .standard "#A#B"
        = .ok (.compound false [ofAtom (.identifier "A"), ofAtom (.identifier "B")]) := by
      with_unfolding_all rfl
    obtain ⟨again, read, isSame, _⟩ := parse_text_same_iff_legible parsed
    refine ⟨_, again, parsed, read, ?_⟩
    rw [Bool.eq_false_iff, Ne, isSame]
    intro legible
    cases legible with
    | compound chain _ => simp [ofAtom, runsOn, Atom.runsOn] at chain
  · have parsed : parse .standard "#A.b"
        = .ok (.compound false [ofAtom (.identifier "A"), ofAtom (.field ["b"])]) := by
      with_unfolding_all rfl
    obtain ⟨again, read, _, isSelector⟩ := parse_text_same_iff_legible parsed
    refine ⟨_, parsed, ?_⟩
    rw [read, isSelector]
    refine .compound (by simp [ofAtom, runsOn, Atom.runsOn]) fun member isMember => ?_
    simp only [List.mem_cons, List.not_mem_nil, or_false] at isMember
    rcases isMember with rfl | rfl
    · exact .atom rfl
    · exact .atom rfl

end Selector

end TreeLint
