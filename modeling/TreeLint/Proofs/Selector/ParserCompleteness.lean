import TreeLint.Proofs.Selector.ParserSoundness

/-!
Contract: what the grammar derives, the parser reads.

Owns one lemma for each function of the parser. It is stated for tokens that go on after the derived part,
with the condition under which the function stops there: a run of fields stops at anything but a point,
a sequence at anything that starts no atom, and a selector at layout that leads to a comma or to the end.
-/

set_option autoImplicit false

namespace TreeLint.SelectorParser

open SelectorGrammar

variable {engine : RegexEngine} (finish : Nat)

theorem exists_token_of_kindsOf {tokens : List Token} {kind : TokenKind} {kinds : List TokenKind}
    (shape : kindsOf tokens = kind :: kinds) :
    ∃ position rest, tokens = ⟨kind, position⟩ :: rest ∧ kindsOf rest = kinds := by
  obtain ⟨⟨kind', position⟩, rest, rfl, rfl, rfl⟩ := List.map_eq_cons_iff.mp shape
  exact ⟨position, rest, rfl, rfl⟩

theorem eq_nil_of_kindsOf {tokens : List Token} (shape : kindsOf tokens = []) : tokens = [] :=
  List.map_eq_nil_iff.mp shape

/-! ### Layout -/

theorem kindsOf_skipSpace_of_layout {tokens : List Token} {gap rest : List TokenKind}
    (shape : kindsOf tokens = gap ++ rest) (layout : Layout gap) (stops : rest.head? ≠ some .space) :
    kindsOf (skipSpace tokens) = rest := by
  rw [kindsOf_skipSpace, shape,
    List.dropWhile_append_of_pos (fun kind member => by simp [layout kind member])]
  cases rest with
  | nil => rfl
  | cons kind further => exact List.dropWhile_cons_of_neg (by simpa using stops)

/-! ### Paths and values -/

theorem dottedPath_stops {tokens : List Token} (stops : (kindsOf tokens).head? ≠ some .dot) :
    dottedPath finish tokens = .ok ([], tokens) := by
  unfold dottedPath
  split
  · simp at stops
  · simp at stops
  · rfl

theorem dottedPath_complete {kinds : List TokenKind} {names : List String}
    (segments : Segments kinds names) :
    ∀ {tokens : List Token} {after : List TokenKind}, kindsOf tokens = kinds ++ after →
      after.head? ≠ some .dot →
        ∃ rest, dottedPath finish tokens = .ok (names, rest) ∧ kindsOf rest = after := by
  induction segments with
  | nil =>
      intro tokens after shape stops
      rw [List.nil_append] at shape
      exact ⟨tokens, dottedPath_stops finish (shape ▸ stops), shape⟩
  | @cons name kinds names _ inductionHypothesis =>
      intro tokens after shape stops
      obtain ⟨position, middle, rfl, middleShape⟩ := exists_token_of_kindsOf shape
      obtain ⟨position', last, rfl, lastShape⟩ := exists_token_of_kindsOf middleShape
      obtain ⟨rest, read, restShape⟩ := inductionHypothesis lastShape stops
      refine ⟨rest, ?_, restShape⟩
      rw [dottedPath, read]

theorem namePath_complete {kinds after : List TokenKind} {names : List String}
    {tokens : List Token} (path : SelectorGrammar.Path kinds names) (shape : kindsOf tokens = kinds ++ after)
    (stops : after.head? ≠ some .dot) :
    ∃ rest, namePath finish tokens = .ok (names, rest) ∧ kindsOf rest = after := by
  cases path with
  | intro segments =>
      obtain ⟨position, last, rfl, lastShape⟩ := exists_token_of_kindsOf shape
      obtain ⟨rest, read, restShape⟩ := dottedPath_complete finish segments lastShape stops
      refine ⟨rest, ?_, restShape⟩
      rw [namePath, read]

theorem operand_complete {comparison : Comparison} {kinds after : List TokenKind}
    {value : Operand} {tokens : List Token} (derived : SelectorGrammar.Value engine comparison kinds value)
    (shape : kindsOf tokens = kinds ++ after) (stops : after.head? ≠ some .dot) :
    ∃ rest, operand engine finish comparison tokens = .ok (value, rest) ∧
      kindsOf rest = after := by
  cases derived with
  | string =>
      obtain ⟨position, rest, rfl, restShape⟩ := exists_token_of_kindsOf shape
      exact ⟨rest, rfl, restShape⟩
  | number =>
      obtain ⟨position, rest, rfl, restShape⟩ := exists_token_of_kindsOf shape
      exact ⟨rest, rfl, restShape⟩
  | path path =>
      obtain ⟨rest, read, restShape⟩ := namePath_complete finish path shape stops
      refine ⟨rest, ?_, restShape⟩
      cases path with
      | intro _ =>
          obtain ⟨position, further, rfl, _⟩ := exists_token_of_kindsOf shape
          simp only [operand, read]
  | typeName isEquality =>
      obtain ⟨position, rest, rfl, restShape⟩ := exists_token_of_kindsOf shape
      refine ⟨rest, ?_, restShape⟩
      rw [operand, if_pos (isEquality_iff.mpr isEquality)]
  | @regex source letters isEquality known compiles =>
      obtain ⟨position, rest, rfl, restShape⟩ := exists_token_of_kindsOf shape
      refine ⟨rest, ?_, restShape⟩
      have accepted : checkRegex engine source letters position = .ok () :=
        checkRegex_iff.mpr ⟨known, compiles⟩
      rw [operand, if_pos (isEquality_iff.mpr isEquality), accepted]

/-! ### Atoms and sequences -/

theorem atom_complete {kinds after : List TokenKind} {condition : Atom} {tokens : List Token}
    (derived : AtomOf engine kinds condition) (shape : kindsOf tokens = kinds ++ after)
    (stops : isField condition = true → after.head? ≠ some .dot) :
    ∃ rest, atom engine finish tokens = .ok (condition, rest) ∧ kindsOf rest = after := by
  cases derived with
  | wildcard =>
      obtain ⟨position, rest, rfl, restShape⟩ := exists_token_of_kindsOf shape
      exact ⟨rest, rfl, restShape⟩
  | identifier =>
      obtain ⟨position, rest, rfl, restShape⟩ := exists_token_of_kindsOf shape
      exact ⟨rest, rfl, restShape⟩
  | hashed =>
      obtain ⟨position, middle, rfl, middleShape⟩ := exists_token_of_kindsOf shape
      obtain ⟨position', rest, rfl, restShape⟩ := exists_token_of_kindsOf middleShape
      exact ⟨rest, rfl, restShape⟩
  | present path =>
      rw [List.cons_append, List.append_assoc] at shape
      obtain ⟨position, inside, rfl, insideShape⟩ := exists_token_of_kindsOf shape
      obtain ⟨last, read, lastShape⟩ :=
        namePath_complete finish path insideShape (by simp)
      obtain ⟨position', rest, rfl, restShape⟩ := exists_token_of_kindsOf lastShape
      refine ⟨rest, ?_, restShape⟩
      rw [atom, bracketed, read]
  | @tested pathKinds value path comparison operand derivedPath derivedValue =>
      rw [List.cons_append, List.append_assoc, List.cons_append, List.append_assoc] at shape
      obtain ⟨position, inside, rfl, insideShape⟩ := exists_token_of_kindsOf shape
      obtain ⟨middle, read, middleShape⟩ :=
        namePath_complete finish derivedPath insideShape (by simp)
      obtain ⟨position', afterOperator, rfl, operatorShape⟩ := exists_token_of_kindsOf middleShape
      obtain ⟨last, readValue, lastShape⟩ :=
        operand_complete finish derivedValue operatorShape (by simp)
      obtain ⟨position'', rest, rfl, restShape⟩ := exists_token_of_kindsOf lastShape
      refine ⟨rest, ?_, restShape⟩
      simp only [atom, bracketed, read, readValue]
  | field segments =>
      cases segments with
      | cons segments =>
          obtain ⟨position, middle, rfl, middleShape⟩ := exists_token_of_kindsOf shape
          obtain ⟨position', last, rfl, lastShape⟩ := exists_token_of_kindsOf middleShape
          obtain ⟨rest, read, restShape⟩ :=
            dottedPath_complete finish segments lastShape (stops rfl)
          refine ⟨rest, ?_, restShape⟩
          rw [atom, read]

theorem nextIs_eq (p : TokenKind → Bool) (tokens : List Token) :
    nextIs p tokens = (kindsOf tokens).head?.any p := by
  cases tokens <;> rfl

/-- An atom is read before the run of atoms after it. -/
theorem atoms_step {condition : Atom} {others : List Selector} {tokens middle rest : List Token}
    (starts : nextIs TokenKind.startsAtom tokens = true)
    (read : atom engine finish tokens = .ok (condition, middle))
    (further : atoms engine finish middle = .ok (others, rest)) :
    atoms engine finish tokens = .ok (Selector.ofAtom condition :: others, rest) := by
  rw [atoms, if_pos starts]
  split
  · rename_i failed
    rw [read] at failed
    simp at failed
  · rename_i same
    rw [read] at same
    simp only [Except.ok.injEq, Prod.mk.injEq] at same
    rcases same with ⟨rfl, rfl⟩
    rw [further]

theorem atoms_stops {tokens : List Token}
    (stops : ∀ kind, (kindsOf tokens).head? = some kind → kind.startsAtom = false) :
    atoms engine finish tokens = .ok ([], tokens) := by
  rw [atoms, if_neg]
  rw [nextIs_eq]
  cases head : (kindsOf tokens).head? with
  | none => simp
  | some kind => simp [stops kind head]

theorem atoms_complete {kinds : List TokenKind} {conditions : List Atom}
    (derived : Atoms engine kinds conditions) :
    ∀ {tokens : List Token} {after : List TokenKind}, kindsOf tokens = kinds ++ after →
      (∀ kind, after.head? = some kind → kind.startsAtom = false) →
        ∃ rest, atoms engine finish tokens = .ok (conditions.map Selector.ofAtom, rest) ∧
          kindsOf rest = after := by
  have starts : ∀ {tokens : List Token} {kinds after : List TokenKind} {condition : Atom},
      AtomOf engine kinds condition → kindsOf tokens = kinds ++ after →
        nextIs TokenKind.startsAtom tokens = true := by
    intro tokens kinds after condition first shape
    obtain ⟨kind, rest, rfl, startsHere⟩ := first.exists_head
    rw [nextIs_eq, shape]
    exact startsHere
  induction derived with
  | one first =>
      intro tokens after shape stops
      have noDot : after.head? ≠ some .dot := fun isDot =>
        absurd (stops _ isDot) (by decide)
      obtain ⟨rest, read, restShape⟩ := atom_complete finish first shape (fun _ => noDot)
      have ends : atoms engine finish rest = .ok ([], rest) :=
        atoms_stops finish (by rwa [restShape])
      exact ⟨rest, atoms_step finish (starts first shape) read ends, restShape⟩
  | @cons kinds others condition conditions first further maximal inductionHypothesis =>
      intro tokens after shape stops
      rw [List.append_assoc] at shape
      have noDot : isField condition = true → (others ++ after).head? ≠ some .dot := by
        intro field
        obtain ⟨kind, others, rfl, _⟩ := further.exists_head
        exact maximal field
      obtain ⟨middle, read, middleShape⟩ := atom_complete finish first shape noDot
      obtain ⟨rest, readFurther, restShape⟩ := inductionHypothesis middleShape stops
      exact ⟨rest, atoms_step finish (starts first shape) read readFurther, restShape⟩

theorem sequence_complete {kinds after : List TokenKind} {selector : Selector}
    {tokens : List Token} (derived : Sequence engine kinds selector)
    (shape : kindsOf tokens = kinds ++ after)
    (stops : ∀ kind, after.head? = some kind → kind.startsAtom = false) :
    ∃ rest, sequence engine finish tokens = .ok (selector, rest) ∧ kindsOf rest = after := by
  -- The mark is told by the first token, so both rules of a sequence read it in the same way.
  have marked : ∀ {atomKinds : List TokenKind} {conditions : List Atom} (subject : Bool),
      Atoms engine atomKinds conditions → kindsOf tokens = mark subject ++ atomKinds ++ after →
        nextIs (· == .bang) tokens = subject ∧
          kindsOf (if subject then tokens.tail else tokens) = atomKinds ++ after := by
    intro atomKinds conditions subject derivedAtoms markedShape
    cases subject with
    | true =>
        obtain ⟨position, further, rfl, furtherShape⟩ := exists_token_of_kindsOf markedShape
        exact ⟨rfl, furtherShape⟩
    | false =>
        refine ⟨?_, markedShape⟩
        obtain ⟨kind, further, rfl, starts⟩ := derivedAtoms.exists_head
        rw [nextIs_eq, markedShape]
        simp only [mark, Bool.false_eq_true, if_false, List.nil_append, List.cons_append,
          List.head?_cons, Option.any_some, beq_eq_false_iff_ne, ne_eq]
        rintro rfl
        exact absurd starts (by decide)
  cases derived with
  | single subject first =>
      obtain ⟨isMarked, atomShape⟩ := marked subject (.one first) shape
      obtain ⟨rest, read, restShape⟩ :=
        atoms_complete finish (.one first) atomShape stops
      refine ⟨rest, ?_, restShape⟩
      simp only [sequence, isMarked, read]
      rfl
  | @several atomKinds conditions subject derivedAtoms atLeastTwo =>
      obtain ⟨isMarked, atomShape⟩ := marked subject derivedAtoms shape
      obtain ⟨rest, read, restShape⟩ :=
        atoms_complete finish derivedAtoms atomShape stops
      refine ⟨rest, ?_, restShape⟩
      simp only [sequence, isMarked, read]
      rw [ofAtoms_map subject derivedAtoms.ne_nil, Selector.ofSequence_of_two_le subject atLeastTwo]

/-! ### Selectors and alternatives -/

/-- Where a selector stops: layout that leads to a comma or to the end. -/
def Stops (after : List TokenKind) : Prop :=
  ∃ gap rest, after = gap ++ rest ∧ Layout gap ∧ (rest = [] ∨ ∃ further, rest = .comma :: further)

/-- Layout and the token after it start no atom, if that token starts none. -/
theorem startsNoAtom_of_layout {gap rest : List TokenKind} (layout : Layout gap)
    (isGap : gap ≠ [] ∨ ∀ kind, rest.head? = some kind → kind.startsAtom = false) :
    ∀ kind, (gap ++ rest).head? = some kind → kind.startsAtom = false := by
  intro kind isHead
  cases gap with
  | cons first further =>
      simp only [List.cons_append, List.head?_cons, Option.some.injEq] at isHead
      rw [← isHead, layout first List.mem_cons_self]
      rfl
  | nil =>
      rcases isGap with isGap | startsNone
      · exact absurd rfl isGap
      · exact startsNone kind isHead

theorem Stops.startsNoAtom {after : List TokenKind} (stops : Stops after) :
    ∀ kind, after.head? = some kind → kind.startsAtom = false := by
  rcases stops with ⟨gap, rest, rfl, layout, atEnd⟩
  refine startsNoAtom_of_layout layout (.inr fun kind isHead => ?_)
  rcases atEnd with rfl | ⟨further, rfl⟩
  · simp at isHead
  · simp only [List.head?_cons, Option.some.injEq] at isHead
    rw [← isHead]
    rfl

theorem startsNoAtom_of_links {kinds after : List TokenKind}
    {links : List (Combinator × Selector)} (derived : Links engine kinds links)
    (stops : Stops after) :
    ∀ kind, (kinds ++ after).head? = some kind → kind.startsAtom = false := by
  cases derived with
  | nil => exact stops.startsNoAtom
  | child layoutBefore _ _ _ =>
      rw [List.append_assoc]
      refine startsNoAtom_of_layout layoutBefore (.inr fun kind isHead => ?_)
      simp only [List.cons_append, List.head?_cons, Option.some.injEq] at isHead
      rw [← isHead]
      rfl
  | descendant layout isGap _ _ =>
      rw [List.append_assoc]
      exact startsNoAtom_of_layout layout (.inl isGap)

theorem head?_ne_space_of_sequence {kinds rest : List TokenKind} {selector : Selector}
    (derived : Sequence engine kinds selector) : (kinds ++ rest).head? ≠ some .space := by
  obtain ⟨kind, further, rfl, starts⟩ := derived.exists_head
  simp only [List.cons_append, List.head?_cons, ne_eq, Option.some.injEq]
  rintro rfl
  exact absurd starts (by decide)

theorem combinator?_child {before after kinds rest : List TokenKind} {right : Selector}
    {tokens : List Token} (layoutBefore : Layout before) (layoutAfter : Layout after)
    (derived : Sequence engine kinds right)
    (shape : kindsOf tokens = before ++ .greater :: (after ++ (kinds ++ rest))) :
    ∃ next, combinator? tokens = some (.child, next) ∧ kindsOf next = kinds ++ rest := by
  have skipped := kindsOf_skipSpace_of_layout shape layoutBefore (by simp)
  obtain ⟨position, further, isGreater, furtherShape⟩ := exists_token_of_kindsOf skipped
  refine ⟨skipSpace further, ?_, ?_⟩
  · rw [combinator?, isGreater]
  · exact kindsOf_skipSpace_of_layout furtherShape layoutAfter (head?_ne_space_of_sequence derived)

theorem combinator?_descendant {gap kinds rest : List TokenKind} {right : Selector}
    {tokens : List Token} (layout : Layout gap) (isGap : gap ≠ [])
    (derived : Sequence engine kinds right) (shape : kindsOf tokens = gap ++ (kinds ++ rest)) :
    ∃ next, combinator? tokens = some (.descendant, next) ∧ kindsOf next = kinds ++ rest := by
  have skipped := kindsOf_skipSpace_of_layout shape layout (head?_ne_space_of_sequence derived)
  obtain ⟨kind, further, rfl, starts⟩ := derived.exists_head
  have isSpace : nextIs (· == .space) tokens = true := by
    cases gap with
    | nil => exact absurd rfl isGap
    | cons first others =>
        rw [nextIs_eq, shape, layout first List.mem_cons_self]
        rfl
  have startsNext : nextIs TokenKind.startsSequence (skipSpace tokens) = true := by
    rw [nextIs_eq, skipped]
    exact starts
  refine ⟨skipSpace tokens, ?_, skipped⟩
  unfold combinator?
  split
  · rename_i isGreater
    rw [isGreater] at skipped
    simp only [kindsOf, List.map_cons, List.cons_append, List.cons.injEq] at skipped
    rw [← skipped.1] at starts
    exact absurd starts (by decide)
  · rw [if_pos (by rw [isSpace, startsNext]; rfl)]

theorem combinator?_stops {tokens : List Token} (stops : Stops (kindsOf tokens)) :
    combinator? tokens = none := by
  rcases stops with ⟨gap, rest, shape, layout, atEnd⟩
  have noSpace : rest.head? ≠ some .space := by
    rcases atEnd with rfl | ⟨further, rfl⟩ <;> simp
  have skipped := kindsOf_skipSpace_of_layout shape layout noSpace
  unfold combinator?
  split
  · rename_i isGreater
    rw [isGreater] at skipped
    rcases atEnd with rfl | ⟨further, rfl⟩ <;> simp at skipped
  · rw [if_neg]
    rw [Bool.and_eq_true, nextIs_eq _ (skipSpace tokens), skipped]
    rcases atEnd with rfl | ⟨further, rfl⟩ <;> simp [TokenKind.startsSequence, TokenKind.startsAtom]

/-- A combinator and the sequence after it are read, and the rest is left to the further links. -/
theorem selectorFrom_step {combinator : Combinator} {left right found : Selector}
    {tokens next middle rest : List Token} (joint : combinator? tokens = some (combinator, next))
    (read : sequence engine finish next = .ok (right, middle))
    (further : selectorFrom engine finish (.joined false combinator left right) middle
      = .ok (found, rest)) :
    selectorFrom engine finish left tokens = .ok (found, rest) := by
  rw [selectorFrom]
  split
  · rename_i none
    rw [joint] at none
    simp at none
  · rename_i some
    rw [joint] at some
    simp only [Option.some.injEq, Prod.mk.injEq] at some
    rcases some with ⟨rfl, rfl⟩
    split
    · rename_i failed
      rw [read] at failed
      simp at failed
    · rename_i same
      rw [read] at same
      simp only [Except.ok.injEq, Prod.mk.injEq] at same
      rcases same with ⟨rfl, rfl⟩
      exact further

theorem selectorFrom_complete {kinds : List TokenKind} {links : List (Combinator × Selector)}
    (derived : Links engine kinds links) :
    ∀ {left : Selector} {tokens : List Token} {after : List TokenKind},
      kindsOf tokens = kinds ++ after → Stops after →
        ∃ rest, selectorFrom engine finish left tokens = .ok (joinAll left links, rest) ∧
          kindsOf rest = after := by
  induction derived with
  | nil =>
      intro left tokens after shape stops
      rw [List.nil_append] at shape
      refine ⟨tokens, ?_, shape⟩
      rw [selectorFrom]
      split
      · rfl
      · rename_i some
        rw [combinator?_stops (shape ▸ stops)] at some
        simp at some
  | child layoutBefore layoutAfter derivedRight derivedLinks inductionHypothesis =>
      intro left tokens after shape stops
      simp only [List.append_assoc, List.cons_append] at shape
      obtain ⟨next, joint, nextShape⟩ :=
        combinator?_child layoutBefore layoutAfter derivedRight shape
      obtain ⟨middle, read, middleShape⟩ := sequence_complete finish derivedRight
        nextShape (startsNoAtom_of_links derivedLinks stops)
      obtain ⟨rest, further, restShape⟩ := inductionHypothesis middleShape stops
      exact ⟨rest, selectorFrom_step finish joint read further, restShape⟩
  | descendant layout isGap derivedRight derivedLinks inductionHypothesis =>
      intro left tokens after shape stops
      simp only [List.append_assoc] at shape
      obtain ⟨next, joint, nextShape⟩ := combinator?_descendant layout isGap derivedRight shape
      obtain ⟨middle, read, middleShape⟩ := sequence_complete finish derivedRight
        nextShape (startsNoAtom_of_links derivedLinks stops)
      obtain ⟨rest, further, restShape⟩ := inductionHypothesis middleShape stops
      exact ⟨rest, selectorFrom_step finish joint read further, restShape⟩

theorem selector_complete {kinds after : List TokenKind} {found : Selector} {tokens : List Token}
    (derived : Chain engine kinds found) (shape : kindsOf tokens = kinds ++ after)
    (stops : Stops after) :
    ∃ rest, selector engine finish tokens = .ok (found, rest) ∧ kindsOf rest = after := by
  cases derived with
  | intro derivedFirst derivedLinks =>
      rw [List.append_assoc] at shape
      obtain ⟨middle, read, middleShape⟩ := sequence_complete finish derivedFirst
        shape (startsNoAtom_of_links derivedLinks stops)
      obtain ⟨rest, further, restShape⟩ :=
        selectorFrom_complete finish derivedLinks middleShape stops
      exact ⟨rest, by rw [selector, read]; exact further, restShape⟩

theorem stops_of_further {kinds after : List TokenKind} {others : List Selector}
    (derived : Further engine kinds others) (layout : Layout after) : Stops (kinds ++ after) := by
  cases derived with
  | nil => exact ⟨after, [], by simp, layout, .inl rfl⟩
  | cons layoutBefore _ _ _ =>
      exact ⟨_, _, List.append_assoc _ _ _, layoutBefore, .inr ⟨_, rfl⟩⟩

theorem afterComma?_complete {before after kinds rest : List TokenKind} {found : Selector}
    {tokens : List Token} (layoutBefore : Layout before) (layoutAfter : Layout after)
    (derived : Chain engine kinds found)
    (shape : kindsOf tokens = before ++ .comma :: (after ++ (kinds ++ rest))) :
    ∃ next, afterComma? tokens = some next ∧ kindsOf next = kinds ++ rest := by
  have skipped := kindsOf_skipSpace_of_layout shape layoutBefore (by simp)
  obtain ⟨position, further, isComma, furtherShape⟩ := exists_token_of_kindsOf skipped
  refine ⟨skipSpace further, ?_, ?_⟩
  · rw [afterComma?, isComma]
  · cases derived with
    | intro derivedFirst _ =>
        rw [List.append_assoc] at furtherShape ⊢
        exact kindsOf_skipSpace_of_layout furtherShape layoutAfter
          (head?_ne_space_of_sequence derivedFirst)

theorem skipSpace_of_layout {tokens : List Token} (layout : Layout (kindsOf tokens)) :
    skipSpace tokens = [] := by
  have shape : kindsOf tokens = kindsOf tokens ++ [] := (List.append_nil _).symm
  exact eq_nil_of_kindsOf (kindsOf_skipSpace_of_layout shape layout (by simp))

theorem alternativesFrom_step {first : Selector} {others : List Selector}
    {tokens next middle rest : List Token} (comma : afterComma? tokens = some next)
    (read : selector engine finish next = .ok (first, middle))
    (further : alternativesFrom engine finish middle = .ok (others, rest)) :
    alternativesFrom engine finish tokens = .ok (first :: others, rest) := by
  rw [alternativesFrom]
  split
  · rename_i none
    rw [comma] at none
    simp at none
  · rename_i some
    rw [comma] at some
    simp only [Option.some.injEq] at some
    subst some
    split
    · rename_i failed
      rw [read] at failed
      simp at failed
    · rename_i same
      rw [read] at same
      simp only [Except.ok.injEq, Prod.mk.injEq] at same
      rcases same with ⟨rfl, rfl⟩
      rw [further]

theorem alternativesFrom_complete {kinds : List TokenKind} {others : List Selector}
    (derived : Further engine kinds others) :
    ∀ {tokens : List Token} {after : List TokenKind},
      kindsOf tokens = kinds ++ after → Layout after →
        ∃ rest, alternativesFrom engine finish tokens = .ok (others, rest) ∧
          kindsOf rest = after := by
  induction derived with
  | nil =>
      intro tokens after shape layout
      rw [List.nil_append] at shape
      refine ⟨tokens, ?_, shape⟩
      have noComma : afterComma? tokens = none := by
        rw [afterComma?, skipSpace_of_layout (shape ▸ layout)]
      rw [alternativesFrom]
      split
      · rfl
      · rename_i some
        rw [noComma] at some
        simp at some
  | cons layoutBefore layoutAfter derivedFirst derivedOthers inductionHypothesis =>
      intro tokens after shape layout
      simp only [List.append_assoc, List.cons_append] at shape
      obtain ⟨next, comma, nextShape⟩ :=
        afterComma?_complete layoutBefore layoutAfter derivedFirst shape
      obtain ⟨middle, read, middleShape⟩ := selector_complete finish derivedFirst
        nextShape (stops_of_further derivedOthers layout)
      obtain ⟨rest, further, restShape⟩ := inductionHypothesis middleShape layout
      exact ⟨rest, alternativesFrom_step finish comma read further, restShape⟩

theorem alternatives_complete {kinds rest after : List TokenKind} {first : Selector}
    {others : List Selector} {tokens : List Token} (derivedFirst : Chain engine kinds first)
    (derivedOthers : Further engine rest others) (layout : Layout after)
    (shape : kindsOf tokens = kinds ++ (rest ++ after)) :
    ∃ last, alternatives engine finish tokens = .ok (unite first others, last) ∧
      kindsOf last = after := by
  obtain ⟨middle, read, middleShape⟩ := selector_complete finish derivedFirst shape
    (stops_of_further derivedOthers layout)
  obtain ⟨last, further, lastShape⟩ :=
    alternativesFrom_complete finish derivedOthers middleShape layout
  refine ⟨last, ?_, lastShape⟩
  rw [alternatives, read]
  simp only [further]
  cases others <;> rfl

/-- A token list that derives a selector is accepted by the parser, which returns that selector. -/
theorem ofTokens_of_derives {tokens : List Token} {selector : Selector}
    (derived : Derives engine (kindsOf tokens) selector) :
    Selector.ofTokens engine finish tokens = .ok selector := by
  generalize shape : kindsOf tokens = kinds at derived
  cases derived with
  | intro layoutBefore derivedFirst derivedOthers layoutAfter =>
      have noSpace := derivedFirst.exists_head
      rcases noSpace with ⟨kind, further, rfl, starts⟩
      have skipped := kindsOf_skipSpace_of_layout shape layoutBefore (by
        simp only [List.cons_append, List.head?_cons, ne_eq, Option.some.injEq]
        rintro rfl
        exact absurd starts (by decide))
      obtain ⟨last, read, lastShape⟩ := alternatives_complete finish derivedFirst
        derivedOthers layoutAfter skipped
      unfold Selector.ofTokens
      split
      · rename_i nothing
        rw [nothing] at skipped
        simp at skipped
      · rw [read]
        simp only [skipSpace_of_layout (lastShape ▸ layoutAfter)]

end TreeLint.SelectorParser
