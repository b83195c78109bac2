import TreeLint.Proofs.Selector.Grammar

/-!
Contract: layout tokens that join nothing.

Owns:
- `SelectorGrammar.tidy`, which drops layout at the end of a token list and next to a comma, a child combinator or
  further layout;
- what a tidy list says of the list that it comes from, one lemma for each kind of its first token;
- the law that token lists which are alike when they are tidied derive the same selectors.

Layout between two words joins them and stays. No token inside brackets is layout, so nothing is dropped there.
-/

set_option autoImplicit false

namespace TreeLint.SelectorGrammar

/-! ### Tidy lists -/

/-- The tokens that layout next to them adds nothing to. -/
def isJoint : TokenKind → Bool
  | .space | .comma | .greater => true
  | _ => false

/-- The tokens after layout. -/
def afterLayout (kinds : List TokenKind) : List TokenKind := kinds.dropWhile (· == .space)

def attach (kind : TokenKind) (kinds : List TokenKind) : List TokenKind :=
  if kind = .space then
    if kinds.head?.all isJoint then kinds else .space :: kinds
  else if isJoint kind then kind :: afterLayout kinds
  else kind :: kinds

/-- The tokens without the layout that joins nothing. Layout at the beginning stays. -/
def tidy (kinds : List TokenKind) : List TokenKind := kinds.foldr attach []

theorem tidy_cons (kind : TokenKind) (kinds : List TokenKind) :
    tidy (kind :: kinds) = attach kind (tidy kinds) := rfl

variable {kind : TokenKind} {kinds kinds' further : List TokenKind}

theorem attach_word (isWord : isJoint kind = false) : attach kind kinds = kind :: kinds := by
  have notSpace : kind ≠ .space := by
    rintro rfl
    contradiction
  rw [attach, if_neg notSpace, isWord]
  rfl

theorem attach_joint (joint : isJoint kind = true) (notSpace : kind ≠ .space) :
    attach kind kinds = kind :: afterLayout kinds := by
  rw [attach, if_neg notSpace, if_pos joint]

theorem attach_space_of_joint (joins : kinds.head?.all isJoint = true) : attach .space kinds = kinds := by
  rw [attach, if_pos rfl, if_pos joins]

theorem attach_space_of_word (isWord : isJoint kind = false) :
    attach .space (kind :: kinds) = .space :: kind :: kinds := by
  rw [attach, if_pos rfl, List.head?_cons, Option.all_some, isWord]
  rfl

theorem joins_attach_space (kinds : List TokenKind) : (attach .space kinds).head?.all isJoint = true := by
  by_cases joins : kinds.head?.all isJoint = true
  · rw [attach_space_of_joint joins]
    exact joins
  · rw [attach, if_pos rfl, if_neg joins]
    rfl

/-- Layout before layout adds nothing. -/
theorem attach_space_space (kinds : List TokenKind) : attach .space (attach .space kinds) = attach .space kinds :=
  attach_space_of_joint (joins_attach_space kinds)

theorem afterLayout_attach_space (kinds : List TokenKind) :
    afterLayout (attach .space kinds) = afterLayout kinds := by
  by_cases joins : kinds.head?.all isJoint = true
  · rw [attach_space_of_joint joins]
  · rw [attach, if_pos rfl, if_neg joins]
    rfl

/-! ### Tidying longer lists -/

/-- Tokens none of which layout can be dropped next to. -/
def Words (kinds : List TokenKind) : Prop := ∀ kind ∈ kinds, isJoint kind = false

theorem tidy_words (words : Words kinds) : tidy (kinds ++ further) = kinds ++ tidy further := by
  induction kinds with
  | nil => rfl
  | cons kind rest inductionHypothesis =>
      rw [List.cons_append, tidy_cons, attach_word (words kind List.mem_cons_self),
        inductionHypothesis fun other member => words other (List.mem_cons_of_mem _ member)]
      rfl

theorem afterLayout_layout (layout : Layout kinds) (further : List TokenKind) :
    afterLayout (kinds ++ further) = afterLayout further := by
  apply List.dropWhile_append_of_pos
  intro kind member
  exact beq_iff_eq.mpr (layout kind member)

/-- The layout that a list begins with is dropped before or after the list is tidied. -/
theorem tidy_afterLayout (kinds : List TokenKind) : tidy (afterLayout kinds) = afterLayout (tidy kinds) := by
  induction kinds with
  | nil => rfl
  | cons kind rest inductionHypothesis =>
      by_cases isSpace : kind = .space
      · subst isSpace
        rw [tidy_cons, afterLayout_attach_space, ← inductionHypothesis]
        rfl
      · have stays : ∀ others, afterLayout (kind :: others) = kind :: others := by
          intro others
          exact List.dropWhile_cons_of_neg (by simpa using isSpace)
        rw [stays, tidy_cons]
        by_cases joint : isJoint kind = true
        · rw [attach_joint joint isSpace, stays]
        · rw [attach_word (Bool.eq_false_iff.mpr joint), stays]

theorem tidy_layout_joint (layout : Layout kinds) (joint : isJoint kind = true) (notSpace : kind ≠ .space) :
    tidy (kinds ++ kind :: further) = kind :: afterLayout (tidy further) := by
  induction kinds with
  | nil => rw [List.nil_append, tidy_cons, attach_joint joint notSpace]
  | cons first rest inductionHypothesis =>
      obtain rfl := layout first List.mem_cons_self
      rw [List.cons_append, tidy_cons,
        inductionHypothesis fun other member => layout other (List.mem_cons_of_mem _ member)]
      exact attach_space_of_joint joint

theorem tidy_layout_word (layout : Layout kinds) (nonempty : kinds ≠ []) (isWord : isJoint kind = false) :
    tidy (kinds ++ kind :: further) = .space :: kind :: tidy further := by
  induction kinds with
  | nil => contradiction
  | cons first rest inductionHypothesis =>
      obtain rfl := layout first List.mem_cons_self
      have others : Layout rest := fun other member => layout other (List.mem_cons_of_mem _ member)
      rw [List.cons_append, tidy_cons]
      by_cases isLast : rest = []
      · subst isLast
        rw [List.nil_append, tidy_cons, attach_word isWord, attach_space_of_word isWord]
      · rw [inductionHypothesis others isLast]
        exact attach_space_of_joint rfl

theorem tidy_layout (layout : Layout kinds) : tidy kinds = [] := by
  induction kinds with
  | nil => rfl
  | cons first rest inductionHypothesis =>
      obtain rfl := layout first List.mem_cons_self
      rw [tidy_cons, inductionHypothesis fun other member => layout other (List.mem_cons_of_mem _ member)]
      rfl

/-- However much layout comes first, it is layout once. -/
theorem tidy_layout_append (layout : Layout kinds) (begins : (kinds ++ further).head? = some .space) :
    tidy (kinds ++ further) = attach .space (tidy further) := by
  induction kinds with
  | nil =>
      obtain ⟨rest, rfl⟩ := List.head?_eq_some_iff.mp begins
      exact (attach_space_space _).symm
  | cons first rest inductionHypothesis =>
      obtain rfl := layout first List.mem_cons_self
      have others : Layout rest := fun other member => layout other (List.mem_cons_of_mem _ member)
      rw [List.cons_append, tidy_cons]
      cases rest with
      | nil => rfl
      | cons second more =>
          obtain rfl := others second List.mem_cons_self
          rw [inductionHypothesis others rfl, attach_space_space]

/-! ### What a tidy list comes from -/

theorem exists_layout_append (kinds : List TokenKind) :
    ∃ layout, Layout layout ∧ kinds = layout ++ afterLayout kinds := by
  refine ⟨kinds.takeWhile (· == .space), ?_, List.takeWhile_append_dropWhile.symm⟩
  intro kind member
  exact beq_iff_eq.mp (List.all_eq_true.mp List.all_takeWhile kind member)

theorem word_of_tidy (isWord : isJoint kind = false) (isTidy : tidy kinds = kind :: further) :
    ∃ rest, kinds = kind :: rest ∧ tidy rest = further := by
  cases kinds with
  | nil => contradiction
  | cons first rest =>
      rw [tidy_cons] at isTidy
      by_cases isSpace : first = .space
      · subst isSpace
        have joins := joins_attach_space (tidy rest)
        rw [isTidy, List.head?_cons, Option.all_some, isWord] at joins
        contradiction
      · by_cases joint : isJoint first = true
        · rw [attach_joint joint isSpace] at isTidy
          rw [(List.cons.inj isTidy).1, isWord] at joint
          contradiction
        · rw [attach_word (Bool.eq_false_iff.mpr joint)] at isTidy
          obtain ⟨rfl, isRest⟩ := List.cons.inj isTidy
          exact ⟨rest, rfl, isRest⟩

/-- Words stand as they are. -/
theorem words_of_tidy {words : List TokenKind} (areWords : Words words) (isTidy : tidy kinds = words ++ further) :
    ∃ rest, kinds = words ++ rest ∧ tidy rest = further := by
  induction words generalizing kinds with
  | nil => exact ⟨kinds, rfl, isTidy⟩
  | cons word others inductionHypothesis =>
      obtain ⟨rest, rfl, isRest⟩ := word_of_tidy (areWords word List.mem_cons_self) isTidy
      obtain ⟨last, rfl, isLast⟩ :=
        inductionHypothesis (fun other member => areWords other (List.mem_cons_of_mem _ member)) isRest
      exact ⟨last, rfl, isLast⟩

/-- A joint may have layout before and after it. -/
theorem joint_of_tidy (joint : isJoint kind = true) (notSpace : kind ≠ .space)
    (isTidy : tidy kinds = kind :: further) :
    ∃ before after rest, Layout before ∧ Layout after ∧ kinds = before ++ kind :: (after ++ rest) ∧
      tidy rest = further := by
  induction kinds with
  | nil => contradiction
  | cons first rest inductionHypothesis =>
      rw [tidy_cons] at isTidy
      by_cases isSpace : first = .space
      · subst isSpace
        by_cases joins : (tidy rest).head?.all isJoint = true
        · rw [attach_space_of_joint joins] at isTidy
          obtain ⟨before, after, last, layoutBefore, layoutAfter, rfl, isLast⟩ := inductionHypothesis isTidy
          exact ⟨.space :: before, after, last, List.forall_mem_cons.mpr ⟨rfl, layoutBefore⟩, layoutAfter, rfl,
            isLast⟩
        · rw [attach, if_pos rfl, if_neg joins] at isTidy
          exact absurd (List.cons.inj isTidy).1.symm notSpace
      · by_cases joins : isJoint first = true
        · rw [attach_joint joins isSpace] at isTidy
          obtain ⟨rfl, isRest⟩ := List.cons.inj isTidy
          obtain ⟨after, layoutAfter, whole⟩ := exists_layout_append rest
          refine ⟨[], after, afterLayout rest, .nil, layoutAfter, congrArg (first :: ·) whole, ?_⟩
          rw [tidy_afterLayout]
          exact isRest
        · rw [attach_word (Bool.eq_false_iff.mpr joins)] at isTidy
          rw [(List.cons.inj isTidy).1] at joins
          exact absurd joint joins

/-- Layout between words is there. -/
theorem space_of_tidy (isWord : isJoint kind = false) (isTidy : tidy kinds = .space :: kind :: further) :
    ∃ gap rest, Layout gap ∧ gap ≠ [] ∧ kinds = gap ++ rest ∧ tidy rest = kind :: further := by
  obtain ⟨gap, layout, whole⟩ := exists_layout_append kinds
  have stays : afterLayout (kind :: further) = kind :: further := by
    apply List.dropWhile_cons_of_neg
    intro isSpace
    rw [beq_iff_eq.mp isSpace] at isWord
    contradiction
  have isRest : tidy (afterLayout kinds) = kind :: further := by
    rw [tidy_afterLayout, isTidy]
    exact stays
  refine ⟨gap, afterLayout kinds, layout, ?_, whole, isRest⟩
  rintro rfl
  have same : kinds = afterLayout kinds := whole
  rw [← same, isTidy] at isRest
  have isSpace := (List.cons.inj isRest).1
  rw [← isSpace] at isWord
  contradiction

theorem layout_of_tidy (isTidy : tidy kinds = []) : Layout kinds := by
  induction kinds with
  | nil => exact .nil
  | cons first rest inductionHypothesis =>
      rw [tidy_cons, attach] at isTidy
      split at isTidy
      · rename_i isSpace
        split at isTidy
        · exact List.forall_mem_cons.mpr ⟨isSpace, inductionHypothesis isTidy⟩
        · contradiction
      · split at isTidy <;> contradiction

/-! ### The words of the grammar -/

section Words

variable {engine : RegexEngine}

theorem Words.cons (isWord : isJoint kind = false) (words : Words kinds) : Words (kind :: kinds) :=
  List.forall_mem_cons.mpr ⟨isWord, words⟩

theorem Words.append (words : Words kinds) (others : Words further) : Words (kinds ++ further) :=
  List.forall_mem_append.mpr ⟨words, others⟩

theorem Words.nil : Words [] := nofun

theorem Segments.words {names : List String} (segments : Segments kinds names) : Words kinds := by
  induction segments with
  | nil => exact .nil
  | cons _ inductionHypothesis => exact .cons rfl (.cons rfl inductionHypothesis)

theorem Path.words {names : List String} (path : Path kinds names) : Words kinds := by
  cases path with
  | intro segments => exact .cons rfl segments.words

theorem Value.words {comparison : Comparison} {operand : Operand}
    (value : Value engine comparison kinds operand) : Words kinds := by
  cases value with
  | path path => exact path.words
  | _ => exact .cons rfl .nil

theorem AtomOf.words {condition : Atom} (derived : AtomOf engine kinds condition) : Words kinds := by
  cases derived with
  | wildcard => exact .cons rfl .nil
  | identifier => exact .cons rfl .nil
  | hashed => exact .cons rfl (.cons rfl .nil)
  | present path => exact .cons rfl (path.words.append (.cons rfl .nil))
  | tested path value =>
      exact .cons rfl (path.words.append (.cons rfl (value.words.append (.cons rfl .nil))))
  | field segments => exact segments.words

theorem Atoms.words {conditions : List Atom} (derived : Atoms engine kinds conditions) : Words kinds := by
  induction derived with
  | one first => exact first.words
  | cons first _ _ inductionHypothesis => exact first.words.append inductionHypothesis

theorem words_mark (subject : Bool) : Words (mark subject) := by
  cases subject with
  | true => exact .cons rfl .nil
  | false => exact .nil

/-- Nothing in a sequence is layout, a comma or a child combinator. -/
theorem Sequence.words {selector : Selector} (derived : Sequence engine kinds selector) : Words kinds := by
  cases derived with
  | single subject first => exact (words_mark subject).append first.words
  | several subject atoms _ => exact (words_mark subject).append atoms.words

end Words

/-! ### Derivations of lists that are alike -/

section Derivations

variable {engine : RegexEngine}

/-- A sequence begins with a word, so layout before it can be told from it. -/
theorem Sequence.exists_word {selector : Selector} (derived : Sequence engine kinds selector) :
    ∃ word rest, kinds = word :: rest ∧ isJoint word = false := by
  obtain ⟨word, rest, rfl, _⟩ := derived.exists_head
  exact ⟨word, rest, rfl, derived.words word List.mem_cons_self⟩

theorem afterLayout_tidy_sequence {selector : Selector} (derived : Sequence engine kinds selector)
    {layout : List TokenKind} (isLayout : Layout layout) (further : List TokenKind) :
    afterLayout (tidy (layout ++ (kinds ++ further))) = kinds ++ tidy further := by
  obtain ⟨word, rest, rfl, isWord⟩ := derived.exists_word
  rw [← tidy_afterLayout, afterLayout_layout isLayout, tidy_afterLayout, tidy_words derived.words]
  apply List.dropWhile_cons_of_neg
  intro isSpace
  rw [beq_iff_eq.mp isSpace] at isWord
  contradiction

theorem Links.of_tidy {links : List (Combinator × Selector)} (derived : Links engine kinds links)
    (alike : tidy kinds' = tidy (kinds ++ further)) :
    ∃ used rest, kinds' = used ++ rest ∧ Links engine used links ∧ tidy rest = tidy further := by
  induction derived generalizing kinds' with
  | nil => exact ⟨[], kinds', rfl, .nil, alike⟩
  | child layoutBefore layoutAfter right _ inductionHypothesis =>
      rw [List.append_assoc, List.cons_append, List.append_assoc, List.append_assoc,
        tidy_layout_joint layoutBefore rfl (by decide), afterLayout_tidy_sequence right layoutAfter] at alike
      obtain ⟨before, after, left, isBefore, isAfter, rfl, isLeft⟩ := joint_of_tidy rfl (by decide) alike
      obtain ⟨left, rfl, others⟩ := words_of_tidy right.words isLeft
      obtain ⟨used, rest, rfl, links, isRest⟩ := inductionHypothesis others
      refine ⟨_, rest, ?_, .child isBefore isAfter right links, isRest⟩
      simp only [List.append_assoc, List.cons_append]
  | descendant layout nonempty right _ inductionHypothesis =>
      obtain ⟨word, others, rfl, isWord⟩ := right.exists_word
      rw [List.append_assoc, List.append_assoc, List.cons_append, tidy_layout_word layout nonempty isWord,
        tidy_words fun other member => right.words other (List.mem_cons_of_mem _ member)] at alike
      obtain ⟨gap, left, isGap, isNonempty, rfl, isLeft⟩ := space_of_tidy isWord alike
      obtain ⟨left, rfl, isFurther⟩ := words_of_tidy right.words isLeft
      obtain ⟨used, rest, rfl, links, isRest⟩ := inductionHypothesis isFurther
      refine ⟨_, rest, ?_, .descendant isGap isNonempty right links, isRest⟩
      simp only [List.append_assoc]

theorem Chain.of_tidy {selector : Selector} (derived : Chain engine kinds selector)
    {layout : List TokenKind} (isLayout : Layout layout)
    (alike : tidy kinds' = afterLayout (tidy (layout ++ (kinds ++ further)))) :
    ∃ used rest, kinds' = used ++ rest ∧ Chain engine used selector ∧ tidy rest = tidy further := by
  cases derived with
  | intro first links =>
      rw [List.append_assoc, afterLayout_tidy_sequence first isLayout] at alike
      obtain ⟨left, rfl, isLeft⟩ := words_of_tidy first.words alike
      obtain ⟨used, rest, rfl, isLinks, isRest⟩ := links.of_tidy isLeft
      exact ⟨_, rest, (List.append_assoc _ _ _).symm, .intro first isLinks, isRest⟩

theorem Further.of_tidy {others : List Selector} (derived : Further engine kinds others)
    (alike : tidy kinds' = tidy (kinds ++ further)) :
    ∃ used rest, kinds' = used ++ rest ∧ Further engine used others ∧ tidy rest = tidy further := by
  induction derived generalizing kinds' with
  | nil => exact ⟨[], kinds', rfl, .nil, alike⟩
  | cons layoutBefore layoutAfter first _ inductionHypothesis =>
      rw [List.append_assoc, List.cons_append, List.append_assoc, List.append_assoc,
        tidy_layout_joint layoutBefore rfl (by decide)] at alike
      obtain ⟨before, after, left, isBefore, isAfter, rfl, isLeft⟩ := joint_of_tidy rfl (by decide) alike
      obtain ⟨chain, left, rfl, isChain, isFurther⟩ := first.of_tidy layoutAfter isLeft
      obtain ⟨used, rest, rfl, isUsed, isRest⟩ := inductionHypothesis isFurther
      refine ⟨_, rest, ?_, .cons isBefore isAfter isChain isUsed, isRest⟩
      simp only [List.append_assoc, List.cons_append]

/-- Layout that joins nothing does not change what a token list derives. -/
theorem Derives.of_tidy {selector : Selector} (derived : Derives engine kinds selector)
    (alike : afterLayout (tidy kinds') = afterLayout (tidy kinds)) : Derives engine kinds' selector := by
  cases derived with
  | intro layoutBefore chain others layoutAfter =>
      obtain ⟨before, isBefore, whole⟩ := exists_layout_append kinds'
      rw [← tidy_afterLayout] at alike
      obtain ⟨used, left, isUsed, isChain, isLeft⟩ := chain.of_tidy layoutBefore alike
      obtain ⟨further, after, rfl, isFurther, isAfter⟩ := others.of_tidy isLeft
      rw [tidy_layout layoutAfter] at isAfter
      rw [whole, isUsed]
      exact .intro isBefore isChain isFurther (layout_of_tidy isAfter)

end Derivations

end TreeLint.SelectorGrammar
