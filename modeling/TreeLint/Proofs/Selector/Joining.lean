import TreeLint.Proofs.Selector.Continuing
import TreeLint.Proofs.Selector.RoundTrip

/-!
Contract: two selector texts joined by a comma.

Owns:
- the context after the tokens of every part of a selector, which is the one that the part began in, so that a
  selector text ends outside brackets;
- the place of a colon in a selector text: a bracket is closed after it;
- `Selector.alternatives`, and the law that the text of two selectors with a comma and a space between them denotes
  the union of the alternatives of both.
-/

set_option autoImplicit false

namespace TreeLint

open SelectorGrammar

/-! ### The context after a part -/

namespace LexerMode

theorem afterAll_cons (mode : LexerMode) (kind : TokenKind) (kinds : List TokenKind) :
    mode.afterAll (kind :: kinds) = (mode.after kind).afterAll kinds := rfl

theorem afterAll_append (mode : LexerMode) (kinds further : List TokenKind) :
    mode.afterAll (kinds ++ further) = (mode.afterAll kinds).afterAll further :=
  List.foldl_append

end LexerMode

namespace SelectorGrammar

variable {engine : RegexEngine} {kinds : List TokenKind}

theorem Layout.afterAll (layout : Layout kinds) :
    LexerMode.selector.afterAll kinds = .selector := by
  induction kinds with
  | nil => rfl
  | cons kind others inductionHypothesis =>
      obtain rfl := layout kind List.mem_cons_self
      exact inductionHypothesis fun other member => layout other (List.mem_cons_of_mem _ member)

theorem Segments.afterAll {mode : LexerMode} (steady : mode ≠ .operand) {names : List String}
    (segments : Segments kinds names) : mode.afterAll kinds = mode := by
  induction segments with
  | nil => rfl
  | @cons name _ _ _ inductionHypothesis =>
      obtain ⟨afterName, afterDot⟩ := after_name steady name
      rw [LexerMode.afterAll_cons, LexerMode.afterAll_cons, afterDot, afterName,
        inductionHypothesis]

theorem Path.afterAll {path : List String} (derived : Path kinds path) :
    LexerMode.attribute.afterAll kinds = .attribute := by
  cases derived with
  | intro segments =>
      rw [LexerMode.afterAll_cons]
      exact segments.afterAll (show LexerMode.attribute ≠ .operand by decide)

theorem Value.afterAll {comparison : Comparison} {operand : Operand}
    (derived : Value engine comparison kinds operand) :
    LexerMode.operand.afterAll kinds = .attribute := by
  cases derived with
  | path path =>
      cases path with
      | intro segments =>
          rw [LexerMode.afterAll_cons]
          exact segments.afterAll (show LexerMode.attribute ≠ .operand by decide)
  | _ => rfl

theorem AtomOf.afterAll {condition : Atom} (derived : AtomOf engine kinds condition) :
    LexerMode.selector.afterAll kinds = .selector := by
  cases derived with
  | present path =>
      rw [LexerMode.afterAll_cons, LexerMode.afterAll_append]
      exact congrArg (LexerMode.afterAll · [.rightBracket]) path.afterAll
  | tested path value =>
      rw [LexerMode.afterAll_cons, LexerMode.afterAll_append, LexerMode.after, path.afterAll,
        LexerMode.afterAll_cons, LexerMode.afterAll_append, LexerMode.after, value.afterAll]
      rfl
  | field segments => exact segments.afterAll (by decide)
  | _ => rfl

theorem Atoms.afterAll {conditions : List Atom} (derived : Atoms engine kinds conditions) :
    LexerMode.selector.afterAll kinds = .selector := by
  induction derived with
  | one first => exact first.afterAll
  | cons first _ _ inductionHypothesis =>
      rw [LexerMode.afterAll_append, first.afterAll, inductionHypothesis]

theorem afterAll_mark (subject : Bool) :
    LexerMode.selector.afterAll (mark subject) = .selector := by
  cases subject <;> rfl

theorem Sequence.afterAll {selector : Selector} (derived : Sequence engine kinds selector) :
    LexerMode.selector.afterAll kinds = .selector := by
  cases derived with
  | single subject first => rw [LexerMode.afterAll_append, afterAll_mark, first.afterAll]
  | several subject atoms _ => rw [LexerMode.afterAll_append, afterAll_mark, atoms.afterAll]

theorem Links.afterAll {links : List (Combinator × Selector)} (derived : Links engine kinds links) :
    LexerMode.selector.afterAll kinds = .selector := by
  induction derived with
  | nil => rfl
  | child layoutBefore layoutAfter right _ inductionHypothesis =>
      rw [LexerMode.afterAll_append, layoutBefore.afterAll, LexerMode.afterAll_cons,
        LexerMode.afterAll_append, LexerMode.after, layoutAfter.afterAll, LexerMode.afterAll_append,
        right.afterAll, inductionHypothesis]
      exact fun isBracket => nomatch isBracket
  | descendant layout _ right _ inductionHypothesis =>
      rw [LexerMode.afterAll_append, layout.afterAll, LexerMode.afterAll_append, right.afterAll,
        inductionHypothesis]

theorem Chain.afterAll {selector : Selector} (derived : Chain engine kinds selector) :
    LexerMode.selector.afterAll kinds = .selector := by
  cases derived with
  | intro first links => rw [LexerMode.afterAll_append, first.afterAll, links.afterAll]

theorem Further.afterAll {others : List Selector} (derived : Further engine kinds others) :
    LexerMode.selector.afterAll kinds = .selector := by
  induction derived with
  | nil => rfl
  | cons layoutBefore layoutAfter first _ inductionHypothesis =>
      rw [LexerMode.afterAll_append, layoutBefore.afterAll, LexerMode.afterAll_cons,
        LexerMode.afterAll_append, LexerMode.after, layoutAfter.afterAll, LexerMode.afterAll_append,
        first.afterAll, inductionHypothesis]
      exact fun isBracket => nomatch isBracket

/-- All brackets of a selector text are closed at its end. -/
theorem Derives.afterAll {selector : Selector} (derived : Derives engine kinds selector) :
    LexerMode.selector.afterAll kinds = .selector := by
  cases derived with
  | intro layoutBefore chain further layoutAfter =>
      rw [LexerMode.afterAll_append, layoutBefore.afterAll, LexerMode.afterAll_append,
        chain.afterAll, LexerMode.afterAll_append, further.afterAll, layoutAfter.afterAll]

end SelectorGrammar

/-! ### Colons -/

section Scanning

variable {position : Nat} {c : Char} {rest : List Char} {scan : Scan (c :: rest)}

theorem noColon_run {p : Char → Bool} {kind : List Char → TokenKind} (noColon : p ':' = false)
    (first : p c = true) : ':' ∉ (Scan.run p kind c rest).text := by
  have all : (c :: rest.takeWhile p).all p = true := by
    rw [List.all_cons, first, List.all_takeWhile]
    rfl
  intro member
  have isColon := List.all_eq_true.mp all ':' member
  rw [noColon] at isColon
  contradiction

theorem noColon_of_scanSelector (read : scanSelector position c rest = .ok scan) :
    ':' ∉ scan.text := by
  have noColon_one : ∀ {other : Char} {kind : TokenKind}, c = other → other ≠ ':' →
      ':' ∉ (Scan.one kind c rest).text := by
    rintro other kind rfl notColon member
    exact notColon (List.mem_singleton.mp member).symm
  unfold scanSelector at read
  repeat' split at read
  all_goals first | contradiction | obtain rfl := Except.ok.inj read
  · exact noColon_run rfl ‹_›
  all_goals first | exact noColon_one ‹_› (by decide) | skip
  exact noColon_run (by decide) ‹_›

/-- The only token that leads out of a bracket is the closing bracket. -/
theorem text_of_closing {mode : LexerMode} (read : mode.scan position c rest = .ok scan)
    (inside : mode ≠ .selector) (outside : mode.after scan.kind = .selector) : scan.text = [']'] := by
  match mode with
  | .selector => exact absurd rfl inside
  | .operand => exact nomatch (outside : LexerMode.attribute = .selector)
  | .attribute =>
      change scanAttribute position c rest = .ok scan at read
      unfold scanAttribute scanOrEqual at read
      repeat' split at read
      all_goals first | contradiction | obtain rfl := Except.ok.inj read
      all_goals first | contradiction | skip
      rename_i isBracket
      exact congrArg (fun letter => [letter]) isBracket

theorem noColon_of_outside {mode : LexerMode} (read : mode.scan position c rest = .ok scan)
    (outside : mode.after scan.kind = .selector) : ':' ∉ scan.text := by
  by_cases inside : mode = .selector
  · subst inside
    exact noColon_of_scanSelector read
  · rw [text_of_closing read inside outside]
    decide

end Scanning

section Lexing

variable {mode : LexerMode} {position : Nat} {text : List Char} {lexemes : List Lexeme}

/-- A text that begins inside a bracket and ends outside brackets closes the bracket. -/
theorem mem_rightBracket_of_outside (read : lexemesFrom mode position text = .ok lexemes)
    (inside : mode ≠ .selector) (outside : mode.afterAll (lexemes.map Lexeme.kind) = .selector) :
    ']' ∈ text := by
  fun_induction lexemesFrom mode position text generalizing lexemes with
  | case1 =>
      obtain rfl := Except.ok.inj read
      exact absurd outside inside
  | case2 => contradiction
  | case3 => contradiction
  | case4 mode position text c rest found start scan scanned others othersRead =>
      rename_i inductionHypothesis
      obtain rfl := Except.ok.inj read
      have inToken : ']' ∈ scan.text ++ scan.rest := by
        by_cases closes : mode.after scan.kind = .selector
        · rw [text_of_closing scanned inside closes]
          exact List.mem_cons_self
        · exact List.mem_append_right _ (inductionHypothesis othersRead closes outside)
      rw [← mode.gap_append_afterGap text, found, ← scan.split]
      exact List.mem_append_right _ inToken

theorem noColon_gap (mode : LexerMode) (text : List Char) : ':' ∉ mode.gap text := by
  unfold LexerMode.gap
  split
  · exact List.not_mem_nil
  · intro member
    have isLayout := List.all_eq_true.mp (List.all_takeWhile (p := Text.isLayout) (l := text)) ':' member
    contradiction

/-- In a text that ends outside brackets, a bracket is closed after every colon. -/
theorem mem_rightBracket_of_colon (read : lexemesFrom mode position text = .ok lexemes)
    (outside : mode.afterAll (lexemes.map Lexeme.kind) = .selector) {front back : List Char}
    (split : text = front ++ ':' :: back) : ']' ∈ back := by
  fun_induction lexemesFrom mode position text generalizing lexemes front with
  | case1 mode position text nothing =>
      obtain rfl := Except.ok.inj read
      obtain rfl : mode = .selector := outside
      rw [show text = [] from nothing] at split
      simp at split
  | case2 => contradiction
  | case3 => contradiction
  | case4 mode position text c rest found start scan scanned others othersRead =>
      rename_i inductionHypothesis
      obtain rfl := Except.ok.inj read
      rw [← mode.gap_append_afterGap text, found, ← scan.split, ← List.append_assoc,
        List.append_eq_append_iff] at split
      -- The colon stands in what is left after the token, or within the token itself.
      rcases split with ⟨more, _, isRest⟩ | ⟨more, covered, isBack⟩
      · exact inductionHypothesis othersRead outside isRest
      · cases more with
        | nil =>
            exact inductionHypothesis othersRead outside
              (show scan.rest = [] ++ ':' :: back from isBack.symm)
        | cons colon inner =>
            obtain ⟨rfl, rfl⟩ := List.cons.inj isBack
            have inToken : ':' ∈ scan.text := by
              have member : ':' ∈ mode.gap text ++ scan.text := by simp [covered]
              exact (List.mem_append.mp member).resolve_left (noColon_gap mode text)
            have inside : mode.after scan.kind ≠ .selector :=
              fun closes => noColon_of_outside scanned closes inToken
            exact List.mem_append_right _ (mem_rightBracket_of_outside othersRead inside outside)

end Lexing

/-! ### Alternatives -/

namespace Selector

/-- The alternatives of a selector. One that is no union is its only alternative. -/
def alternatives : Selector → List Selector
  | .union _ members => members
  | other => [other]

end Selector

namespace SelectorGrammar

variable {engine : RegexEngine} {kinds further : List TokenKind}

theorem Layout.append (layout : Layout kinds) (layoutAfter : Layout further) :
    Layout (kinds ++ further) := by
  intro kind member
  exact (List.mem_append.mp member).elim (layout kind) (layoutAfter kind)

theorem alternatives_joinAll {first : Selector} (notUnion : first.alternatives = [first])
    (links : List (Combinator × Selector)) :
    (joinAll first links).alternatives = [joinAll first links] := by
  induction links generalizing first with
  | nil => exact notUnion
  | cons link rest inductionHypothesis =>
      have joined : (Selector.joined false link.1 first link.2).alternatives = [_] := rfl
      exact inductionHypothesis joined

theorem Chain.alternatives {selector : Selector} (derived : Chain engine kinds selector) :
    selector.alternatives = [selector] := by
  cases derived with
  | intro first _ => exact alternatives_joinAll (by cases first <;> rfl) _

theorem alternatives_unite {first : Selector} (notUnion : first.alternatives = [first])
    (others : List Selector) : (unite first others).alternatives = first :: others := by
  cases others with
  | nil => exact notUnion
  | cons _ _ => rfl

theorem Further.append {others more : List Selector} (derived : Further engine kinds others)
    (derivedMore : Further engine further more) : Further engine (kinds ++ further) (others ++ more) := by
  induction derived with
  | nil => exact derivedMore
  | cons layoutBefore layoutAfter chain _ inductionHypothesis =>
      have whole := Further.cons layoutBefore layoutAfter chain inductionHypothesis
      simpa only [List.append_assoc, List.cons_append] using whole

/-- Two selectors with a comma between them derive the alternatives of both. -/
theorem Derives.join {left right : Selector} (derived : Derives engine kinds left)
    (derivedRight : Derives engine further right) :
    Derives engine (kinds ++ .comma :: further)
      (.union false (left.alternatives ++ right.alternatives)) := by
  cases derived with
  | @intro before kinds rest after first others layoutBefore chain more layoutAfter =>
      cases derivedRight with
      | @intro before' kinds' rest' after' first' others' layoutBefore' chain' more' layoutAfter' =>
          have whole := Derives.intro layoutBefore chain
            (more.append (.cons layoutAfter layoutBefore' chain' more')) layoutAfter'
          have united : unite first (others ++ first' :: others')
              = .union false ((first :: others) ++ (first' :: others')) := by
            cases others <;> rfl
          rw [united] at whole
          rw [alternatives_unite chain.alternatives, alternatives_unite chain'.alternatives]
          simpa only [List.append_assoc, List.cons_append] using whole

/-- Layout at the beginning changes nothing. -/
theorem Derives.afterLayout {selector : Selector} (layout : Layout further)
    (derived : Derives engine kinds selector) : Derives engine (further ++ kinds) selector := by
  cases derived with
  | intro layoutBefore chain more layoutAfter =>
      have whole := Derives.intro (layout.append layoutBefore) chain more layoutAfter
      simpa only [List.append_assoc] using whole

end SelectorGrammar

namespace LexerMode

/-- Layout before a text is a token of its own, or part of the layout that the text begins with. -/
theorem lexes_afterLayout {run text : List Char} {kinds : List TokenKind} (isRun : run.all Text.isLayout = true)
    (lexes : LexerMode.selector.Lexes text kinds) :
    ∃ layout, SelectorGrammar.Layout layout ∧ LexerMode.selector.Lexes (run ++ text) (layout ++ kinds) ∧
      (run ≠ [] → (layout ++ kinds).head? = some .space) := by
  cases run with
  | nil => exact ⟨[], .nil, lexes, fun nonempty => absurd rfl nonempty⟩
  | cons first others =>
      rw [List.all_cons, Bool.and_eq_true] at isRun
      have longer := scans_layout isRun.1 (others ++ text)
      by_cases starts : text.head?.any Text.isLayout = true
      · cases text with
        | nil => contradiction
        | cons c rest =>
            have isLayout : Text.isLayout c = true := starts
            obtain ⟨further, rfl, lexesFurther⟩ := lexes.uncons (scans_layout isLayout rest)
            rw [List.dropWhile_append_of_pos (List.all_eq_true.mp isRun.2),
              List.dropWhile_cons_of_pos isLayout] at longer
            exact ⟨[], .nil, .cons longer lexesFurther, fun _ => rfl⟩
      · rw [Text.dropWhile_of_run isRun.2 (Bool.eq_false_iff.mpr starts)] at longer
        exact ⟨[.space], layout_space, .cons longer lexes, fun _ => rfl⟩

end LexerMode

namespace Selector

variable {engine : RegexEngine}

/-- The tokens of a text that can be parsed, wherever it stands. -/
theorem lexemes_of_parse {text : String} {selector : Selector}
    (parsed : parse engine text = .ok selector) :
    ∃ lexemes, lexemesFrom .selector 0 text.toList = .ok lexemes ∧
      Derives engine (lexemes.map Lexeme.kind) selector := by
  obtain ⟨tokens, read, derived⟩ := derives_of_parse parsed
  rw [Token.ofText, Lexeme.ofText] at read
  cases lexed : lexemesFrom .selector 0 text.toList with
  | error error =>
      rw [lexed] at read
      contradiction
  | ok lexemes =>
      rw [lexed] at read
      obtain rfl := Except.ok.inj read
      rw [SelectorParser.kindsOf, List.map_map] at derived
      exact ⟨lexemes, rfl, derived⟩

/-- The text of two selectors with a comma and a space between them denotes the union of the alternatives of
both. -/
theorem parse_joined {first second : String} {left right : Selector}
    (parsedLeft : parse engine first = .ok left) (parsedRight : parse engine second = .ok right) :
    parse engine (first ++ ", " ++ second)
      = .ok (.union false (left.alternatives ++ right.alternatives)) := by
  obtain ⟨lexemes, read, derived⟩ := lexemes_of_parse parsedLeft
  obtain ⟨others, othersRead, derivedOthers⟩ := lexemes_of_parse parsedRight
  obtain ⟨layout, isLayout, lexesOthers, _⟩ :=
    LexerMode.lexes_afterLayout (show [' '].all Text.isLayout = true from rfl) (LexerMode.lexes_of_read othersRead)
  have lexes : LexerMode.selector.Lexes (first ++ ", " ++ second).toList
      (lexemes.map Lexeme.kind ++ .comma :: (layout ++ others.map Lexeme.kind)) := by
    rw [String.toList_append, String.toList_append, List.append_assoc]
    refine LexerMode.lexes_append read rfl ?_
    -- The first text closes all of its brackets, so the comma is a token of its own.
    rw [derived.afterAll]
    exact .cons LexerMode.scans_comma lexesOthers
  exact parse_of_lexes (derived.join (derivedOthers.afterLayout isLayout)) lexes

end Selector

end TreeLint
