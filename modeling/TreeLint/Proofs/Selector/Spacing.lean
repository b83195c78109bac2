import Mathlib.Logic.Relation
import TreeLint.Proofs.Selector.Joining
import TreeLint.Proofs.Selector.Progress
import TreeLint.Proofs.Selector.Rescanning
import TreeLint.Proofs.Selector.Tidy

/-!
Contract: further layout does not change what a selector text denotes.

Owns:
- `Zone`, the places of a selector text, and the places where layout may be inserted in each of them;
- `Spread`, by which a text is made of the tokens of another with further layout at any number of those places;
- the law that the tokens are found again, but for layout tokens that join nothing;
- the law that the text denotes the same selector.

Does not own: layout between two words outside brackets, which joins them, and layout in the middle of a path that is
a value, where digits that run on into a name would be a numeral.
-/

set_option autoImplicit false

namespace TreeLint

open SelectorGrammar

/-! ### Where layout may be inserted -/

/-- The places of a selector text. -/
inductive Zone where
  /-- Outside brackets. -/
  | outside
  /-- In brackets, before an operator. -/
  | key
  /-- Directly after an operator. -/
  | operand
  /-- In brackets, after the first token of a value. -/
  | value
  deriving DecidableEq

namespace Zone

def mode : Zone → LexerMode
  | .outside => .selector
  | .key | .value => .attribute
  | .operand => .operand

def after : Zone → TokenKind → Zone
  | .outside, .leftBracket => .key
  | .outside, _ => .outside
  | .operand, _ => .value
  | .key, .rightBracket | .value, .rightBracket => .outside
  | .key, .comparison _ | .value, .comparison _ => .operand
  | zone, _ => zone

/-- Whether a token is a point or a later name of a path that is a value. -/
def continuesValue : Zone → TokenKind → Bool
  | .value, .dot | .value, .name _ => true
  | _, _ => false

theorem mode_after (zone : Zone) (kind : TokenKind) : (zone.after kind).mode = zone.mode.after kind := by
  cases zone <;> cases kind <;> rfl

end Zone

/-- A text that is made of lexemes, with further layout. The layout may stand
- at the end, and on both sides of a comma, of a child combinator and of layout outside brackets;
- before every token in brackets, the closing bracket and the value included, but not before a point or a later name
  of a path that is a value. -/
inductive Spread : Zone → List Lexeme → List Char → Prop where
  | stop {run : List Char} : run.all Text.isLayout = true → Spread .outside [] run
  | joint {lexeme : Lexeme} {lexemes : List Lexeme} {before after text : List Char} :
      isJoint lexeme.kind = true → before.all Text.isLayout = true → after.all Text.isLayout = true →
        Spread .outside lexemes text →
          Spread .outside (lexeme :: lexemes) (before ++ (lexeme.text ++ (after ++ text)))
  | word {lexeme : Lexeme} {lexemes : List Lexeme} {text : List Char} :
      isJoint lexeme.kind = false → Spread (Zone.outside.after lexeme.kind) lexemes text →
        Spread .outside (lexeme :: lexemes) (lexeme.text ++ text)
  | inner {zone : Zone} {lexeme : Lexeme} {lexemes : List Lexeme} {gap text : List Char} :
      zone ≠ .outside → gap.all Text.isLayout = true → lexeme.gap.Sublist gap →
        (zone.continuesValue lexeme.kind = true → gap = lexeme.gap) → Spread (zone.after lexeme.kind) lexemes text →
          Spread zone (lexeme :: lexemes) (gap ++ (lexeme.text ++ text))

/-- One text is the other with further layout, at the beginning and at any number of the places for it. -/
def Spreads (text text' : String) : Prop :=
  ∃ lexemes start body, Lexeme.ofText text.toList = .ok lexemes ∧ start.all Text.isLayout = true ∧
    Spread .outside lexemes body ∧ text'.toList = start ++ body

/-! ### What comes next -/

theorem sameNext_of_layout {run after after' : List Char} (isLayout : run.all Text.isLayout = true)
    (nonempty : run ≠ []) : SameNext after (run ++ after') := by
  obtain ⟨c, rest, rfl⟩ := List.exists_cons_of_ne_nil nonempty
  rw [List.all_cons, Bool.and_eq_true] at isLayout
  exact .inl ((Bool.or_eq_true _ _).mpr (.inl isLayout.1))

theorem sameNext_append {left after after' : List Char} (nonempty : left ≠ []) :
    SameNext (left ++ after) (left ++ after') := by
  obtain ⟨c, rest, rfl⟩ := List.exists_cons_of_ne_nil nonempty
  exact .inr rfl

/-! ### The end of a word -/

theorem endsWord_layout {run after : List Char} (isLayout : run.all Text.isLayout = true) (nonempty : run ≠ []) :
    EndsWord (run ++ after) := by
  obtain ⟨c, rest, rfl⟩ := List.exists_cons_of_ne_nil nonempty
  rw [List.all_cons, Bool.and_eq_true] at isLayout
  exact endsWord_of_isLayout isLayout.1 _

theorem endsWord_afterGap {gap after : List Char} (isGap : gap.all Text.isLayout = true) (ends : EndsWord after) :
    EndsWord (gap ++ after) := by
  by_cases isEmpty : gap = []
  · subst isEmpty
    exact ends
  · exact endsWord_layout isGap isEmpty

/-! ### Single tokens -/

section Takes

variable {zone : Zone} {position : Nat} {text after' : List Char} {lexeme : Lexeme} {next stop : LexerCursor}
  {lexemes : List Lexeme}

theorem reads_after (takes : LexerCursor.Takes ⟨zone.mode, position, text⟩ lexeme next)
    (further : LexerCursor.Reads next lexemes stop) :
    LexerCursor.Reads ⟨(zone.after lexeme.kind).mode, next.position, next.rest⟩ lexemes stop := by
  rw [Zone.mode_after, show zone.mode.after lexeme.kind = next.mode from takes.mode_eq.symm]
  exact further

/-- Neither a name nor a point begins with any other token in brackets. -/
theorem endsWord_of_takes (takes : LexerCursor.Takes ⟨.attribute, position, text⟩ lexeme next)
    (noPath : Zone.value.continuesValue lexeme.kind = false) (after : List Char) :
    EndsWord (lexeme.text ++ after) := by
  cases takes with
  | intro found scanned =>
      rename_i c rest scan
      change scanAttribute _ c rest = .ok scan at scanned
      show EndsWord (scan.text ++ after)
      change Zone.value.continuesValue scan.kind = false at noPath
      unfold scanAttribute scanOrEqual at scanned
      repeat' split at scanned
      all_goals first | contradiction | obtain rfl := Except.ok.inj scanned
      all_goals first | contradiction | subst_vars
      all_goals rfl

/-- A token is found again in front of what can stand in for the text after it. -/
theorem rescans_of_takes (takes : LexerCursor.Takes ⟨zone.mode, position, text⟩ lexeme next)
    (notSpace : zone = .outside → lexeme.kind ≠ .space) (sameNext : SameNext next.rest after')
    (sameWord : zone = .operand → SameWord next.rest after') :
    zone.mode.Scans (lexeme.text ++ after') lexeme.kind after' := by
  generalize isMode : zone.mode = mode at takes ⊢
  cases takes with
  | intro found scanned =>
      match zone with
      | .outside =>
          subst isMode
          have noLayout := Bool.eq_false_iff.mpr fun isLayout => by
            obtain rfl := Except.ok.inj ((if_pos isLayout).symm.trans scanned)
            exact notSpace rfl rfl
          exact rescans_selector noLayout scanned sameNext
      | .key =>
          subst isMode
          exact rescans_attribute scanned sameNext
      | .value =>
          subst isMode
          exact rescans_attribute scanned sameNext
      | .operand =>
          subst isMode
          have noLayout := Text.head?_dropWhile Text.isLayout text
          rw [show text.dropWhile Text.isLayout = _ from found] at noLayout
          exact rescans_operand noLayout scanned (sameWord rfl)

/-- Layout on both sides of a joint outside brackets adds no token that joins anything. -/
theorem lexes_joint {before after rest : List Char} {kinds : List TokenKind}
    (takes : LexerCursor.Takes ⟨.selector, position, text⟩ lexeme next) (joint : isJoint lexeme.kind = true)
    (isBefore : before.all Text.isLayout = true) (isAfter : after.all Text.isLayout = true)
    (lexes : LexerMode.selector.Lexes rest kinds) :
    ∃ kinds', LexerMode.selector.Lexes (before ++ (lexeme.text ++ (after ++ rest))) kinds' ∧
      tidy kinds' = attach lexeme.kind (tidy kinds) := by
  by_cases isSpace : lexeme.kind = .space
  · -- All the layout is one token.
    have isLayout : lexeme.text.all Text.isLayout = true := by
      cases takes with
      | intro _ scanned => exact all_isLayout_of_scanSelector scanned isSpace
    have isRun : (before ++ (lexeme.text ++ after)).all Text.isLayout = true := by
      rw [List.all_append, List.all_append, isBefore, isLayout, isAfter]
      rfl
    obtain ⟨layout, layoutTokens, lexesAll, begins⟩ := LexerMode.lexes_afterLayout isRun lexes
    rw [List.append_assoc, List.append_assoc] at lexesAll
    have nonempty : before ++ (lexeme.text ++ after) ≠ [] := by
      intro isEmpty
      have noText := (List.append_eq_nil_iff.mp (List.append_eq_nil_iff.mp isEmpty).2).1
      exact takes.passes.nonempty noText
    rw [isSpace]
    exact ⟨layout ++ kinds, lexesAll, tidy_layout_append layoutTokens (begins nonempty)⟩
  · have stays : LexerMode.selector.after lexeme.kind = .selector := by
      revert joint
      cases lexeme.kind <;> intro joint <;> first | rfl | contradiction
    have scans : LexerMode.selector.Scans (lexeme.text ++ (after ++ rest)) lexeme.kind (after ++ rest) := by
      cases isKind : lexeme.kind with
      | comma =>
          have covered : lexeme.text = [','] := takes.text_eq (by rw [isKind]; rfl)
          rw [covered]
          exact LexerMode.scans_comma
      | greater =>
          have covered : lexeme.text = ['>'] := takes.text_eq (by rw [isKind]; rfl)
          rw [covered]
          exact LexerMode.scans_greater
      | space => exact absurd isKind isSpace
      | _ =>
          rw [isKind] at joint
          contradiction
    obtain ⟨layoutAfter, areAfter, lexesAfter, _⟩ := LexerMode.lexes_afterLayout isAfter lexes
    rw [← stays] at lexesAfter
    obtain ⟨layoutBefore, areBefore, lexesAll, _⟩ :=
      LexerMode.lexes_afterLayout isBefore (.cons scans lexesAfter)
    refine ⟨_, lexesAll, ?_⟩
    rw [tidy_layout_joint areBefore joint isSpace, attach_joint joint isSpace, ← tidy_afterLayout,
      afterLayout_layout areAfter, tidy_afterLayout]

end Takes

namespace Spread

variable {zone : Zone} {lexemes : List Lexeme} {position : Nat} {text text' : List Char} {stop : LexerCursor}

/-- The next character is the same, or layout has been inserted before it. -/
theorem sameNext (spread : Spread zone lexemes text')
    (reads : LexerCursor.Reads ⟨zone.mode, position, text⟩ lexemes stop)
    (atEnd : stop.mode.afterGap stop.rest = []) : SameNext text text' := by
  cases spread with
  | stop isLayout =>
      cases reads
      rw [show text = [] from atEnd]
      by_cases isEmpty : text' = []
      · subst isEmpty
        exact .inr rfl
      · have same : SameNext [] (text' ++ []) := sameNext_of_layout isLayout isEmpty
        rwa [List.append_nil] at same
  | @joint _ _ before _ _ _ isBefore _ _ =>
      cases reads with
      | cons takes _ =>
          by_cases isEmpty : before = []
          · subst isEmpty
            rw [show text = _ from takes.split_outside rfl, List.nil_append]
            exact sameNext_append takes.passes.nonempty
          · exact sameNext_of_layout isBefore isEmpty
  | word _ _ =>
      cases reads with
      | cons takes _ =>
          rw [show text = _ from takes.split_outside rfl]
          exact sameNext_append takes.passes.nonempty
  | @inner _ _ _ gap _ _ isGap longer _ _ =>
      cases reads with
      | cons takes _ =>
          by_cases isEmpty : gap = []
          · subst isEmpty
            rw [show text = _ from takes.passes.split, List.sublist_nil.mp longer, List.nil_append,
              List.nil_append]
            exact sameNext_append takes.passes.nonempty
          · exact sameNext_of_layout isGap isEmpty

/-- Within a path that is a value, the text goes on as before up to the end of the word. -/
theorem sameWord (spread : Spread zone lexemes text')
    (reads : LexerCursor.Reads ⟨zone.mode, position, text⟩ lexemes stop) (inValue : zone = .value) :
    SameWord text text' := by
  induction spread generalizing position text with
  | stop _ => contradiction
  | joint _ _ _ _ _ => contradiction
  | word _ _ _ => contradiction
  | @inner zone lexeme lexemes gap rest _ isGap longer fixedGap _ inductionHypothesis =>
      subst inValue
      cases reads with
      | @cons _ next _ _ _ takes further =>
          rw [show text = _ from takes.passes.split]
          have isShort : lexeme.gap.all Text.isLayout = true :=
            List.all_eq_true.mpr fun c member => List.all_eq_true.mp isGap c (longer.subset member)
          by_cases goesOn : Zone.value.continuesValue lexeme.kind = true
          · obtain rfl := fixedGap goesOn
            by_cases isEmpty : lexeme.gap = []
            · -- The word goes on, so it ends where that of the remaining text does.
              have stays : Zone.value.after lexeme.kind = .value := by
                revert goesOn
                cases lexeme.kind <;> intro goesOn <;> first | rfl | contradiction
              obtain ⟨word, left, left', isRest, isRest', ends, ends'⟩ :=
                inductionHypothesis (reads_after takes further) stays
              rw [isEmpty, isRest, isRest']
              exact ⟨lexeme.text ++ word, left, left', by simp, by simp, ends, ends'⟩
            · exact ⟨[], _, _, rfl, rfl, endsWord_layout isShort isEmpty, endsWord_layout isShort isEmpty⟩
          · have ends := endsWord_of_takes takes (Bool.eq_false_iff.mpr goesOn)
            exact ⟨[], _, _, rfl, rfl, endsWord_afterGap isShort (ends _), endsWord_afterGap isGap (ends _)⟩

/-- The tokens are found again, but for layout that joins nothing. -/
theorem lexes (spread : Spread zone lexemes text')
    (reads : LexerCursor.Reads ⟨zone.mode, position, text⟩ lexemes stop)
    (atEnd : stop.mode.afterGap stop.rest = []) :
    ∃ kinds, zone.mode.Lexes text' kinds ∧ tidy kinds = tidy (lexemes.map Lexeme.kind) := by
  induction spread generalizing position text with
  | @stop run isRun =>
      cases reads
      obtain ⟨layout, isLayout, lexes, _⟩ := LexerMode.lexes_afterLayout isRun (LexerMode.lexes_nil _)
      rw [List.append_nil, List.append_nil] at lexes
      exact ⟨layout, lexes, tidy_layout isLayout⟩
  | @joint lexeme lexemes before after rest joint isBefore isAfter _ inductionHypothesis =>
      cases reads with
      | cons takes further =>
          have stays : Zone.outside.after lexeme.kind = .outside := by
            revert joint
            cases lexeme.kind <;> intro joint <;> first | rfl | contradiction
          have readsRest := reads_after takes further
          rw [stays] at readsRest
          obtain ⟨kinds, lexes, alike⟩ := inductionHypothesis readsRest
          rw [List.map_cons, tidy_cons, ← alike]
          exact lexes_joint takes joint isBefore isAfter lexes
  | @word lexeme lexemes rest noJoint others inductionHypothesis =>
      cases reads with
      | cons takes further =>
          have readsRest := reads_after takes further
          obtain ⟨kinds, lexes, alike⟩ := inductionHypothesis readsRest
          have notSpace : lexeme.kind ≠ .space := by
            intro isSpace
            rw [isSpace] at noJoint
            contradiction
          have first := rescans_of_takes takes (fun _ => notSpace) (others.sameNext readsRest atEnd) nofun
          rw [Zone.mode_after] at lexes
          refine ⟨lexeme.kind :: kinds, .cons first lexes, ?_⟩
          rw [List.map_cons, tidy_cons, tidy_cons, alike]
  | @inner zone lexeme lexemes gap rest inside isGap _ _ others inductionHypothesis =>
      cases reads with
      | cons takes further =>
          have readsRest := reads_after takes further
          obtain ⟨kinds, lexes, alike⟩ := inductionHypothesis readsRest
          have inValue : zone = .operand → zone.after lexeme.kind = .value := by
            rintro rfl
            rfl
          have first := rescans_of_takes takes (fun outside => absurd outside inside)
            (others.sameNext readsRest atEnd) fun isOperand => others.sameWord readsRest (inValue isOperand)
          rw [Zone.mode_after] at lexes
          refine ⟨lexeme.kind :: kinds, .ofAfterGap ?_, ?_⟩
          · have skipped : zone.mode.afterGap (gap ++ (lexeme.text ++ rest)) = lexeme.text ++ rest := by
              obtain ⟨c, more, isText, noLayout, _⟩ := first
              have bracketed : zone.mode ≠ .selector := by
                cases zone <;> first | decide | exact absurd rfl inside
              rw [isText, LexerMode.afterGap, if_neg bracketed]
              exact Text.dropWhile_of_run isGap (noLayout bracketed)
            rw [skipped]
            exact .cons first lexes
          · rw [List.map_cons, tidy_cons, tidy_cons, alike]

end Spread

variable {engine : RegexEngine} {text text' : String} {selector : Selector}

theorem parse_of_spreads (parsed : Selector.parse engine text = .ok selector) (spreads : Spreads text text') :
    Selector.parse engine text' = .ok selector := by
  obtain ⟨lexemes, start, body, read, isStart, spread, isText⟩ := spreads
  obtain ⟨lexemes', read', derived⟩ := Selector.lexemes_of_parse parsed
  obtain rfl := Except.ok.inj (read.symm.trans read')
  obtain ⟨stop, reads, atEnd⟩ := LexerCursor.reads_of_lexemesFrom read
  obtain ⟨kinds, lexes, alike⟩ := spread.lexes reads atEnd
  obtain ⟨layout, isLayout, lexesText, _⟩ := LexerMode.lexes_afterLayout isStart lexes
  rw [← isText] at lexesText
  refine Selector.parse_of_lexes (derived.of_tidy ?_) lexesText
  rw [← tidy_afterLayout, afterLayout_layout isLayout, tidy_afterLayout, alike]

/-- Layout that is inserted where it joins nothing does not change what a selector text denotes, however often it is
inserted. -/
theorem parse_spaced (parsed : Selector.parse engine text = .ok selector)
    (spaced : Relation.ReflTransGen Spreads text text') : Selector.parse engine text' = .ok selector := by
  induction spaced with
  | refl => exact parsed
  | tail _ spreads inductionHypothesis => exact parse_of_spreads inductionHypothesis spreads

/-- Layout around a child combinator, in brackets and at both ends. -/
theorem parse_spaced_bareword :
    ∃ selector, Selector.parse .standard "a>b[c<1d.e]" = .ok selector ∧
      Selector.parse .standard " a > b[ c < 1d.e ]\n" = .ok selector := by
  have accepted : (Selector.parse .standard "a>b[c<1d.e]").toOption.isSome = true := by decide +kernel
  have read : Lexeme.ofText "a>b[c<1d.e]".toList = .ok
      [⟨[], .name "a", 0, ['a']⟩, ⟨[], .greater, 1, ['>']⟩, ⟨[], .name "b", 2, ['b']⟩,
        ⟨[], .leftBracket, 3, ['[']⟩, ⟨[], .name "c", 4, ['c']⟩, ⟨[], .comparison .less, 5, ['<']⟩,
        ⟨[], .name "1d", 6, ['1', 'd']⟩, ⟨[], .dot, 8, ['.']⟩, ⟨[], .name "e", 9, ['e']⟩,
        ⟨[], .rightBracket, 10, [']']⟩] := by
    with_unfolding_all rfl
  have spreads : Spreads "a>b[c<1d.e]" " a > b[ c < 1d.e ]\n" := by
    refine ⟨_, [' '], ['a', ' ', '>', ' ', 'b', '[', ' ', 'c', ' ', '<', ' ', '1', 'd', '.', 'e', ' ', ']', '\n'],
      read, rfl, ?_, by decide⟩
    apply Spread.word rfl
    apply @Spread.joint _ _ [' '] [' '] _ rfl rfl rfl
    apply Spread.word rfl
    apply Spread.word rfl
    apply @Spread.inner _ _ _ [' '] _ (by decide) rfl (by decide) (by decide)
    apply @Spread.inner _ _ _ [' '] _ (by decide) rfl (by decide) (by decide)
    apply @Spread.inner _ _ _ [' '] _ (by decide) rfl (by decide) (by decide)
    apply @Spread.inner _ _ _ [] _ (by decide) rfl (by decide) fun _ => rfl
    apply @Spread.inner _ _ _ [] _ (by decide) rfl (by decide) fun _ => rfl
    apply @Spread.inner _ _ _ [' '] _ (by decide) rfl (by decide) (by decide)
    exact .stop rfl
  cases parsed : Selector.parse .standard "a>b[c<1d.e]" with
  | error error =>
      rw [parsed] at accepted
      contradiction
  | ok selector => exact ⟨selector, rfl, parse_spaced parsed (.single spreads)⟩

end TreeLint
