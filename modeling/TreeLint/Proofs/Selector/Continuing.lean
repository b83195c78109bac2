import TreeLint.Proofs.Selector.Rescanning

/-!
Contract: a text is cut into the same tokens when another text follows it.

Owns:
- a token of a text that goes on with a comma, which is found again in all contexts and leaves the same text, with
  what follows after it;
- `LexerMode.afterAll`, the context after several tokens;
- the tokens of two texts put together, which are those of the first one and then those of the second one in the
  context that the first one ends in.

Does not own: texts that are followed by anything else than a comma. A name would run on into a letter.
-/

set_option autoImplicit false

namespace TreeLint

/-- Nothing follows, or a comma does. No token other than a comma begins or goes on with it. -/
def BreaksOff (after : List Char) : Prop := after.head?.all (· == ',') = true

theorem breaksOff_nil : BreaksOff [] := rfl

theorem BreaksOff.stops {after : List Char} (breaks : BreaksOff after) {p : Char → Bool}
    (noComma : p ',' = false) : after.head?.any p = false := by
  cases after with
  | nil => rfl
  | cons c rest =>
      obtain rfl : c = ',' := by simpa [BreaksOff] using breaks
      exact noComma

variable {after : List Char}

theorem BreaksOff.sameNext (breaks : BreaksOff after) (left : List Char) : SameNext left (left ++ after) := by
  cases left with
  | cons c rest => exact .inr rfl
  | nil =>
      cases after with
      | nil => exact .inr rfl
      | cons c rest => exact .inl ((Bool.or_eq_true _ _).mpr (.inr breaks))

theorem BreaksOff.sameWord (breaks : BreaksOff after) (left : List Char) : SameWord left (left ++ after) :=
  ⟨left, [], after, (List.append_nil left).symm, rfl, rfl, breaks.stops (by decide)⟩

namespace LexerMode

/-! ### The first token -/

/-- A token is found again, whatever the context and the position. -/
theorem scans_append {mode : LexerMode} {position : Nat} {c : Char} {rest : List Char} {scan : Scan (c :: rest)}
    (read : mode.scan position c rest = .ok scan) (noLayout : mode ≠ .selector → Text.isLayout c = false)
    (breaks : BreaksOff after) : mode.Scans (c :: (rest ++ after)) scan.kind (scan.rest ++ after) := by
  have whole : c :: (rest ++ after) = scan.text ++ (scan.rest ++ after) := by
    rw [← List.cons_append, ← List.append_assoc]
    exact congrArg (· ++ after) scan.split.symm
  match mode with
  | .selector =>
      by_cases isLayout : Text.isLayout c = true
      · -- What follows is no layout, so a run of layout ends where it did.
        obtain rfl := Except.ok.inj ((if_pos isLayout).symm.trans read)
        have scans := scans_layout isLayout (rest ++ after)
        rwa [Text.dropWhile_append rest (breaks.stops rfl)] at scans
      · rw [whole]
        exact rescans_selector (Bool.eq_false_iff.mpr isLayout) read (breaks.sameNext _)
  | .attribute =>
      rw [whole]
      exact rescans_attribute read (breaks.sameNext _)
  | .operand =>
      rw [whole]
      exact rescans_operand (noLayout LexerMode.noConfusion) read (breaks.sameWord _)

/-! ### Whole texts -/

/-- The context after tokens of the given kinds. -/
def afterAll (mode : LexerMode) (kinds : List TokenKind) : LexerMode :=
  kinds.foldl LexerMode.after mode

/-- Layout before the first token of a bracket is skipped. -/
theorem Lexes.ofAfterGap {mode : LexerMode} {text : List Char} {kinds : List TokenKind}
    (lexes : mode.Lexes (mode.afterGap text) kinds) : mode.Lexes text kinds := by
  have noGap : mode.gap (mode.afterGap text) = [] := by
    unfold gap afterGap
    split
    · rfl
    · exact Text.takeWhile_of_run List.all_nil (Text.head?_dropWhile _ _)
  have noFurtherGap : mode.afterGap (mode.afterGap text) = mode.afterGap text := by
    simpa only [noGap, List.nil_append] using mode.gap_append_afterGap (mode.afterGap text)
  intro position
  obtain ⟨lexemes, lexed, areKinds⟩ := lexes (position + Text.byteLength (mode.gap text))
  unfold lexemesFrom at lexed ⊢
  rw [noFurtherGap] at lexed
  simp only [noGap, Text.byteLength_nil, Nat.add_zero] at lexed
  split at lexed
  · exact ⟨lexemes, lexed, areKinds⟩
  · split at lexed
    · contradiction
    · rename_i scan scanned
      split at lexed
      · contradiction
      · rename_i others othersRead
        obtain rfl := Except.ok.inj lexed
        refine ⟨⟨mode.gap text, scan.kind, position + Text.byteLength (mode.gap text), scan.text⟩ :: others,
          ?_, areKinds⟩
        simp only [scanned, othersRead]

/-- The tokens of a text and of what follows after it. -/
theorem lexes_append {mode : LexerMode} {position : Nat} {text : List Char} {lexemes : List Lexeme}
    {further : List TokenKind} (read : lexemesFrom mode position text = .ok lexemes)
    (breaks : BreaksOff after) (lexes : (mode.afterAll (lexemes.map Lexeme.kind)).Lexes after further) :
    mode.Lexes (text ++ after) (lexemes.map Lexeme.kind ++ further) := by
  have goesOn : ∀ (mode : LexerMode) (text : List Char),
      mode.afterGap (text ++ after) = mode.afterGap text ++ after := by
    intro mode text
    unfold afterGap
    split
    · rfl
    · exact Text.dropWhile_append text (breaks.stops rfl)
  fun_induction lexemesFrom mode position text generalizing lexemes with
  | case1 mode position text nothing =>
      obtain rfl := Except.ok.inj read
      refine .ofAfterGap ?_
      rw [goesOn, nothing]
      exact lexes
  | case2 => contradiction
  | case3 => contradiction
  | case4 mode position text c rest found start scan scanned others othersRead =>
      rename_i inductionHypothesis
      obtain rfl := Except.ok.inj read
      have noLayout : mode ≠ .selector → Text.isLayout c = false := by
        intro isBracketed
        have head := Text.head?_dropWhile Text.isLayout text
        rw [afterGap, if_neg isBracketed] at found
        rw [found] at head
        exact head
      refine .ofAfterGap ?_
      rw [goesOn, found]
      exact .cons (scans_append scanned noLayout breaks) (inductionHypothesis othersRead lexes)

/-- The tokens of a text do not depend on its position. -/
theorem lexes_of_read {mode : LexerMode} {position : Nat} {text : List Char}
    {lexemes : List Lexeme} (read : lexemesFrom mode position text = .ok lexemes) :
    mode.Lexes text (lexemes.map Lexeme.kind) := by
  have alone := lexes_append read breaksOff_nil (lexes_nil _)
  rwa [List.append_nil, List.append_nil] at alone

/-- The tokens of a text that begins with a token are this one and those of the text after it. -/
theorem Lexes.uncons {mode : LexerMode} {text left : List Char} {kind : TokenKind}
    {kinds : List TokenKind} (lexes : mode.Lexes text kinds) (first : mode.Scans text kind left) :
    ∃ further, kinds = kind :: further ∧ (mode.after kind).Lexes left further := by
  obtain ⟨c, rest, rfl, noLayout, scans⟩ := first
  have noGap := mode.afterGap_of_noLayout noLayout rest
  obtain ⟨lexemes, read, rfl⟩ := lexes 0
  unfold lexemesFrom at read
  split at read
  · rename_i found
    rw [noGap] at found
    exact absurd found (List.cons_ne_nil _ _)
  · rename_i c' rest' found
    rw [noGap] at found
    obtain ⟨rfl, rfl⟩ := List.cons.inj found
    obtain ⟨scan, scanned, rfl, rfl⟩ := scans (0 + Text.byteLength (mode.gap (c :: rest)))
    simp only [scanned] at read
    split at read
    · contradiction
    · rename_i others othersRead
      obtain rfl := Except.ok.inj read
      exact ⟨_, rfl, lexes_of_read othersRead⟩

end LexerMode

end TreeLint
