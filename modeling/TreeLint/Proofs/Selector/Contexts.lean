import TreeLint.Proofs.Selector.Joining

/-!
Contract: which tokens follow one another in a selector text.

Owns:
- `LexerMode.reads`, the kinds of tokens that each context has;
- `LexerMode.Follows`, by which every token is one that the context before it has, and the proof that the tokens of
  every text follow one another in this way;
- what it says of brackets, which are opened and closed by turns; of the context, which is outside brackets unless one
  is open; and of operands, which come directly after operators.

Does not own: where in the text the tokens stand.
-/

set_option autoImplicit false

namespace TreeLint

namespace LexerMode

def reads : LexerMode → TokenKind → Bool
  | .selector, .rightBracket | .selector, .comparison _ | .selector, .string _ | .selector, .number _
  | .selector, .regex _ _ | .selector, .typeName _ => false
  | .selector, _ => true
  | .attribute, .rightBracket | .attribute, .dot | .attribute, .comparison _ | .attribute, .name _ => true
  | .operand, .string _ | .operand, .number _ | .operand, .regex _ _ | .operand, .typeName _
  | .operand, .name _ => true
  | _, _ => false

/-- Every token is one that the context before it has. -/
def Follows : LexerMode → List TokenKind → Prop
  | _, [] => True
  | mode, kind :: rest => mode.reads kind = true ∧ (mode.after kind).Follows rest

/-! ### Tokens of texts -/

section Scanning

variable {mode : LexerMode} {position : Nat} {c : Char} {rest : List Char} {scan : Scan (c :: rest)}

theorem reads_of_scanSelector (read : scanSelector position c rest = .ok scan) :
    selector.reads scan.kind = true := by
  unfold scanSelector at read
  repeat' split at read
  all_goals first | contradiction | obtain rfl := Except.ok.inj read
  all_goals rfl

theorem reads_of_scanAttribute (read : scanAttribute position c rest = .ok scan) :
    attribute.reads scan.kind = true := by
  unfold scanAttribute scanOrEqual at read
  repeat' split at read
  all_goals first | contradiction | obtain rfl := Except.ok.inj read
  all_goals rfl

theorem reads_of_scanOperand (read : scanOperand position c rest = .ok scan) :
    operand.reads scan.kind = true := by
  unfold scanOperand scanString scanRegex scanType scanNumber at read
  simp only at read
  repeat' split at read
  all_goals first | contradiction | obtain rfl := Except.ok.inj read
  all_goals rfl

theorem reads_of_scan (read : mode.scan position c rest = .ok scan) : mode.reads scan.kind = true := by
  match mode with
  | .selector => exact reads_of_scanSelector read
  | .attribute => exact reads_of_scanAttribute read
  | .operand => exact reads_of_scanOperand read

end Scanning

theorem follows_of_lexemesFrom {mode : LexerMode} {position : Nat} {text : List Char} {lexemes : List Lexeme}
    (read : lexemesFrom mode position text = .ok lexemes) : mode.Follows (lexemes.map Lexeme.kind) := by
  fun_induction lexemesFrom mode position text generalizing lexemes with
  | case1 =>
      obtain rfl := Except.ok.inj read
      trivial
  | case2 => contradiction
  | case3 => contradiction
  | case4 mode position text c rest found start scan scanned further furtherRead =>
      rename_i inductionHypothesis
      obtain rfl := Except.ok.inj read
      exact ⟨reads_of_scan scanned, inductionHypothesis furtherRead⟩

theorem follows_append_iff {mode : LexerMode} {kinds further : List TokenKind} :
    mode.Follows (kinds ++ further) ↔ mode.Follows kinds ∧ (mode.afterAll kinds).Follows further := by
  induction kinds generalizing mode with
  | nil => exact ⟨fun follows => ⟨trivial, follows⟩, And.right⟩
  | cons kind rest inductionHypothesis =>
      rw [List.cons_append, Follows, inductionHypothesis, Follows, afterAll_cons, and_assoc]

/-! ### Single steps -/

variable {mode : LexerMode} {kind : TokenKind}

theorem reads_leftBracket_iff : mode.reads .leftBracket = true ↔ mode = .selector := by
  cases mode <;> simp [reads]

theorem reads_rightBracket_iff : mode.reads .rightBracket = true ↔ mode = .attribute := by
  cases mode <;> simp [reads]

theorem selector_of_reads_space (canBeRead : mode.reads .space = true) : mode = .selector := by
  cases mode <;> first | rfl | contradiction

theorem after_leftBracket_ne (mode : LexerMode) : mode.after .leftBracket ≠ .selector := by
  cases mode <;> exact LexerMode.noConfusion

/-- Only a closing bracket leads out of brackets. -/
theorem after_ne_selector (inside : mode ≠ .selector) (notClosing : kind ≠ .rightBracket) :
    mode.after kind ≠ .selector := by
  cases mode with
  | selector => contradiction
  | «attribute» => cases kind <;> first | contradiction | exact LexerMode.noConfusion
  | operand => exact LexerMode.noConfusion

/-- Only an opening bracket leads into brackets. -/
theorem after_selector (notOpening : kind ≠ .leftBracket) : selector.after kind = .selector := by
  cases kind <;> first | contradiction | rfl

theorem exists_comparison_of_after (isOperand : mode.after kind = .operand) :
    ∃ comparison, kind = .comparison comparison := by
  cases mode with
  | «attribute» => cases kind <;> first | contradiction | exact ⟨_, rfl⟩
  | operand => contradiction
  | selector => cases kind <;> contradiction

end LexerMode

/-! ### Brackets -/

def TokenKind.isBracket : TokenKind → Bool
  | .leftBracket | .rightBracket => true
  | _ => false

def TokenKind.isOperand : TokenKind → Bool
  | .string _ | .number _ | .regex _ _ | .typeName _ => true
  | _ => false

/-- The items are two given ones by turns, from the first one on. -/
def ByTurns {α : Type} : α → α → List α → Prop
  | _, _, [] => True
  | first, second, item :: rest => item = first ∧ ByTurns second first rest

/-- A bracket is opened and not closed after it. -/
def BracketOpen (kinds : List TokenKind) : Prop :=
  ∃ before within, kinds = before ++ .leftBracket :: within ∧ .rightBracket ∉ within

namespace LexerMode

variable {mode : LexerMode} {kinds : List TokenKind}

/-- Brackets are opened and closed by turns; inside brackets the next one closes them. -/
theorem Follows.byTurns (follows : mode.Follows kinds) :
    (mode = .selector → ByTurns .leftBracket .rightBracket (kinds.filter TokenKind.isBracket)) ∧
      (mode ≠ .selector → ByTurns .rightBracket .leftBracket (kinds.filter TokenKind.isBracket)) := by
  induction kinds generalizing mode with
  | nil => exact ⟨fun _ => trivial, fun _ => trivial⟩
  | cons kind rest inductionHypothesis =>
      obtain ⟨canBeRead, further⟩ := follows
      obtain ⟨fromOutside, fromInside⟩ := inductionHypothesis further
      by_cases opening : kind = .leftBracket
      · subst opening
        obtain rfl := reads_leftBracket_iff.mp canBeRead
        exact ⟨fun _ => ⟨rfl, fromInside LexerMode.noConfusion⟩, fun inside => absurd rfl inside⟩
      · by_cases closing : kind = .rightBracket
        · subst closing
          obtain rfl := reads_rightBracket_iff.mp canBeRead
          exact ⟨LexerMode.noConfusion, fun _ => ⟨rfl, fromOutside rfl⟩⟩
        · have noBracket : ¬ kind.isBracket = true := by
            cases kind <;> first | contradiction | exact Bool.false_ne_true
          rw [List.filter_cons_of_neg noBracket]
          constructor
          · rintro rfl
            exact fromOutside (after_selector opening)
          · intro inside
            exact fromInside (after_ne_selector inside closing)

theorem afterAll_ne_selector (inside : mode ≠ .selector) (notClosed : .rightBracket ∉ kinds) :
    mode.afterAll kinds ≠ .selector := by
  induction kinds generalizing mode with
  | nil => exact inside
  | cons kind rest inductionHypothesis =>
      rw [List.mem_cons, not_or] at notClosed
      exact inductionHypothesis (after_ne_selector inside (Ne.symm notClosed.1)) notClosed.2

/-- After tokens of a text, the context is outside brackets unless one is open. -/
theorem Follows.bracketOpen_iff (follows : selector.Follows kinds) :
    BracketOpen kinds ↔ selector.afterAll kinds ≠ .selector := by
  constructor
  · rintro ⟨before, within, rfl, notClosed⟩
    rw [afterAll_append, afterAll_cons]
    exact afterAll_ne_selector (after_leftBracket_ne _) notClosed
  · induction kinds using List.reverseRecOn with
    | nil => exact fun inside => absurd rfl inside
    | append_singleton before kind inductionHypothesis =>
        obtain ⟨earlier, canBeRead, _⟩ := follows_append_iff.mp follows
        rw [afterAll_append]
        intro inside
        by_cases outside : selector.afterAll before = .selector
        · -- The last token leads into brackets.
          rw [outside] at inside
          have opening : kind = .leftBracket := by
            by_contra notOpening
            exact inside (after_selector notOpening)
          exact ⟨before, [], by rw [opening], List.not_mem_nil⟩
        · obtain ⟨front, within, rfl, notClosed⟩ := inductionHypothesis earlier outside
          refine ⟨front, within ++ [kind], by simp, ?_⟩
          rw [List.mem_append, List.mem_singleton, not_or]
          refine ⟨notClosed, ?_⟩
          rintro rfl
          rw [reads_rightBracket_iff.mp canBeRead] at inside
          exact inside rfl

/-! ### Operands -/

theorem operand_of_reads {kind : TokenKind} (canBeRead : mode.reads kind = true) (isOperand : kind.isOperand = true) :
    mode = .operand := by
  cases mode <;> cases kind <;> first | rfl | contradiction

/-- After an operator, and only there, the context is that of operands. -/
theorem exists_comparison_of_afterAll {kinds : List TokenKind} (isOperand : selector.afterAll kinds = .operand) :
    ∃ before comparison, kinds = before ++ [.comparison comparison] := by
  induction kinds using List.reverseRecOn with
  | nil => contradiction
  | append_singleton before kind _ =>
      rw [afterAll_append] at isOperand
      obtain ⟨comparison, rfl⟩ := exists_comparison_of_after isOperand
      exact ⟨before, comparison, rfl⟩

end LexerMode

end TreeLint
