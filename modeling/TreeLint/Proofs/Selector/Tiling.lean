import Mathlib.Data.List.Chain
import TreeLint.Proofs.Selector.Contexts
import TreeLint.Proofs.Selector.Progress

/-!
Contract: the tokens of a selector text tile it.

Owns:
- `TokenKind.WrittenAs`, by which characters are one way to write a token;
- `InBrackets`, the places of a text after an opening bracket that is not closed before them;
- `Tiles`, by which lexemes are written one after another in a text, and what lies between them is layout in brackets;
- `Arranged`, what tokens may stand where: layout outside brackets and never twice in a row, brackets by turns, and
  operands after operators;
- `Lexeme.tiles_of_ofText`, by which the lexemes of every text that is accepted tile it, and its tokens are arranged.

Does not own: texts that are refused.
-/

set_option autoImplicit false

namespace TreeLint

/-! ### Bytes -/

namespace Text

theorem byteLength_pos {letters : List Char} (nonempty : letters ≠ []) : 0 < byteLength letters := by
  obtain ⟨c, rest, rfl⟩ := List.exists_cons_of_ne_nil nonempty
  have positive := c.utf8Size_pos
  rw [byteLength_cons]
  omega

theorem utf8Size_of_isLayout {c : Char} (layout : isLayout c = true) : c.utf8Size = 1 := by
  simp only [isLayout, Bool.or_eq_true, beq_iff_eq] at layout
  rcases layout with ((rfl | rfl) | rfl) | rfl <;> rfl

/-- Each byte of layout is a character. -/
theorem exists_layout_at {run : List Char} (layout : run.all isLayout = true) {offset : Nat}
    (inRun : offset < byteLength run) :
    ∃ front c back, run = front ++ c :: back ∧ byteLength front = offset ∧ isLayout c = true := by
  induction run generalizing offset with
  | nil => contradiction
  | cons c rest inductionHypothesis =>
      rw [List.all_cons, Bool.and_eq_true] at layout
      rw [byteLength_cons, utf8Size_of_isLayout layout.1] at inRun
      cases offset with
      | zero => exact ⟨[], c, rest, rfl, rfl, layout.1⟩
      | succ offset =>
          have inRest : offset < byteLength rest := by omega
          obtain ⟨front, d, back, rfl, isOffset, isLayout⟩ := inductionHypothesis layout.2 inRest
          refine ⟨c :: front, d, back, rfl, ?_, isLayout⟩
          rw [byteLength_cons, utf8Size_of_isLayout layout.1, isOffset, Nat.add_comm]

end Text

/-! ### How tokens are written -/

/-- The characters are one way to write a token. -/
def TokenKind.WrittenAs : TokenKind → List Char → Prop
  | .space, letters => letters.all Text.isLayout = true
  | .string value, letters =>
      ∃ quote body, (quote = '"' ∨ quote = '\'') ∧ letters = quote :: body ∧
        stringBody quote body = some (value.toList, body, [])
  | .number value, letters => Double.read? letters = some value
  | .typeName label, letters =>
      ∃ inner, letters = typeOpening ++ (inner ++ [')']) ∧ ')' ∉ inner ∧ Text.trim inner = label.toList
  | kind, letters => kind.spelling? = some letters

theorem TokenKind.writtenAs_of_spelling {kind : TokenKind} {letters : List Char}
    (spelling : kind.spelling? = some letters) : kind.WrittenAs letters := by
  cases kind <;> first | exact spelling | contradiction

/-- A string literal ends at the same quote if nothing comes after it. -/
theorem stringBody_self {quote : Char} {source value text after : List Char}
    (read : stringBody quote source = some (value, text, after)) : stringBody quote text = some (value, text, []) := by
  fun_induction stringBody quote source generalizing value text after with
  | case1 => contradiction
  | case2 rest =>
      simp only [Option.some.injEq, Prod.mk.injEq] at read
      obtain ⟨rfl, rfl, rfl⟩ := read
      rw [stringBody, if_pos rfl]
  | case3 => contradiction
  | case4 escaped more notQuote inductionHypothesis =>
      obtain ⟨⟨v, t, a⟩, inner, same⟩ := Option.map_eq_some_iff.mp read
      simp only [Prod.mk.injEq] at same
      obtain ⟨rfl, rfl, rfl⟩ := same
      rw [stringBody, if_neg notQuote, if_pos rfl, inductionHypothesis inner]
      rfl
  | case5 c rest notQuote notEscape inductionHypothesis =>
      obtain ⟨⟨v, t, a⟩, inner, same⟩ := Option.map_eq_some_iff.mp read
      simp only [Prod.mk.injEq] at same
      obtain ⟨rfl, rfl, rfl⟩ := same
      unfold stringBody
      rw [if_neg notQuote, if_neg notEscape, inductionHypothesis inner]
      rfl

/-- A token outside operands is written in one way only, unless it is layout. -/
theorem LexerMode.exists_spelling {mode : LexerMode} {kind : TokenKind} (canBeRead : mode.reads kind = true)
    (steady : mode ≠ .operand) (notSpace : kind ≠ .space) : ∃ letters, kind.spelling? = some letters := by
  cases mode <;> cases kind <;> first | contradiction | exact ⟨_, rfl⟩

section Scanning

variable {mode : LexerMode} {position : Nat} {c : Char} {rest : List Char} {scan : Scan (c :: rest)}

theorem writtenAs_of_scanString (isQuote : c = '"' ∨ c = '\'') (read : scanString position c rest = .ok scan) :
    scan.kind.WrittenAs scan.text := by
  unfold scanString at read
  split at read
  · rename_i value text after found
    obtain rfl := Except.ok.inj read
    refine ⟨c, text, isQuote, rfl, ?_⟩
    rw [String.toList_ofList]
    exact stringBody_self found
  · contradiction

theorem writtenAs_of_scanType (opens : typeOpening.isPrefixOf (c :: rest) = true)
    (read : scanType position c rest = .ok scan) : scan.kind.WrittenAs scan.text := by
  obtain ⟨further, isText⟩ := List.isPrefixOf_iff_prefix.mp opens
  obtain ⟨rfl, isRest⟩ := List.cons.inj isText
  unfold scanType at read
  simp only at read
  split at read
  · contradiction
  · rename_i close after split
    split at read
    · contradiction
    · obtain rfl := Except.ok.inj read
      have isClose : close = ')' := by
        have ends := Text.head?_dropWhile (· != ')') (rest.drop 4)
        rw [split] at ends
        simpa using ends
      refine ⟨(rest.drop 4).takeWhile (· != ')'), ?_, ?_, String.toList_ofList.symm⟩
      · show 't' :: (rest.take 4 ++ ((rest.drop 4).takeWhile (· != ')') ++ [close])) = _
        rw [isClose, ← isRest]
        rfl
      · intro member
        exact absurd (List.all_eq_true.mp List.all_takeWhile _ member) (by decide)

theorem writtenAs_of_scanNumber (read : scanNumber position c rest = .ok scan) : scan.kind.WrittenAs scan.text := by
  unfold scanNumber at read
  simp only at read
  split at read
  · rename_i value found
    obtain rfl := Except.ok.inj read
    show Double.read? _ = some value
    exact found
  · contradiction

theorem writtenAs_of_scanOperand (read : scanOperand position c rest = .ok scan) :
    scan.kind.WrittenAs scan.text := by
  have isSpelled := isSpelled_of_scanOperand read
  unfold scanOperand at read
  split at read
  · rename_i isQuote
    exact writtenAs_of_scanString isQuote read
  · split at read
    · unfold scanRegex at read
      split at read
      · contradiction
      · contradiction
      · obtain rfl := Except.ok.inj read
        exact congrArg some (isSpelled _ rfl).symm
    · split at read
      · rename_i opens
        exact writtenAs_of_scanType opens read
      · split at read
        · exact writtenAs_of_scanNumber read
        · split at read
          · obtain rfl := Except.ok.inj read
            exact congrArg some (isSpelled _ rfl).symm
          · contradiction

/-- Every token covers the characters that it is written as. -/
theorem writtenAs_of_scan (read : mode.scan position c rest = .ok scan) : scan.kind.WrittenAs scan.text := by
  have canBeRead := LexerMode.reads_of_scan read
  by_cases isOperand : mode = .operand
  · subst isOperand
    exact writtenAs_of_scanOperand read
  · by_cases isSpace : scan.kind = .space
    · rw [isSpace] at canBeRead ⊢
      cases mode with
      | selector => exact all_isLayout_of_scanSelector read isSpace
      | «attribute» => contradiction
      | operand => contradiction
    · obtain ⟨letters, spelling⟩ := LexerMode.exists_spelling canBeRead isOperand isSpace
      rw [isSpelled_of_scan read letters spelling]
      exact TokenKind.writtenAs_of_spelling spelling

/-- A run of layout outside brackets ends where no layout follows. -/
theorem stops_of_space (read : scanSelector position c rest = .ok scan) (isSpace : scan.kind = .space) :
    Text.isLayout c = true ∧ scan.rest.head?.any Text.isLayout = false := by
  unfold scanSelector at read
  repeat' split at read
  all_goals first | contradiction | obtain rfl := Except.ok.inj read
  all_goals first | contradiction | skip
  rename_i isLayout
  exact ⟨isLayout, Text.head?_dropWhile Text.isLayout rest⟩

end Scanning

/-! ### Places -/

namespace Lexeme

def stop (lexeme : Lexeme) : Nat := lexeme.position + Text.byteLength lexeme.text

def Covers (lexeme : Lexeme) (offset : Nat) : Prop := lexeme.position ≤ offset ∧ offset < lexeme.stop

end Lexeme

/-- The offset comes after an opening bracket, and no closing one comes between them. -/
def InBrackets (tokens : List Token) (offset : Nat) : Prop :=
  ∃ opening ∈ tokens, opening.kind = .leftBracket ∧ opening.position < offset ∧
    ∀ closing ∈ tokens, closing.kind = .rightBracket →
      ¬ (opening.position < closing.position ∧ closing.position < offset)

/-- An offset that parts the tokens is in brackets if those before it leave a bracket open. -/
theorem inBrackets_iff {earlier later : List Token} {offset : Nat}
    (ascending : (earlier ++ later).Pairwise fun first second => first.position < second.position)
    (before : ∀ token ∈ earlier, token.position < offset) (after : ∀ token ∈ later, offset ≤ token.position) :
    InBrackets (earlier ++ later) offset ↔ BracketOpen (earlier.map Token.kind) := by
  obtain ⟨ascendingEarlier, _, _⟩ := List.pairwise_append.mp ascending
  constructor
  · rintro ⟨opening, member, isOpening, inFront, notClosed⟩
    have isEarlier : opening ∈ earlier := by
      rcases List.mem_append.mp member with isEarlier | isLater
      · exact isEarlier
      · have behind := after opening isLater
        omega
    obtain ⟨front, within, rfl⟩ := List.append_of_mem isEarlier
    refine ⟨front.map Token.kind, within.map Token.kind, ?_, ?_⟩
    · rw [List.map_append, List.map_cons, isOpening]
    · intro closes
      obtain ⟨closing, isWithin, isClosing⟩ := List.mem_map.mp closes
      obtain ⟨_, fromOpening, _⟩ := List.pairwise_append.mp ascendingEarlier
      have isClosingEarlier : closing ∈ front ++ opening :: within :=
        List.mem_append_right _ (List.mem_cons_of_mem _ isWithin)
      exact notClosed closing (List.mem_append_left _ isClosingEarlier) isClosing
        ⟨List.rel_of_pairwise_cons fromOpening isWithin, before closing isClosingEarlier⟩
  · rintro ⟨front, within, isSplit, notClosed⟩
    obtain ⟨front, rest, rfl, rfl, isRest⟩ := List.map_eq_append_iff.mp isSplit
    obtain ⟨opening, within, rfl, isOpening, rfl⟩ := List.map_eq_cons_iff.mp isRest
    have isEarlier : opening ∈ front ++ opening :: within := List.mem_append_right _ List.mem_cons_self
    refine ⟨opening, List.mem_append_left _ isEarlier, isOpening, before opening isEarlier, ?_⟩
    rintro closing member isClosing ⟨behindOpening, inFront⟩
    obtain ⟨_, _, frontFirst⟩ := List.pairwise_append.mp ascendingEarlier
    rcases List.mem_append.mp member with closingEarlier | closingLater
    · rcases List.mem_append.mp closingEarlier with inFrontPart | fromOpening
      · have less := frontFirst closing inFrontPart opening List.mem_cons_self
        omega
      · rcases List.mem_cons.mp fromOpening with rfl | isWithin
        · omega
        · exact notClosed (List.mem_map.mpr ⟨closing, isWithin, isClosing⟩)
    · have behind := after closing closingLater
      omega

/-! ### Lexemes in a text -/

/-- The lexemes are written one after another in the text, and what no lexeme covers is layout in brackets. -/
structure Tiles (text : List Char) (lexemes : List Lexeme) : Prop where
  /-- Each lexeme stands in the text at its byte offset, in whole characters. -/
  stands : ∀ lexeme ∈ lexemes, ∃ front back, text = front ++ (lexeme.text ++ back) ∧
    Text.byteLength front = lexeme.position
  /-- Each lexeme covers what its token is written as. -/
  written : ∀ lexeme ∈ lexemes, lexeme.kind.WrittenAs lexeme.text
  /-- Each lexeme covers some bytes, all of them bytes of the text. -/
  inside : ∀ lexeme ∈ lexemes, lexeme.position < lexeme.stop ∧ lexeme.stop ≤ Text.byteLength text
  ascending : lexemes.Pairwise fun first second => first.position < second.position
  /-- No byte is covered twice. -/
  apart : lexemes.Pairwise fun first second => first.stop ≤ second.position
  /-- Each byte that is not covered is a layout character in brackets. -/
  uncovered : ∀ offset < Text.byteLength text, (∀ lexeme ∈ lexemes, ¬ lexeme.Covers offset) →
    InBrackets (lexemes.map Lexeme.token) offset ∧
      ∃ front c back, text = front ++ c :: back ∧ Text.byteLength front = offset ∧ Text.isLayout c = true

/-- What tokens may stand where. -/
structure Arranged (tokens : List Token) : Prop where
  /-- Layout is a token outside brackets only. -/
  outside : ∀ token ∈ tokens, token.kind = .space → ¬ InBrackets tokens token.position
  /-- Layout is one token. -/
  single : tokens.IsChain fun first second => ¬ (first.kind = .space ∧ second.kind = .space)
  brackets : ByTurns .leftBracket .rightBracket ((tokens.map Token.kind).filter TokenKind.isBracket)
  /-- What can only be an operand comes directly after an operator. -/
  operands : ∀ before token after, tokens = before ++ token :: after → token.kind.isOperand = true →
    ∃ earlier operator comparison, before = earlier ++ [operator] ∧ operator.kind = .comparison comparison

namespace LexerCursor

variable {cursor next stop : LexerCursor} {lexeme : Lexeme} {lexemes : List Lexeme}

/-! ### One step -/

theorem Takes.position_lt_stop (takes : Takes cursor lexeme next) : lexeme.position < lexeme.stop := by
  have some := Text.byteLength_pos takes.passes.nonempty
  unfold Lexeme.stop
  omega

theorem Takes.gap_eq (takes : Takes cursor lexeme next) : lexeme.gap = cursor.mode.gap cursor.rest := by
  cases takes
  rfl

theorem Takes.writtenAs (takes : Takes cursor lexeme next) : lexeme.kind.WrittenAs lexeme.text := by
  cases takes with
  | intro _ scanned => exact writtenAs_of_scan scanned

/-- Layout is taken at once, as a token, outside brackets only. -/
theorem Takes.space (takes : Takes cursor lexeme next) (isSpace : lexeme.kind = .space) :
    cursor.rest.head?.any Text.isLayout = true ∧ next.rest.head?.any Text.isLayout = false := by
  cases takes with
  | @intro mode position text c rest scan found scanned =>
      have isSpace : scan.kind = .space := isSpace
      have canBeRead := LexerMode.reads_of_scan scanned
      rw [isSpace] at canBeRead
      obtain rfl := LexerMode.selector_of_reads_space canBeRead
      obtain ⟨isLayout, stops⟩ := stops_of_space scanned isSpace
      rw [show text = c :: rest from found]
      exact ⟨isLayout, stops⟩

/-! ### Any number of steps -/

theorem Reads.mode_eq (reads : Reads cursor lexemes stop) :
    stop.mode = cursor.mode.afterAll (lexemes.map Lexeme.kind) := by
  induction reads with
  | nil cursor => rfl
  | cons takes _ inductionHypothesis =>
      rw [inductionHypothesis, List.map_cons, LexerMode.afterAll_cons, takes.mode_eq]

/-- Lexemes that are taken lie between the cursors. -/
theorem Reads.between (reads : Reads cursor lexemes stop) :
    cursor.position ≤ stop.position ∧
      ∀ lexeme ∈ lexemes, cursor.position ≤ lexeme.position ∧ lexeme.stop ≤ stop.position := by
  induction reads with
  | nil cursor => exact ⟨Nat.le_refl _, nofun⟩
  | @cons cursor next stop lexeme others takes _ inductionHypothesis =>
      obtain ⟨forward, between⟩ := inductionHypothesis
      have begins := takes.passes.begins
      have ends : next.position = lexeme.stop := takes.passes.ends
      have covers := takes.position_lt_stop
      refine ⟨by omega, List.forall_mem_cons.mpr ⟨by omega, fun other member => ?_⟩⟩
      have later := between other member
      omega

theorem Reads.apart (reads : Reads cursor lexemes stop) :
    lexemes.Pairwise fun first second => first.stop ≤ second.position := by
  induction reads with
  | nil cursor => exact .nil
  | @cons cursor next stop lexeme others takes reads inductionHypothesis =>
      refine .cons (fun other member => ?_) inductionHypothesis
      have later := (reads.between.2 other member).1
      have ends : next.position = lexeme.stop := takes.passes.ends
      omega

theorem Reads.position_lt_stop (reads : Reads cursor lexemes stop) (member : lexeme ∈ lexemes) :
    lexeme.position < lexeme.stop := by
  obtain ⟨_, _, _, _, takes⟩ := reads.exists_takes member
  exact takes.position_lt_stop

theorem Reads.ascending (reads : Reads cursor lexemes stop) :
    lexemes.Pairwise fun first second => first.position < second.position := by
  refine reads.apart.imp_of_mem fun isFirst _ apart => ?_
  exact Nat.lt_of_lt_of_le (reads.position_lt_stop isFirst) apart

/-- The layout that the next step skips ends before all lexemes that follow. -/
theorem Reads.afterGap (reads : Reads cursor lexemes stop) (member : lexeme ∈ lexemes) :
    cursor.position + Text.byteLength (cursor.mode.gap cursor.rest) ≤ lexeme.position := by
  cases reads with
  | nil => contradiction
  | @cons _ next _ first others takes reads =>
      have begins := takes.passes.begins
      rw [takes.gap_eq] at begins
      rcases List.mem_cons.mp member with rfl | further
      · omega
      · have later := (reads.between.2 lexeme further).1
        have ends : next.position = first.stop := takes.passes.ends
        have covers := takes.position_lt_stop
        omega

theorem Reads.single (reads : Reads cursor lexemes stop) :
    lexemes.IsChain fun first second => ¬ (first.kind = .space ∧ second.kind = .space) := by
  induction reads with
  | nil cursor => exact .nil
  | @cons cursor next stop lexeme others takes reads inductionHypothesis =>
      cases reads with
      | nil => exact .singleton lexeme
      | cons takesNext _ =>
          refine .cons_cons ?_ inductionHypothesis
          rintro ⟨isSpace, nextIsSpace⟩
          have stops := (takes.space isSpace).2
          rw [(takesNext.space nextIsSpace).1] at stops
          contradiction

/-- A byte that is passed is covered by a lexeme, or skipped before one or at the end. -/
theorem Reads.covered_or_skipped (reads : Reads cursor lexemes stop) (atEnd : stop.mode.afterGap stop.rest = [])
    {offset : Nat} (reached : cursor.position ≤ offset)
    (inText : offset < cursor.position + Text.byteLength cursor.rest) :
    (∃ lexeme ∈ lexemes, lexeme.Covers offset) ∨
      ∃ earlier later before, lexemes = earlier ++ later ∧ Reads cursor earlier before ∧ Reads before later stop ∧
        before.position ≤ offset ∧ offset < before.position + Text.byteLength (before.mode.gap before.rest) := by
  induction reads with
  | nil cursor =>
      have whole := cursor.mode.gap_append_afterGap cursor.rest
      rw [atEnd, List.append_nil] at whole
      rw [← whole] at inText
      exact .inr ⟨[], [], cursor, rfl, .nil _, .nil _, reached, inText⟩
  | @cons cursor next stop lexeme others takes reads inductionHypothesis =>
      have step := takes.passes
      have ends : next.position = lexeme.stop := step.ends
      have begins := step.begins
      by_cases inGap : offset < lexeme.position
      · rw [begins, takes.gap_eq] at inGap
        exact .inr ⟨[], lexeme :: others, cursor, rfl, .nil _, .cons takes reads, reached, inGap⟩
      · by_cases covered : offset < lexeme.stop
        · exact .inl ⟨lexeme, List.mem_cons_self, Nat.le_of_not_lt inGap, covered⟩
        · have inRest : offset < next.position + Text.byteLength next.rest := by
            rw [step.split, Text.byteLength_append, Text.byteLength_append] at inText
            unfold Lexeme.stop at ends
            omega
          rcases inductionHypothesis atEnd (by omega) inRest with
            ⟨other, member, covers⟩ | ⟨earlier, later, before, rfl, readsEarlier, readsLater, inGap⟩
          · exact .inl ⟨other, List.mem_cons_of_mem _ member, covers⟩
          · exact .inr ⟨lexeme :: earlier, later, before, rfl, .cons takes readsEarlier, readsLater, inGap⟩

/-- What is passed of a text lies before the cursor. -/
theorem Reads.split_start {text : List Char} (reads : Reads (.start text) lexemes stop) :
    text = passed lexemes ++ stop.rest ∧ stop.position = Text.byteLength (passed lexemes) := by
  obtain ⟨isText, position⟩ := reads.split
  exact ⟨isText, position.trans (Nat.zero_add _)⟩

/-- A byte that a step skips is a layout character in brackets. -/
theorem Reads.layout_of_skipped {text : List Char} (reads : Reads (.start text) lexemes stop) {offset : Nat}
    (reached : stop.position ≤ offset) (inGap : offset < stop.position + Text.byteLength (stop.mode.gap stop.rest)) :
    stop.mode ≠ .selector ∧
      ∃ front c back, text = front ++ c :: back ∧ Text.byteLength front = offset ∧ Text.isLayout c = true := by
  have inside : stop.mode ≠ .selector := by
    intro outside
    rw [LexerMode.gap, if_pos outside, Text.byteLength_nil] at inGap
    omega
  refine ⟨inside, ?_⟩
  have layout : (stop.mode.gap stop.rest).all Text.isLayout = true := by
    rw [LexerMode.gap, if_neg inside]
    exact List.all_takeWhile
  have inRun : offset - stop.position < Text.byteLength (stop.mode.gap stop.rest) := by omega
  obtain ⟨front, c, back, isRun, isOffset, isLayout⟩ := Text.exists_layout_at layout inRun
  obtain ⟨isText, position⟩ := reads.split_start
  refine ⟨passed lexemes ++ front, c, back ++ stop.mode.afterGap stop.rest, ?_, ?_, isLayout⟩
  · calc text = passed lexemes ++ stop.rest := isText
      _ = passed lexemes ++ (stop.mode.gap stop.rest ++ stop.mode.afterGap stop.rest) := by
        rw [stop.mode.gap_append_afterGap]
      _ = passed lexemes ++ front ++ c :: (back ++ stop.mode.afterGap stop.rest) := by
        rw [isRun]
        simp
  · rw [Text.byteLength_append, isOffset]
    omega

end LexerCursor

/-! ### Whole texts -/

namespace Lexeme

variable {text : List Char} {lexemes : List Lexeme}

theorem kind_token (lexemes : List Lexeme) :
    (lexemes.map token).map Token.kind = lexemes.map Lexeme.kind := by
  rw [List.map_map]
  rfl

/-- Lexemes in the order of the text are tokens in that order. -/
theorem ascending_tokens (ascending : lexemes.Pairwise fun first second => first.position < second.position) :
    (lexemes.map token).Pairwise fun first second => first.position < second.position :=
  List.pairwise_map.mpr ascending

/-- An offset between lexemes is in brackets if the context there is. -/
theorem inBrackets_iff_mode {earlier later : List Lexeme} {offset : Nat}
    (ascending : (earlier ++ later).Pairwise fun first second => first.position < second.position)
    (follows : LexerMode.selector.Follows (earlier.map Lexeme.kind))
    (before : ∀ lexeme ∈ earlier, lexeme.position < offset) (after : ∀ lexeme ∈ later, offset ≤ lexeme.position) :
    InBrackets ((earlier ++ later).map token) offset ↔
      LexerMode.selector.afterAll (earlier.map Lexeme.kind) ≠ .selector := by
  have ascendingTokens := ascending_tokens ascending
  rw [List.map_append] at ascendingTokens ⊢
  rw [inBrackets_iff ascendingTokens (List.forall_mem_map.mpr before) (List.forall_mem_map.mpr after), kind_token,
    follows.bracketOpen_iff]

theorem tiles_of_reads {stop : LexerCursor} (reads : LexerCursor.Reads (.start text) lexemes stop)
    (follows : LexerMode.selector.Follows (lexemes.map Lexeme.kind)) (atEnd : stop.mode.afterGap stop.rest = []) :
    Tiles text lexemes where
  stands lexeme member := by
    obtain ⟨front, back, isText, position⟩ := reads.stands member
    refine ⟨front, back, isText, ?_⟩
    rw [position]
    exact (Nat.zero_add _).symm
  written lexeme member := by
    obtain ⟨_, _, _, _, takes⟩ := reads.exists_takes member
    exact takes.writtenAs
  inside lexeme member := by
    refine ⟨reads.position_lt_stop member, ?_⟩
    obtain ⟨isText, position⟩ := reads.split_start
    have beforeStop := (reads.between.2 lexeme member).2
    rw [isText, Text.byteLength_append]
    omega
  ascending := reads.ascending
  apart := reads.apart
  uncovered offset inText notCovered := by
    have inRest : offset < (LexerCursor.start text).position + Text.byteLength text := by
      show offset < 0 + Text.byteLength text
      omega
    rcases reads.covered_or_skipped atEnd (Nat.zero_le offset) inRest with
      ⟨lexeme, member, covers⟩ | ⟨earlier, later, before, rfl, readsEarlier, readsLater, reached, inGap⟩
    · exact absurd covers (notCovered lexeme member)
    · obtain ⟨inside, isLayout⟩ := readsEarlier.layout_of_skipped reached inGap
      refine ⟨?_, isLayout⟩
      have isMode : before.mode = LexerMode.selector.afterAll (earlier.map Lexeme.kind) := readsEarlier.mode_eq
      rw [List.map_append] at follows
      have followsEarlier := (LexerMode.follows_append_iff.mp follows).1
      rw [inBrackets_iff_mode reads.ascending followsEarlier, ← isMode]
      · exact inside
      · intro lexeme member
        have covers := readsEarlier.position_lt_stop member
        have passed := (readsEarlier.between.2 lexeme member).2
        omega
      · intro lexeme member
        have behind := readsLater.afterGap member
        omega

theorem arranged_of_reads {stop : LexerCursor} (reads : LexerCursor.Reads (.start text) lexemes stop)
    (follows : LexerMode.selector.Follows (lexemes.map Lexeme.kind)) : Arranged (lexemes.map token) where
  outside := by
    refine List.forall_mem_map.mpr fun lexeme member isSpace => ?_
    obtain ⟨earlier, later, rfl⟩ := List.append_of_mem member
    obtain ⟨_, fromLexeme, earlierFirst⟩ := List.pairwise_append.mp reads.ascending
    rw [List.map_append, List.map_cons] at follows
    obtain ⟨followsEarlier, canBeRead, _⟩ := LexerMode.follows_append_iff.mp follows
    have before : ∀ other ∈ earlier, other.position < lexeme.token.position := fun other isEarlier =>
      earlierFirst other isEarlier lexeme List.mem_cons_self
    have after : ∀ other ∈ lexeme :: later, lexeme.token.position ≤ other.position :=
      List.forall_mem_cons.mpr ⟨Nat.le_refl _, fun other isLater =>
        Nat.le_of_lt (List.rel_of_pairwise_cons fromLexeme isLater)⟩
    rw [inBrackets_iff_mode reads.ascending followsEarlier before after, not_not]
    rw [show lexeme.kind = .space from isSpace] at canBeRead
    exact LexerMode.selector_of_reads_space canBeRead
  single := (List.isChain_map token).mpr reads.single
  brackets := by
    rw [kind_token]
    exact follows.byTurns.1 rfl
  operands before token after isSplit isOperand := by
    rw [← kind_token, isSplit, List.map_append, List.map_cons] at follows
    obtain ⟨_, canBeRead, _⟩ := LexerMode.follows_append_iff.mp follows
    have afterOperator := LexerMode.operand_of_reads canBeRead isOperand
    obtain ⟨front, comparison, isFront⟩ := LexerMode.exists_comparison_of_afterAll afterOperator
    obtain ⟨earlier, rest, rfl, _, isRest⟩ := List.map_eq_append_iff.mp isFront
    obtain ⟨operator, rest, rfl, isOperator, isNil⟩ := List.map_eq_cons_iff.mp isRest
    rw [List.map_eq_nil_iff.mp isNil]
    exact ⟨earlier, operator, comparison, rfl, isOperator⟩

/-- The tokens of a text that is accepted cover the lexemes that it is made of: each stands at its byte offset, with the
characters that it is written as, the lexemes are in order and apart, and all else is layout in brackets. Layout is
a token outside brackets only, and never twice in a row; brackets are opened and closed by turns; and what can only be an
operand comes directly after an operator. -/
theorem tiles_of_ofText {text : String} {tokens : List Token} (read : Token.ofText text = .ok tokens) :
    ∃ lexemes, Lexeme.ofText text.toList = .ok lexemes ∧ tokens = lexemes.map Lexeme.token ∧
      Tiles text.toList lexemes ∧ Arranged tokens := by
  rw [Token.ofText] at read
  cases lexed : Lexeme.ofText text.toList with
  | error error =>
      rw [lexed] at read
      contradiction
  | ok lexemes =>
      rw [lexed] at read
      obtain rfl := Except.ok.inj read
      obtain ⟨stop, reads, atEnd⟩ := LexerCursor.reads_of_lexemesFrom lexed
      have follows := LexerMode.follows_of_lexemesFrom lexed
      exact ⟨lexemes, rfl, rfl, tiles_of_reads reads follows atEnd, arranged_of_reads reads follows⟩

/-- A type name of two bytes with blanks around it, layout in brackets and outside, and a bracket that is left open. -/
theorem tiles_of_ofText_open :
    Token.ofText "é [k != type( é ) ][\t" = .ok
        [⟨.name "é", 0⟩, ⟨.space, 2⟩, ⟨.leftBracket, 3⟩, ⟨.name "k", 4⟩, ⟨.comparison .notEqual, 6⟩,
          ⟨.typeName "é", 9⟩, ⟨.rightBracket, 20⟩, ⟨.leftBracket, 21⟩] ∧
      ∃ lexemes, Lexeme.ofText "é [k != type( é ) ][\t".toList = .ok lexemes ∧
        lexemes.map Lexeme.stop = [2, 3, 4, 5, 8, 19, 21, 22] ∧ Tiles "é [k != type( é ) ][\t".toList lexemes := by
  have read : Token.ofText "é [k != type( é ) ][\t" = .ok
      [⟨.name "é", 0⟩, ⟨.space, 2⟩, ⟨.leftBracket, 3⟩, ⟨.name "k", 4⟩, ⟨.comparison .notEqual, 6⟩,
        ⟨.typeName "é", 9⟩, ⟨.rightBracket, 20⟩, ⟨.leftBracket, 21⟩] := by
    with_unfolding_all rfl
  have stops : (Lexeme.ofText "é [k != type( é ) ][\t".toList).map (·.map Lexeme.stop)
      = .ok [2, 3, 4, 5, 8, 19, 21, 22] := by
    with_unfolding_all rfl
  obtain ⟨lexemes, lexed, _, tiles, _⟩ := tiles_of_ofText read
  rw [lexed] at stops
  exact ⟨read, lexemes, lexed, Except.ok.inj stops, tiles⟩

end Lexeme

end TreeLint
