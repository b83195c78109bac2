import TreeLint.Proofs.Selector.Relexing

/-!
Contract: how far the lexer has come in a text.

Owns:
- `LexerCursor.Takes`, one step of the lexer, and `LexerCursor.Reads`, any number of them;
- the step lemma and the run lemma on what is covered: no character is lost, and the byte offset is that of the
  characters passed;
- the agreement of `lexemesFrom` with these steps, for texts that are read to the end and for texts that are not.

Does not own: what a step says when it fails.
-/

set_option autoImplicit false

namespace TreeLint

/-- Where the lexer stands: its context, the byte offset, and the characters that are left. -/
structure LexerCursor where
  mode : LexerMode
  position : Nat
  rest : List Char

namespace LexerCursor

def start (text : List Char) : LexerCursor := ⟨.selector, 0, text⟩

inductive Takes : LexerCursor → Lexeme → LexerCursor → Prop where
  | intro {mode : LexerMode} {position : Nat} {text : List Char} {c : Char} {rest : List Char}
      {scan : Scan (c :: rest)} :
      mode.afterGap text = c :: rest →
      mode.scan (position + Text.byteLength (mode.gap text)) c rest = .ok scan →
        Takes ⟨mode, position, text⟩
          ⟨mode.gap text, scan.kind, position + Text.byteLength (mode.gap text), scan.text⟩
          ⟨mode.after scan.kind,
            position + Text.byteLength (mode.gap text) + Text.byteLength scan.text, scan.rest⟩

inductive Reads : LexerCursor → List Lexeme → LexerCursor → Prop where
  | nil (cursor : LexerCursor) : Reads cursor [] cursor
  | cons {cursor next stop : LexerCursor} {lexeme : Lexeme} {lexemes : List Lexeme} :
      Takes cursor lexeme next → Reads next lexemes stop → Reads cursor (lexeme :: lexemes) stop

variable {cursor next stop : LexerCursor} {lexeme : Lexeme} {lexemes : List Lexeme}

/-! ### What is covered -/

/-- What one step passes: the layout skipped, then the characters of the token. -/
structure Passes (cursor : LexerCursor) (lexeme : Lexeme) (next : LexerCursor) : Prop where
  split : cursor.rest = lexeme.gap ++ (lexeme.text ++ next.rest)
  begins : lexeme.position = cursor.position + Text.byteLength lexeme.gap
  ends : next.position = lexeme.position + Text.byteLength lexeme.text
  nonempty : lexeme.text ≠ []

theorem Takes.passes (takes : Takes cursor lexeme next) : Passes cursor lexeme next := by
  cases takes with
  | @intro mode position text c rest scan found scanned =>
      refine ⟨?_, rfl, rfl, scan.nonempty⟩
      show text = mode.gap text ++ (scan.text ++ scan.rest)
      rw [scan.split, ← found, mode.gap_append_afterGap]

/-- Outside brackets a token begins at once. -/
theorem Takes.split_outside (takes : Takes cursor lexeme next) (outside : cursor.mode = .selector) :
    cursor.rest = lexeme.text ++ next.rest := by
  have split := takes.passes.split
  have noGap : lexeme.gap = [] := by
    cases takes
    exact if_pos outside
  rwa [noGap] at split

theorem Takes.mode_eq (takes : Takes cursor lexeme next) : next.mode = cursor.mode.after lexeme.kind := by
  cases takes
  rfl

/-- The characters that a lexeme takes, with the layout before them. -/
def passed (lexemes : List Lexeme) : List Char :=
  lexemes.flatMap fun lexeme => lexeme.gap ++ lexeme.text

theorem passed_cons (lexeme : Lexeme) (lexemes : List Lexeme) :
    passed (lexeme :: lexemes) = lexeme.gap ++ (lexeme.text ++ passed lexemes) := by
  show lexeme.gap ++ lexeme.text ++ passed lexemes = _
  rw [List.append_assoc]

theorem Reads.split (reads : Reads cursor lexemes stop) :
    cursor.rest = passed lexemes ++ stop.rest ∧
      stop.position = cursor.position + Text.byteLength (passed lexemes) := by
  induction reads with
  | nil cursor => exact ⟨rfl, rfl⟩
  | cons takes _ inductionHypothesis =>
      have step := takes.passes
      obtain ⟨further, position⟩ := inductionHypothesis
      rw [passed_cons]
      constructor
      · rw [step.split, further, List.append_assoc, List.append_assoc]
      · rw [position, step.ends, step.begins]
        simp only [Text.byteLength_append]
        omega

theorem Reads.exists_takes (reads : Reads cursor lexemes stop) (member : lexeme ∈ lexemes) :
    ∃ earlier before next, Reads cursor earlier before ∧ Takes before lexeme next := by
  induction reads with
  | nil cursor => contradiction
  | cons takes _ inductionHypothesis =>
      rcases List.mem_cons.mp member with rfl | further
      · exact ⟨[], _, _, .nil _, takes⟩
      · obtain ⟨earlier, before, next, reads, takesLater⟩ := inductionHypothesis further
        exact ⟨_, before, next, .cons takes reads, takesLater⟩

/-- Every token that is taken stands in the text at its byte offset. -/
theorem Reads.stands (reads : Reads cursor lexemes stop) (member : lexeme ∈ lexemes) :
    ∃ front back, cursor.rest = front ++ (lexeme.text ++ back) ∧
      lexeme.position = cursor.position + Text.byteLength front := by
  obtain ⟨earlier, before, next, readsEarlier, takes⟩ := reads.exists_takes member
  obtain ⟨split, position⟩ := readsEarlier.split
  have step := takes.passes
  refine ⟨passed earlier ++ lexeme.gap, next.rest, ?_, ?_⟩
  · rw [split, step.split, List.append_assoc]
  · rw [step.begins, position, Text.byteLength_append]
    omega

/-! ### The lexer as steps -/

variable {mode : LexerMode} {position : Nat} {text : List Char}

theorem reads_of_lexemesFrom (read : lexemesFrom mode position text = .ok lexemes) :
    ∃ stop, Reads ⟨mode, position, text⟩ lexemes stop ∧ stop.mode.afterGap stop.rest = [] := by
  fun_induction lexemesFrom mode position text generalizing lexemes with
  | case1 mode position text nothing =>
      obtain rfl := Except.ok.inj read
      exact ⟨_, .nil _, nothing⟩
  | case2 => contradiction
  | case3 => contradiction
  | case4 mode position text c rest found begins scan scanned others othersRead =>
      rename_i inductionHypothesis
      obtain rfl := Except.ok.inj read
      obtain ⟨stop, reads, atEnd⟩ := inductionHypothesis othersRead
      exact ⟨stop, .cons (.intro found scanned) reads, atEnd⟩

/-- A text that is refused is read up to the character at which the next step fails. -/
theorem exists_reads_of_error {error : SelectorError} (refused : lexemesFrom mode position text = .error error) :
    ∃ lexemes stop c rest, Reads ⟨mode, position, text⟩ lexemes stop ∧
      stop.mode.afterGap stop.rest = c :: rest ∧
      stop.mode.scan (stop.position + Text.byteLength (stop.mode.gap stop.rest)) c rest = .error error := by
  fun_induction lexemesFrom mode position text with
  | case1 => contradiction
  | case2 mode position text c rest found begins error' scanned =>
      obtain rfl := Except.error.inj refused
      exact ⟨[], _, c, rest, .nil _, found, scanned⟩
  | case3 mode position text c rest found begins scan scanned error' othersRefused =>
      rename_i inductionHypothesis
      obtain rfl := Except.error.inj refused
      obtain ⟨lexemes, stop, c', rest', reads, further, fails⟩ := inductionHypothesis othersRefused
      exact ⟨_, stop, c', rest', .cons (.intro found scanned) reads, further, fails⟩
  | case4 => contradiction

/-- After lexemes that are taken, those of the remaining text follow. -/
theorem Reads.lexemesFrom (reads : Reads cursor lexemes stop) {further : List Lexeme}
    (read : TreeLint.lexemesFrom stop.mode stop.position stop.rest = .ok further) :
    TreeLint.lexemesFrom cursor.mode cursor.position cursor.rest = .ok (lexemes ++ further) := by
  induction reads with
  | nil cursor => exact read
  | cons takes _ inductionHypothesis =>
      have others := inductionHypothesis read
      cases takes with
      | intro found scanned =>
          show TreeLint.lexemesFrom _ _ _ = _
          unfold TreeLint.lexemesFrom
          split
          · rename_i nothing
            rw [found] at nothing
            contradiction
          · rename_i c' rest' again
            obtain ⟨rfl, rfl⟩ := List.cons.inj (found.symm.trans again)
            simp only [scanned]
            rw [others]
            rfl

/-- A token that a text begins with is taken, whatever its position. -/
theorem takes_of_scans {letters after : List Char} {kind : TokenKind} (scans : mode.Scans (letters ++ after) kind after)
    (position : Nat) :
    Takes ⟨mode, position, letters ++ after⟩ ⟨[], kind, position, letters⟩
      ⟨mode.after kind, position + Text.byteLength letters, after⟩ := by
  obtain ⟨c, rest, isText, noLayout, scanned⟩ := scans
  have found := mode.afterGap_of_noLayout noLayout rest
  have noGap : mode.gap (c :: rest) = [] := by
    have whole := mode.gap_append_afterGap (c :: rest)
    rw [found] at whole
    exact List.append_left_eq_self.mp whole
  obtain ⟨scan, read, rfl, rfl⟩ := scanned position
  obtain rfl : scan.text = letters := List.append_cancel_right (scan.split.trans isText.symm)
  have start : position + Text.byteLength (mode.gap (c :: rest)) = position := by
    rw [noGap]
    rfl
  have takes := Takes.intro found (by rw [start]; exact read)
  rw [start, noGap] at takes
  rw [isText]
  exact takes

end LexerCursor

/-! ### Tokens as they are written -/

/-- The characters of a token, for the kinds of tokens that are written in one way only. -/
def TokenKind.spelling? : TokenKind → Option (List Char)
  | .comma => some [',']
  | .greater => some ['>']
  | .bang => some ['!']
  | .star => some ['*']
  | .hash => some ['#']
  | .dot => some ['.']
  | .leftBracket => some ['[']
  | .rightBracket => some [']']
  | .name text => some text.toList
  | .comparison operator => some operator.symbol.toList
  | .regex source flags => some ('/' :: (source.toList ++ '/' :: flags.toList))
  | .space | .string _ | .number _ | .typeName _ => none

section Readers

variable {position : Nat} {c : Char} {rest : List Char} {scan : Scan (c :: rest)}

/-- The token is written as its kind is, if that is written in one way only. -/
def Scan.IsSpelled (scan : Scan (c :: rest)) : Prop := ∀ letters ∈ scan.kind.spelling?, scan.text = letters

theorem isSpelled_one {kind : TokenKind} (spelling : kind.spelling? = some [c]) :
    (Scan.one kind c rest).IsSpelled := by
  intro letters isLetters
  exact Option.some.inj (spelling.symm.trans isLetters)

theorem isSpelled_name (c : Char) (rest : List Char) : (scanName c rest).IsSpelled := by
  intro letters isLetters
  rw [← Option.some.inj isLetters]
  exact String.toList_ofList.symm

theorem isSpelled_of_scanSelector (read : scanSelector position c rest = .ok scan) : scan.IsSpelled := by
  unfold scanSelector at read
  repeat' split at read
  all_goals first | contradiction | obtain rfl := Except.ok.inj read
  · intro letters isLetters
    contradiction
  all_goals first | exact isSpelled_name c rest | skip
  all_goals
    apply isSpelled_one
    rename_i isLetter
    rw [isLetter]
    rfl

/-- A layout token outside brackets is layout. -/
theorem all_isLayout_of_scanSelector (read : scanSelector position c rest = .ok scan) (isSpace : scan.kind = .space) :
    scan.text.all Text.isLayout = true := by
  unfold scanSelector at read
  repeat' split at read
  all_goals first | contradiction | obtain rfl := Except.ok.inj read
  all_goals first | contradiction | skip
  rename_i isLayout
  show (c :: rest.takeWhile Text.isLayout).all Text.isLayout = true
  rw [List.all_cons, isLayout, List.all_takeWhile]
  rfl

theorem isSpelled_scanOrEqual {plain orEqual : Comparison} {c : Char} (isPlain : plain.symbol.toList = [c])
    (isOrEqual : orEqual.symbol.toList = [c, '=']) (rest : List Char) :
    (scanOrEqual (.comparison plain) (.comparison orEqual) c rest).IsSpelled := by
  unfold scanOrEqual
  split
  · intro letters isLetters
    exact isOrEqual.symm.trans (Option.some.inj isLetters)
  · exact isSpelled_one (congrArg some isPlain)

theorem isSpelled_of_scanAttribute (read : scanAttribute position c rest = .ok scan) : scan.IsSpelled := by
  unfold scanAttribute at read
  repeat' split at read
  all_goals first | contradiction | obtain rfl := Except.ok.inj read
  all_goals first | exact isSpelled_name c rest | subst_vars
  · exact isSpelled_one rfl
  · exact isSpelled_one rfl
  · exact isSpelled_one (congrArg some (by decide))
  · intro letters isLetters
    rw [← Option.some.inj isLetters]
    show ['!', '='] = Comparison.notEqual.symbol.toList
    decide
  · exact isSpelled_scanOrEqual (by decide) (by decide) rest
  · exact isSpelled_scanOrEqual (by decide) (by decide) rest

theorem isSpelled_of_scanOperand (read : scanOperand position c rest = .ok scan) : scan.IsSpelled := by
  unfold scanOperand scanString scanType scanNumber at read
  split at read
  · split at read
    · obtain rfl := Except.ok.inj read
      intro letters isLetters
      contradiction
    · contradiction
  · split at read
    · rename_i isSlash
      subst isSlash
      unfold scanRegex at read
      split at read
      · contradiction
      · contradiction
      · obtain rfl := Except.ok.inj read
        intro letters isLetters
        rw [← Option.some.inj isLetters, String.toList_ofList, String.toList_ofList]
    · simp only at read
      repeat' split at read
      all_goals first | contradiction | obtain rfl := Except.ok.inj read
      all_goals first | exact isSpelled_name c rest | skip
      all_goals
        intro letters isLetters
        contradiction

theorem isSpelled_of_scan {mode : LexerMode} (read : mode.scan position c rest = .ok scan) :
    scan.IsSpelled := by
  match mode with
  | .selector => exact isSpelled_of_scanSelector read
  | .attribute => exact isSpelled_of_scanAttribute read
  | .operand => exact isSpelled_of_scanOperand read

end Readers

theorem LexerCursor.Takes.text_eq {cursor next : LexerCursor} {lexeme : Lexeme} {letters : List Char}
    (takes : LexerCursor.Takes cursor lexeme next) (spelling : lexeme.kind.spelling? = some letters) :
    lexeme.text = letters := by
  cases takes with
  | intro _ scanned => exact isSpelled_of_scan scanned letters spelling

/-! ### Bytes -/

theorem Text.byteLength_eq_utf8ByteSize (letters : List Char) :
    Text.byteLength letters = (String.ofList letters).utf8ByteSize := by
  induction letters with
  | nil => rfl
  | cons c rest inductionHypothesis =>
      rw [Text.byteLength_cons, inductionHypothesis, String.ofList_cons, String.utf8ByteSize_append,
        String.utf8ByteSize_singleton]

end TreeLint
