import TreeLint.Proofs.Selector.Joining
import TreeLint.Proofs.Selector.Progress
import TreeLint.Proofs.Selector.Refusal

/-!
Contract: every error in a selector text points at what is wrong there.

Owns:
- `Closes`, by which a text has a delimiter that no backslash escapes;
- `SelectorError.Explains`, what each error says of the text before its position and from there on;
- one lemma for each reader of a token that can fail, and the places of all errors of the lexer;
- the places of all errors of the parser, which are those of tokens or the end.

Positions are byte offsets. An error explains two parts that the text is put together from, so no position is inside
a character.
-/

set_option autoImplicit false

namespace TreeLint

/-! ### Delimiters -/

/-- The delimiter stands in the text, and no backslash escapes it. -/
inductive Closes (delimiter : Char) : List Char → Prop where
  | here {rest : List Char} : Closes delimiter (delimiter :: rest)
  | plain {c : Char} {rest : List Char} : c ≠ '\\' → Closes delimiter rest → Closes delimiter (c :: rest)
  | escape {c : Char} {rest : List Char} : Closes delimiter rest → Closes delimiter ('\\' :: c :: rest)

theorem not_closes_nil {delimiter : Char} : ¬Closes delimiter [] := nofun

theorem closes_cons_iff {delimiter c : Char} {rest : List Char} (other : c ≠ delimiter) (noEscape : c ≠ '\\') :
    Closes delimiter (c :: rest) ↔ Closes delimiter rest := by
  constructor
  · intro closes
    cases closes with
    | here => exact absurd rfl other
    | plain _ further => exact further
    | escape _ => exact absurd rfl noEscape
  · exact .plain noEscape

theorem closes_escape_iff {delimiter c : Char} {rest : List Char} (noEscape : delimiter ≠ '\\') :
    Closes delimiter ('\\' :: c :: rest) ↔ Closes delimiter rest := by
  constructor
  · intro closes
    cases closes with
    | here => exact absurd rfl noEscape
    | plain isEscape _ => exact absurd rfl isEscape
    | escape further => exact further
  · exact .escape

/-- A string literal that is not read to its end is not closed. -/
theorem not_closes_of_stringBody {quote : Char} {rest : List Char} (noEscape : quote ≠ '\\')
    (unread : stringBody quote rest = none) : ¬Closes quote rest := by
  fun_induction stringBody quote rest with
  | case1 => exact not_closes_nil
  | case2 => contradiction
  | case3 =>
      intro closes
      cases closes with
      | here => exact noEscape rfl
      | plain isEscape _ => exact isEscape rfl
  | case4 _ escaped more inductionHypothesis =>
      rw [closes_escape_iff noEscape]
      exact inductionHypothesis (Option.map_eq_none_iff.mp unread)
  | case5 c rest notQuote notEscape inductionHypothesis =>
      rw [closes_cons_iff notQuote notEscape]
      exact inductionHypothesis (Option.map_eq_none_iff.mp unread)

/-- A regular expression that is not read to its end is not closed. If the reading begins inside an escape, the
backslash before it counts. -/
theorem not_closes_of_regexBody {escaped : Bool} {rest : List Char} (unread : regexBody escaped rest = none) :
    ¬Closes '/' (if escaped then '\\' :: rest else rest) := by
  fun_induction regexBody escaped rest with
  | case1 escaped =>
      cases escaped with
      | false => exact not_closes_nil
      | true =>
          intro closes
          cases closes with
          | plain isEscape _ => exact isEscape rfl
  | case2 => contradiction
  | case3 escaped c rest goesOn inductionHypothesis =>
      have further := inductionHypothesis (Option.map_eq_none_iff.mp unread)
      cases escaped with
      | true =>
          simp only [if_true]
          rw [closes_escape_iff (by decide)]
          simpa using further
      | false =>
          have noSlash : c ≠ '/' := fun isSlash => goesOn ⟨isSlash, rfl⟩
          by_cases isEscape : c = '\\'
          · subst isEscape
            exact further
          · simp only [Bool.false_eq_true, if_false]
            rw [closes_cons_iff noSlash isEscape]
            simpa [isEscape] using further

/-! ### What errors say -/

/-- An operand begins at `back`: the tokens before it can be read, and the last of them is an operator. -/
def OperandAt (front back : List Char) : Prop :=
  ∃ lexemes stop, LexerCursor.Reads (.start (front ++ back)) lexemes stop ∧
    stop.mode = .operand ∧ stop.mode.afterGap stop.rest = back

/-- A token of the kind begins at `back` and covers the given characters. -/
def TokenAt (front back : List Char) (kind : TokenKind) (covered : List Char) : Prop :=
  ∃ lexemes lexeme, Lexeme.ofText (front ++ back) = .ok lexemes ∧ lexeme ∈ lexemes ∧
    lexeme.kind = kind ∧ lexeme.text = covered ∧ lexeme.position = Text.byteLength front ∧
    covered ≠ [] ∧ covered <+: back

/-- A regular expression with its flags begins at `back`. -/
def RegexAt (front back : List Char) (source flags : String) : Prop :=
  TokenAt front back (.regex source flags) ('/' :: (source.toList ++ '/' :: flags.toList))

namespace SelectorError

/-- What an error says of the text before its position, `front`, and from there on, `back`. -/
def Explains (engine : RegexEngine) (front back : List Char) (error : SelectorError) : Prop :=
  match error.cause with
  | .emptySelector => front = [] ∧ back.all Text.isLayout = true
  | .unexpectedEnd => back = []
  | .unexpectedCharacter =>
      ∃ c rest, back = c :: rest ∧ error.found = some (String.singleton c)
  | .unterminatedString =>
      OperandAt front back ∧
        ∃ quote rest, back = quote :: rest ∧ (quote = '"' ∨ quote = '\'') ∧ ¬Closes quote rest
  | .unterminatedRegex => OperandAt front back ∧ ∃ rest, back = '/' :: rest ∧ ¬Closes '/' rest
  | .unterminatedType => OperandAt front back ∧ ∃ rest, back = typeOpening ++ rest ∧ ')' ∉ rest
  | .invalidNumber => False
  | .invalidRegex .emptyPattern => OperandAt front back ∧ ∃ rest, back = '/' :: '/' :: rest
  | .invalidRegex (.rejected reason) =>
      ∃ source flags, RegexAt front back source flags ∧ engine.check source flags = .error reason
  | .unknownRegexFlag flag =>
      ∃ source flags, RegexAt front back source flags ∧ flag ∈ flags.toList ∧ flag ∉ SelectorGrammar.flags
  | .unexpectedToken =>
      (∃ kind covered, TokenAt front back kind covered ∧ error.found = some kind.describe) ∨
        OperandAt front back ∧ ∃ inner rest, back = typeOpening ++ (inner ++ ')' :: rest) ∧ ')' ∉ inner ∧
          (Text.trim inner = [] ∨ (Text.trim inner).any Text.isLayout = true)

end SelectorError

/-! ### The readers of a token -/

section Readers

variable {position : Nat} {c : Char} {rest : List Char} {error : SelectorError}

/-- The error of a reader: a character that no token begins with, or an operand that is none. -/
inductive Misread (position : Nat) : List Char → SelectorError → Prop where
  | character {c : Char} {rest : List Char} :
      Misread position (c :: rest) ⟨.unexpectedCharacter, position, some (String.singleton c)⟩
  | openString {quote : Char} {rest : List Char} : quote = '"' ∨ quote = '\'' → ¬Closes quote rest →
      Misread position (quote :: rest) ⟨.unterminatedString, position, none⟩
  | openRegex {rest : List Char} : ¬Closes '/' rest →
      Misread position ('/' :: rest) ⟨.unterminatedRegex, position, none⟩
  | emptyRegex {rest : List Char} :
      Misread position ('/' :: '/' :: rest) ⟨.invalidRegex .emptyPattern, position, some "//"⟩
  | openType {rest : List Char} : ')' ∉ rest →
      Misread position (typeOpening ++ rest) ⟨.unterminatedType, position, none⟩
  | badType {inner rest : List Char} : ')' ∉ inner →
      Text.trim inner = [] ∨ (Text.trim inner).any Text.isLayout = true →
        Misread position (typeOpening ++ (inner ++ ')' :: rest))
          ⟨.unexpectedToken, position, some ("type(" ++ String.ofList inner ++ ")")⟩

theorem misread_of_scanSelector (failed : scanSelector position c rest = .error error) :
    error = unexpectedCharacter position c := by
  unfold scanSelector at failed
  repeat' split at failed
  all_goals first | contradiction | exact (Except.error.inj failed).symm

theorem misread_of_scanAttribute (failed : scanAttribute position c rest = .error error) :
    error = unexpectedCharacter position c := by
  unfold scanAttribute at failed
  repeat' split at failed
  all_goals first | contradiction | exact (Except.error.inj failed).symm

theorem misread_of_scanString (isQuote : c = '"' ∨ c = '\'') (failed : scanString position c rest = .error error) :
    Misread position (c :: rest) error := by
  unfold scanString at failed
  split at failed
  · contradiction
  · rename_i unread
    obtain rfl := Except.error.inj failed
    have noEscape : c ≠ '\\' := by
      rcases isQuote with rfl | rfl <;> decide
    exact .openString isQuote (not_closes_of_stringBody noEscape unread)

theorem misread_of_scanRegex (failed : scanRegex position '/' rest = .error error) :
    Misread position ('/' :: rest) error := by
  unfold scanRegex at failed
  split at failed
  · rename_i unread
    obtain rfl := Except.error.inj failed
    exact .openRegex (not_closes_of_regexBody unread)
  · rename_i after read
    obtain rfl := Except.error.inj failed
    rw [← regexBody_split read]
    exact .emptyRegex
  · contradiction

theorem misread_of_scanType (opens : typeOpening.isPrefixOf (c :: rest) = true)
    (failed : scanType position c rest = .error error) : Misread position (c :: rest) error := by
  obtain ⟨left, whole⟩ := List.isPrefixOf_iff_prefix.mp opens
  have isLeft : rest.drop 4 = left := by
    rw [← (List.cons.inj whole).2]
    rfl
  have shape := List.takeWhile_append_dropWhile (p := (· != ')')) (l := left)
  have noClose : ')' ∉ left.takeWhile (· != ')') := by
    intro member
    have differs := List.all_eq_true.mp (List.all_takeWhile (p := (· != ')')) (l := left)) ')' member
    contradiction
  unfold scanType at failed
  simp only [isLeft] at failed
  rw [← whole]
  split at failed
  · rename_i nothing
    obtain rfl := Except.error.inj failed
    rw [isLeft] at nothing
    rw [nothing, List.append_nil] at shape
    rw [shape] at noClose
    exact .openType noClose
  · rename_i close after found
    rw [isLeft] at found
    have isClose : close = ')' := by
      have head := Text.head?_dropWhile (· != ')') left
      rw [found] at head
      simpa using head
    subst isClose
    split at failed
    · rename_i refused
      obtain rfl := Except.error.inj failed
      rw [found] at shape
      rw [Bool.or_eq_true, List.isEmpty_iff] at refused
      have misread : Misread position (typeOpening ++ (left.takeWhile (· != ')') ++ ')' :: after)) _ :=
        .badType noClose refused
      rwa [shape] at misread
    · contradiction

theorem misread_of_scanOperand (failed : scanOperand position c rest = .error error) :
    Misread position (c :: rest) error := by
  unfold scanOperand at failed
  split at failed
  · rename_i isQuote
    exact misread_of_scanString isQuote failed
  · split at failed
    · rename_i isSlash
      subst isSlash
      exact misread_of_scanRegex failed
    · split at failed
      · rename_i opens
        exact misread_of_scanType opens failed
      · split at failed
        · rename_i isNumber
          obtain ⟨scan, scanned⟩ := exists_scanNumber position (Bool.and_eq_true_iff.mp isNumber).1
          rw [scanned] at failed
          contradiction
        · split at failed
          · contradiction
          · obtain rfl := Except.error.inj failed
            exact .character

/-- Outside operands, only characters are refused. -/
theorem misread_of_scan {mode : LexerMode} (failed : mode.scan position c rest = .error error) :
    Misread position (c :: rest) error ∧ (mode ≠ .operand → error = unexpectedCharacter position c) := by
  match mode with
  | .selector =>
      have refused := misread_of_scanSelector failed
      subst refused
      exact ⟨.character, fun _ => rfl⟩
  | .attribute =>
      have refused := misread_of_scanAttribute failed
      subst refused
      exact ⟨.character, fun _ => rfl⟩
  | .operand => exact ⟨misread_of_scanOperand failed, fun other => absurd rfl other⟩

end Readers

/-! ### The errors of the lexer -/

section Lexing

variable {engine : RegexEngine} {front back : List Char} {error : SelectorError}

/-- An error of a reader is explained by the text that it was given. -/
theorem explains_of_misread {position : Nat} (misread : Misread position back error)
    (operand : error.cause ≠ .unexpectedCharacter → OperandAt front back) :
    error.Explains engine front back := by
  cases misread with
  | character => exact ⟨_, _, rfl, rfl⟩
  | openString isQuote noClose => exact ⟨operand nofun, _, _, rfl, isQuote, noClose⟩
  | openRegex noClose => exact ⟨operand nofun, _, rfl, noClose⟩
  | emptyRegex => exact ⟨operand nofun, _, rfl⟩
  | openType noClose => exact ⟨operand nofun, _, rfl, noClose⟩
  | badType noClose blank => exact .inr ⟨operand nofun, _, _, rfl, noClose, blank⟩

theorem Misread.position_eq {position : Nat} (misread : Misread position back error) :
    error.position = position := by
  cases misread <;> rfl

/-- The characters that the lexer has passed are those before the place of its error. -/
theorem explained_of_lexemes {text : List Char} (refused : Lexeme.ofText text = .error error) :
    ∃ front back, text = front ++ back ∧ Text.byteLength front = error.position ∧
      error.Explains engine front back := by
  obtain ⟨lexemes, stop, c, rest, reads, further, fails⟩ := LexerCursor.exists_reads_of_error refused
  obtain ⟨misread, outside⟩ := misread_of_scan fails
  obtain ⟨passed, position⟩ := reads.split
  have left := stop.mode.gap_append_afterGap stop.rest
  rw [further] at left
  have whole : text = (LexerCursor.passed lexemes ++ stop.mode.gap stop.rest) ++ c :: rest := by
    rw [List.append_assoc, left]
    exact passed
  refine ⟨_, _, whole, ?_, explains_of_misread misread ?_⟩
  · rw [misread.position_eq, Text.byteLength_append, position]
    show _ = 0 + _ + _
    omega
  · intro known
    refine ⟨lexemes, stop, ?_, ?_, further⟩
    · rw [← whole]
      exact reads
    · apply Decidable.byContradiction
      intro other
      exact known (congrArg SelectorError.cause (outside other))

end Lexing

/-! ### The errors of the parser -/

section Parsing

open SelectorAutomaton SelectorParser

variable {engine : RegexEngine} {finish : Nat} {tokens : List Token} {error : SelectorError}

theorem raised_of_scan (refused : scan engine finish .beforeSequence tokens = .error error) :
    error = ⟨.unexpectedEnd, finish, none⟩ ∨ ∃ token ∈ tokens, RaisedAt engine token error := by
  rw [scan] at refused
  cases reached : run engine .beforeSequence tokens with
  | ok last =>
      left
      rw [reached] at refused
      have unsettled : settle finish last = .error error := refused
      rw [settle] at unsettled
      split at unsettled
      · contradiction
      · exact (Except.error.inj unsettled).symm
  | error other =>
      right
      rw [reached] at refused
      obtain rfl := Except.error.inj refused
      obtain ⟨before, token, after, last, rfl, _, stepRefused⟩ := exists_refused_of_run reached
      exact ⟨token, by simp, raisedAt_of_step stepRefused⟩

/-- The parser complains about layout alone, about the end, or about a token. -/
theorem raised_of_ofTokens (refused : Selector.ofTokens engine finish tokens = .error error) :
    (error = ⟨.emptySelector, 0, none⟩ ∧ ∀ token ∈ tokens, token.kind = .space) ∨
      error = ⟨.unexpectedEnd, finish, none⟩ ∨ ∃ token ∈ tokens, RaisedAt engine token error := by
  by_cases layout : skipSpace tokens = []
  · left
    rw [ofTokens_layout layout] at refused
    refine ⟨(Except.error.inj refused).symm, ?_⟩
    intro token present
    exact beq_iff_eq.mp (List.dropWhile_eq_nil_iff.mp layout token present)
  · right
    apply raised_of_scan
    rw [← verdict_eq_scan engine finish layout, refused]
    rfl

/-- A token of a text stands where it says. -/
theorem tokenAt_of_mem {text : List Char} {lexemes : List Lexeme} {lexeme : Lexeme}
    (read : Lexeme.ofText text = .ok lexemes) (member : lexeme ∈ lexemes) :
    ∃ front back, text = front ++ back ∧ Text.byteLength front = lexeme.position ∧
      TokenAt front back lexeme.kind lexeme.text := by
  obtain ⟨stop, reads, _⟩ := LexerCursor.reads_of_lexemesFrom read
  obtain ⟨front, back, split, position⟩ := reads.stands member
  obtain ⟨_, _, _, _, takes⟩ := reads.exists_takes member
  have begins : Text.byteLength front = lexeme.position := by
    rw [position]
    exact (Nat.zero_add _).symm
  refine ⟨front, lexeme.text ++ back, split, begins, ?_⟩
  refine ⟨lexemes, lexeme, ?_, member, rfl, rfl, begins.symm, takes.passes.nonempty, ⟨back, rfl⟩⟩
  rw [← split]
  exact read

/-- A regular expression covers what it is written as. -/
theorem RegexAt.of_tokenAt {front back covered : List Char} {source flags : String}
    (tokenAt : TokenAt front back (.regex source flags) covered) : RegexAt front back source flags := by
  obtain ⟨lexemes, lexeme, read, member, isRegex, rfl, stands⟩ := tokenAt
  obtain ⟨stop, reads, _⟩ := LexerCursor.reads_of_lexemesFrom read
  obtain ⟨_, _, _, _, takes⟩ := reads.exists_takes member
  have spelled : lexeme.text = '/' :: (source.toList ++ '/' :: flags.toList) := by
    apply takes.text_eq
    rw [isRegex]
    rfl
  rw [spelled] at stands
  exact ⟨lexemes, lexeme, read, member, isRegex, spelled, stands⟩

/-- An error that is raised for a token is explained where the token stands. -/
theorem explains_of_raisedAt {front back : List Char} {lexeme : Lexeme}
    (tokenAt : TokenAt front back lexeme.kind lexeme.text) (raised : RaisedAt engine lexeme.token error) :
    error.Explains engine front back := by
  cases raised with
  | unexpected => exact .inl ⟨lexeme.kind, lexeme.text, tokenAt, rfl⟩
  | unknownFlag isRegex member unknown =>
      rw [show lexeme.kind = _ from isRegex] at tokenAt
      refine ⟨_, _, .of_tokenAt tokenAt, member, ?_⟩
      intro known
      rw [isRegexFlag_iff.mpr known] at unknown
      contradiction
  | rejected isRegex refused =>
      rw [show lexeme.kind = _ from isRegex] at tokenAt
      exact ⟨_, _, .of_tokenAt tokenAt, refused⟩

end Parsing

/-! ### Layout alone -/

/-- A text outside brackets whose tokens are all layout is layout. -/
theorem all_isLayout_of_spaces {mode : LexerMode} {position : Nat} {text : List Char} {lexemes : List Lexeme}
    (read : lexemesFrom mode position text = .ok lexemes) (outside : mode = .selector)
    (spaces : ∀ lexeme ∈ lexemes, lexeme.kind = .space) : text.all Text.isLayout = true := by
  fun_induction lexemesFrom mode position text generalizing lexemes with
  | case1 mode position text nothing =>
      subst outside
      rw [show text = [] from nothing]
      rfl
  | case2 => contradiction
  | case3 => contradiction
  | case4 mode position text c rest found begins scan scanned others othersRead =>
      rename_i inductionHypothesis
      subst outside
      obtain rfl := Except.ok.inj read
      have isSpace : scan.kind = .space := spaces _ List.mem_cons_self
      have stays : LexerMode.selector.after scan.kind = .selector := by
        rw [isSpace]
        rfl
      have further := inductionHypothesis othersRead stays fun lexeme member =>
        spaces lexeme (List.mem_cons_of_mem _ member)
      rw [show text = c :: rest from found, ← scan.split, List.all_append, further,
        all_isLayout_of_scanSelector scanned isSpace]
      rfl

theorem parse_layout {engine : RegexEngine} {text : String} (layout : text.toList.all Text.isLayout = true) :
    Selector.parse engine text = .error ⟨.emptySelector, 0, none⟩ := by
  obtain ⟨kinds, spaces, lexes, _⟩ := LexerMode.lexes_afterLayout layout (LexerMode.lexes_nil _)
  rw [List.append_nil, List.append_nil] at lexes
  obtain ⟨tokens, read, areKinds⟩ := lexes.ofText
  have skipped : SelectorParser.skipSpace tokens = [] := by
    apply List.dropWhile_eq_nil_iff.mpr
    intro token member
    apply beq_iff_eq.mpr
    apply spaces
    rw [← areKinds]
    exact List.mem_map_of_mem member
  rw [Selector.parse, read]
  exact SelectorAutomaton.ofTokens_layout skipped

/-! ### All errors -/

theorem explained_of_tokens {engine : RegexEngine} {text : List Char} {lexemes : List Lexeme} {error : SelectorError}
    (read : Lexeme.ofText text = .ok lexemes)
    (refused : Selector.ofTokens engine (Text.byteLength text) (lexemes.map Lexeme.token) = .error error) :
    ∃ front back, text = front ++ back ∧ Text.byteLength front = error.position ∧
      error.Explains engine front back := by
  rcases raised_of_ofTokens refused with ⟨rfl, spaces⟩ | rfl | ⟨token, member, raised⟩
  · refine ⟨[], text, rfl, rfl, rfl, all_isLayout_of_spaces read rfl ?_⟩
    intro lexeme member
    exact spaces lexeme.token (List.mem_map_of_mem member)
  · exact ⟨text, [], (List.append_nil text).symm, rfl, rfl⟩
  · obtain ⟨lexeme, isMember, rfl⟩ := List.mem_map.mp member
    obtain ⟨front, back, split, begins, tokenAt⟩ := tokenAt_of_mem read isMember
    refine ⟨front, back, split, ?_, explains_of_raisedAt tokenAt raised⟩
    rw [begins]
    cases raised <;> rfl

/-- Both stages explain their errors by a place in the text. -/
theorem Selector.explained_of_parse {engine : RegexEngine} {text : String} {error : SelectorError}
    (refused : parse engine text = .error error) :
    ∃ front back : String, text = front ++ back ∧ front.utf8ByteSize = error.position ∧
      error.Explains engine front.toList back.toList := by
  have explained : ∃ front back, text.toList = front ++ back ∧ Text.byteLength front = error.position ∧
      error.Explains engine front back := by
    rw [parse, Token.ofText] at refused
    cases read : Lexeme.ofText text.toList with
    | error other =>
        rw [read] at refused
        obtain rfl := Except.error.inj refused
        exact explained_of_lexemes read
    | ok lexemes =>
        rw [read] at refused
        have size : text.utf8ByteSize = Text.byteLength text.toList := by
          rw [Text.byteLength_eq_utf8ByteSize, String.ofList_toList]
        rw [size] at refused
        exact explained_of_tokens read refused
  obtain ⟨front, back, split, begins, explains⟩ := explained
  refine ⟨String.ofList front, String.ofList back, ?_, ?_, ?_⟩
  · rw [← String.ofList_append, ← split, String.ofList_toList]
  · rw [← begins, Text.byteLength_eq_utf8ByteSize]
  · rw [String.toList_ofList, String.toList_ofList]
    exact explains

/-- Every error in a selector text has its position in the text, between two characters, and what it says is so there.
The text is called empty if and only if it is layout alone. -/
theorem Selector.parse_error_explained (engine : RegexEngine) (text : String) :
    (∀ error, parse engine text = .error error →
      error.position ≤ text.utf8ByteSize ∧
        ∃ front back : String, text = front ++ back ∧ front.utf8ByteSize = error.position ∧
          error.Explains engine front.toList back.toList) ∧
    ((∃ error, parse engine text = .error error ∧ error.cause = .emptySelector) ↔
      text.toList.all Text.isLayout = true) := by
  constructor
  · intro error refused
    obtain ⟨front, back, rfl, begins, explains⟩ := explained_of_parse refused
    refine ⟨?_, front, back, rfl, begins, explains⟩
    rw [String.utf8ByteSize_append]
    omega
  · constructor
    · intro ⟨error, refused, isEmpty⟩
      obtain ⟨front, back, rfl, begins, explains⟩ := explained_of_parse refused
      rw [SelectorError.Explains, isEmpty] at explains
      rw [String.toList_append, explains.1]
      exact explains.2
    · intro layout
      exact ⟨_, parse_layout layout, rfl⟩

/-- Behind a letter of two bytes, the slash of a regular expression with an unknown flag is at byte 5. -/
theorem Selector.parse_error_explained_multibyte :
    ∃ error, parse .standard "é[k=/x/ig]" = .error error ∧ error.cause = .unknownRegexFlag 'g' ∧
      error.position = 5 ∧
      ∃ front back : String, "é[k=/x/ig]" = front ++ back ∧ front.utf8ByteSize = 5 ∧
        error.Explains .standard front.toList back.toList := by
  have refused : parse .standard "é[k=/x/ig]" = .error ⟨.unknownRegexFlag 'g', 5, some "/x/ig"⟩ := by
    with_unfolding_all rfl
  obtain ⟨_, explained⟩ := (parse_error_explained .standard "é[k=/x/ig]").1 _ refused
  exact ⟨_, refused, rfl, rfl, explained⟩

end TreeLint
