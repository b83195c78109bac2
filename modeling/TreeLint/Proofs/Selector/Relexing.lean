import TreeLint.Proofs.Selector.Lexical
import TreeLint.Selector.Printer

/-!
Contract: how texts that are put together from words are cut into tokens again.

Owns:
- `LexerMode.Scans`, by which a text begins with a token in a context, whatever its position;
- `LexerMode.Lexes`, by which a whole text has given tokens, and its step lemma;
- one lemma for each kind of token, with the condition on the text after it under which the token ends there.
-/

set_option autoImplicit false

namespace TreeLint

namespace LexerMode

/-- In the context, the text begins with a token of the kind, and `after` is left. -/
def Scans (mode : LexerMode) (text : List Char) (kind : TokenKind) (after : List Char) : Prop :=
  ∃ c rest, text = c :: rest ∧ (mode ≠ .selector → Text.isLayout c = false) ∧
    ∀ position, ∃ scan : Scan (c :: rest),
      mode.scan position c rest = .ok scan ∧ scan.kind = kind ∧ scan.rest = after

/-- In the context, the text has tokens of the given kinds. -/
def Lexes (mode : LexerMode) (text : List Char) (kinds : List TokenKind) : Prop :=
  ∀ position, ∃ lexemes, lexemesFrom mode position text = .ok lexemes ∧
    lexemes.map Lexeme.kind = kinds

theorem lexes_nil (mode : LexerMode) : mode.Lexes [] [] := by
  intro position
  have noGap : mode.afterGap [] = [] := by
    unfold afterGap
    split <;> rfl
  refine ⟨[], ?_, rfl⟩
  unfold lexemesFrom
  split
  · rfl
  · rename_i found
    rw [noGap] at found
    exact absurd found (List.cons_ne_nil _ _).symm

/-- Nothing is skipped before a character that is no layout. -/
theorem afterGap_of_noLayout (mode : LexerMode) {c : Char}
    (noLayout : mode ≠ .selector → Text.isLayout c = false) (rest : List Char) :
    mode.afterGap (c :: rest) = c :: rest := by
  unfold afterGap
  split
  · rfl
  · rename_i isBracketed
    exact List.dropWhile_cons_of_neg (by simp [noLayout isBracketed])

/-- A text has the tokens that its first token and the text after it have. -/
theorem Lexes.cons {mode : LexerMode} {text after : List Char} {kind : TokenKind}
    {kinds : List TokenKind} (first : mode.Scans text kind after)
    (further : (mode.after kind).Lexes after kinds) : mode.Lexes text (kind :: kinds) := by
  intro position
  rcases first with ⟨c, rest, rfl, noLayout, scans⟩
  have noGap := mode.afterGap_of_noLayout noLayout rest
  obtain ⟨start, isStart⟩ :
      ∃ start, position + Text.byteLength (mode.gap (c :: rest)) = start := ⟨_, rfl⟩
  obtain ⟨scan, scanned, isKind, isRest⟩ := scans start
  obtain ⟨lexemes, lexed, areKinds⟩ := further (start + Text.byteLength scan.text)
  subst isKind isRest
  refine ⟨⟨mode.gap (c :: rest), scan.kind, start, scan.text⟩ :: lexemes, ?_,
    congrArg (scan.kind :: ·) areKinds⟩
  unfold lexemesFrom
  split
  · rename_i found
    rw [noGap] at found
    exact absurd found (List.cons_ne_nil _ _)
  · rename_i c' rest' found
    rw [noGap] at found
    obtain ⟨rfl, rfl⟩ := List.cons.inj found
    simp only [isStart, scanned, lexed]

/-- The tokens of a text by its contexts are the tokens that the parser is given. -/
theorem Lexes.ofText {text : String} {kinds : List TokenKind}
    (lexes : LexerMode.selector.Lexes text.toList kinds) :
    ∃ tokens, Token.ofText text = .ok tokens ∧ tokens.map Token.kind = kinds := by
  obtain ⟨lexemes, lexed, areKinds⟩ := lexes 0
  refine ⟨lexemes.map Lexeme.token, ?_, ?_⟩
  · rw [Token.ofText, Lexeme.ofText, lexed]
    rfl
  · rw [List.map_map]
    exact areKinds

/-! ### Outside brackets -/

variable {after : List Char}

def EndsName (after : List Char) : Prop := after.head?.any isNameCharacter = false

theorem ne_of_isNameCharacter {c other : Char} (isName : isNameCharacter c = true)
    (noName : isNameCharacter other = false) : c ≠ other := by
  rintro rfl
  rw [isName] at noName
  exact Bool.noConfusion noName

theorem noLayout_of_isNameCharacter {c : Char} (isName : isNameCharacter c = true) :
    Text.isLayout c = false := by
  rw [Bool.eq_false_iff]
  intro layout
  rw [isNameCharacter, Text.isBlank_of_isLayout layout] at isName
  exact Bool.noConfusion isName

/-- A name ends where no name character follows. -/
theorem scans_name {mode : LexerMode} (steady : mode ≠ .operand) {name : String}
    (isName : mode.Names name) (ends : EndsName after) :
    mode.Scans (name.toList ++ after) (.name name) after := by
  obtain ⟨c, rest, letters⟩ := List.exists_cons_of_ne_nil isName.nonempty
  have all := isName.all
  rw [letters, List.all_cons, Bool.and_eq_true] at all
  have noLayout := noLayout_of_isNameCharacter all.1
  have differs : ∀ other, isNameCharacter other = false → c ≠ other := fun other =>
    ne_of_isNameCharacter all.1
  have isWhole : TokenKind.name (String.ofList (c :: (rest ++ after).takeWhile isNameCharacter))
      = .name name := by
    rw [Text.takeWhile_of_run all.2 ends, ← letters, String.ofList_toList]
  refine ⟨c, rest ++ after, by rw [letters]; rfl, fun _ => noLayout, fun position => ?_⟩
  refine ⟨scanName c (rest ++ after), ?_, isWhole, Text.dropWhile_of_run all.2 ends⟩
  match mode with
  | .selector =>
      have noStar : c ≠ '*' := by
        have := isName.noStar rfl
        rw [letters, List.head?_cons] at this
        exact fun isStar => this (congrArg some isStar)
      change scanSelector position c (rest ++ after) = _
      rw [scanSelector, if_neg (by simp [noLayout]), if_neg (differs ',' (by decide)),
        if_neg (differs '>' (by decide)), if_neg (differs '!' (by decide)), if_neg noStar,
        if_neg (differs '#' (by decide)), if_neg (differs '.' (by decide)),
        if_neg (differs '[' (by decide)), if_pos all.1]
  | .attribute =>
      change scanAttribute position c (rest ++ after) = _
      unfold scanAttribute
      rw [if_neg (differs ']' (by decide)), if_neg (differs '.' (by decide)),
        if_neg (differs '=' (by decide)), if_neg (differs '!' (by decide)),
        if_neg (differs '<' (by decide)), if_neg (differs '>' (by decide)), if_pos all.1]
  | .operand => exact absurd rfl steady

theorem scans_one {mode : LexerMode} {c : Char} {kind : TokenKind}
    (noLayout : Text.isLayout c = false)
    (scanned : ∀ position, mode.scan position c after = .ok (.one kind c after)) :
    mode.Scans (c :: after) kind after :=
  ⟨c, after, rfl, fun _ => noLayout, fun position => ⟨_, scanned position, rfl, rfl⟩⟩

theorem scans_comma : selector.Scans (',' :: after) .comma after :=
  scans_one rfl fun _ => rfl

theorem scans_greater : selector.Scans ('>' :: after) .greater after :=
  scans_one rfl fun _ => rfl

theorem scans_bang : selector.Scans ('!' :: after) .bang after :=
  scans_one rfl fun _ => rfl

theorem scans_star : selector.Scans ('*' :: after) .star after :=
  scans_one rfl fun _ => rfl

theorem scans_leftBracket : selector.Scans ('[' :: after) .leftBracket after :=
  scans_one rfl fun _ => rfl

theorem scans_dot {mode : LexerMode} (steady : mode ≠ .operand) :
    mode.Scans ('.' :: after) .dot after := by
  match mode with
  | .selector => exact scans_one rfl fun _ => rfl
  | .attribute => exact scans_one rfl fun _ => rfl
  | .operand => exact absurd rfl steady

/-- A run of layout is one token. -/
theorem scans_layout {c : Char} (isLayout : Text.isLayout c = true) (rest : List Char) :
    selector.Scans (c :: rest) .space (rest.dropWhile Text.isLayout) := by
  refine ⟨c, rest, rfl, fun isBracketed => absurd rfl isBracketed, fun position => ?_⟩
  exact ⟨_, if_pos isLayout, rfl, rfl⟩

/-- A space is a token of its own where no further layout follows. -/
theorem scans_space (ends : after.head?.any Text.isLayout = false) :
    selector.Scans (' ' :: after) .space after := by
  have scans := scans_layout (c := ' ') rfl after
  rwa [Text.dropWhile_of_head ends] at scans

/-! ### Inside brackets -/

theorem scans_rightBracket : attribute.Scans (']' :: after) .rightBracket after :=
  scans_one rfl fun _ => rfl

theorem scanOrEqual_plain {plain orEqual : TokenKind} {c : Char} (ends : after.head? ≠ some '=') :
    scanOrEqual plain orEqual c after = .one plain c after := by
  unfold scanOrEqual
  split
  · exact absurd rfl ends
  · rfl

/-- An operator ends where no equals sign follows. -/
theorem scans_comparison (comparison : Comparison) (ends : after.head? ≠ some '=') :
    attribute.Scans (comparison.symbol.toList ++ after) (.comparison comparison) after := by
  cases comparison with
  | equal => exact scans_one rfl fun _ => rfl
  | notEqual =>
      exact ⟨'!', '=' :: after, rfl, fun _ => rfl, fun position => ⟨_, rfl, rfl, rfl⟩⟩
  | less =>
      exact scans_one rfl fun _ => congrArg Except.ok (scanOrEqual_plain ends)
  | lessOrEqual =>
      exact ⟨'<', '=' :: after, rfl, fun _ => rfl, fun position => ⟨_, rfl, rfl, rfl⟩⟩
  | greater =>
      exact scans_one rfl fun _ => congrArg Except.ok (scanOrEqual_plain ends)
  | greaterOrEqual =>
      exact ⟨'>', '=' :: after, rfl, fun _ => rfl, fun position => ⟨_, rfl, rfl, rfl⟩⟩

/-! ### After an operator -/

theorem stringBody_escapeLiteral (c : Char) {rest value text : List Char}
    (read : stringBody '"' rest = some (value, text, after)) :
    ∃ text', stringBody '"' (escapeLiteral c ++ rest) = some (c :: value, text', after) := by
  have escaped : ∀ letter, stringBody '"' ('\\' :: letter :: rest)
      = some (unescape letter :: value, '\\' :: letter :: text, after) := by
    intro letter
    unfold stringBody
    rw [if_neg (by decide), if_pos rfl]
    simp only [read]
    rfl
  unfold escapeLiteral
  split
  any_goals exact ⟨_, escaped _⟩
  rename_i noQuote noBackslash _ _ _ _ _ _
  refine ⟨c :: text, ?_⟩
  rw [List.singleton_append]
  unfold stringBody
  rw [if_neg noQuote, if_neg noBackslash, read]
  rfl

/-- An escaped string literal reads back to its value. -/
theorem stringBody_escape (value : List Char) :
    ∃ text, stringBody '"' (value.flatMap escapeLiteral ++ '"' :: after)
      = some (value, text, after) := by
  induction value with
  | nil =>
      refine ⟨['"'], ?_⟩
      rw [List.flatMap_nil, List.nil_append]
      unfold stringBody
      exact if_pos rfl
  | cons c rest inductionHypothesis =>
      rcases inductionHypothesis with ⟨text, read⟩
      rw [List.flatMap_cons, List.append_assoc]
      exact stringBody_escapeLiteral c read

theorem scans_string (value : String) :
    operand.Scans ((Operand.string value).render ++ after) (.string value) after := by
  obtain ⟨text, read⟩ := @stringBody_escape after value.toList
  refine ⟨'"', value.toList.flatMap escapeLiteral ++ '"' :: after, by simp [Operand.render],
    fun _ => rfl, fun position => ?_⟩
  change ∃ scan, scanString position '"' _ = .ok scan ∧ _
  unfold scanString
  split
  · rename_i read'
    rw [read, Option.some.injEq, Prod.mk.injEq, Prod.mk.injEq] at read'
    rcases read' with ⟨isValue, _, isAfter⟩
    refine ⟨_, rfl, ?_, isAfter.symm⟩
    change TokenKind.string (String.ofList _) = _
    rw [← isValue, String.ofList_toList]
  · rename_i unread
    rw [read] at unread
    exact absurd unread (by simp)

/-- A regular expression ends where no further letter follows its flags. -/
theorem scans_regex {source : String} (isSource : IsSource source) {letters : String}
    (areLetters : letters.toList.all Char.isAlpha = true)
    (ends : after.head?.any Char.isAlpha = false) :
    operand.Scans ((Operand.regex source letters).render ++ after) (.regex source letters)
      after := by
  refine ⟨'/', source.toList ++ '/' :: (letters.toList ++ after), by simp [Operand.render],
    fun _ => rfl, fun position => ?_⟩
  have read := isSource.ends (letters.toList ++ after)
  change ∃ scan, scanRegex position '/' _ = .ok scan ∧ _
  unfold scanRegex
  split
  · rename_i unread
    rw [read] at unread
    exact absurd unread (by simp)
  · rename_i unread
    rw [read] at unread
    exact absurd (congrArg Prod.fst (Option.some.inj unread)) isSource.nonempty
  · rename_i source' after' _ read'
    rw [read, Option.some.injEq, Prod.mk.injEq] at read'
    rcases read' with ⟨rfl, rfl⟩
    refine ⟨_, rfl, ?_, Text.dropWhile_of_run areLetters ends⟩
    change TokenKind.regex (String.ofList _) (String.ofList _) = _
    rw [Text.takeWhile_of_run areLetters ends, String.ofList_toList, String.ofList_toList]

/-- A type name may have blanks at its ends. -/
theorem scans_type {inner : List Char} (closed : inner.all (· != ')') = true) (nonempty : Text.trim inner ≠ [])
    (noLayout : (Text.trim inner).any Text.isLayout = false) :
    operand.Scans (typeOpening ++ (inner ++ ')' :: after)) (.typeName (String.ofList (Text.trim inner)))
      after := by
  refine ⟨'t', 'y' :: 'p' :: 'e' :: '(' :: (inner ++ ')' :: after), rfl, fun _ => rfl, fun position => ?_⟩
  have isInner : (inner ++ ')' :: after).takeWhile (· != ')') = inner := Text.takeWhile_of_run closed rfl
  have left : (inner ++ ')' :: after).dropWhile (· != ')') = ')' :: after := Text.dropWhile_of_run closed rfl
  change ∃ scan, scanType position 't' _ = .ok scan ∧ _
  unfold scanType
  simp only
  split
  · rename_i unread
    exact absurd (left.symm.trans unread) (List.cons_ne_nil _ _)
  · rename_i close after' read
    obtain ⟨rfl, rfl⟩ := List.cons.inj (left.symm.trans read)
    have isTrimmed : Text.trim (('y' :: 'p' :: 'e' :: '(' :: (inner ++ ')' :: after)).drop 4
        |>.takeWhile (· != ')')) = Text.trim inner := congrArg Text.trim isInner
    have accepted : ¬ ((Text.trim inner).isEmpty || (Text.trim inner).any Text.isLayout) = true := by
      rw [noLayout, Bool.or_false, List.isEmpty_iff]
      exact nonempty
    simp only [isTrimmed, if_neg accepted]
    exact ⟨_, rfl, rfl, rfl⟩

theorem scans_typeName {name : String} (isTypeName : IsTypeName name) :
    operand.Scans ((Operand.typeName name).render ++ after) (.typeName name) after := by
  have shape : (Operand.typeName name).render ++ after = typeOpening ++ (name.toList ++ ')' :: after) := by
    simp [Operand.render, typeOpening]
  have nonempty : Text.trim name.toList ≠ [] := by
    rw [isTypeName.trimmed]
    exact isTypeName.nonempty
  have noLayout : (Text.trim name.toList).any Text.isLayout = false := by
    rw [isTypeName.trimmed]
    exact isTypeName.noLayout
  have scans : operand.Scans (typeOpening ++ (name.toList ++ ')' :: after)) _ after :=
    scans_type isTypeName.closed nonempty noLayout
  rwa [isTypeName.trimmed, String.ofList_toList, ← shape] at scans

theorem isNameCharacter_of_isDigit {c : Char} (isDigit : c.isDigit = true) :
    isNameCharacter c = true := by
  have noReserved : reservedCharacters.contains c = false := by
    rw [Bool.eq_false_iff]
    intro isReserved
    have noDigits : reservedCharacters.all (fun other => !other.isDigit) = true := rfl
    have noDigit := List.all_eq_true.mp noDigits c (List.contains_iff_mem.mp isReserved)
    rw [isDigit] at noDigit
    exact Bool.noConfusion noDigit
  have noBlank : Text.isBlank c = false := by
    have bounds : 48 ≤ c.toNat ∧ c.toNat ≤ 57 := by
      simpa [Char.isDigit, UInt32.le_iff_toNat_le] using isDigit
    unfold Text.isBlank
    simp
    omega
  rw [isNameCharacter, noReserved, noBlank]
  rfl

/-- The text of an infinite number is a name. -/
theorem scans_infinity (negative : Bool) (ends : EndsName after) :
    operand.Scans ((Double.signed negative Magnitude.infinity).render ++ after)
      (.name (Double.signed negative Magnitude.infinity).text) after := by
  have kindOf : ∀ {c : Char} {rest : List Char}, rest.all isNameCharacter = true →
      (scanName c (rest ++ after)).kind = .name (String.ofList (c :: rest)) := by
    intro c rest all
    change TokenKind.name (String.ofList (c :: (rest ++ after).takeWhile isNameCharacter)) = _
    rw [Text.takeWhile_of_run all ends]
  cases negative with
  | true =>
      have all : ['i', 'n', 'f'].all isNameCharacter = true := by decide
      refine ⟨'-', ['i', 'n', 'f'] ++ after, rfl, fun _ => rfl, fun position => ?_⟩
      exact ⟨scanName '-' _, rfl, kindOf all, Text.dropWhile_of_run all ends⟩
  | false =>
      have all : ['n', 'f'].all isNameCharacter = true := by decide
      refine ⟨'i', ['n', 'f'] ++ after, rfl, fun _ => rfl, fun position => ?_⟩
      exact ⟨scanName 'i' _, rfl, kindOf all, Text.dropWhile_of_run all ends⟩

end LexerMode

end TreeLint
