import TreeLint.Proofs.Selector.Joining
import TreeLint.Proofs.Selector.Progress
import TreeLint.Proofs.Selector.Refusal

/-!
Contract: names with points between them as the value of an attribute.

Owns:
- `IsBareword`, the names that make up a value that is not quoted;
- `LongestNumeral`, the longest numeral that a text begins with;
- the token that such a value begins with after an operator, and the tokens of the rest of it;
- the verdict on every such value: it is a number if it is a numeral, it is refused at the first point after its
  longest numeral if that ends there, and it is a string otherwise.
-/

set_option autoImplicit false

namespace TreeLint

open LexerMode

/-! ### Barewords -/

/-- Names for a value that is not quoted. Its first character opens neither a string literal nor a regular
expression. -/
structure IsBareword (names : List String) : Prop where
  nonempty : names ≠ []
  areNames : ∀ name ∈ names, IsName name
  plain : (".".intercalate names).toList.head? ∉ [some '"', some '\'', some '/']

instance (names : List String) : Decidable (IsBareword names) :=
  decidable_of_iff (names ≠ [] ∧ (∀ name ∈ names, IsName name) ∧
    (".".intercalate names).toList.head? ∉ [some '"', some '\'', some '/'])
    ⟨fun ⟨nonempty, areNames, plain⟩ => ⟨nonempty, areNames, plain⟩,
      fun bareword => ⟨bareword.nonempty, bareword.areNames, bareword.plain⟩⟩

/-- The longest numeral that a text begins with. -/
structure LongestNumeral (text numeral : List Char) : Prop where
  isNumeral : ∃ value, IsNumeral numeral value
  begins : numeral <+: text
  longest : ∀ other value, IsNumeral other value → other <+: text → other.length ≤ numeral.length

/-- The lexer decides for a numeral exactly if there is a longest one, and takes that one. -/
theorem LongestNumeral.taken {c : Char} {rest numeral : List Char} (longest : LongestNumeral (c :: rest) numeral) :
    startsNumber (c :: rest) = true ∧ numberLength (c :: rest) = numeral.length := by
  obtain ⟨value, isNumeral⟩ := longest.isNumeral
  obtain ⟨starts, atMost⟩ := isNumeral.length_le longest.begins
  obtain ⟨other, isOther⟩ := exists_isNumeral starts
  have begins : c :: rest.take (numberLength (c :: rest) - 1) <+: c :: rest :=
    List.cons_prefix_cons.mpr ⟨rfl, List.take_prefix _ _⟩
  have atLeast := longest.longest _ _ isOther begins
  have fits := numberLength_le c rest
  refine ⟨starts, ?_⟩
  rw [List.length_cons, List.length_take] at atLeast
  rw [List.length_cons] at fits
  omega

theorem exists_longestNumeral {c : Char} {rest : List Char} (starts : startsNumber (c :: rest) = true) :
    LongestNumeral (c :: rest) ((c :: rest).take (numberLength (c :: rest))) := by
  obtain ⟨value, isNumeral⟩ := exists_isNumeral starts
  have positive : 0 < numberLength (c :: rest) := by
    exact numberLength_pos starts
  obtain ⟨length, isLength⟩ := Nat.exists_eq_add_one.mpr positive
  rw [isLength, Nat.add_sub_cancel] at isNumeral
  rw [isLength, List.take_succ_cons]
  refine ⟨⟨value, isNumeral⟩, List.cons_prefix_cons.mpr ⟨rfl, List.take_prefix _ _⟩, ?_⟩
  intro other _ isOther begins
  have atMost := (isOther.length_le begins).2
  have fits := begins.length_le
  rw [List.length_cons] at fits ⊢
  rw [List.length_take]
  omega

/-! ### The first token of a bareword -/

namespace IsBareword

variable {names : List String} {after : List Char}

theorem characters (bareword : IsBareword names) {c : Char} (member : c ∈ renderPath names) :
    isNameCharacter c = true ∨ c = '.' := by
  obtain ⟨first, rest, rfl⟩ := List.exists_cons_of_ne_nil bareword.nonempty
  have inName : ∀ name ∈ first :: rest, c ∈ name.toList → isNameCharacter c = true := by
    intro name isThere inside
    exact List.all_eq_true.mp (bareword.areNames name isThere).all c inside
  rw [renderPath_cons, List.mem_append, List.mem_flatMap] at member
  rcases member with inFirst | ⟨name, isThere, inDotted⟩
  · exact .inl (inName first List.mem_cons_self inFirst)
  · rcases List.mem_cons.mp inDotted with isPoint | inside
    · exact .inr isPoint
    · exact .inl (inName name (List.mem_cons_of_mem _ isThere) inside)

theorem noType (bareword : IsBareword names) (ends : EndsWord after) :
    ¬typeOpening.isPrefixOf (renderPath names ++ after) = true := by
  rw [isPrefixOf_typeOpening_append _ ends]
  intro opens
  have member := (List.isPrefixOf_iff_prefix.mp opens).subset (show '(' ∈ typeOpening by decide)
  rcases bareword.characters member with isName | isPoint <;> contradiction

/-- A word that begins with no numeral, or whose longest numeral runs on into a name, begins with a name. -/
theorem scans_first {first : String} {rest : List String} (bareword : IsBareword (first :: rest)) {c : Char}
    {word : List Char} (isWord : renderPath (first :: rest) = c :: word) (noNumber : isNumberToken c word = false)
    (ends : EndsWord after) :
    operand.Scans (renderPath (first :: rest) ++ after) (.name first) (rest.flatMap dotted ++ after) := by
  have isName := bareword.areNames first List.mem_cons_self
  obtain ⟨c', letters, shape⟩ := List.exists_cons_of_ne_nil isName.nonempty
  have whole := renderPath_cons first rest
  rw [shape, isWord, List.cons_append] at whole
  obtain ⟨rfl, isWhole⟩ := List.cons.inj whole
  have all := isName.all
  rw [shape, List.all_cons, Bool.and_eq_true] at all
  have plain := bareword.plain
  rw [← renderPath, isWord, List.head?_cons] at plain
  have noType := bareword.noType ends
  rw [isWord, List.cons_append] at noType ⊢
  have isNext : EndsName (rest.flatMap dotted ++ after) := endsName_dotted rest ends.endsName
  refine ⟨c, word ++ after, rfl, fun _ => noLayout_of_isNameCharacter all.1, fun position => ?_⟩
  show ∃ scan, scanOperand position c (word ++ after) = .ok scan ∧ _
  have noQuote : ¬(c = '"' ∨ c = '\'') := by
    intro isQuote
    apply plain
    rcases isQuote with rfl | rfl <;> decide
  have noSlash : c ≠ '/' := by
    rintro rfl
    exact plain (by decide)
  rw [scanOperand, if_neg noQuote, if_neg noSlash, if_neg noType, isNumberToken_append _ _ ends, noNumber,
    if_neg Bool.false_ne_true, if_pos all.1]
  refine ⟨_, rfl, ?_, ?_⟩
  · show TokenKind.name (String.ofList (c :: (word ++ after).takeWhile isNameCharacter)) = _
    rw [isWhole, List.append_assoc, Text.takeWhile_of_run all.2 isNext, ← shape, String.ofList_toList]
  · show (word ++ after).dropWhile isNameCharacter = _
    rw [isWhole, List.append_assoc, Text.dropWhile_of_run all.2 isNext]

/-- What follows a point within a word is names again. -/
theorem exists_dotted_of_split {front back : List Char} (areNames : ∀ name ∈ names, IsName name)
    (split : names.flatMap dotted = front ++ '.' :: back) :
    ∃ later, later <:+ names ∧ '.' :: back = later.flatMap dotted := by
  induction names generalizing front with
  | nil => simp at split
  | cons name rest inductionHypothesis =>
      rw [List.forall_mem_cons] at areNames
      have whole : (name :: rest).flatMap dotted = '.' :: (name.toList ++ rest.flatMap dotted) := rfl
      cases front with
      | nil => exact ⟨name :: rest, List.suffix_refl _, split.symm⟩
      | cons c others =>
          rw [whole] at split
          rcases List.append_eq_append_iff.mp (List.cons.inj split).2 with ⟨more, _, isRest⟩ | ⟨more, isName, isBack⟩
          · obtain ⟨later, isSuffix, isLater⟩ := inductionHypothesis areNames.2 isRest
            exact ⟨later, isSuffix.trans (List.suffix_cons _ _), isLater⟩
          · cases more with
            | nil => exact ⟨rest, List.suffix_cons _ _, isBack⟩
            | cons point inner =>
                obtain ⟨rfl, _⟩ := List.cons.inj isBack
                have isPoint := List.all_eq_true.mp areNames.1.all '.' (by rw [isName]; simp)
                contradiction

end IsBareword

/-! ### The attribute around a word -/

namespace Selector

def tested (value : Operand) : Selector := .atom false (.attribute ["a"] (some ⟨.equal, value⟩))

end Selector

section Bracketed

variable {engine : RegexEngine} {word after : List Char} {kinds : List TokenKind}

theorem scans_key (ends : EndsName after) : attribute.Scans (['a'] ++ after) (.name "a") after := by
  have isName : attribute.Names "a" := ⟨⟨by decide, by decide⟩, nofun⟩
  have scans := scans_name (by decide) isName ends
  rwa [show "a".toList = ['a'] by decide] at scans

theorem lexes_bracketed (lexes : operand.Lexes word kinds) :
    selector.Lexes ('[' :: 'a' :: '=' :: word) (.leftBracket :: .name "a" :: .comparison .equal :: kinds) := by
  have isNext : EndsName ('=' :: word) := endsName_cons (by decide) word
  exact .cons scans_leftBracket (.cons (scans_key isNext) (.cons (scans_one rfl fun _ => rfl) lexes))

theorem derives_tested {value : Operand} (derived : SelectorGrammar.Value engine .equal kinds value) :
    SelectorGrammar.Derives engine
      (.leftBracket :: .name "a" :: .comparison .equal :: (kinds ++ [.rightBracket])) (.tested value) := by
  have atom : SelectorGrammar.AtomOf engine _ (.attribute ["a"] (some ⟨.equal, value⟩)) :=
    .tested (.intro .nil) derived
  have whole := SelectorGrammar.Derives.intro .nil (.intro (.single false atom) .nil) .nil .nil
  simpa [SelectorGrammar.mark, SelectorGrammar.unite, SelectorGrammar.joinAll, Selector.tested] using whole

theorem toList_bracketed (word : String) :
    ("[a=" ++ word ++ "]").toList = '[' :: 'a' :: '=' :: (word.toList ++ [']']) := by
  rw [String.toList_append, String.toList_append, show "[a=".toList = ['[', 'a', '='] by decide,
    show "]".toList = [']'] by decide]
  rfl

/-- A value whose tokens end at the closing bracket is read as it is derived. -/
theorem parse_bracketed {text : String} {value : Operand} (derived : SelectorGrammar.Value engine .equal kinds value)
    (lexes : operand.Lexes (text.toList ++ [']']) (kinds ++ [.rightBracket])) :
    Selector.parse engine ("[a=" ++ text ++ "]") = .ok (.tested value) := by
  apply Selector.parse_of_lexes (derives_tested derived)
  rw [toList_bracketed]
  exact lexes_bracketed lexes

/-- The tokens up to the point that a numeral stops at. -/
theorem reads_numberPoint {numeral : List Char} {value : Double} (isNumeral : IsNumeral numeral value)
    (taken : numberLength (numeral ++ '.' :: after) = numeral.length) :
    LexerCursor.Reads (.start ('[' :: 'a' :: '=' :: (numeral ++ '.' :: after)))
      [⟨[], .leftBracket, 0, ['[']⟩, ⟨[], .name "a", 1, ['a']⟩, ⟨[], .comparison .equal, 2, ['=']⟩,
        ⟨[], .number value, 3, numeral⟩, ⟨[], .dot, 3 + Text.byteLength numeral, ['.']⟩]
      ⟨.attribute, 3 + Text.byteLength numeral + 1, after⟩ := by
  have isNext : EndsName ('=' :: (numeral ++ '.' :: after)) := endsName_cons (by decide) _
  have isPoint : EndsName ('.' :: after) := endsName_cons (by decide) _
  apply LexerCursor.Reads.cons
  · exact @LexerCursor.takes_of_scans _ ['['] _ _ scans_leftBracket 0
  apply LexerCursor.Reads.cons
  · exact LexerCursor.takes_of_scans (scans_key isNext) 1
  apply LexerCursor.Reads.cons
  · exact @LexerCursor.takes_of_scans _ ['='] _ _ (scans_one rfl fun _ => rfl) 2
  apply LexerCursor.Reads.cons
  · exact LexerCursor.takes_of_scans (scans_numeral isNumeral taken isPoint) 3
  apply LexerCursor.Reads.cons
  · exact @LexerCursor.takes_of_scans .attribute ['.'] _ _ (scans_dot (by decide)) _
  exact .nil _

open SelectorAutomaton SelectorParser in
/-- An error of the automaton is one of the parser. -/
theorem error_of_scan {finish : Nat} {tokens : List Token} {error : SelectorError} (present : skipSpace tokens ≠ [])
    (refused : scan engine finish .beforeSequence tokens = .error error) :
    Selector.ofTokens engine finish tokens = .error error := by
  have verdict := verdict_eq_scan engine finish present
  rw [refused] at verdict
  cases read : Selector.ofTokens engine finish tokens with
  | ok selector =>
      rw [read] at verdict
      contradiction
  | error other =>
      rw [read] at verdict
      exact congrArg Except.error (Except.error.inj verdict)

open SelectorAutomaton in
/-- No point follows a number in brackets. -/
theorem ofTokens_numberPoint {finish position : Nat} {value : Double} {p₁ p₂ p₃ p₄ : Nat} {more : List Token} :
    Selector.ofTokens engine finish (⟨.leftBracket, p₁⟩ :: ⟨.name "a", p₂⟩ :: ⟨.comparison .equal, p₃⟩ ::
      ⟨.number value, p₄⟩ :: ⟨.dot, position⟩ :: more) = .error ⟨.unexpectedToken, position, some "."⟩ := by
  apply error_of_scan
  · exact List.cons_ne_nil _ _
  · rw [scan_cons rfl rfl, scan_cons rfl rfl, scan_cons rfl rfl, scan_cons rfl rfl]
    exact scan_of_none rfl

end Bracketed

/-! ### The verdict -/

theorem endsWord_bracket : EndsWord [']'] := rfl

theorem parse_numeral (engine : RegexEngine) {word : String} {value : Double}
    (isNumeral : IsNumeral word.toList value) :
    Selector.parse engine ("[a=" ++ word ++ "]") = .ok (.tested (.number value)) := by
  apply parse_bracketed .number
  exact .cons (scans_numeral isNumeral (isNumeral.numberLength_append endsWord_bracket) endsWord_bracket.endsName)
    (.cons scans_rightBracket (lexes_nil _))

namespace IsBareword

variable {engine : RegexEngine} {names : List String}

theorem exists_cons (bareword : IsBareword names) :
    ∃ c word, renderPath names = c :: word ∧ isNameCharacter c = true := by
  obtain ⟨first, rest, rfl⟩ := List.exists_cons_of_ne_nil bareword.nonempty
  have isName := bareword.areNames first List.mem_cons_self
  obtain ⟨c, letters, shape⟩ := List.exists_cons_of_ne_nil isName.nonempty
  have all := isName.all
  rw [shape, List.all_cons, Bool.and_eq_true] at all
  rw [renderPath_cons, shape]
  exact ⟨c, _, rfl, all.1⟩

/-- The names after a point and the closing bracket, in brackets. -/
theorem exists_lexes_rest (names : List String) (areNames : ∀ name ∈ names, IsName name) :
    ∃ kinds, SelectorGrammar.Segments kinds names ∧
      attribute.Lexes (names.flatMap dotted ++ [']']) (kinds ++ [.rightBracket]) := by
  have inBrackets : ∀ name ∈ names, attribute.Names name := by
    intro name member
    exact ⟨areNames name member, nofun⟩
  obtain ⟨kinds, segments, spells⟩ := spells_segments (by decide) inBrackets
  exact ⟨kinds, segments, spells endsWord_bracket.endsName (.cons scans_rightBracket (lexes_nil _))⟩

theorem parse_cut (engine : RegexEngine) (bareword : IsBareword names) {numeral rest : List Char}
    (longest : LongestNumeral (renderPath names) numeral) (split : renderPath names = numeral ++ '.' :: rest) :
    Selector.parse engine ("[a=" ++ ".".intercalate names ++ "]")
      = .error ⟨.unexpectedToken, 3 + Text.byteLength numeral, some "."⟩ := by
  obtain ⟨value, isNumeral⟩ := longest.isNumeral
  have shape : renderPath names ++ [']'] = numeral ++ '.' :: (rest ++ [']']) := by
    rw [split, List.append_assoc]
    rfl
  have taken : numberLength (numeral ++ '.' :: (rest ++ [']'])) = numeral.length := by
    rw [← shape]
    obtain ⟨c, word, isWord, _⟩ := bareword.exists_cons
    rw [isWord] at longest ⊢
    rw [List.cons_append, numberLength_append c word endsWord_bracket]
    exact longest.taken.2
  -- The point is one between two names, so the rest of the text has tokens.
  obtain ⟨later, isSuffix, isLater⟩ : ∃ later, later <:+ names ∧ '.' :: rest = later.flatMap dotted := by
    obtain ⟨first, others, rfl⟩ := List.exists_cons_of_ne_nil bareword.nonempty
    have whole : (first :: others).flatMap dotted = ('.' :: numeral) ++ '.' :: rest := by
      rw [List.cons_append, ← split, renderPath_cons]
      rfl
    exact exists_dotted_of_split bareword.areNames whole
  obtain ⟨kinds, _, lexes⟩ := exists_lexes_rest later fun name member =>
    bareword.areNames name (isSuffix.subset member)
  rw [← isLater] at lexes
  obtain ⟨further, _, lexesRest⟩ := lexes.uncons (scans_dot (by decide))
  obtain ⟨more, read, _⟩ := lexesRest (3 + Text.byteLength numeral + 1)
  have whole : lexemesFrom .selector 0 ('[' :: 'a' :: '=' :: (numeral ++ '.' :: (rest ++ [']']))) = _ :=
    (reads_numberPoint isNumeral taken).lexemesFrom read
  rw [Selector.parse, Token.ofText, toList_bracketed, ← renderPath, shape, Lexeme.ofText, whole]
  exact ofTokens_numberPoint

/-- A word that is no numeral and does not stop at a point begins with no number. -/
theorem isNumberToken_eq_false {c : Char} {word : List Char} (bareword : IsBareword names)
    (isWord : renderPath names = c :: word) (isName : isNameCharacter c = true)
    (noNumeral : ∀ value, ¬IsNumeral (renderPath names) value)
    (noPoint : ∀ numeral rest, LongestNumeral (renderPath names) numeral → renderPath names ≠ numeral ++ '.' :: rest) :
    isNumberToken c word = false := by
  rw [isWord] at noNumeral noPoint
  rw [Bool.eq_false_iff]
  intro isNumber
  obtain ⟨starts, noName⟩ := Bool.and_eq_true_iff.mp isNumber
  have longest := exists_longestNumeral starts
  have whole := List.take_append_drop (numberLength (c :: word)) (c :: word)
  cases left : (c :: word).drop (numberLength (c :: word)) with
  | nil =>
      obtain ⟨value, isNumeral⟩ := longest.isNumeral
      rw [left, List.append_nil] at whole
      rw [whole] at isNumeral
      exact noNumeral value isNumeral
  | cons d more =>
      rw [left] at whole
      have member : d ∈ renderPath names := by
        rw [isWord, ← whole]
        simp
      rcases bareword.characters member with runsOn | rfl
      · -- The numeral runs on into a name.
        obtain ⟨length, isLength⟩ := Nat.exists_eq_add_one.mpr (numberLength_pos starts)
        rw [isLength, List.drop_succ_cons] at left
        rw [isLength, Nat.add_sub_cancel, left, isName, List.head?_cons, Option.any_some, runsOn] at noName
        contradiction
      · exact noPoint _ more longest whole.symm

theorem parse_string (engine : RegexEngine) (bareword : IsBareword names)
    (noNumeral : ∀ value, ¬IsNumeral (renderPath names) value)
    (noPoint : ∀ numeral rest, LongestNumeral (renderPath names) numeral → renderPath names ≠ numeral ++ '.' :: rest) :
    Selector.parse engine ("[a=" ++ ".".intercalate names ++ "]")
      = .ok (.tested (.string (".".intercalate names))) := by
  obtain ⟨c, word, isWord, isName⟩ := bareword.exists_cons
  have noNumber := bareword.isNumberToken_eq_false isWord isName noNumeral noPoint
  obtain ⟨first, rest, rfl⟩ := List.exists_cons_of_ne_nil bareword.nonempty
  obtain ⟨kinds, segments, lexes⟩ := exists_lexes_rest rest fun name member =>
    bareword.areNames name (List.mem_cons_of_mem _ member)
  exact parse_bracketed (.path (.intro segments))
    (.cons (bareword.scans_first isWord noNumber endsWord_bracket) lexes)

end IsBareword

/-- Names with points between them are a number if they make up a numeral. If their longest numeral ends at a point,
the point is refused. In all other cases they are a string. -/
theorem parse_bareword (engine : RegexEngine) {names : List String} (bareword : IsBareword names) {word : String}
    (isWord : word = ".".intercalate names) :
    (∀ value, IsNumeral word.toList value →
      Selector.parse engine ("[a=" ++ word ++ "]") = .ok (.tested (.number value))) ∧
    (∀ numeral rest, LongestNumeral word.toList numeral → word.toList = numeral ++ '.' :: rest →
      Selector.parse engine ("[a=" ++ word ++ "]")
        = .error ⟨.unexpectedToken, 3 + Text.byteLength numeral, some "."⟩) ∧
    ((∀ value, ¬IsNumeral word.toList value) →
      (∀ numeral rest, LongestNumeral word.toList numeral → word.toList ≠ numeral ++ '.' :: rest) →
        Selector.parse engine ("[a=" ++ word ++ "]") = .ok (.tested (.string word))) := by
  subst isWord
  exact ⟨fun _ => parse_numeral engine, fun _ _ => bareword.parse_cut engine, bareword.parse_string engine⟩

/-- Digits that run on into a name are a string, also after a point. A numeral before a point is cut off. -/
theorem parse_bareword_cut :
    Selector.parse .standard ("[a=" ++ "-.5rc" ++ "]") = .ok (.tested (.string "-.5rc")) ∧
      Selector.parse .standard ("[a=" ++ "1.a" ++ "]") = .error ⟨.unexpectedToken, 4, some "."⟩ := by
  constructor
  · apply (parse_bareword .standard (show IsBareword ["-", "5rc"] by decide) (by decide)).2.2
    · intro value isNumeral
      rw [show "-.5rc".toList = ['-', '.', '5', 'r', 'c'] by decide] at isNumeral
      exact absurd (isNumeral.length_le (List.prefix_refl _)).2 (by decide)
    · intro numeral rest longest split
      rw [show "-.5rc".toList = ['-', '.', '5', 'r', 'c'] by decide] at longest split
      have dropped := congrArg (List.drop 3) split
      rw [List.drop_left' (show numeral.length = 3 from longest.taken.2.symm)] at dropped
      exact absurd (List.cons.inj dropped).1 (by decide)
  · have isText : "1.a".toList = ['1', '.', 'a'] := by decide
    have longest : LongestNumeral "1.a".toList ['1'] := by
      rw [isText]
      exact exists_longestNumeral rfl
    exact (parse_bareword .standard (show IsBareword ["1", "a"] by decide) (by decide)).2.1 _ _ longest isText

end TreeLint
