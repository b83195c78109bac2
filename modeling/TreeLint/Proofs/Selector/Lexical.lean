import TreeLint.Proofs.Number.RoundTrip
import TreeLint.Selector.Lexer

/-!
Contract: what the tokens of a text have in common.

Owns:
- the shapes of names, of sources of regular expressions and of type names;
- `LexerMode.Fits`, by which every token has the shape that its context gives it;
- the proof that the tokens of every text fit, whatever the parser makes of them.

Does not own: positions, and the characters that a token covers.
-/

set_option autoImplicit false

namespace TreeLint

/-! ### Shapes -/

/-- A name is not empty and made of name characters. -/
structure IsName (name : String) : Prop where
  nonempty : name.toList ≠ []
  all : name.toList.all isNameCharacter = true

instance (name : String) : Decidable (IsName name) :=
  decidable_of_iff (name.toList ≠ [] ∧ name.toList.all isNameCharacter = true)
    ⟨fun both => ⟨both.1, both.2⟩, fun isName => ⟨isName.nonempty, isName.all⟩⟩

/-- A name in a context. Outside brackets an asterisk is a token of its own, so no name begins with it. -/
structure LexerMode.Names (mode : LexerMode) (name : String) : Prop extends IsName name where
  noStar : mode = .selector → name.toList.head? ≠ some '*'

/-- The source of a regular expression is not empty and ends at the first slash after it. -/
structure IsSource (source : String) : Prop where
  nonempty : source.toList ≠ []
  ends : ∀ after, regexBody false (source.toList ++ '/' :: after) = some (source.toList, after)

/-- A type name is trimmed, is not empty, and holds neither layout nor a closing parenthesis. -/
structure IsTypeName (name : String) : Prop where
  nonempty : name.toList ≠ []
  trimmed : Text.trim name.toList = name.toList
  noLayout : name.toList.any Text.isLayout = false
  closed : name.toList.all (· != ')') = true

/-- Whether a token has the shape that the context gives it. -/
def LexerMode.Allows (mode : LexerMode) : TokenKind → Prop
  | .name name => mode.Names name
  | .number value => value ≠ .nan
  | .regex source _ => IsSource source
  | .typeName name => IsTypeName name
  | _ => True

def LexerMode.Fits : LexerMode → List TokenKind → Prop
  | _, [] => True
  | mode, kind :: rest => mode.Allows kind ∧ (mode.after kind).Fits rest

/-! ### Single tokens -/

theorem names_of_run {mode : LexerMode} {c : Char} (rest : List Char)
    (first : isNameCharacter c = true) (noStar : mode = .selector → c ≠ '*') :
    mode.Names (String.ofList (c :: rest.takeWhile isNameCharacter)) := by
  refine ⟨⟨by simp, ?_⟩, ?_⟩
  · rw [String.toList_ofList, List.all_cons, first, Bool.true_and]
    exact List.all_takeWhile
  · intro isSelector
    rw [String.toList_ofList, List.head?_cons]
    simpa using noStar isSelector

/-- A source of a regular expression ends at the same slash whatever comes after it. -/
theorem regexBody_append {escaped : Bool} {text source after : List Char}
    (read : regexBody escaped text = some (source, after)) (other : List Char) :
    regexBody escaped (source ++ '/' :: other) = some (source, other) := by
  fun_induction regexBody escaped text generalizing source after with
  | case1 => simp at read
  | case2 escaped c rest closes =>
      simp only [Option.some.injEq, Prod.mk.injEq] at read
      rcases read with ⟨rfl, rfl⟩
      rw [List.nil_append, regexBody, if_pos ⟨rfl, closes.2⟩]
  | case3 escaped c rest open' inductionHypothesis =>
      obtain ⟨⟨inner, rest'⟩, innerRead, same⟩ := Option.map_eq_some_iff.mp read
      simp only [Prod.mk.injEq] at same
      rcases same with ⟨rfl, rfl⟩
      rw [List.cons_append, regexBody, if_neg open', inductionHypothesis innerRead]
      rfl

section Scanning

variable {position : Nat} {c : Char} {rest : List Char} {scan : Scan (c :: rest)}

theorem allows_of_scanSelector (read : scanSelector position c rest = .ok scan) :
    LexerMode.selector.Allows scan.kind := by
  unfold scanSelector at read
  by_cases isStar : c = '*'
  · subst isStar
    obtain rfl : Scan.one .star '*' rest = scan := Except.ok.inj read
    trivial
  · repeat' split at read
    all_goals try trivial
    all_goals obtain rfl := Except.ok.inj read
    all_goals try trivial
    rename_i isName
    exact names_of_run rest isName fun _ => isStar

theorem allows_of_scanAttribute (read : scanAttribute position c rest = .ok scan) :
    LexerMode.attribute.Allows scan.kind := by
  unfold scanAttribute scanOrEqual at read
  repeat' split at read
  all_goals try contradiction
  all_goals obtain rfl := Except.ok.inj read
  all_goals try trivial
  rename_i isName
  exact names_of_run rest isName fun isSelector => LexerMode.noConfusion isSelector

theorem allows_of_scanString (read : scanString position c rest = .ok scan) :
    LexerMode.operand.Allows scan.kind := by
  unfold scanString at read
  split at read
  · obtain rfl := Except.ok.inj read
    trivial
  · contradiction

theorem allows_of_scanRegex (read : scanRegex position c rest = .ok scan) :
    LexerMode.operand.Allows scan.kind := by
  unfold scanRegex at read
  split at read
  · contradiction
  · contradiction
  · rename_i source after notEmpty found
    obtain rfl := Except.ok.inj read
    refine ⟨?_, fun other => ?_⟩
    · rw [String.toList_ofList]
      exact notEmpty
    · rw [String.toList_ofList]
      exact regexBody_append found other

theorem allows_of_scanType (read : scanType position c rest = .ok scan) :
    LexerMode.operand.Allows scan.kind := by
  unfold scanType at read
  simp only at read
  split at read
  · contradiction
  · split at read
    · contradiction
    · rename_i accepted
      rw [Bool.or_eq_true, not_or] at accepted
      obtain rfl := Except.ok.inj read
      refine ⟨?_, ?_, ?_, ?_⟩
      · rw [String.toList_ofList]
        exact fun isEmpty => accepted.1 (List.isEmpty_iff.mpr isEmpty)
      · rw [String.toList_ofList, Text.trim_trim]
      · rw [String.toList_ofList]
        exact Bool.eq_false_iff.mpr accepted.2
      · rw [String.toList_ofList, List.all_eq_true]
        intro letter member
        exact List.all_eq_true.mp List.all_takeWhile letter (Text.mem_of_mem_trim member)

/-- A number of a selector begins with a digit or a point after its sign. -/
theorem head_of_startsNumber {text : List Char} (starts : startsNumber text = true) :
    (Double.splitSign text).2.head?.any (fun c => c.isDigit || c == '.') = true := by
  unfold startsNumber at starts
  unfold Double.splitSign
  split
  · simp only at starts
    split at starts
    · rfl
    · simp [starts]
    · contradiction
  · contradiction
  · rename_i noMinus noPlus
    simp only at starts
    split at starts
    · rfl
    · simp [starts]
    · contradiction

theorem one_lt_numberLength {body : List Char} (starts : startsNumber ('-' :: body) = true) :
    1 < numberLength ('-' :: body) := by
  unfold startsNumber at starts
  unfold numberLength
  simp only at starts ⊢
  split at starts
  · rename_i d more
    rw [show ('.' :: d :: more).takeWhile Char.isDigit = [] from rfl,
      show ('.' :: d :: more).dropWhile Char.isDigit = '.' :: d :: more from rfl]
    simp only [starts, if_true]
    omega
  · rename_i d more _
    rw [List.takeWhile_cons_of_pos starts, List.length_cons]
    split
    · split <;> omega
    · omega
  · contradiction

theorem startsNumber_take (starts : startsNumber (c :: rest) = true) :
    (Double.splitSign (c :: rest.take (numberLength (c :: rest) - 1))).2.head?.any
      (fun c => c.isDigit || c == '.') = true := by
  have whole := head_of_startsNumber starts
  by_cases isMinus : c = '-'
  · subst isMinus
    have goesOn := one_lt_numberLength starts
    cases rest with
    | nil => exact whole
    | cons d more =>
        rw [show numberLength ('-' :: d :: more) - 1 = (numberLength ('-' :: d :: more) - 2) + 1 by
          omega]
        exact whole
  · by_cases isPlus : c = '+'
    · subst isPlus
      contradiction
    · have unsigned : ∀ more, Double.splitSign (c :: more) = (false, c :: more) := by
        intro more
        unfold Double.splitSign
        split
        · exact absurd (List.cons.inj ‹_›).1 isMinus
        · exact absurd (List.cons.inj ‹_›).1 isPlus
        · rfl
      rw [unsigned] at whole ⊢
      exact whole

theorem allows_of_scanNumber (starts : startsNumber (c :: rest) = true)
    (read : scanNumber position c rest = .ok scan) : LexerMode.operand.Allows scan.kind := by
  unfold scanNumber at read
  simp only at read
  split at read
  · rename_i value found
    obtain rfl := Except.ok.inj read
    exact Double.read?_ne_nan found (startsNumber_take starts)
  · contradiction

theorem allows_of_scanOperand (read : scanOperand position c rest = .ok scan) :
    LexerMode.operand.Allows scan.kind := by
  unfold scanOperand at read
  split at read
  · exact allows_of_scanString read
  · split at read
    · exact allows_of_scanRegex read
    · split at read
      · exact allows_of_scanType read
      · split at read
        · rename_i isNumber
          exact allows_of_scanNumber (Bool.and_eq_true_iff.mp isNumber).1 read
        · split at read
          · rename_i isName
            obtain rfl := Except.ok.inj read
            exact names_of_run rest isName fun isSelector => LexerMode.noConfusion isSelector
          · contradiction

end Scanning

/-! ### Whole texts -/

theorem allows_of_scan {mode : LexerMode} {position : Nat} {c : Char} {rest : List Char}
    {scan : Scan (c :: rest)} (read : mode.scan position c rest = .ok scan) :
    mode.Allows scan.kind := by
  match mode with
  | .selector => exact allows_of_scanSelector read
  | .attribute => exact allows_of_scanAttribute read
  | .operand => exact allows_of_scanOperand read

theorem fits_of_lexemesFrom {mode : LexerMode} {position : Nat} {text : List Char}
    {lexemes : List Lexeme} (read : lexemesFrom mode position text = .ok lexemes) :
    mode.Fits (lexemes.map Lexeme.kind) := by
  fun_induction lexemesFrom mode position text generalizing lexemes with
  | case1 =>
      obtain rfl := Except.ok.inj read
      trivial
  | case2 => contradiction
  | case3 => contradiction
  | case4 mode position text c rest found start scan scanned further furtherRead =>
      rename_i inductionHypothesis
      obtain rfl := Except.ok.inj read
      exact ⟨allows_of_scan scanned, inductionHypothesis furtherRead⟩

/-- The tokens of a text fit. -/
theorem fits_of_ofText {text : String} {tokens : List Token}
    (read : Token.ofText text = .ok tokens) :
    LexerMode.selector.Fits (tokens.map Token.kind) := by
  unfold Token.ofText at read
  cases lexed : Lexeme.ofText text.toList with
  | error error =>
      rw [lexed] at read
      contradiction
  | ok lexemes =>
      rw [lexed] at read
      obtain rfl := Except.ok.inj read
      rw [List.map_map]
      exact fits_of_lexemesFrom lexed

end TreeLint
