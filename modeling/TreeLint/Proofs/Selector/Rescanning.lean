import TreeLint.Proofs.Selector.Numerals

/-!
Contract: a token is found again when other text follows it.

Owns:
- `SameNext` and `SameWord`, by which one text can stand in for another after a token;
- one lemma for each context: a token that was found in front of a text is found in front of any other text that can
  stand in for it.

Outside operands a token depends on the next character only. A name or a numeral after an operator depends on the
whole word, since digits that run on into a name are a name. Layout is not found again: it may be longer.
-/

set_option autoImplicit false

namespace TreeLint

/-! ### What can stand in for what follows -/

variable {after after' : List Char}

/-- Layout or a comma comes next in the other text, or the same character. Neither a name nor an operator goes on with
layout or a comma. -/
def SameNext (after after' : List Char) : Prop :=
  after'.head?.any (fun c => Text.isLayout c || c == ',') = true ∨ after'.head? = after.head?

theorem SameNext.stops (same : SameNext after after') {p : Char → Bool}
    (noLayout : ∀ c, Text.isLayout c = true → p c = false) (noComma : p ',' = false)
    (stops : after.head?.any p = false) : after'.head?.any p = false := by
  rcases same with breaks | isSame
  · cases after' with
    | nil => rfl
    | cons c rest =>
        rcases (Bool.or_eq_true _ _).mp breaks with isLayout | isComma
        · exact noLayout c isLayout
        · obtain rfl := eq_of_beq isComma
          exact noComma
  · rw [isSame]
    exact stops

theorem SameNext.endsName (same : SameNext after after') (ends : LexerMode.EndsName after) :
    LexerMode.EndsName after' := by
  refine same.stops (fun c isLayout => ?_) rfl ends
  rw [isNameCharacter, Text.isBlank_of_isLayout isLayout]
  rfl

/-- Both texts go on alike up to the end of a word. -/
def SameWord (after after' : List Char) : Prop :=
  ∃ word left left', after = word ++ left ∧ after' = word ++ left' ∧ EndsWord left ∧ EndsWord left'

theorem SameWord.noLetter (same : SameWord after after') (ends : after.head?.any Char.isAlpha = false) :
    after'.head?.any Char.isAlpha = false := by
  obtain ⟨word, left, left', rfl, rfl, _, ends'⟩ := same
  cases word with
  | nil => exact ends'.noLetter
  | cons c rest => exact ends

/-! ### Names -/

section Scanning

variable {position : Nat} {c : Char} {rest : List Char} {scan : Scan (c :: rest)}

theorem rescans_name {mode : LexerMode} (steady : mode ≠ .operand) (isName : isNameCharacter c = true)
    (noStar : mode = .selector → c ≠ '*') (same : SameNext (scanName c rest).rest after') :
    mode.Scans ((scanName c rest).text ++ after') (scanName c rest).kind after' := by
  have ends : LexerMode.EndsName after' := same.endsName (Text.head?_dropWhile _ _)
  have scans := LexerMode.scans_name steady (names_of_run rest isName noStar) ends
  rwa [String.toList_ofList] at scans

/-! ### Outside brackets -/

theorem rescans_selector (noLayout : Text.isLayout c = false) (read : scanSelector position c rest = .ok scan)
    (same : SameNext scan.rest after') : LexerMode.selector.Scans (scan.text ++ after') scan.kind after' := by
  by_cases isStar : c = '*'
  · subst isStar
    obtain rfl : Scan.one .star '*' rest = scan := Except.ok.inj read
    exact LexerMode.scans_star
  · unfold scanSelector at read
    repeat' split at read
    all_goals first | contradiction | obtain rfl := Except.ok.inj read
    · rename_i isLayout
      exact absurd isLayout (Bool.eq_false_iff.mp noLayout)
    all_goals first | exact rescans_name (by decide) ‹_› (fun _ => isStar) same | skip
    all_goals
      subst_vars
      exact LexerMode.scans_one rfl fun _ => rfl

/-! ### Inside brackets -/

/-- An operator that an equals sign may complete is found again where none follows it now. -/
theorem rescans_orEqual {plain orEqual : Comparison} {c : Char} (noLayout : Text.isLayout c = false)
    (scans : ∀ position after, scanAttribute position c after
      = .ok (scanOrEqual (.comparison plain) (.comparison orEqual) c after))
    (same : SameNext (scanOrEqual (.comparison plain) (.comparison orEqual) c rest).rest after') :
    LexerMode.attribute.Scans ((scanOrEqual (.comparison plain) (.comparison orEqual) c rest).text ++ after')
      (scanOrEqual (.comparison plain) (.comparison orEqual) c rest).kind after' := by
  by_cases isEqual : rest.head? = some '='
  · obtain ⟨more, rfl⟩ := List.head?_eq_some_iff.mp isEqual
    exact ⟨c, '=' :: after', rfl, fun _ => noLayout, fun position => ⟨_, scans position _, rfl, rfl⟩⟩
  · rw [LexerMode.scanOrEqual_plain isEqual] at same ⊢
    have noEqual : after'.head? ≠ some '=' := by
      have stops : after'.head?.any (· == '=') = false := by
        refine same.stops ?_ rfl ?_
        · intro d isLayout
          apply beq_eq_false_iff_ne.mpr
          rintro rfl
          contradiction
        · show rest.head?.any (· == '=') = false
          cases rest with
          | nil => rfl
          | cons d more => simpa using isEqual
      intro isNext
      rw [isNext] at stops
      contradiction
    apply LexerMode.scans_one noLayout
    intro position
    exact (scans position after').trans (congrArg Except.ok (LexerMode.scanOrEqual_plain noEqual))

theorem rescans_attribute (read : scanAttribute position c rest = .ok scan) (same : SameNext scan.rest after') :
    LexerMode.attribute.Scans (scan.text ++ after') scan.kind after' := by
  have bracketed : LexerMode.attribute = .selector → c ≠ '*' := fun isSelector => LexerMode.noConfusion isSelector
  unfold scanAttribute at read
  repeat' split at read
  all_goals first | contradiction | obtain rfl := Except.ok.inj read
  all_goals first | exact rescans_name (by decide) ‹_› bracketed same | subst_vars
  · exact LexerMode.scans_one rfl fun _ => rfl
  · exact LexerMode.scans_one rfl fun _ => rfl
  · exact LexerMode.scans_one rfl fun _ => rfl
  · exact ⟨'!', '=' :: after', rfl, fun _ => rfl, fun position => ⟨_, rfl, rfl, rfl⟩⟩
  · exact rescans_orEqual rfl (fun _ _ => rfl) same
  · exact rescans_orEqual rfl (fun _ _ => rfl) same

/-! ### Literals -/

/-- A string literal ends at the same quote whatever comes after it. -/
theorem stringBody_ends {quote : Char} {source value text rest : List Char}
    (read : stringBody quote source = some (value, text, rest)) (other : List Char) :
    stringBody quote (text ++ other) = some (value, text, other) := by
  fun_induction stringBody quote source generalizing value text rest with
  | case1 => contradiction
  | case2 more =>
      simp only [Option.some.injEq, Prod.mk.injEq] at read
      obtain ⟨rfl, rfl, rfl⟩ := read
      rw [List.singleton_append]
      unfold stringBody
      exact if_pos rfl
  | case3 => contradiction
  | case4 escaped more notQuote inductionHypothesis =>
      obtain ⟨⟨inner, covered, left⟩, innerRead, same⟩ := Option.map_eq_some_iff.mp read
      simp only [Prod.mk.injEq] at same
      obtain ⟨rfl, rfl, rfl⟩ := same
      rw [List.cons_append, List.cons_append]
      unfold stringBody
      rw [if_neg notQuote, if_pos rfl]
      simp only [inductionHypothesis innerRead, Option.map_some]
  | case5 c more notQuote notEscape inductionHypothesis =>
      obtain ⟨⟨inner, covered, left⟩, innerRead, same⟩ := Option.map_eq_some_iff.mp read
      simp only [Prod.mk.injEq] at same
      obtain ⟨rfl, rfl, rfl⟩ := same
      rw [List.cons_append]
      unfold stringBody
      rw [if_neg notQuote, if_neg notEscape, inductionHypothesis innerRead, Option.map_some]

theorem rescans_string (isQuote : c = '"' ∨ c = '\'') (read : scanString position c rest = .ok scan) :
    LexerMode.operand.Scans (scan.text ++ after') scan.kind after' := by
  have noLayout : Text.isLayout c = false := by
    rcases isQuote with rfl | rfl <;> rfl
  unfold scanString at read
  split at read
  · rename_i value text left body
    obtain rfl := Except.ok.inj read
    have again := stringBody_ends body after'
    refine ⟨c, text ++ after', rfl, fun _ => noLayout, fun position' => ?_⟩
    show ∃ scan, scanOperand position' c (text ++ after') = .ok scan ∧ _
    rw [scanOperand, if_pos isQuote]
    unfold scanString
    split
    · rename_i found
      rw [again, Option.some.injEq, Prod.mk.injEq, Prod.mk.injEq] at found
      obtain ⟨rfl, _, rfl⟩ := found
      exact ⟨_, rfl, rfl, rfl⟩
    · rename_i unread
      rw [again] at unread
      contradiction
  · contradiction

theorem rescans_regex (isSlash : c = '/') (read : scanRegex position c rest = .ok scan)
    (same : SameWord scan.rest after') : LexerMode.operand.Scans (scan.text ++ after') scan.kind after' := by
  subst isSlash
  have shape : LexerMode.operand.Allows scan.kind := allows_of_scanRegex read
  unfold scanRegex at read
  split at read
  · contradiction
  · contradiction
  · rename_i source left nonempty body
    obtain rfl := Except.ok.inj read
    have isSource : IsSource (String.ofList source) := shape
    have areLetters : (String.ofList (left.takeWhile Char.isAlpha)).toList.all Char.isAlpha = true := by
      rw [String.toList_ofList]
      exact List.all_takeWhile
    have ends := same.noLetter (Text.head?_dropWhile Char.isAlpha left)
    have scans := LexerMode.scans_regex isSource areLetters ends
    have covered : (Operand.regex (String.ofList source) (String.ofList (left.takeWhile Char.isAlpha))).render
        = '/' :: (source ++ '/' :: left.takeWhile Char.isAlpha) := by
      simp [Operand.render]
    rwa [covered] at scans

theorem rescans_type (opens : typeOpening.isPrefixOf (c :: rest) = true)
    (read : scanType position c rest = .ok scan) :
    LexerMode.operand.Scans (scan.text ++ after') scan.kind after' := by
  obtain ⟨more, whole⟩ := List.isPrefixOf_iff_prefix.mp opens
  obtain ⟨rfl, rfl⟩ := List.cons.inj whole
  unfold scanType at read
  simp only at read
  split at read
  · contradiction
  · rename_i close left found
    have isClose : close = ')' := by
      have head := Text.head?_dropWhile (· != ')') more
      rw [show more.dropWhile (· != ')') = close :: left from found] at head
      simpa using head
    subst isClose
    split at read
    · contradiction
    · rename_i accepted
      obtain rfl := Except.ok.inj read
      rw [Bool.or_eq_true, not_or, List.isEmpty_iff, Bool.not_eq_true] at accepted
      have scans : LexerMode.operand.Scans _ _ after' :=
        LexerMode.scans_type (List.all_takeWhile (p := (· != ')')) (l := more)) accepted.1 accepted.2
      rw [List.append_cons] at scans
      exact scans

/-! ### Words after an operator -/

/-- The same token, found again in a longer text. -/
def Scan.Continues {c : Char} {rest : List Char} (scan : Scan (c :: rest))
    (again : Scan (c :: (rest ++ after))) : Prop :=
  again.kind = scan.kind ∧ again.rest = scan.rest ++ after

/-- If a token is found in a text, then it is found again in a longer text. -/
def Persists {c : Char} {rest : List Char} (found : Except SelectorError (Scan (c :: rest)))
    (again : Except SelectorError (Scan (c :: (rest ++ after)))) : Prop :=
  ∀ scan, found = .ok scan → ∃ scan', again = .ok scan' ∧ scan.Continues scan'

theorem Persists.ok {scan : Scan (c :: rest)} {again : Scan (c :: (rest ++ after))}
    (continues : scan.Continues again) : Persists (.ok scan) (.ok again) := by
  rintro _ ⟨⟩
  exact ⟨again, rfl, continues⟩

theorem persists_name (ends : EndsWord after) :
    Persists (.ok (scanName c rest)) (.ok (scanName c (rest ++ after))) := by
  refine .ok ⟨?_, Text.dropWhile_append rest ends.endsName⟩
  exact congrArg (fun letters => TokenKind.name (String.ofList (c :: letters)))
    (Text.takeWhile_append rest ends.endsName)

theorem persists_number (position position' : Nat) (ends : EndsWord after) :
    Persists (scanNumber position c rest) (scanNumber position' c (rest ++ after)) := by
  have atMost := numberLength_le c rest
  rw [List.length_cons] at atMost
  have sameText : (rest ++ after).take (numberLength (c :: (rest ++ after)) - 1)
      = rest.take (numberLength (c :: rest) - 1) := by
    rw [numberLength_append c rest ends, List.take_append_of_le_length (by omega)]
  have further : (rest ++ after).drop (numberLength (c :: (rest ++ after)) - 1)
      = rest.drop (numberLength (c :: rest) - 1) ++ after := by
    rw [numberLength_append c rest ends, List.drop_append_of_le_length (by omega)]
  intro scan found
  unfold scanNumber at found
  simp only at found
  split at found
  · rename_i value read
    obtain rfl := Except.ok.inj found
    unfold scanNumber
    simp only
    split
    · rename_i value' read'
      rw [sameText, read, Option.some.injEq] at read'
      subst read'
      exact ⟨_, rfl, rfl, further⟩
    · rename_i unread
      rw [sameText, read] at unread
      contradiction
  · contradiction

/-- What is found in a text alone is found in front of one text as in front of another. -/
theorem Persists.again {inner left left' word : List Char} {found : Except SelectorError (Scan (c :: inner))}
    {first : Except SelectorError (Scan (c :: (inner ++ left)))}
    {second : Except SelectorError (Scan (c :: (inner ++ left')))} {scan : Scan (c :: (inner ++ left))}
    (alone : ∃ scan, found = .ok scan) (persists : Persists found first) (persists' : Persists found second)
    (read : first = .ok scan) (isRest : scan.rest = word ++ left) :
    ∃ scan', second = .ok scan' ∧ scan'.kind = scan.kind ∧ scan'.rest = word ++ left' := by
  obtain ⟨short, isFound⟩ := alone
  obtain ⟨scan₁, readFirst, sameKind, sameRest⟩ := persists short isFound
  obtain ⟨scan', readSecond, sameKind', sameRest'⟩ := persists' short isFound
  obtain rfl := Except.ok.inj (readFirst.symm.trans read)
  rw [isRest] at sameRest
  refine ⟨scan', readSecond, sameKind'.trans sameKind.symm, ?_⟩
  rw [sameRest', ← List.append_cancel_right sameRest]

/-- A name or a numeral after an operator is found again if the whole word is the same. -/
theorem rescans_word (noLayout : Text.isLayout c = false) (noQuote : ¬(c = '"' ∨ c = '\'')) (noSlash : c ≠ '/')
    (noType : typeOpening.isPrefixOf (c :: rest) = false) (read : scanOperand position c rest = .ok scan)
    (same : SameWord scan.rest after') : LexerMode.operand.Scans (scan.text ++ after') scan.kind after' := by
  obtain ⟨word, left, left', isRest, rfl, ends, ends'⟩ := same
  obtain ⟨first, covered, isText⟩ := List.exists_cons_of_ne_nil scan.nonempty
  have split := scan.split
  rw [isText, isRest, List.cons_append, ← List.append_assoc] at split
  obtain ⟨rfl, rfl⟩ := List.cons.inj split
  rw [isText, List.cons_append, ← List.append_assoc]
  -- The word alone decides between a type name, a numeral and a name.
  have noType' : typeOpening.isPrefixOf (first :: (covered ++ word ++ left')) = false := by
    rw [← List.cons_append, isPrefixOf_typeOpening_append _ ends']
    rwa [← List.cons_append, isPrefixOf_typeOpening_append _ ends] at noType
  refine ⟨first, covered ++ word ++ left', rfl, fun _ => noLayout, fun position' => ?_⟩
  show ∃ scan', scanOperand position' first (covered ++ word ++ left') = .ok scan' ∧ _
  rw [scanOperand, if_neg noQuote, if_neg noSlash, if_neg (Bool.eq_false_iff.mp noType),
    isNumberToken_append _ _ ends] at read
  rw [scanOperand, if_neg noQuote, if_neg noSlash, if_neg (Bool.eq_false_iff.mp noType'),
    isNumberToken_append _ _ ends']
  by_cases isNumber : isNumberToken first (covered ++ word) = true
  · rw [if_pos isNumber] at read ⊢
    have alone := exists_scanNumber position (Bool.and_eq_true_iff.mp isNumber).1
    exact (persists_number position position ends).again alone (persists_number position position' ends') read isRest
  · rw [if_neg isNumber] at read ⊢
    by_cases isName : isNameCharacter first = true
    · rw [if_pos isName] at read ⊢
      exact (persists_name ends).again ⟨_, rfl⟩ (persists_name ends') read isRest
    · rw [if_neg isName] at read
      contradiction

theorem rescans_operand (noLayout : Text.isLayout c = false) (read : scanOperand position c rest = .ok scan)
    (same : SameWord scan.rest after') : LexerMode.operand.Scans (scan.text ++ after') scan.kind after' := by
  by_cases isQuote : c = '"' ∨ c = '\''
  · rw [scanOperand, if_pos isQuote] at read
    exact rescans_string isQuote read
  · by_cases isSlash : c = '/'
    · rw [scanOperand, if_neg isQuote, if_pos isSlash] at read
      exact rescans_regex isSlash read same
    · by_cases isType : typeOpening.isPrefixOf (c :: rest) = true
      · rw [scanOperand, if_neg isQuote, if_neg isSlash, if_pos isType] at read
        exact rescans_type isType read
      · exact rescans_word noLayout isQuote isSlash (Bool.eq_false_iff.mpr isType) read same

end Scanning

end TreeLint
