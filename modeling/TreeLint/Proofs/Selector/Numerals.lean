import TreeLint.Proofs.Selector.Relexing

/-!
Contract: numerals at the beginning of a text.

Owns:
- `EndsWord`, by which neither a name nor a numeral nor the opening of a type name goes on;
- the length of the numeral that the lexer takes and the decision for it, which do not depend on what follows a
  word;
- `IsNumeral`, the spelling of a numeral and the number that it denotes;
- the law that the lexer takes the longest numeral that a text begins with.
-/

set_option autoImplicit false

namespace TreeLint

/-! ### The end of a word -/

/-- Neither a name nor a numeral nor the opening of a type name goes on with the text. -/
def EndsWord (after : List Char) : Prop :=
  after.head?.any (fun c => isNameCharacter c || c == '.' || c == '(') = false

theorem isNameCharacter_of_isAlpha {c : Char} (isAlpha : c.isAlpha = true) :
    isNameCharacter c = true := by
  have noReserved : reservedCharacters.contains c = false := by
    rw [Bool.eq_false_iff]
    intro isReserved
    have noLetters : reservedCharacters.all (fun other => !other.isAlpha) = true := rfl
    have noLetter := List.all_eq_true.mp noLetters c (List.contains_iff_mem.mp isReserved)
    rw [isAlpha] at noLetter
    exact Bool.noConfusion noLetter
  have noBlank : Text.isBlank c = false := by
    have bounds : 65 ≤ c.toNat ∧ c.toNat ≤ 90 ∨ 97 ≤ c.toNat ∧ c.toNat ≤ 122 := by
      rcases (Bool.or_eq_true _ _).mp isAlpha with isUpper | isLower
      · have bounds : 'A'.val ≤ c.val ∧ c.val ≤ 'Z'.val := of_decide_eq_true isUpper
        exact .inl ⟨UInt32.le_iff_toNat_le.mp bounds.1, UInt32.le_iff_toNat_le.mp bounds.2⟩
      · obtain ⟨atLeast, atMost⟩ := Bool.and_eq_true_iff.mp isLower
        exact .inr ⟨UInt32.le_iff_toNat_le.mp (of_decide_eq_true atLeast),
          UInt32.le_iff_toNat_le.mp (of_decide_eq_true atMost)⟩
    unfold Text.isBlank
    simp
    omega
  rw [isNameCharacter, noReserved, noBlank]
  rfl

namespace EndsWord

variable {after : List Char}

/-- No character that only words have comes next. -/
theorem stops (ends : EndsWord after) {p : Char → Bool}
    (inWord : ∀ c, p c = true → (isNameCharacter c || c == '.' || c == '(') = true) :
    after.head?.any p = false := by
  cases after with
  | nil => rfl
  | cons c rest =>
      rw [List.head?_cons, Option.any_some, Bool.eq_false_iff]
      intro isIn
      have noWord : (isNameCharacter c || c == '.' || c == '(') = false := ends
      rw [inWord c isIn] at noWord
      contradiction

theorem endsName (ends : EndsWord after) : LexerMode.EndsName after := by
  apply ends.stops
  intro c isName
  rw [isName]
  rfl

theorem noDigit (ends : EndsWord after) : after.head?.any Char.isDigit = false := by
  apply ends.stops
  intro c isDigit
  rw [LexerMode.isNameCharacter_of_isDigit isDigit]
  rfl

theorem noLetter (ends : EndsWord after) : after.head?.any Char.isAlpha = false := by
  apply ends.stops
  intro c isAlpha
  rw [isNameCharacter_of_isAlpha isAlpha]
  rfl

end EndsWord

theorem endsWord_of_isLayout {c : Char} (isLayout : Text.isLayout c = true) (rest : List Char) :
    EndsWord (c :: rest) := by
  simp only [Text.isLayout, Bool.or_eq_true, beq_iff_eq] at isLayout
  rcases isLayout with ((rfl | rfl) | rfl) | rfl <;> rfl

variable {after : List Char}

/-- Whether a type name opens does not depend on what follows a word. -/
theorem isPrefixOf_typeOpening_append (text : List Char) (ends : EndsWord after) :
    typeOpening.isPrefixOf (text ++ after) = typeOpening.isPrefixOf text := by
  apply Text.isPrefixOf_append
  apply ends.stops
  intro c isIn
  have inWord : typeOpening.all (fun c => isNameCharacter c || c == '.' || c == '(') = true := by decide
  exact List.all_eq_true.mp inWord c (List.contains_iff_mem.mp isIn)

/-! ### The length of a numeral -/

/-- The length of a point and the digits after it, if there are any. -/
def fractionLength : List Char → Nat
  | '.' :: d :: more => if d.isDigit then 2 + (more.takeWhile Char.isDigit).length else 0
  | _ => 0

/-- The length of the longest number without a sign at the beginning of a text. -/
def unsignedLength (body : List Char) : Nat :=
  (body.takeWhile Char.isDigit).length + fractionLength (body.dropWhile Char.isDigit)

theorem numberLength_cons (c : Char) (rest : List Char) :
    numberLength (c :: rest)
      = if c = '-' then 1 + unsignedLength rest else unsignedLength (c :: rest) := by
  have parts : ∀ sign whole left, (match left with
      | '.' :: d :: more =>
          if d.isDigit then sign + whole + 2 + (more.takeWhile Char.isDigit).length else sign + whole
      | _ => sign + whole) = sign + (whole + fractionLength left) := by
    intro sign whole left
    unfold fractionLength
    split
    · split <;> omega
    · rfl
  by_cases isMinus : c = '-'
  · subst isMinus
    rw [if_pos rfl]
    exact parts 1 _ _
  · rw [if_neg isMinus, numberLength]
    · exact (parts 0 _ _).trans (Nat.zero_add _)
    · rintro body shape
      exact isMinus (List.cons.inj shape).1

theorem fractionLength_of_ne {c : Char} (noPoint : c ≠ '.') (rest : List Char) :
    fractionLength (c :: rest) = 0 := by
  unfold fractionLength
  split
  · exact absurd (List.cons.inj ‹_›).1 noPoint
  · rfl

theorem fractionLength_append (left : List Char) (ends : EndsWord after) :
    fractionLength (left ++ after) = fractionLength left := by
  match left with
  | [] =>
      match after with
      | [] => rfl
      | c :: rest =>
          have noPoint : c ≠ '.' := by
            rintro rfl
            contradiction
          exact fractionLength_of_ne noPoint rest
  | [c] =>
      by_cases isPoint : c = '.'
      · subst isPoint
        match after with
        | [] => rfl
        | d :: rest =>
            have noDigit : d.isDigit = false := ends.noDigit
            simp [fractionLength, noDigit]
      · rw [List.singleton_append, fractionLength_of_ne isPoint, fractionLength_of_ne isPoint]
  | c :: d :: more =>
      by_cases isPoint : c = '.'
      · subst isPoint
        have noDigit := ends.noDigit
        simp only [List.cons_append, fractionLength, Text.takeWhile_append more noDigit]
      · rw [List.cons_append, fractionLength_of_ne isPoint, fractionLength_of_ne isPoint]

theorem fractionLength_le (left : List Char) : fractionLength left ≤ left.length := by
  unfold fractionLength
  split
  · rename_i d more
    have shorter := (List.takeWhile_sublist (l := more) Char.isDigit).length_le
    simp only [List.length_cons]
    split <;> omega
  · exact Nat.zero_le _

theorem unsignedLength_append (body : List Char) (ends : EndsWord after) :
    unsignedLength (body ++ after) = unsignedLength body := by
  have noDigit := ends.noDigit
  rw [unsignedLength, Text.takeWhile_append body noDigit, Text.dropWhile_append body noDigit,
    fractionLength_append _ ends, unsignedLength]

theorem unsignedLength_le (body : List Char) : unsignedLength body ≤ body.length := by
  have whole := congrArg List.length (List.takeWhile_append_dropWhile (p := Char.isDigit) (l := body))
  have further := fractionLength_le (body.dropWhile Char.isDigit)
  rw [List.length_append] at whole
  rw [unsignedLength]
  omega

theorem numberLength_append (c : Char) (rest : List Char) (ends : EndsWord after) :
    numberLength (c :: (rest ++ after)) = numberLength (c :: rest) := by
  have unsigned := unsignedLength_append (c :: rest) ends
  rw [List.cons_append] at unsigned
  rw [numberLength_cons, numberLength_cons, unsignedLength_append rest ends, unsigned]

theorem numberLength_le (c : Char) (rest : List Char) :
    numberLength (c :: rest) ≤ (c :: rest).length := by
  have signed := unsignedLength_le rest
  have unsigned := unsignedLength_le (c :: rest)
  rw [List.length_cons] at unsigned ⊢
  rw [numberLength_cons]
  split <;> omega

def startsUnsigned : List Char → Bool
  | '.' :: d :: _ => d.isDigit
  | d :: _ => d.isDigit
  | [] => false

theorem startsNumber_cons (c : Char) (rest : List Char) :
    startsNumber (c :: rest) = if c = '-' then startsUnsigned rest else startsUnsigned (c :: rest) := by
  by_cases isMinus : c = '-'
  · subst isMinus
    rfl
  · rw [if_neg isMinus]
    unfold startsNumber
    split
    · exact absurd (List.cons.inj ‹_›).1 isMinus
    · rfl

theorem startsUnsigned_iff (body : List Char) :
    startsUnsigned body = true ↔ 0 < unsignedLength body := by
  have ofPoint : ∀ rest, unsignedLength ('.' :: rest) = fractionLength ('.' :: rest) := by
    intro rest
    exact Nat.zero_add _
  unfold startsUnsigned
  split
  · rename_i d more
    rw [ofPoint, fractionLength]
    cases d.isDigit with
    | true => simp only [if_true, true_iff]; omega
    | false => simp
  · rename_i d rest noFraction
    by_cases isDigit : d.isDigit = true
    · rw [unsignedLength, List.takeWhile_cons_of_pos isDigit, List.length_cons]
      simp only [isDigit, true_iff]
      omega
    · rw [unsignedLength, List.takeWhile_cons_of_neg isDigit, List.dropWhile_cons_of_neg isDigit]
      unfold fractionLength
      split
      · rename_i d' more shape
        exact absurd (List.cons.inj shape).2 (noFraction _ _ (List.cons.inj shape).1)
      · simp [isDigit]
  · simp [unsignedLength, fractionLength]

theorem startsNumber_append (c : Char) (rest : List Char) (ends : EndsWord after) :
    startsNumber (c :: (rest ++ after)) = startsNumber (c :: rest) := by
  have same : ∀ body, startsUnsigned (body ++ after) = startsUnsigned body := by
    intro body
    rw [Bool.eq_iff_iff, startsUnsigned_iff, startsUnsigned_iff, unsignedLength_append body ends]
  have unsigned := same (c :: rest)
  rw [List.cons_append] at unsigned
  rw [startsNumber_cons, startsNumber_cons, same rest, unsigned]

theorem isNumberToken_append (c : Char) (rest : List Char) (ends : EndsWord after) :
    isNumberToken c (rest ++ after) = isNumberToken c rest := by
  have atMost := numberLength_le c rest
  rw [List.length_cons] at atMost
  have next : ((rest ++ after).drop (numberLength (c :: rest) - 1)).head?.any isNameCharacter
      = (rest.drop (numberLength (c :: rest) - 1)).head?.any isNameCharacter := by
    rw [List.drop_append_of_le_length (by omega)]
    cases rest.drop (numberLength (c :: rest) - 1) with
    | nil => exact ends.endsName
    | cons _ _ => rfl
  rw [isNumberToken, isNumberToken, startsNumber_append c rest ends,
    numberLength_append c rest ends, next]

/-! ### Numerals -/

/-- A numeral, `-?[0-9]+` or `-?[0-9]*.[0-9]+`, and the number that it denotes. -/
inductive IsNumeral : List Char → Double → Prop where
  | intro (negative : Bool) {whole fraction : List Char} :
      whole ++ fraction ≠ [] → whole.all Char.isDigit = true → fraction.all Char.isDigit = true →
        IsNumeral (if negative then '-' :: decimalText whole fraction else decimalText whole fraction)
          (.ofDecimal negative (digitsValue 0 (whole ++ fraction)) (-(fraction.length : Int)))

theorem IsNumeral.read? {text : List Char} {value : Double} (isNumeral : IsNumeral text value) :
    Double.read? text = some value := by
  obtain ⟨negative, nonempty, wholeDigits, fractionDigits⟩ := isNumeral
  exact Double.read?_decimalText nonempty wholeDigits fractionDigits negative

/-- What the lexer takes for a numeral without a sign is digits, and digits after a point. -/
theorem exists_decimalText {body : List Char} (starts : 0 < unsignedLength body) :
    ∃ whole fraction, whole ++ fraction ≠ [] ∧ whole.all Char.isDigit = true ∧
      fraction.all Char.isDigit = true ∧ body.take (unsignedLength body) = decimalText whole fraction := by
  have shape := List.takeWhile_append_dropWhile (p := Char.isDigit) (l := body)
  have wholeDigits : (body.takeWhile Char.isDigit).all Char.isDigit = true := List.all_takeWhile
  unfold unsignedLength at starts ⊢
  generalize body.takeWhile Char.isDigit = whole at starts shape wholeDigits ⊢
  generalize body.dropWhile Char.isDigit = left at starts shape ⊢
  subst shape
  rw [List.take_length_add_append]
  unfold fractionLength at starts ⊢
  split at starts
  · rename_i d more
    by_cases isDigit : d.isDigit = true
    · refine ⟨whole, d :: more.takeWhile Char.isDigit, by simp, wholeDigits, ?_, ?_⟩
      · rw [List.all_cons, isDigit, List.all_takeWhile]
        rfl
      · rw [if_pos isDigit, decimalText_of_ne_nil whole (List.cons_ne_nil _ _), Nat.add_comm 2]
        have further : more.take (more.takeWhile Char.isDigit).length = more.takeWhile Char.isDigit :=
          (List.prefix_iff_eq_take.mp (List.takeWhile_prefix _)).symm
        rw [List.take_succ_cons, List.take_succ_cons, further]
    · rw [if_neg isDigit] at starts
      refine ⟨whole, [], ?_, wholeDigits, rfl, ?_⟩
      · intro isNil
        rw [List.append_nil] at isNil
        rw [isNil] at starts
        exact absurd starts (Nat.lt_irrefl 0)
      · rw [if_neg isDigit, decimalText_nil, List.take_zero, List.append_nil]
  · refine ⟨whole, [], ?_, wholeDigits, rfl, ?_⟩
    · intro isNil
      rw [List.append_nil] at isNil
      rw [isNil] at starts
      exact absurd starts (Nat.lt_irrefl 0)
    · rw [decimalText_nil, List.take_zero, List.append_nil]

theorem numberLength_pos {c : Char} {rest : List Char} (starts : startsNumber (c :: rest) = true) :
    0 < numberLength (c :: rest) := by
  rw [startsNumber_cons] at starts
  rw [numberLength_cons]
  split
  · omega
  · rename_i noMinus
    rw [if_neg noMinus, startsUnsigned_iff] at starts
    exact starts

/-- Where the lexer decides for a numeral, it takes one. -/
theorem exists_isNumeral {c : Char} {rest : List Char} (starts : startsNumber (c :: rest) = true) :
    ∃ value, IsNumeral (c :: rest.take (numberLength (c :: rest) - 1)) value := by
  rw [startsNumber_cons] at starts
  rw [numberLength_cons]
  by_cases isMinus : c = '-'
  · subst isMinus
    rw [if_pos rfl, startsUnsigned_iff] at starts
    obtain ⟨whole, fraction, nonempty, wholeDigits, fractionDigits, shape⟩ := exists_decimalText starts
    rw [if_pos rfl, Nat.add_sub_cancel_left, shape]
    exact ⟨_, .intro true nonempty wholeDigits fractionDigits⟩
  · rw [if_neg isMinus, startsUnsigned_iff] at starts
    obtain ⟨whole, fraction, nonempty, wholeDigits, fractionDigits, shape⟩ := exists_decimalText starts
    obtain ⟨length, isLength⟩ := Nat.exists_eq_add_one.mpr starts
    rw [isLength, List.take_succ_cons] at shape
    rw [if_neg isMinus, isLength, Nat.add_sub_cancel, shape]
    exact ⟨_, .intro false nonempty wholeDigits fractionDigits⟩

/-- Where the lexer decides for a numeral, it reads it. -/
theorem exists_scanNumber (position : Nat) {c : Char} {rest : List Char} (starts : startsNumber (c :: rest) = true) :
    ∃ scan, scanNumber position c rest = .ok scan := by
  obtain ⟨value, isNumeral⟩ := exists_isNumeral starts
  unfold scanNumber
  simp only
  split
  · exact ⟨_, rfl⟩
  · rename_i unread
    rw [isNumeral.read?] at unread
    contradiction

/-- No numeral without a sign that a text begins with is longer than the one that the lexer takes. -/
theorem length_decimalText_le {whole fraction : List Char} (wholeDigits : whole.all Char.isDigit = true)
    (fractionDigits : fraction.all Char.isDigit = true) (after : List Char) :
    (decimalText whole fraction).length ≤ unsignedLength (decimalText whole fraction ++ after) := by
  cases fraction with
  | nil =>
      rw [decimalText_nil, unsignedLength, List.takeWhile_append_of_pos (List.all_eq_true.mp wholeDigits),
        List.length_append]
      omega
  | cons d more =>
      rw [List.all_cons, Bool.and_eq_true] at fractionDigits
      have stops : ('.' :: d :: (more ++ after)).head?.any Char.isDigit = false := rfl
      have shape : decimalText whole (d :: more) ++ after = whole ++ '.' :: d :: (more ++ after) := by
        rw [decimalText_of_ne_nil whole (List.cons_ne_nil d more), List.append_assoc]
        rfl
      have goesOn : more.length ≤ ((more ++ after).takeWhile Char.isDigit).length := by
        rw [List.takeWhile_append_of_pos (List.all_eq_true.mp fractionDigits.2), List.length_append]
        omega
      rw [shape, unsignedLength, Text.takeWhile_of_run wholeDigits stops,
        Text.dropWhile_of_run wholeDigits stops, fractionLength, if_pos fractionDigits.1,
        decimalText_of_ne_nil whole (List.cons_ne_nil d more)]
      simp only [List.length_append, List.length_cons]
      omega

/-- The lexer decides for a numeral wherever a text begins with one, and takes the longest. -/
theorem IsNumeral.length_le {numeral text : List Char} {value : Double} (isNumeral : IsNumeral numeral value)
    (begins : numeral <+: text) : startsNumber text = true ∧ numeral.length ≤ numberLength text := by
  obtain ⟨after, rfl⟩ := begins
  obtain @⟨negative, whole, fraction, nonempty, wholeDigits, fractionDigits⟩ := isNumeral
  have atMost := length_decimalText_le wholeDigits fractionDigits after
  obtain ⟨first, rest, shape, starts⟩ := Double.decimalText_head nonempty wholeDigits
  rw [shape, List.length_cons, List.cons_append] at atMost
  cases negative with
  | true =>
      simp only [if_true, shape, List.cons_append]
      rw [startsNumber_cons, numberLength_cons, if_pos rfl, if_pos rfl, startsUnsigned_iff]
      simp only [List.length_cons]
      omega
  | false =>
      have noMinus : first ≠ '-' := by
        rintro rfl
        contradiction
      simp only [Bool.false_eq_true, if_false, shape, List.cons_append]
      rw [startsNumber_cons, numberLength_cons, if_neg noMinus, if_neg noMinus, startsUnsigned_iff]
      simp only [List.length_cons]
      omega

/-! ### Numerals after an operator -/

theorem IsNumeral.ne_nil {numeral : List Char} {value : Double} (isNumeral : IsNumeral numeral value) :
    numeral ≠ [] := by
  rintro rfl
  have starts := (isNumeral.length_le (List.prefix_refl [])).1
  contradiction

theorem first_of_startsNumber {c : Char} {rest : List Char} (starts : startsNumber (c :: rest) = true) :
    c.isDigit = true ∨ c = '-' ∨ c = '.' := by
  rw [startsNumber_cons] at starts
  split at starts
  · rename_i isMinus
    exact .inr (.inl isMinus)
  · unfold startsUnsigned at starts
    split at starts
    · rename_i shape
      exact .inr (.inr (List.cons.inj shape).1)
    · rename_i shape
      rw [(List.cons.inj shape).1]
      exact .inl starts
    · contradiction

theorem ne_of_startsNumber {c other : Char} {rest : List Char} (starts : startsNumber (c :: rest) = true)
    (noDigit : other.isDigit = false) (noMinus : other ≠ '-') (noPoint : other ≠ '.') : c ≠ other := by
  rintro rfl
  rcases first_of_startsNumber starts with isDigit | isMinus | isPoint
  · rw [isDigit] at noDigit
    contradiction
  · exact noMinus isMinus
  · exact noPoint isPoint

theorem noLayout_of_startsNumber {c : Char} {rest : List Char} (starts : startsNumber (c :: rest) = true) :
    Text.isLayout c = false := by
  rcases first_of_startsNumber starts with isDigit | rfl | rfl
  · exact LexerMode.noLayout_of_isNameCharacter (LexerMode.isNameCharacter_of_isDigit isDigit)
  · rfl
  · rfl

/-- No other operand begins as a number does. -/
theorem scanOperand_number {c : Char} {rest : List Char} (isToken : isNumberToken c rest = true) (position : Nat) :
    scanOperand position c rest = scanNumber position c rest := by
  have starts := (Bool.and_eq_true_iff.mp isToken).1
  have noQuote : ¬(c = '"' ∨ c = '\'') := by
    rintro (isQuote | isQuote)
    · exact ne_of_startsNumber starts rfl (by decide) (by decide) isQuote
    · exact ne_of_startsNumber starts rfl (by decide) (by decide) isQuote
  have noSlash : c ≠ '/' := ne_of_startsNumber starts rfl (by decide) (by decide)
  have noType : ¬typeOpening.isPrefixOf (c :: rest) = true := by
    intro opens
    have isT := (List.cons_prefix_cons.mp (List.isPrefixOf_iff_prefix.mp opens)).1
    exact ne_of_startsNumber starts rfl (by decide) (by decide) isT.symm
  rw [scanOperand, if_neg noQuote, if_neg noSlash, if_neg noType, if_pos isToken]

/-- A numeral is a number where no numeral and no name goes on. -/
theorem scans_numeral {numeral : List Char} {value : Double} (isNumeral : IsNumeral numeral value)
    (taken : numberLength (numeral ++ after) = numeral.length) (ends : LexerMode.EndsName after) :
    LexerMode.operand.Scans (numeral ++ after) (.number value) after := by
  have starts := (isNumeral.length_le (List.prefix_append numeral after)).1
  have read := isNumeral.read?
  obtain ⟨c, rest, rfl⟩ := List.exists_cons_of_ne_nil isNumeral.ne_nil
  rw [List.cons_append] at starts taken ⊢
  have length : numberLength (c :: (rest ++ after)) - 1 = rest.length := by
    rw [taken]
    rfl
  have left : (rest ++ after).drop (numberLength (c :: (rest ++ after)) - 1) = after := by
    rw [length, List.drop_left]
  have isToken : isNumberToken c (rest ++ after) = true := by
    rw [isNumberToken, left, starts, ends, Bool.and_false]
    rfl
  refine ⟨c, rest ++ after, rfl, fun _ => noLayout_of_startsNumber starts, fun position => ?_⟩
  show ∃ scan, scanOperand position c (rest ++ after) = .ok scan ∧ _
  rw [scanOperand_number isToken]
  unfold scanNumber
  simp only
  split
  · rename_i value' read'
    rw [length, List.take_left, read] at read'
    obtain rfl := Option.some.inj read'
    exact ⟨_, rfl, rfl, left⟩
  · rename_i unread
    rw [length, List.take_left, read] at unread
    contradiction

/-! ### Numbers as they are written -/

/-- A numeral is taken whole where a word ends. -/
theorem IsNumeral.numberLength_append {numeral : List Char} {value : Double} (isNumeral : IsNumeral numeral value)
    (ends : EndsWord after) : numberLength (numeral ++ after) = numeral.length := by
  have atLeast := (isNumeral.length_le (List.prefix_refl numeral)).2
  obtain ⟨c, rest, rfl⟩ := List.exists_cons_of_ne_nil isNumeral.ne_nil
  have atMost := numberLength_le c rest
  rw [List.cons_append, TreeLint.numberLength_append c rest ends]
  omega

/-- The text of a finite number is a numeral for it. -/
theorem isNumeral_render {value : Double} (finite : value.isFinite = true) : IsNumeral value.render value := by
  obtain ⟨negative, text, m, rfl, isDecimal, isText⟩ := Double.render_shape finite
  obtain @⟨whole, fraction, nonempty, wholeDigits, fractionDigits⟩ := isDecimal
  rw [isText]
  exact .intro negative (List.append_ne_nil_of_left_ne_nil nonempty fraction) wholeDigits fractionDigits

/-- The text of a finite number is a number where a word ends. -/
theorem scans_number {value : Double} (finite : value.isFinite = true) (ends : EndsWord after) :
    LexerMode.operand.Scans (value.render ++ after) (.number value) after := by
  have isNumeral := isNumeral_render finite
  exact scans_numeral isNumeral (isNumeral.numberLength_append ends) ends.endsName

end TreeLint
