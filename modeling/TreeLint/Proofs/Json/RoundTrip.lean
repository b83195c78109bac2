import TreeLint.Json.Printer
import TreeLint.Proofs.Json.Documents
import TreeLint.Proofs.Number.RoundTrip
import TreeLint.Proofs.Text.Runs

/-!
Contract: written documents read back.

Owns:
- strings: what the printer escapes, the reader takes for the characters that were escaped;
- whole numbers of up to 64 bits, in front of what cannot continue them;
- what each form of a value leaves of a text that begins with it;
- `Json.read?_text`, by which an exact document is read from its text.

Does not own: decimal numbers, which the reader rounds.
-/

set_option autoImplicit false

namespace TreeLint

namespace JsonReader

/-! ### Strings -/

theorem hexQuad?_fourDigits :
    ∀ n < 32, ∃ a b c d, Json.fourDigits n = [a, b, c, d] ∧ hexQuad? a b c d = some n := by
  intro n small
  refine ⟨_, _, _, _, rfl, ?_⟩
  revert n
  decide

/-- An escape of a control character stands for it, whatever follows. -/
theorem stringBody_control {n : Nat} (small : n < 32) (rest : List Char) :
    stringBody ('\\' :: 'u' :: (Json.fourDigits n ++ rest))
      = (stringBody rest).map fun (value, after) => (Char.ofNat n :: value, after) := by
  obtain ⟨a, b, c, d, isFour, quad⟩ := hexQuad?_fourDigits n small
  have notHigh : isHighSurrogate n = false := by
    rw [isHighSurrogate, Bool.and_eq_false_iff, decide_eq_false_iff_not]
    exact .inl (by omega)
  have notLow : isLowSurrogate n = false := by
    rw [isLowSurrogate, Bool.and_eq_false_iff, decide_eq_false_iff_not]
    exact .inl (by omega)
  rw [isFour, stringBody.eq_def]
  split <;> grind

theorem stringBody_escapeChar (c : Char) (rest : List Char) :
    stringBody (Json.escapeChar c ++ rest)
      = (stringBody rest).map fun (value, after) => (c :: value, after) := by
  rw [Json.escapeChar.eq_def]
  split
  iterate 7 simp [stringBody, simpleEscape?]
  rename_i c' noQuote noBackslash _ _ _ _ _
  split
  · rename_i small
    have isControl := stringBody_control small rest
    rwa [Char.ofNat_toNat] at isControl
  · rename_i large
    rw [List.singleton_append, stringBody.eq_def]
    split <;> simp_all

/-- A written string, after its opening quote, is read up to its closing quote. -/
theorem stringBody_escaped (text rest : List Char) :
    stringBody (text.flatMap Json.escapeChar ++ '"' :: rest) = some (text, rest) := by
  induction text with
  | nil => rw [List.flatMap_nil, List.nil_append, stringBody]
  | cons c further inductionHypothesis =>
      rw [List.flatMap_cons, List.append_assoc, stringBody_escapeChar, inductionHypothesis]
      rfl

/-! ### Whole numbers -/

/-- What follows a number does not continue it. -/
def EndsNumber (rest : List Char) : Prop :=
  rest.head?.any (fun c => c.isDigit || c == '.' || c == 'e' || c == 'E') = false

theorem le_digitsValue (acc : Nat) (digits : List Char) : acc ≤ digitsValue acc digits := by
  induction digits generalizing acc with
  | nil => exact Nat.le_refl acc
  | cons c rest inductionHypothesis =>
      have further := inductionHypothesis (acc * 10 + (c.toNat - '0'.toNat))
      have shifted : acc ≤ acc * 10 := Nat.le_mul_of_pos_right acc (by decide)
      unfold digitsValue
      exact (shifted.trans (Nat.le_add_right _ _)).trans further

/-- Digits that denote a number of 64 bits are all taken up. -/
theorem takeDigits_eq {acc taken : Nat} {digits : List Char} (fits : digitsValue acc digits ≤ maxWhole) :
    takeDigits acc taken digits = (digitsValue acc digits, taken + digits.length) := by
  induction digits generalizing acc taken with
  | nil => rfl
  | cons c rest inductionHypothesis =>
      unfold digitsValue at fits
      unfold takeDigits digitsValue
      have small : acc * 10 + (c.toNat - '0'.toNat) ≤ maxWhole := (le_digitsValue _ rest).trans fits
      rw [if_neg (Nat.not_lt.mpr small), inductionHypothesis fits, List.length_cons, Nat.add_assoc,
        Nat.add_comm 1]

theorem head?_toDigits {n : Nat} (positive : 0 < n) : (Nat.toDigits 10 n).head? ≠ some '0' := by
  induction n using Nat.strongRecOn with
  | ind n inductionHypothesis =>
      by_cases small : n < 10
      · have differs : ∀ m < 10, 0 < m → Nat.digitChar m ≠ '0' := by decide
        rw [Nat.toDigits_of_lt_base small, List.head?_singleton]
        exact mt Option.some.inj (differs n small positive)
      · rw [Nat.toDigits_of_base_le (by decide) (Nat.le_of_not_lt small),
          List.head?_append_of_ne_nil _ Nat.toDigits_ne_nil]
        exact inductionHypothesis (n / 10) (by omega) (by omega)

section Digits

variable {n : Nat} {rest : List Char}

theorem EndsNumber.isDigit (ends : EndsNumber rest) : rest.head?.any Char.isDigit = false := by
  cases rest with
  | nil => rfl
  | cons c further => simp_all [EndsNumber]

theorem takeDigits_toDigits (fits : n ≤ maxWhole) :
    takeDigits 0 0 (Nat.toDigits 10 n) = (n, (Nat.toDigits 10 n).length) := by
  have denotes : digitsValue 0 (Nat.toDigits 10 n) = n := by
    rw [digitsValue_eq, Nat.ofDigitChars_ten_toDigits]
  rw [takeDigits_eq (denotes.trans_le fits), denotes, Nat.zero_add]

theorem wholePart?_toDigits (ends : EndsNumber rest) :
    wholePart? (Nat.toDigits 10 n ++ rest) = some (Nat.toDigits 10 n, rest) := by
  have areDigits : (Nat.toDigits 10 n).all Char.isDigit = true := all_isDigit_decimalDigits
  rw [wholePart?, Text.takeWhile_of_run areDigits ends.isDigit, Text.dropWhile_of_run areDigits ends.isDigit]
  split
  · rename_i isEmpty
    exact absurd isEmpty Nat.toDigits_ne_nil
  · rename_i zeroAndMore
    rcases Nat.eq_zero_or_pos n with rfl | positive
    · rw [Nat.toDigits_zero] at zeroAndMore
      cases zeroAndMore
    · exact absurd (congrArg List.head? zeroAndMore) (head?_toDigits positive)
  · rfl

theorem fractionPart?_none (ends : EndsNumber rest) : fractionPart? rest = some (none, rest) := by
  rw [fractionPart?.eq_def]
  split
  · cases ends
  · rfl

theorem exponentPart?_none (ends : EndsNumber rest) : exponentPart? rest = some (none, rest) := by
  cases rest with
  | nil => rfl
  | cons c further =>
      have noExponent : (c == 'e' || c == 'E') = false := by
        simp_all [EndsNumber]
      rw [exponentPart?.eq_def]
      simp only [noExponent, Bool.false_eq_true, if_false]

theorem assemble?_toDigits {negative : Bool} (keeps : KeepsWhole negative n) :
    assemble? negative (Nat.toDigits 10 n) none none = some (.whole negative n) := by
  have isKept : (negative && (n = 0 || maxNegative < n)) = false := by
    cases negative with
    | false => rfl
    | true =>
        have ⟨positive, small⟩ := keeps.2 rfl
        simp [Nat.ne_of_gt positive, Nat.not_lt.mpr small]
  rw [assemble?, takeDigits_toDigits keeps.1]
  simp only [Option.isNone_none, Nat.sub_self, decide_true, Bool.and_self, if_true, isKept,
    Bool.false_eq_true, if_false]

theorem toDigits_cons : ∃ c further, Nat.toDigits 10 n = c :: further ∧ c.isDigit = true := by
  cases shape : Nat.toDigits 10 n with
  | nil => exact absurd shape Nat.toDigits_ne_nil
  | cons c further =>
      refine ⟨c, further, rfl, Nat.isDigit_of_mem_toDigits (b := 10) (n := n) (by decide) (by decide) ?_⟩
      rw [shape]
      exact List.mem_cons_self

/-- A written whole number is read in front of what does not continue it. -/
theorem number?_writeNumber {negative : Bool} (keeps : KeepsWhole negative n) (ends : EndsNumber rest) :
    number? (Json.writeNumber (.whole negative n) ++ rest) = some (.whole negative n, rest) := by
  have parts := wholePart?_toDigits (n := n) ends
  cases negative with
  | true =>
      rw [Json.writeNumber, if_pos rfl, List.append_assoc, List.singleton_append, number?]
      simp only [Option.bind_eq_bind, parts, fractionPart?_none ends, exponentPart?_none ends,
        assemble?_toDigits keeps, Option.bind_some, Option.pure_def]
  | false =>
      obtain ⟨c, further, shape, isDigit⟩ := toDigits_cons (n := n)
      have unsigned : ∀ after, Nat.toDigits 10 n ++ rest = '-' :: after → False := by
        intro after begins
        rw [shape, List.cons_append] at begins
        rw [(List.cons.inj begins).1] at isDigit
        cases isDigit
      rw [Json.writeNumber, if_neg Bool.false_ne_true, List.nil_append, number?]
      · simp only [Option.bind_eq_bind, parts, fractionPart?_none ends, exponentPart?_none ends,
          assemble?_toDigits keeps, Option.bind_some, Option.pure_def]
      · exact unsigned

end Digits

/-! ### Values in front of a rest -/

/-- A reader takes a value off the front of its text and leaves the rest. -/
def Leaves {α : Type} {text : List Char} (read : Option (α × Rest text)) (value : α) (rest : List Char) :
    Prop :=
  ∃ shorter, read = some (value, ⟨rest, shorter⟩)

/-- The text begins as values do: with no blank, and with no closing bracket. -/
def BeginsValue (text : List Char) : Prop :=
  ∃ c further, text = c :: further ∧ Text.isLayout c = false ∧ c ≠ ']' ∧ c ≠ '\x7d'

section Values

variable {room : Nat} {text rest : List Char}

theorem BeginsValue.append (begins : BeginsValue text) (after : List Char) : BeginsValue (text ++ after) := by
  obtain ⟨c, further, rfl, notBlank, notBracket, notBrace⟩ := begins
  exact ⟨c, further ++ after, rfl, notBlank, notBracket, notBrace⟩

theorem BeginsValue.skipBlanks (begins : BeginsValue text) : skipBlanks text = text := by
  obtain ⟨c, further, rfl, notBlank, _, _⟩ := begins
  exact Text.dropWhile_of_head (by simpa using notBlank)

/-- No blank and no bracket is a sign or a digit. -/
theorem beginsValue_of_digit {c : Char} (isSignOrDigit : c = '-' ∨ c.isDigit = true) (further : List Char) :
    BeginsValue (c :: further) := by
  have differs : ∀ other : Char, other ≠ '-' → other.isDigit = false → c ≠ other := by
    rintro other notSign notDigit rfl
    exact isSignOrDigit.elim notSign (ne_true_of_eq_false notDigit)
  have notBlank : Text.isLayout c = false := by
    simp only [Text.isLayout, Bool.or_eq_false_iff, beq_eq_false_iff_ne]
    exact ⟨⟨⟨differs ' ' (by decide) rfl, differs '\t' (by decide) rfl⟩, differs '\n' (by decide) rfl⟩,
      differs '\r' (by decide) rfl⟩
  exact ⟨c, further, rfl, notBlank, differs ']' (by decide) rfl, differs '\x7d' (by decide) rfl⟩

theorem stringRest?_escaped (value : String) (rest : List Char) :
    Leaves (stringRest? (value.toList.flatMap Json.escapeChar ++ '"' :: rest)) value rest := by
  have body := stringBody_escaped value.toList rest
  refine ⟨stringBody_length_lt body, ?_⟩
  rw [stringRest?]
  split
  · rename_i read
    rw [body] at read
    cases read
    simp only [String.ofList_toList]
  · rename_i unread
    rw [body] at unread
    cases unread

theorem value?_null : Leaves (value? room ('n' :: 'u' :: 'l' :: 'l' :: rest)) .null rest := by
  rw [value?]
  exact ⟨_, rfl⟩

theorem value?_true : Leaves (value? room ('t' :: 'r' :: 'u' :: 'e' :: rest)) (.bool true) rest := by
  rw [value?]
  exact ⟨_, rfl⟩

theorem value?_false : Leaves (value? room ('f' :: 'a' :: 'l' :: 's' :: 'e' :: rest)) (.bool false) rest := by
  rw [value?]
  exact ⟨_, rfl⟩

theorem value?_string {value : String} (read : Leaves (stringRest? text) value rest) :
    Leaves (value? room ('"' :: text)) (.string value) rest := by
  obtain ⟨shorter, read⟩ := read
  rw [value?, read]
  exact ⟨_, rfl⟩

theorem value?_emptyArray (closes : skipBlanks text = ']' :: rest) :
    Leaves (value? (room + 1) ('[' :: text)) (.array []) rest := by
  rw [value?]
  split
  · rename_i after inside
    cases closes.symm.trans inside
    exact ⟨_, rfl⟩
  · rename_i isOpen
    exact absurd closes (isOpen rest)

theorem value?_array {inside : List Char} {items : List Json} (begins : skipBlanks text = inside)
    (isOpen : BeginsValue inside) (read : Leaves (items? room inside) items rest) :
    Leaves (value? (room + 1) ('[' :: text)) (.array items) rest := by
  subst begins
  obtain ⟨shorter, read⟩ := read
  rw [value?]
  split
  · rename_i closes
    obtain ⟨c, further, shape, _, notBracket, _⟩ := isOpen
    exact absurd (List.cons.inj (closes.symm.trans shape)).1.symm notBracket
  · rw [read]
    exact ⟨_, rfl⟩

theorem value?_emptyObject (closes : skipBlanks text = '\x7d' :: rest) :
    Leaves (value? (room + 1) ('\x7b' :: text)) (.object []) rest := by
  rw [value?]
  split
  · rename_i after inside
    cases closes.symm.trans inside
    exact ⟨_, rfl⟩
  · rename_i isOpen
    exact absurd closes (isOpen rest)

theorem value?_object {inside : List Char} {members : List (String × Json)}
    (begins : skipBlanks text = inside) (isOpen : BeginsValue inside)
    (read : Leaves (members? room inside) members rest) :
    Leaves (value? (room + 1) ('\x7b' :: text)) (.ofMembers members) rest := by
  subst begins
  obtain ⟨shorter, read⟩ := read
  rw [value?]
  split
  · rename_i closes
    obtain ⟨c, further, shape, _, _, notBrace⟩ := isOpen
    exact absurd (List.cons.inj (closes.symm.trans shape)).1.symm notBrace
  · rw [read]
    exact ⟨_, rfl⟩

theorem items?_last {item : Json} {afterItem : List Char}
    (first : Leaves (value? room text) item afterItem) (closes : skipBlanks afterItem = ']' :: rest) :
    Leaves (items? room text) [item] rest := by
  obtain ⟨shorter, read⟩ := first
  rw [items?, read]
  simp only
  split
  · rename_i after found
    cases closes.symm.trans found
    exact ⟨_, rfl⟩
  · rename_i more found
    cases closes.symm.trans found
  · rename_i other _
    exact absurd closes (other rest)

theorem items?_cons {item : Json} {items : List Json} {afterItem more : List Char}
    (first : Leaves (value? room text) item afterItem) (goesOn : skipBlanks afterItem = ',' :: more)
    (further : Leaves (items? room (skipBlanks more)) items rest) :
    Leaves (items? room text) (item :: items) rest := by
  obtain ⟨shorter, read⟩ := first
  obtain ⟨shorter', readFurther⟩ := further
  rw [items?, read]
  simp only
  split
  · rename_i after found
    cases goesOn.symm.trans found
  · rename_i more' found
    cases goesOn.symm.trans found
    rw [readFurther]
    exact ⟨_, rfl⟩
  · rename_i _ other
    exact absurd goesOn (other more)

/-- A member is read off the front of a text: its key, and its value after a colon. -/
def LeavesMember (room : Nat) (text : List Char) (key : String) (value : Json) (rest : List Char) : Prop :=
  ∃ keyText afterKey afterColon, text = '"' :: keyText ∧ Leaves (stringRest? keyText) key afterKey ∧
    skipBlanks afterKey = ':' :: afterColon ∧ Leaves (value? room (skipBlanks afterColon)) value rest

theorem members?_last {key : String} {value : Json} {afterMember : List Char}
    (first : LeavesMember room text key value afterMember) (closes : skipBlanks afterMember = '\x7d' :: rest) :
    Leaves (members? room text) [(key, value)] rest := by
  obtain ⟨keyText, afterKey, afterColon, rfl, ⟨shorterKey, readKey⟩, colon, shorter, read⟩ := first
  rw [members?, readKey]
  simp only
  split
  · rename_i afterColon' found
    cases colon.symm.trans found
    rw [read]
    simp only
    split
    · rename_i after found'
      cases closes.symm.trans found'
      exact ⟨_, rfl⟩
    · rename_i more found'
      cases closes.symm.trans found'
    · rename_i other _
      exact absurd closes (other rest)
  · rename_i other
    exact absurd colon (other afterColon)

theorem members?_cons {key : String} {value : Json} {members : List (String × Json)}
    {afterMember more : List Char} (first : LeavesMember room text key value afterMember)
    (goesOn : skipBlanks afterMember = ',' :: more)
    (further : Leaves (members? room (skipBlanks more)) members rest) :
    Leaves (members? room text) ((key, value) :: members) rest := by
  obtain ⟨keyText, afterKey, afterColon, rfl, ⟨shorterKey, readKey⟩, colon, shorter, read⟩ := first
  obtain ⟨shorter', readFurther⟩ := further
  rw [members?, readKey]
  simp only
  split
  · rename_i afterColon' found
    cases colon.symm.trans found
    rw [read]
    simp only
    split
    · rename_i after found'
      cases goesOn.symm.trans found'
    · rename_i more' found'
      cases goesOn.symm.trans found'
      rw [readFurther]
      exact ⟨_, rfl⟩
    · rename_i _ other
      exact absurd goesOn (other more)
  · rename_i other
    exact absurd colon (other afterColon)

theorem value?_number {number : JsonNumber} {c : Char} {further : List Char} (shape : text = c :: further)
    (begins : c = '-' ∨ c.isDigit = true) (shorter : rest.length < text.length)
    (read : number? text = some (number, rest)) : Leaves (value? room text) (.number number) rest := by
  subst shape
  refine ⟨shorter, ?_⟩
  have readRest : numberRest? (c :: further) = some (number, ⟨rest, shorter⟩) := by
    rw [numberRest?, read]
    exact dif_pos shorter
  rw [value?, readRest]
  · rfl
  -- No other kind of value begins with a sign or a digit.
  all_goals
    rintro other ⟨⟩
    exact absurd begins (by decide)

end Values

end JsonReader

namespace JsonReader

open Json (write writeItems writeMembers newLine)

section Written

variable (level : Nat) (rest : List Char)

theorem writeString_append (text : String) :
    Json.writeString text ++ rest = '"' :: (text.toList.flatMap Json.escapeChar ++ '"' :: rest) := by
  rw [Json.writeString, List.cons_append, List.append_assoc, List.singleton_append]

theorem write_array_append (item : Json) (items : List Json) :
    write level (.array (item :: items)) ++ rest
      = '[' :: (newLine (level + 1) ++ (write (level + 1) item ++ (writeItems level items ++ rest))) := by
  simp only [write, List.cons_append, List.append_assoc]

theorem writeItems_cons_append (item : Json) (items : List Json) :
    writeItems level (item :: items) ++ rest
      = ',' :: (newLine (level + 1) ++ (write (level + 1) item ++ (writeItems level items ++ rest))) := by
  simp only [writeItems, List.cons_append, List.append_assoc]

theorem write_object_append (key : String) (value : Json) (members : List (String × Json)) :
    write level (.object ((key, value) :: members)) ++ rest
      = '\x7b' :: (newLine (level + 1) ++ (Json.writeString key
          ++ (':' :: ' ' :: (write (level + 1) value ++ (writeMembers level members ++ rest))))) := by
  simp only [write, List.cons_append, List.append_assoc, List.nil_append]

theorem writeMembers_cons_append (key : String) (value : Json) (members : List (String × Json)) :
    writeMembers level ((key, value) :: members) ++ rest
      = ',' :: (newLine (level + 1) ++ (Json.writeString key
          ++ (':' :: ' ' :: (write (level + 1) value ++ (writeMembers level members ++ rest))))) := by
  simp only [writeMembers, List.cons_append, List.append_assoc, List.nil_append]

end Written

section Texts

variable {room level : Nat} {text rest : List Char}

theorem skipBlanks_newLine (level : Nat) (text : List Char) :
    skipBlanks (newLine level ++ text) = skipBlanks text :=
  List.dropWhile_append_of_pos (by simp [newLine, Text.isLayout])

/-- A document is read from its text at any level, in front of what does not continue a number. -/
structure ReadsBack (room : Nat) (document : Json) : Prop where
  begins : ∀ level, BeginsValue (write level document)
  leaves : ∀ level rest, EndsNumber rest → Leaves (value? room (write level document ++ rest)) document rest

theorem items?_write {item : Json} {items : List Json}
    (each : ∀ item' ∈ item :: items, ReadsBack room item') :
    Leaves (items? room (write (level + 1) item ++ (writeItems level items ++ rest))) (item :: items) rest := by
  induction items generalizing item with
  | nil =>
      have first := (each item List.mem_cons_self).leaves (level + 1) (newLine level ++ (']' :: rest)) rfl
      rw [writeItems, List.append_assoc, List.singleton_append]
      exact items?_last first (skipBlanks_newLine level _)
  | cons next further inductionHypothesis =>
      have begins := ((each next (List.mem_cons_of_mem _ List.mem_cons_self)).begins (level + 1)).append
        (writeItems level further ++ rest)
      have onwards := inductionHypothesis fun item' member => each item' (List.mem_cons_of_mem _ member)
      rw [writeItems_cons_append]
      refine items?_cons ((each item List.mem_cons_self).leaves _ _ rfl) rfl ?_
      rwa [skipBlanks_newLine, begins.skipBlanks]

/-- A written member is read in front of what does not continue a number. -/
theorem leavesMember_write {key : String} {value : Json} (reads : ReadsBack room value) (ends : EndsNumber rest) :
    LeavesMember room (Json.writeString key ++ (':' :: ' ' :: (write level value ++ rest))) key value rest := by
  have readKey := stringRest?_escaped key (':' :: ' ' :: (write level value ++ rest))
  have begins : skipBlanks (' ' :: (write level value ++ rest)) = write level value ++ rest :=
    ((reads.begins level).append rest).skipBlanks
  refine ⟨_, _, _, writeString_append _ key, readKey, rfl, ?_⟩
  rw [begins]
  exact reads.leaves level rest ends

theorem members?_write {key : String} {value : Json} {members : List (String × Json)}
    (each : ∀ member ∈ (key, value) :: members, ReadsBack room member.2) :
    Leaves
      (members? room
        (Json.writeString key
          ++ (':' :: ' ' :: (write (level + 1) value ++ (writeMembers level members ++ rest)))))
      ((key, value) :: members) rest := by
  have reads := each (key, value) List.mem_cons_self
  induction members generalizing key value with
  | nil =>
      rw [writeMembers, List.append_assoc, List.singleton_append]
      exact members?_last (leavesMember_write reads rfl) (skipBlanks_newLine level _)
  | cons next further inductionHypothesis =>
      obtain ⟨nextKey, nextValue⟩ := next
      have eachFurther := fun member isMember => each member (List.mem_cons_of_mem _ isMember)
      have onwards := inductionHypothesis eachFurther (eachFurther _ List.mem_cons_self)
      rw [writeMembers_cons_append]
      refine members?_cons (leavesMember_write reads rfl) rfl ?_
      rw [skipBlanks_newLine]
      exact onwards

end Texts

theorem readsBack_whole {room magnitude : Nat} {negative : Bool} (keeps : KeepsWhole negative magnitude) :
    ReadsBack room (.number (.whole negative magnitude)) := by
  obtain ⟨c, further, shape, begins⟩ : ∃ c further, Json.writeNumber (.whole negative magnitude) = c :: further ∧
      (c = '-' ∨ c.isDigit = true) := by
    cases negative with
    | true => exact ⟨'-', _, rfl, .inl rfl⟩
    | false =>
        obtain ⟨c, further, shape, isDigit⟩ := toDigits_cons (n := magnitude)
        exact ⟨c, further, shape, .inr isDigit⟩
  refine ⟨fun level => ?_, fun level rest ends => ?_⟩
  · rw [write, shape]
    exact beginsValue_of_digit begins further
  · rw [write]
    refine value?_number (by rw [shape, List.cons_append]) begins ?_ (number?_writeNumber keeps ends)
    rw [shape, List.length_append, List.length_cons]
    omega

/-- Every exact document is read back. -/
theorem readsBack_of_exact {room : Nat} {document : Json} (isExact : document.Exact room) :
    ReadsBack room document := by
  induction isExact with
  | null => exact ⟨fun _ => ⟨'n', _, rfl, by decide⟩, fun _ _ _ => value?_null⟩
  | bool value =>
      cases value with
      | true => exact ⟨fun _ => ⟨'t', _, rfl, by decide⟩, fun _ _ _ => value?_true⟩
      | false => exact ⟨fun _ => ⟨'f', _, rfl, by decide⟩, fun _ _ _ => value?_false⟩
  | whole keeps => exact readsBack_whole keeps
  | string text =>
      refine ⟨fun _ => ⟨'"', _, rfl, by decide⟩, fun level rest _ => ?_⟩
      rw [write, writeString_append]
      exact value?_string (stringRest?_escaped text rest)
  | @array room items each inductionHypothesis =>
      cases items with
      | nil => exact ⟨fun _ => ⟨'[', _, rfl, by decide⟩, fun _ _ _ => value?_emptyArray rfl⟩
      | cons item further =>
          refine ⟨fun _ => ⟨'[', _, by rw [write]; rfl, by decide⟩, fun level rest _ => ?_⟩
          have begins := ((inductionHypothesis item List.mem_cons_self).begins (level + 1)).append
            (writeItems level further ++ rest)
          rw [write_array_append]
          exact value?_array ((skipBlanks_newLine _ _).trans begins.skipBlanks) begins
            (items?_write inductionHypothesis)
  | @object room members distinct each inductionHypothesis =>
      cases members with
      | nil => exact ⟨fun _ => ⟨'\x7b', _, rfl, by decide⟩, fun _ _ _ => value?_emptyObject rfl⟩
      | cons member further =>
          obtain ⟨key, value⟩ := member
          refine ⟨fun _ => ⟨'\x7b', _, by rw [write]; rfl, by decide⟩, fun level rest _ => ?_⟩
          rw [write_object_append, ← Json.ofMembers_of_nodup distinct]
          have begins : BeginsValue (Json.writeString key
              ++ (':' :: ' ' :: (write (level + 1) value ++ (writeMembers level further ++ rest)))) :=
            ⟨'"', _, writeString_append _ key, by decide⟩
          exact value?_object ((skipBlanks_newLine _ _).trans begins.skipBlanks) begins
            (members?_write inductionHypothesis)

end JsonReader

/-- An exact document is read from its text. -/
theorem Json.read?_text {document : Json} (isExact : document.Exact 127) :
    Json.read? document.text.toList = some document := by
  rw [Json.text, String.toList_ofList]
  have reads := JsonReader.readsBack_of_exact isExact
  have leaves := reads.leaves 0 [] rfl
  rw [List.append_nil, ← (reads.begins 0).skipBlanks] at leaves
  obtain ⟨shorter, read⟩ := leaves
  rw [Json.read?, read]
  rfl

end TreeLint
