import TreeLint.Proofs.Number.Rounding
import TreeLint.Proofs.Text.Runs

/-!
Contract: the text of a number reads back to the number.

Owns:
- the shortest decimal of a magnitude, which is rounded to the magnitude again;
- the shape of positional text: digits, and digits after a point if there are any;
- the round trip of every finite number, negative zero included.
-/

set_option autoImplicit false

namespace TreeLint

namespace Magnitude

/-! ### The shortest decimal -/

theorem ofDecimal_mul_ten (digits : Nat) (power : Int) :
    ofDecimal (digits * 10) power = ofDecimal digits (power + 1) := by
  rw [ofDecimal_eq_nearest, ofDecimal_eq_nearest]
  apply nearest_congr (by positivity) (by positivity)
  rcases Int.le_total 0 power with nonneg | nonpos
  · rw [show (-power).toNat = 0 by omega, show (-(power + 1)).toNat = 0 by omega,
      show (power + 1).toNat = power.toNat + 1 by omega]
    ring
  · by_cases isZero : power = 0
    · subst isZero
      simp
    · rw [show power.toNat = 0 by omega, show (power + 1).toNat = 0 by omega,
        show (-power).toNat = (-(power + 1)).toNat + 1 by omega]
      ring

/-- Moving trailing zeros into the power of ten does not change the number. -/
theorem ofDecimal_dropZeros :
    ∀ (steps digits : Nat) (power : Int),
      ofDecimal (dropZeros steps digits power).1 (dropZeros steps digits power).2
        = ofDecimal digits power
  | 0, _, _ => rfl
  | steps + 1, digits, power => by
      rw [dropZeros]
      split
      · rename_i divisible
        simp only [Bool.and_eq_true, decide_eq_true_eq] at divisible
        rw [ofDecimal_dropZeros steps, ← ofDecimal_mul_ten,
          Nat.div_mul_cancel (Nat.dvd_of_mod_eq_zero divisible.1)]
      · rfl

theorem ofDecimal_of_onGrid? {m : Magnitude} {grid : Int} {digits : Nat}
    (found : m.onGrid? grid = some digits) : ofDecimal digits grid = m := by
  unfold onGrid? at found
  simp only [Bool.and_eq_true, beq_iff_eq] at found
  split at found
  · rename_i both
    split at found
    · rw [← Option.some.inj found]
      exact both.1
    · rw [← Option.some.inj found]
      exact both.2
  · split at found
    · rename_i reads
      rw [← Option.some.inj found]
      exact reads
    · split at found
      · rename_i reads
        rw [← Option.some.inj found]
        exact reads
      · simp at found

theorem ofDecimal_of_searchGrids {m : Magnitude} {scale : Int} {found : Nat × Int} :
    ∀ {steps taken : Nat}, m.searchGrids scale steps taken = some found →
      ofDecimal found.1 found.2 = m
  | 0, _, isFound => by simp [searchGrids] at isFound
  | steps + 1, taken, isFound => by
      rw [searchGrids] at isFound
      split at isFound
      · rename_i onGrid
        rw [← Option.some.inj isFound]
        exact ofDecimal_of_onGrid? onGrid
      · exact ofDecimal_of_searchGrids isFound

theorem ofDecimal_exactDecimal (m : Magnitude) :
    ofDecimal m.exactDecimal.1 m.exactDecimal.2 = m := by
  refine Eq.trans ?_ (nearest_exact m)
  rw [ofDecimal_eq_nearest]
  apply nearest_congr (by positivity) (denominator_pos m).ne'
  unfold exactDecimal denominator numerator powerUp
  split
  · rename_i negative
    rw [show m.exponent.toNat = 0 by omega]
    calc m.significand * 5 ^ (-m.exponent).toNat * 10 ^ 0 * 2 ^ (-m.exponent).toNat
        = m.significand * (5 * 2) ^ (-m.exponent).toNat := by rw [mul_pow]; ring
      _ = m.significand * 2 ^ 0 * 10 ^ (-m.exponent).toNat := by norm_num
  · rename_i nonneg
    rw [show (-m.exponent).toNat = 0 by omega]
    simp

/-- The shortest decimal of a magnitude is rounded to the magnitude. -/
theorem ofDecimal_shortest (m : Magnitude) : ofDecimal m.shortest.1 m.shortest.2 = m := by
  unfold shortest
  split
  · rename_i isZero
    obtain rfl : m = 0 := Fin.ext isZero
    rfl
  · rw [ofDecimal_dropZeros]
    cases isFound : m.searchGrids m.decimalScale 17 1 with
    | none => exact ofDecimal_exactDecimal m
    | some found => exact ofDecimal_of_searchGrids isFound

end Magnitude

/-! ### Positional text -/

theorem digitsValue_eq (digits : List Char) :
    ∀ acc, digitsValue acc digits = Nat.ofDigitChars 10 digits acc := by
  induction digits with
  | nil =>
      intro acc
      exact Nat.ofDigitChars_nil.symm
  | cons c rest inductionHypothesis =>
      intro acc
      unfold digitsValue
      rw [inductionHypothesis, Nat.ofDigitChars_cons, Nat.mul_comm acc 10]

/-- Digits, and digits after a point if there are any. -/
def decimalText (whole fraction : List Char) : List Char :=
  whole ++ if fraction = [] then [] else '.' :: fraction

/-- The text is a decimal without a sign, which denotes the magnitude. -/
inductive IsDecimal : List Char → Magnitude → Prop where
  | intro {whole fraction : List Char} :
      whole ≠ [] → whole.all Char.isDigit = true → fraction.all Char.isDigit = true →
      IsDecimal (decimalText whole fraction)
        (Magnitude.ofDecimal (digitsValue 0 (whole ++ fraction)) (-(fraction.length : Int)))

theorem decimalText_nil (whole : List Char) : decimalText whole [] = whole := by
  rw [decimalText, if_pos rfl, List.append_nil]

theorem decimalText_of_ne_nil (whole : List Char) {fraction : List Char} (nonempty : fraction ≠ []) :
    decimalText whole fraction = whole ++ '.' :: fraction := by
  rw [decimalText, if_neg nonempty]

theorem IsDecimal.of_digits {whole fraction : List Char} {digits : Nat} {power : Int}
    (nonempty : whole ≠ []) (areDigits : (whole ++ fraction).all Char.isDigit = true)
    (read : Nat.ofDigitChars 10 (whole ++ fraction) 0 = digits)
    (places : -(fraction.length : Int) = power) :
    IsDecimal (decimalText whole fraction) (Magnitude.ofDecimal digits power) := by
  rw [List.all_append, Bool.and_eq_true] at areDigits
  have shape := IsDecimal.intro nonempty areDigits.1 areDigits.2
  rwa [digitsValue_eq, read, places] at shape

section Positional

variable {digits : Nat}

theorem all_isDigit_decimalDigits : (decimalDigits digits).all Char.isDigit = true :=
  List.all_eq_true.mpr fun _ member => Nat.isDigit_of_mem_toDigits (by decide) (by decide) member

theorem all_isDigit_zeros (count : Nat) : (List.replicate count '0').all Char.isDigit = true := by
  simp [Char.isDigit]

theorem decimalDigits_ne_nil : decimalDigits digits ≠ [] := Nat.toDigits_ne_nil

theorem ofDigitChars_decimalDigits : Nat.ofDigitChars 10 (decimalDigits digits) 0 = digits :=
  Nat.ofDigitChars_ten_toDigits

/-- Digits with zeros after them, and no point. -/
theorem isDecimal_whole {power : Int} (whole : 0 ≤ power) :
    IsDecimal (decimalDigits digits ++ List.replicate power.toNat '0')
      (Magnitude.ofDecimal digits power) := by
  have scaled : Magnitude.ofDecimal digits power
      = Magnitude.ofDecimal (digits * 10 ^ power.toNat) 0 := by
    rw [Magnitude.ofDecimal_eq_nearest, Magnitude.ofDecimal_eq_nearest,
      show (-power).toNat = 0 by omega]
    simp
  rw [scaled, ← decimalText_nil (decimalDigits digits ++ List.replicate power.toNat '0')]
  refine .of_digits (List.append_ne_nil_of_left_ne_nil decimalDigits_ne_nil _) ?_ ?_ rfl
  · rw [List.append_nil, List.all_append, all_isDigit_decimalDigits, all_isDigit_zeros,
      Bool.true_and]
  · rw [List.append_nil, Nat.ofDigitChars_append, ofDigitChars_decimalDigits,
      Nat.ofDigitChars_replicate_zero, Nat.mul_comm]

theorem isDecimal_short {places : Nat} (short : (decimalDigits digits).length ≤ places) :
    IsDecimal ('0' :: '.' ::
        (List.replicate (places - (decimalDigits digits).length) '0' ++ decimalDigits digits))
      (Magnitude.ofDecimal digits (-places)) := by
  have nonempty : List.replicate (places - (decimalDigits digits).length) '0' ++ decimalDigits digits
      ≠ [] := List.append_ne_nil_of_right_ne_nil _ decimalDigits_ne_nil
  have isText := decimalText_of_ne_nil ['0'] nonempty
  rw [List.singleton_append] at isText
  rw [← isText]
  refine .of_digits (List.cons_ne_nil _ _) ?_ ?_ ?_
  · rw [List.singleton_append, List.all_cons, List.all_append, all_isDigit_decimalDigits,
      all_isDigit_zeros]
    rfl
  · rw [List.singleton_append, Nat.ofDigitChars_cons, Nat.ofDigitChars_append,
      Nat.ofDigitChars_replicate_zero]
    exact ofDigitChars_decimalDigits
  · rw [List.length_append, List.length_replicate]
    omega

theorem isDecimal_long {places : Nat} (positive : 0 < places)
    (long : places < (decimalDigits digits).length) :
    IsDecimal ((decimalDigits digits).take ((decimalDigits digits).length - places) ++
        '.' :: (decimalDigits digits).drop ((decimalDigits digits).length - places))
      (Magnitude.ofDecimal digits (-places)) := by
  have wholeNonempty : (decimalDigits digits).take ((decimalDigits digits).length - places) ≠ [] := by
    intro isNil
    have noLength := congrArg List.length isNil
    rw [List.length_take, List.length_nil] at noLength
    omega
  have fractionNonempty :
      (decimalDigits digits).drop ((decimalDigits digits).length - places) ≠ [] := by
    intro isNil
    have noLength := congrArg List.length isNil
    rw [List.length_drop, List.length_nil] at noLength
    omega
  rw [← decimalText_of_ne_nil _ fractionNonempty]
  refine .of_digits wholeNonempty ?_ ?_ ?_
  · rw [List.take_append_drop]
    exact all_isDigit_decimalDigits
  · rw [List.take_append_drop]
    exact ofDigitChars_decimalDigits
  · rw [List.length_drop]
    omega

theorem isDecimal_positional (digits : Nat) (power : Int) :
    IsDecimal (Magnitude.positional digits power) (Magnitude.ofDecimal digits power) := by
  unfold Magnitude.positional
  simp only
  split
  · rename_i whole
    exact isDecimal_whole whole
  · rename_i fractional
    have places : power = -((-power).toNat : Int) := by omega
    split
    · rename_i short
      have isDecimal := isDecimal_short short
      rwa [← places] at isDecimal
    · rename_i long
      have positive : 0 < (-power).toNat := by omega
      have isDecimal := isDecimal_long positive (Nat.lt_of_not_le long)
      rwa [← places] at isDecimal

end Positional

/-! ### Reading -/

namespace Double

def isFinite : Double → Bool
  | .nan => false
  | .signed _ magnitude => magnitude != Magnitude.infinity

theorem same_self {x : Double} (finite : x.isFinite = true) : x.same x = true := by
  cases x with
  | nan => exact Bool.noConfusion finite
  | signed negative magnitude => simp [same, order?, rank]

theorem toLower_of_isDigit {c : Char} (isDigit : c.isDigit = true) : c.toLower = c := by
  unfold Char.toLower
  rw [dif_neg]
  intro isUpper
  simp only [Char.isDigit, Bool.and_eq_true, decide_eq_true_eq] at isDigit
  exact absurd (UInt32.le_trans isUpper.1 isDigit.2) (by decide)

/-- A text whose first character has no other lower case is no word with another first character. -/
theorem ofList_toLower_ne {c : Char} {rest : List Char} (same : c.toLower = c) {word : String}
    (differs : word.toList.head? ≠ some c) : String.ofList ((c :: rest).map Char.toLower) ≠ word := by
  rintro rfl
  rw [String.toList_ofList, List.map_cons, same] at differs
  exact differs rfl

theorem signed_of_unsigned? {negative : Bool} {text : List Char} {value : Double}
    (read : unsigned? negative text = some value) :
    ∃ sign magnitude, value = .signed sign magnitude := by
  unfold unsigned? at read
  simp only [Option.ite_none_left_eq_some] at read
  rcases read with ⟨_, isMapped⟩
  obtain ⟨power, _, isValue⟩ := Option.map_eq_some_iff.mp isMapped
  exact ⟨_, _, isValue.symm⟩

/-- A number that begins with a digit or a point is not the word for "not a number". -/
theorem read?_ne_nan {text : List Char} {value : Double} (read : read? text = some value)
    (starts : (splitSign text).2.head?.any (fun c => c.isDigit || c == '.') = true) :
    value ≠ .nan := by
  unfold read? at read
  simp only at read
  split at read
  · obtain rfl := Option.some.inj read
    exact Double.noConfusion
  · obtain rfl := Option.some.inj read
    exact Double.noConfusion
  · rename_i isWord
    cases body : (splitSign text).2 with
    | nil =>
        rw [body] at starts
        exact Bool.noConfusion starts
    | cons c rest =>
        rw [body] at isWord starts
        rw [List.head?_cons, Option.any_some, Bool.or_eq_true, beq_iff_eq] at starts
        rcases starts with isDigit | isPoint
        · refine absurd isWord (ofList_toLower_ne (toLower_of_isDigit isDigit) ?_)
          rintro isFirst
          rw [← Option.some.inj isFirst] at isDigit
          exact absurd isDigit (by decide)
        · subst isPoint
          exact absurd isWord (ofList_toLower_ne rfl (by decide))
  · obtain ⟨negative, magnitude, rfl⟩ := signed_of_unsigned? read
    exact Double.noConfusion

theorem splitSign_decimal {first : Char} {rest : List Char}
    (starts : (first.isDigit || first == '.') = true) (negative : Bool) :
    splitSign (if negative then '-' :: first :: rest else first :: rest) = (negative, first :: rest) := by
  cases negative with
  | true => rfl
  | false =>
      have differs : ∀ sign : Char, (sign.isDigit || sign == '.') = false → first ≠ sign := by
        rintro sign noStart rfl
        rw [starts] at noStart
        exact Bool.noConfusion noStart
      unfold splitSign
      split
      · exact absurd (List.cons.inj ‹_›).1 (differs '-' rfl)
      · exact absurd (List.cons.inj ‹_›).1 (differs '+' rfl)
      · rfl

theorem unsigned?_decimalText {whole fraction : List Char} (nonempty : whole ++ fraction ≠ [])
    (wholeDigits : whole.all Char.isDigit = true) (fractionDigits : fraction.all Char.isDigit = true)
    (negative : Bool) :
    unsigned? negative (decimalText whole fraction)
      = some (ofDecimal negative (digitsValue 0 (whole ++ fraction)) (-(fraction.length : Int))) := by
  have stops : (if fraction = [] then [] else '.' :: fraction).head?.any Char.isDigit = false := by
    split <;> rfl
  unfold unsigned? decimalText
  rw [Text.takeWhile_of_run wholeDigits stops, Text.dropWhile_of_run wholeDigits stops]
  by_cases noFraction : fraction = []
  · subst noFraction
    rw [List.append_nil] at nonempty
    simp [exponent?, nonempty]
  · have atEnd : ([] : List Char).head?.any Char.isDigit = false := rfl
    have allFraction : fraction.takeWhile Char.isDigit = fraction := by
      simpa using Text.takeWhile_of_run fractionDigits atEnd
    have noRest : fraction.dropWhile Char.isDigit = [] := by
      simpa using Text.dropWhile_of_run fractionDigits atEnd
    simp [noFraction, allFraction, noRest, exponent?]

/-- A decimal begins with a digit or a point. -/
theorem decimalText_head {whole fraction : List Char} (nonempty : whole ++ fraction ≠ [])
    (wholeDigits : whole.all Char.isDigit = true) :
    ∃ first rest, decimalText whole fraction = first :: rest ∧
      (first.isDigit || first == '.') = true := by
  cases whole with
  | nil => exact ⟨'.', fraction, decimalText_of_ne_nil [] nonempty, rfl⟩
  | cons first others =>
      refine ⟨first, _, rfl, ?_⟩
      rw [List.all_cons, Bool.and_eq_true] at wholeDigits
      rw [wholeDigits.1, Bool.true_or]

/-- A sign and a decimal read as the number that they denote. -/
theorem read?_decimalText {whole fraction : List Char} (nonempty : whole ++ fraction ≠ [])
    (wholeDigits : whole.all Char.isDigit = true) (fractionDigits : fraction.all Char.isDigit = true)
    (negative : Bool) :
    read? (if negative then '-' :: decimalText whole fraction else decimalText whole fraction)
      = some (ofDecimal negative (digitsValue 0 (whole ++ fraction)) (-(fraction.length : Int))) := by
  have unsigned := unsigned?_decimalText nonempty wholeDigits fractionDigits negative
  obtain ⟨first, rest, shape, starts⟩ := decimalText_head nonempty wholeDigits
  rw [shape] at unsigned ⊢
  have sameCase : first.toLower = first := by
    rcases Bool.or_eq_true_iff.mp starts with isDigit | isPoint
    · exact toLower_of_isDigit isDigit
    · rw [beq_iff_eq.mp isPoint]
      rfl
  have noWord : ∀ word : String, word.toList.head?.any (fun c => c.isDigit || c == '.') = false →
      String.ofList ((first :: rest).map Char.toLower) ≠ word := by
    intro word noStart
    apply ofList_toLower_ne sameCase
    intro isFirst
    rw [isFirst, Option.any_some, starts] at noStart
    exact Bool.noConfusion noStart
  unfold read?
  rw [splitSign_decimal starts]
  simp only
  split
  · rename_i isWord
    exact absurd isWord (noWord _ (by decide))
  · rename_i isWord
    exact absurd isWord (noWord _ (by decide))
  · rename_i isWord
    exact absurd isWord (noWord _ (by decide))
  · exact unsigned

theorem read?_of_isDecimal {text : List Char} {m : Magnitude} (isDecimal : IsDecimal text m)
    (negative : Bool) :
    read? (if negative then '-' :: text else text) = some (.signed negative m) := by
  obtain ⟨nonempty, wholeDigits, fractionDigits⟩ := isDecimal
  exact read?_decimalText (List.append_ne_nil_of_left_ne_nil nonempty _) wholeDigits fractionDigits
    negative

/-- The text of a finite number is a sign and a decimal. -/
theorem render_shape {x : Double} (finite : x.isFinite = true) :
    ∃ negative text m, x = .signed negative m ∧ IsDecimal text m ∧
      x.render = if negative then '-' :: text else text := by
  cases x with
  | nan => exact Bool.noConfusion finite
  | signed negative magnitude =>
      have isDecimal := isDecimal_positional magnitude.shortest.1 magnitude.shortest.2
      rw [Magnitude.ofDecimal_shortest] at isDecimal
      have isFinite : magnitude ≠ Magnitude.infinity := by simpa [Double.isFinite] using finite
      exact ⟨negative, _, magnitude, rfl, isDecimal, by rw [render, if_neg isFinite]⟩

/-- The text of a finite number reads back to the number. -/
theorem read?_render {x : Double} (finite : x.isFinite = true) : read? x.render = some x := by
  obtain ⟨negative, text, m, isSigned, isDecimal, isText⟩ := render_shape finite
  rw [isText, isSigned]
  exact read?_of_isDecimal isDecimal negative

end Double

end TreeLint
