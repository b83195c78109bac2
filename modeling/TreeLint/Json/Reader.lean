import TreeLint.Json.Basic
import TreeLint.Text.Blank

/-!
Contract: from the text of a JSON document to its tree.

Owns: `Json.read?`, which follows the JSON grammar to the letter. The text must be a document and nothing else;
blanks are space, tab, line feed and carriage return. There are no comments, no comma stands after the last item,
no number begins with a plus sign or a needless zero, control characters in strings must be escaped, and escaped
surrogates come in pairs.

Where the grammar leaves limits open, these are the usual ones of a reader into 64-bit words. Arrays and objects
may be nested 127 deep. Whole numbers of up to 64 bits are kept exactly, all others are binary64 numbers, and those
that are too large for one are refused. A decimal number is read by its first nineteen or twenty digits, as many as
fit 64 bits, and scaled by a power of ten in one rounded step; powers below the range of numbers are reached in
several steps. So the last digit of a long decimal may differ from that of the nearest number.

Each reader returns what is left of the text with a proof that it is shorter.
-/

set_option autoImplicit false

namespace TreeLint.JsonReader

/-- What is left of a text after something has been read from it. -/
abbrev Rest (text : List Char) := { rest : List Char // rest.length < text.length }

def Rest.widen {text other : List Char} (shorter : other.length ≤ text.length) (rest : Rest other) :
    Rest text :=
  ⟨rest.1, Nat.lt_of_lt_of_le rest.2 shorter⟩

def skipBlanks (text : List Char) : List Char := text.dropWhile Text.isLayout

theorem skipBlanks_length_le (text : List Char) : (skipBlanks text).length ≤ text.length :=
  (List.dropWhile_sublist _).length_le

/-! ### Strings -/

def hexDigit? (c : Char) : Option Nat :=
  if c.isDigit then some (c.toNat - '0'.toNat)
  else if 'a' ≤ c ∧ c ≤ 'f' then some (c.toNat - 'a'.toNat + 10)
  else if 'A' ≤ c ∧ c ≤ 'F' then some (c.toNat - 'A'.toNat + 10)
  else none

def hexQuad? (a b c d : Char) : Option Nat := do
  return (((← hexDigit? a) * 16 + (← hexDigit? b)) * 16 + (← hexDigit? c)) * 16 + (← hexDigit? d)

/-- The character of an escape of two characters. -/
def simpleEscape? : Char → Option Char
  | '"' => some '"'
  | '\\' => some '\\'
  | '/' => some '/'
  | 'b' => some '\x08'
  | 'f' => some '\x0c'
  | 'n' => some '\n'
  | 'r' => some '\r'
  | 't' => some '\t'
  | _ => none

def isHighSurrogate (n : Nat) : Bool := 0xD800 ≤ n && n < 0xDC00

def isLowSurrogate (n : Nat) : Bool := 0xDC00 ≤ n && n < 0xE000

def ofSurrogates (high low : Nat) : Char :=
  Char.ofNat (0x10000 + (high - 0xD800) * 0x400 + (low - 0xDC00))

/-- The rest of a string, up to its closing quote: the characters it stands for, and what follows. -/
def stringBody : List Char → Option (List Char × List Char)
  | [] => none
  | '"' :: rest => some ([], rest)
  | '\\' :: 'u' :: a :: b :: c :: d :: '\\' :: 'u' :: e :: f :: g :: h :: rest =>
      match hexQuad? a b c d with
      | none => none
      | some first =>
          if isHighSurrogate first then
            match hexQuad? e f g h with
            | some second =>
                if isLowSurrogate second then
                  (stringBody rest).map fun (value, after) =>
                    (ofSurrogates first second :: value, after)
                else none
            | none => none
          else if isLowSurrogate first then none
          else
            (stringBody ('\\' :: 'u' :: e :: f :: g :: h :: rest)).map fun (value, after) =>
              (Char.ofNat first :: value, after)
  | '\\' :: 'u' :: a :: b :: c :: d :: rest =>
      match hexQuad? a b c d with
      | none => none
      | some n =>
          if isHighSurrogate n || isLowSurrogate n then none
          else (stringBody rest).map fun (value, after) => (Char.ofNat n :: value, after)
  | '\\' :: c :: rest =>
      match simpleEscape? c with
      | none => none
      | some escaped => (stringBody rest).map fun (value, after) => (escaped :: value, after)
  | c :: rest =>
      if c.toNat < 32 || c == '\\' then none
      else (stringBody rest).map fun (value, after) => (c :: value, after)

theorem stringBody_length_lt {text value after : List Char}
    (read : stringBody text = some (value, after)) : after.length < text.length := by
  fun_induction stringBody text generalizing value after <;>
    simp_all only [Option.map_eq_some_iff, Option.some.injEq, Prod.mk.injEq, Prod.exists,
      reduceCtorEq, List.length_cons] <;>
    grind

/-! ### Numbers -/

/-- The largest whole number of 64 bits. -/
def maxWhole : Nat := UInt64.size - 1

/-- The largest magnitude of a negative whole number of 64 bits. -/
def maxNegative : Nat := UInt64.size / 2

/-- Takes up digits while the number fits 64 bits: the number, and how many digits were taken. -/
def takeDigits : (significand taken : Nat) → List Char → Nat × Nat
  | significand, taken, [] => (significand, taken)
  | significand, taken, c :: rest =>
      let next := significand * 10 + (c.toNat - '0'.toNat)
      if maxWhole < next then (significand, taken) else takeDigits next (taken + 1) rest

/-- `value * 10 ^ exponent` for a negative exponent, in steps of at most 308 decimal places. -/
def scaleDown (value : Magnitude) (exponent : Int) : Magnitude :=
  if exponent < -308 then
    if value = 0 then 0
    else scaleDown (value.div (Magnitude.ofDecimal 1 308)) (exponent + 308)
  else value.div (Magnitude.ofDecimal 1 (-exponent))
termination_by (-exponent).toNat
decreasing_by omega

/-- `significand * 10 ^ exponent`, unless it is too large. -/
def scale? (significand : Nat) (exponent : Int) : Option Magnitude :=
  let value := Magnitude.nearest significand 1
  if exponent < 0 then some (scaleDown value exponent)
  else if 308 < exponent then
    if value = 0 then some 0 else none
  else
    let product := value.mul (Magnitude.ofDecimal 1 exponent)
    if product = Magnitude.infinity then none else some product

/-- The number of a sign, the digits before and after the point, and the exponent. -/
def assemble? (negative : Bool) (whole : List Char) (fraction : Option (List Char))
    (exponent : Option (Bool × List Char)) : Option JsonNumber :=
  let (significand, taken) := takeDigits 0 0 whole
  let dropped := whole.length - taken
  if fraction.isNone && exponent.isNone && dropped = 0 then
    if negative && (significand = 0 || maxNegative < significand) then
      some (.decimal (.signed true (Magnitude.nearest significand 1)))
    else some (.whole negative significand)
  else
    let (significand, places) := takeDigits significand 0 (fraction.getD [])
    let start : Int := dropped - places
    match exponent with
    | none => (scale? significand start).map fun m => .decimal (.signed negative m)
    | some (below, digits) =>
        let value := digitsValue 0 digits
        if Nat.pow 2 31 ≤ value then
          if significand ≠ 0 && !below then none else some (.decimal (.signed negative 0))
        else
          (scale? significand (if below then start - value else start + value)).map fun m =>
            .decimal (.signed negative m)

/-- The digits before the point: a zero, or digits that do not begin with one. -/
def wholePart? (text : List Char) : Option (List Char × List Char) :=
  match text.takeWhile Char.isDigit with
  | [] => none
  | '0' :: _ :: _ => none
  | digits => some (digits, text.dropWhile Char.isDigit)

/-- The digits after the point, if there is one. -/
def fractionPart? (text : List Char) : Option (Option (List Char) × List Char) :=
  match text with
  | '.' :: rest =>
      match rest.takeWhile Char.isDigit with
      | [] => none
      | digits => some (some digits, rest.dropWhile Char.isDigit)
  | _ => some (none, text)

/-- The exponent, if there is one: whether it is negative, and its digits. -/
def exponentPart? (text : List Char) : Option (Option (Bool × List Char) × List Char) :=
  match text with
  | c :: rest =>
      if c == 'e' || c == 'E' then
        let (below, rest) :=
          match rest with
          | '-' :: rest => (true, rest)
          | '+' :: rest => (false, rest)
          | rest => (false, rest)
        match rest.takeWhile Char.isDigit with
        | [] => none
        | digits => some (some (below, digits), rest.dropWhile Char.isDigit)
      else some (none, text)
  | [] => some (none, text)

def number? (text : List Char) : Option (JsonNumber × List Char) := do
  let (negative, body) :=
    match text with
    | '-' :: rest => (true, rest)
    | rest => (false, rest)
  let (whole, rest) ← wholePart? body
  let (fraction, rest) ← fractionPart? rest
  let (exponent, rest) ← exponentPart? rest
  let number ← assemble? negative whole fraction exponent
  return (number, rest)

/-- A number, and what is left, which is shorter. -/
def numberRest? (text : List Char) : Option (JsonNumber × Rest text) :=
  match number? text with
  | some (number, rest) => if shorter : rest.length < text.length then some (number, ⟨rest, shorter⟩) else none
  | none => none

/-! ### Values -/

/-- A string, after its opening quote, and what is left. -/
def stringRest? (text : List Char) : Option (String × Rest text) :=
  match read : stringBody text with
  | some (value, after) => some (String.ofList value, ⟨after, stringBody_length_lt read⟩)
  | none => none

mutual

/-- A value that begins with the first character of the text. `room` is the number of arrays and objects
that may still be opened inside each other. -/
def value? (room : Nat) (text : List Char) : Option (Json × Rest text) :=
  match text with
  | 'n' :: 'u' :: 'l' :: 'l' :: rest => some (.null, ⟨rest, by simp only [List.length_cons]; omega⟩)
  | 't' :: 'r' :: 'u' :: 'e' :: rest =>
      some (.bool true, ⟨rest, by simp only [List.length_cons]; omega⟩)
  | 'f' :: 'a' :: 'l' :: 's' :: 'e' :: rest =>
      some (.bool false, ⟨rest, by simp only [List.length_cons]; omega⟩)
  | '"' :: rest =>
      (stringRest? rest).map fun (value, after) => (.string value, after.widen (by simp))
  | '[' :: rest =>
      match room with
      | 0 => none
      | room + 1 =>
          match _inside : skipBlanks rest with
          | ']' :: after =>
              some (.array [], ⟨after, by
                have := skipBlanks_length_le rest
                rw [_inside] at this
                simp only [List.length_cons] at this ⊢
                omega⟩)
          | inside =>
              (items? room inside).map fun (items, after) =>
                (.array items, after.widen (by
                  have := skipBlanks_length_le rest
                  rw [_inside] at this
                  simp only [List.length_cons]
                  omega))
  | '\x7b' :: rest =>
      match room with
      | 0 => none
      | room + 1 =>
          match _inside : skipBlanks rest with
          | '\x7d' :: after =>
              some (.object [], ⟨after, by
                have := skipBlanks_length_le rest
                rw [_inside] at this
                simp only [List.length_cons] at this ⊢
                omega⟩)
          | inside =>
              (members? room inside).map fun (members, after) =>
                (.ofMembers members, after.widen (by
                  have := skipBlanks_length_le rest
                  rw [_inside] at this
                  simp only [List.length_cons]
                  omega))
  | other => (numberRest? other).map fun (number, after) => (.number number, after)
termination_by (text.length, 0)
decreasing_by
  all_goals
    have := skipBlanks_length_le rest
    rw [_inside] at this
    simp only [List.length_cons]
    apply Prod.Lex.left
    omega

/-- The items of an array, from the first character of the next one to the closing bracket. -/
def items? (room : Nat) (text : List Char) : Option (List Json × Rest text) :=
  match value? room text with
  | none => none
  | some (item, rest) =>
      match _after : skipBlanks rest.1 with
      | ']' :: after =>
          some ([item], ⟨after, by
            have := skipBlanks_length_le rest.1
            have := rest.2
            rw [_after] at *
            simp only [List.length_cons] at *
            omega⟩)
      | ',' :: more =>
          (items? room (skipBlanks more)).map fun (items, after) =>
            (item :: items, after.widen (by
              have := skipBlanks_length_le rest.1
              have := skipBlanks_length_le more
              have := rest.2
              rw [_after] at *
              simp only [List.length_cons] at *
              omega))
      | _ => none
termination_by (text.length, 1)
decreasing_by
  · apply Prod.Lex.right; omega
  · have := skipBlanks_length_le rest.1
    have := skipBlanks_length_le more
    have := rest.2
    rw [_after] at *
    simp only [List.length_cons] at *
    apply Prod.Lex.left
    omega

/-- The members of an object, from the first character of the next key to the closing brace. -/
def members? (room : Nat) (text : List Char) : Option (List (String × Json) × Rest text) :=
  match text with
  | '"' :: keyText =>
      match stringRest? keyText with
      | none => none
      | some (key, afterKey) =>
          match _colon : skipBlanks afterKey.1 with
          | ':' :: afterColon =>
              match value? room (skipBlanks afterColon) with
              | none => none
              | some (value, rest) =>
                  match _after : skipBlanks rest.1 with
                  | '\x7d' :: after =>
                      some ([(key, value)], ⟨after, by
                        have := skipBlanks_length_le afterKey.1
                        have := skipBlanks_length_le afterColon
                        have := skipBlanks_length_le rest.1
                        have := afterKey.2
                        have := rest.2
                        rw [_colon] at *
                        rw [_after] at *
                        simp only [List.length_cons] at *
                        omega⟩)
                  | ',' :: more =>
                      (members? room (skipBlanks more)).map fun (members, after) =>
                        ((key, value) :: members, after.widen (by
                          have := skipBlanks_length_le afterKey.1
                          have := skipBlanks_length_le afterColon
                          have := skipBlanks_length_le rest.1
                          have := skipBlanks_length_le more
                          have := afterKey.2
                          have := rest.2
                          rw [_colon] at *
                          rw [_after] at *
                          simp only [List.length_cons] at *
                          omega))
                  | _ => none
          | _ => none
  | _ => none
termination_by (text.length, 1)
decreasing_by
  · have := skipBlanks_length_le afterKey.1
    have := skipBlanks_length_le afterColon
    have := afterKey.2
    rw [_colon] at *
    simp only [List.length_cons] at *
    apply Prod.Lex.left
    omega
  · have := skipBlanks_length_le afterKey.1
    have := skipBlanks_length_le afterColon
    have := skipBlanks_length_le rest.1
    have := skipBlanks_length_le more
    have := afterKey.2
    have := rest.2
    rw [_colon] at *
    rw [_after] at *
    simp only [List.length_cons] at *
    apply Prod.Lex.left
    omega

end

end TreeLint.JsonReader

namespace TreeLint.Json

open JsonReader in
def read? (text : List Char) : Option Json :=
  match value? 127 (skipBlanks text) with
  | some (document, rest) => if (skipBlanks rest.1).isEmpty then some document else none
  | none => none

end TreeLint.Json
