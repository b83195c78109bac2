import TreeLint.Number.Double

/-!
Contract: numbers as decimal text.

Owns:
- the fewest digits that read back to a number, and among those the nearest to it;
- the positional text of a number: never an exponent, no point on a whole number;
- the reader of decimal text, rounded once.
-/

set_option autoImplicit false

namespace TreeLint

def decimalDigits (n : Nat) : List Char := Nat.toDigits 10 n

/-- The number that a list of decimal digits denotes, read after the digits of `acc`. -/
def digitsValue (acc : Nat) : List Char → Nat
  | [] => acc
  | c :: rest => digitsValue (acc * 10 + (c.toNat - '0'.toNat)) rest

namespace Magnitude

def belowPowerOfTen (m : Magnitude) (power : Int) : Bool :=
  m.numerator * Nat.pow 10 (-power).toNat < Nat.pow 10 power.toNat * m.denominator

/-- The least power of ten above a finite magnitude that is not zero.

A power of two is estimated by `30103 / 100000`, the logarithm of two to five places, and the estimate
corrected by exact comparison. -/
def decimalScale (m : Magnitude) : Int :=
  let estimate : Int := ((m.significand.log2 : Int) + m.exponent) * 30103 / 100000
  if m.belowPowerOfTen estimate then estimate
  else if m.belowPowerOfTen (estimate + 1) then estimate + 1
  else estimate + 2

/-- The better of the two neighbours of the magnitude among the multiples of `10 ^ grid`, if one of
them reads back to it. -/
def onGrid? (m : Magnitude) (grid : Int) : Option Nat :=
  let up := Nat.pow 10 (-grid).toNat
  let down := Nat.pow 10 grid.toNat
  let lower := m.numerator * up / (m.denominator * down)
  let upper := lower + 1
  let lowerReads := ofDecimal lower grid == m
  let upperReads := ofDecimal upper grid == m
  if lowerReads && upperReads then
    if 2 * m.numerator * up ≤ (lower + upper) * (m.denominator * down) then some lower
    else some upper
  else if lowerReads then some lower
  else if upperReads then some upper
  else none

/-- Trailing zeros of the digits, moved into the power of ten. -/
def dropZeros : Nat → Nat → Int → Nat × Int
  | 0, digits, power => (digits, power)
  | steps + 1, digits, power =>
      if digits % 10 = 0 && digits != 0 then dropZeros steps (digits / 10) (power + 1)
      else (digits, power)

/-- Try ever finer grids, from `taken` digits on, for a neighbour that reads back. -/
def searchGrids (m : Magnitude) (scale : Int) : Nat → Nat → Option (Nat × Int)
  | 0, _ => none
  | steps + 1, taken =>
      match m.onGrid? (scale - taken) with
      | some digits => some (digits, scale - taken)
      | none => searchGrids m scale steps (taken + 1)

def exactDecimal (m : Magnitude) : Nat × Int :=
  if m.exponent < 0 then
    (m.significand * Nat.pow 5 (-m.exponent).toNat, m.exponent)
  else (m.numerator, 0)

/-- The fewest decimal digits that read back to a finite magnitude, and their power of ten. Seventeen
digits are always enough; were they not, the exact value would be given. -/
def shortest (m : Magnitude) : Nat × Int :=
  if m.val = 0 then (0, 0)
  else
    let found := (m.searchGrids m.decimalScale 17 1).getD m.exactDecimal
    dropZeros 17 found.1 found.2

/-- The digits of `digits * 10 ^ power` written positionally. -/
def positional (digits : Nat) (power : Int) : List Char :=
  let text := decimalDigits digits
  if 0 ≤ power then text ++ List.replicate power.toNat '0'
  else
    let places := (-power).toNat
    if text.length ≤ places then
      '0' :: '.' :: (List.replicate (places - text.length) '0' ++ text)
    else text.take (text.length - places) ++ '.' :: text.drop (text.length - places)

end Magnitude

namespace Double

/-- The text of a number: its shortest digits, positionally. -/
def render : Double → List Char
  | .nan => ['N', 'a', 'N']
  | .signed negative magnitude =>
      let body :=
        if magnitude = Magnitude.infinity then ['i', 'n', 'f']
        else
          let (digits, power) := magnitude.shortest
          Magnitude.positional digits power
      if negative then '-' :: body else body

def text (x : Double) : String := String.ofList x.render

def splitSign : List Char → Bool × List Char
  | '-' :: rest => (true, rest)
  | '+' :: rest => (false, rest)
  | rest => (false, rest)

/-- The exponent that follows the digits of a decimal: nothing, or `e`, a sign and digits to the end. -/
def exponent? : List Char → Option Int
  | [] => some 0
  | c :: rest =>
      if c == 'e' || c == 'E' then
        let (negative, digits) := splitSign rest
        if digits.isEmpty || !digits.all Char.isDigit then none
        else
          let value : Int := digitsValue 0 digits
          some (if negative then -value else value)
      else none

/-- An unsigned decimal: digits with at most one point, at least one digit, and perhaps an exponent. -/
def unsigned? (negative : Bool) (text : List Char) : Option Double :=
  let whole := text.takeWhile Char.isDigit
  let afterWhole := text.dropWhile Char.isDigit
  let (fraction, rest) :=
    match afterWhole with
    | '.' :: more => (more.takeWhile Char.isDigit, more.dropWhile Char.isDigit)
    | more => ([], more)
  if whole.isEmpty && fraction.isEmpty then none
  else
    (exponent? rest).map fun power =>
      ofDecimal negative (digitsValue 0 (whole ++ fraction)) (power - fraction.length)

/-- Reads a number: an optional sign, then decimal digits with an optional point and exponent, or one of
the words `inf`, `infinity` and `nan` in any case. -/
def read? (text : List Char) : Option Double :=
  let (negative, body) := splitSign text
  match String.ofList (body.map Char.toLower) with
  | "inf" | "infinity" => some (.signed negative Magnitude.infinity)
  | "nan" => some .nan
  | _ => unsigned? negative body

end Double

end TreeLint
