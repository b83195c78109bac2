/-!
Contract: binary64 numbers as steps on a ladder of magnitudes.

Owns:
- the type `Double`: not a number, or a sign and a magnitude;
- rounding of an exact quotient to the nearest magnitude, ties to the even one;
- comparison, in which nothing is ordered with "not a number" and the two zeros are equal;
- product and quotient of magnitudes, rounded once.

A magnitude is kept as its index among all magnitudes, zero first and infinity last, so that the
order of the numbers is the order of the indexes.
-/

set_option autoImplicit false

namespace TreeLint

/-- An index on the ladder of magnitudes: `0` is zero, `2047 * 2 ^ 52` is infinity. -/
abbrev Magnitude := Fin (2047 * Nat.pow 2 52 + 1)

namespace Magnitude

def infinity : Magnitude := ⟨2047 * Nat.pow 2 52, Nat.lt_succ_self _⟩

/-- The magnitude with the given index; everything past the end is infinity. -/
def clamp (index : Nat) : Magnitude :=
  ⟨min index (2047 * Nat.pow 2 52), by omega⟩

/-- A finite magnitude is `significand * 2 ^ exponent`. -/
def significand (m : Magnitude) : Nat :=
  if m.val < Nat.pow 2 52 then m.val else Nat.pow 2 52 + m.val % Nat.pow 2 52

/-- The power of two that a finite magnitude's significand counts. -/
def exponent (m : Magnitude) : Int :=
  if m.val < Nat.pow 2 52 then -1074 else (m.val / Nat.pow 2 52 : Nat) - 1075

/-- `numerator / denominator` to the nearest whole number, a half to the even neighbour. -/
def divRound (numerator denominator : Nat) : Nat :=
  let quotient := numerator / denominator
  let remainder := numerator % denominator
  if 2 * remainder < denominator then quotient
  else if denominator < 2 * remainder then quotient + 1
  else if quotient % 2 = 0 then quotient
  else quotient + 1

/-- `x * 2 ^ e` for a whole number of doublings, as a numerator factor. -/
def powerUp (e : Int) : Nat := Nat.pow 2 e.toNat

/-- The magnitude nearest to `numerator / denominator`, a tie going to the even significand. -/
def nearest (numerator denominator : Nat) : Magnitude :=
  if numerator = 0 ∨ denominator = 0 then 0
  else
    let scale : Int := (numerator.log2 : Int) - denominator.log2
    let low : Int := max (-1074) (scale - 53)
    let unit : Int :=
      if numerator * powerUp (-low) / (denominator * powerUp low) < Nat.pow 2 53 then low
      else low + 1
    let steps := divRound (numerator * powerUp (-unit)) (denominator * powerUp unit)
    clamp ((unit + 1074).toNat * Nat.pow 2 52 + steps)

def numerator (m : Magnitude) : Nat := m.significand * powerUp m.exponent

def denominator (m : Magnitude) : Nat := powerUp (-m.exponent)

/-- The product of two finite magnitudes, rounded to nearest. -/
def mul (x y : Magnitude) : Magnitude :=
  nearest (x.numerator * y.numerator) (x.denominator * y.denominator)

/-- The quotient of two finite magnitudes, rounded to nearest. -/
def div (x y : Magnitude) : Magnitude :=
  nearest (x.numerator * y.denominator) (x.denominator * y.numerator)

def ofDecimal (digits : Nat) (exponent : Int) : Magnitude :=
  if digits = 0 then 0
  else if 400 < exponent then infinity
  else if exponent < -(400 + digits.log2) then 0
  else nearest (digits * Nat.pow 10 exponent.toNat) (Nat.pow 10 (-exponent).toNat)

end Magnitude

/-- A binary64 number. -/
inductive Double where
  /-- Not a number. -/
  | nan
  /-- A zero, a finite number or an infinity. -/
  | signed (negative : Bool) (magnitude : Magnitude)
  deriving DecidableEq, Repr

namespace Double

def zero : Double := .signed false 0

def one : Double := .signed false (Magnitude.nearest 1 1)

def ofNat (n : Nat) : Double := .signed false (Magnitude.nearest n 1)

def ofDecimal (negative : Bool) (digits : Nat) (exponent : Int) : Double :=
  .signed negative (Magnitude.ofDecimal digits exponent)

/-- The place of a number in the order of numbers; both zeros have the same place. -/
def rank : Double → Option Int
  | .nan => none
  | .signed negative magnitude => some (if negative then -magnitude.val else magnitude.val)

/-- How two numbers compare; nothing compares with "not a number". -/
def order? (x y : Double) : Option Ordering :=
  match x.rank, y.rank with
  | some a, some b => some (compare a b)
  | _, _ => none

/-- Equality as numbers: the two zeros are equal, and "not a number" differs from itself. -/
def same (x y : Double) : Bool := x.order? y == some .eq

def isZero : Double → Bool
  | .nan => false
  | .signed _ magnitude => magnitude == 0

/-- The value of a number that is whole, finite and not below zero. -/
def toNat? : Double → Option Nat
  | .nan => none
  | .signed negative magnitude =>
      if magnitude = 0 then some 0
      else if negative || magnitude == Magnitude.infinity then none
      else if magnitude.numerator % magnitude.denominator = 0 then
        some (magnitude.numerator / magnitude.denominator)
      else none

end Double

end TreeLint
