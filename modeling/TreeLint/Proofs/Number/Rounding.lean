import Mathlib.Algebra.Order.Field.Basic
import Mathlib.Algebra.Order.Field.Power
import Mathlib.Algebra.Order.Ring.Rat
import Mathlib.Tactic.Positivity
import Mathlib.Tactic.Ring
import TreeLint.Number.Decimal

/-!
Contract: rounding to the nearest magnitude.

Owns:
- the unit of a quotient, the power of two that its significand counts, and what determines it;
- the law that rounding depends on the quotient alone, and not on the numbers it is a quotient of;
- the law that an exact magnitude is rounded to itself;
- `Magnitude.ofDecimal` without its shortcuts for very large and very small exponents.
-/

set_option autoImplicit false

namespace TreeLint.Magnitude

/-! ### Magnitudes by powers of two -/

theorem val_lt (m : Magnitude) : m.val < 2047 * 2 ^ 52 + 1 := m.isLt

theorem val_clamp (index : Nat) : (clamp index).val = min index (2047 * 2 ^ 52) := rfl

theorem val_infinity : infinity.val = 2047 * 2 ^ 52 := rfl

theorem significand_eq (m : Magnitude) :
    m.significand = if m.val < 2 ^ 52 then m.val else 2 ^ 52 + m.val % 2 ^ 52 := rfl

theorem exponent_eq (m : Magnitude) :
    m.exponent = if m.val < 2 ^ 52 then -1074 else ((m.val / 2 ^ 52 : Nat) : Int) - 1075 := rfl

/-! ### Scaling by a power of two -/

theorem powerUp_pos (e : Int) : 0 < powerUp e := Nat.two_pow_pos _

theorem powerUp_ne_zero (e : Int) : (powerUp e : ℚ) ≠ 0 :=
  Nat.cast_ne_zero.mpr (powerUp_pos e).ne'

/-- The two factors of a scaling make up a power of two. -/
theorem powerUp_eq (e : Int) : (powerUp e : ℚ) = (2 : ℚ) ^ e * powerUp (-e) := by
  rcases Int.le_total 0 e with nonneg | nonpos
  · obtain ⟨k, rfl⟩ := Int.eq_ofNat_of_zero_le nonneg
    simp [powerUp]
  · obtain ⟨k, isNegated⟩ := Int.eq_ofNat_of_zero_le (Int.neg_nonneg.mpr nonpos)
    obtain rfl : e = -(k : Int) := by omega
    simp [powerUp]

theorem scaled_lt_iff {n d bound : Nat} (positive : d ≠ 0) (e : Int) :
    n * powerUp (-e) / (d * powerUp e) < bound ↔ (n : ℚ) / d < bound * (2 : ℚ) ^ e := by
  have denominatorPos : 0 < d * powerUp e :=
    Nat.mul_pos (Nat.pos_of_ne_zero positive) (powerUp_pos e)
  have dPos : (0 : ℚ) < d := Nat.cast_pos.mpr (Nat.pos_of_ne_zero positive)
  have factorPos : (0 : ℚ) < powerUp (-e) := Nat.cast_pos.mpr (powerUp_pos _)
  rw [Nat.div_lt_iff_lt_mul denominatorPos, ← Nat.cast_lt (α := ℚ), div_lt_iff₀ dPos]
  push_cast
  rw [powerUp_eq e]
  constructor
  · intro less
    refine lt_of_mul_lt_mul_right ?_ factorPos.le
    calc (n : ℚ) * powerUp (-e) < bound * (d * (2 ^ e * powerUp (-e))) := less
      _ = bound * 2 ^ e * d * powerUp (-e) := by ring
  · intro less
    calc (n : ℚ) * powerUp (-e) < bound * 2 ^ e * d * powerUp (-e) :=
          mul_lt_mul_of_pos_right less factorPos
      _ = bound * (d * (2 ^ e * powerUp (-e))) := by ring

/-! ### The unit of a quotient -/

/-- The power of two that the significand of the rounded quotient counts. -/
def unit (numerator denominator : Nat) : Int :=
  let scale : Int := (numerator.log2 : Int) - denominator.log2
  let low : Int := max (-1074) (scale - 53)
  if numerator * powerUp (-low) / (denominator * powerUp low) < 2 ^ 53 then low else low + 1

theorem nearest_eq {n d : Nat} (nonzero : n ≠ 0) (positive : d ≠ 0) :
    nearest n d = clamp ((unit n d + 1074).toNat * 2 ^ 52
      + divRound (n * powerUp (-unit n d)) (d * powerUp (unit n d))) := by
  rw [nearest, if_neg (by simp [nonzero, positive])]
  rfl

/-- The unit is the least power of two, from the smallest magnitude on, for which the significand has at
most 53 binary digits. -/
structure IsUnit (quotient : ℚ) (e : Int) : Prop where
  smallest : -1074 ≤ e
  lt : quotient < 2 ^ (53 + e)
  le : e = -1074 ∨ 2 ^ (52 + e) ≤ quotient

theorem IsUnit.unique {quotient : ℚ} {e e' : Int} (isUnit : IsUnit quotient e)
    (isUnit' : IsUnit quotient e') : e = e' := by
  have notLess : ∀ {low high : Int}, IsUnit quotient low → IsUnit quotient high → ¬ low < high := by
    intro low high atLow atHigh less
    rcases atHigh.le with isSmallest | reaches
    · have := atLow.smallest
      omega
    · have tooLarge : (2 : ℚ) ^ (53 + low) ≤ 2 ^ (52 + high) :=
        zpow_le_zpow_right₀ (by norm_num) (by omega)
      exact absurd (atLow.lt.trans_le (tooLarge.trans reaches)) (lt_irrefl _)
  have := notLess isUnit isUnit'
  have := notLess isUnit' isUnit
  omega

/-- The binary logarithms of numerator and denominator tell the quotient up to a factor of two. -/
theorem quotient_bounds {n d : Nat} (nonzero : n ≠ 0) (positive : d ≠ 0) :
    (2 : ℚ) ^ ((n.log2 : Int) - d.log2 - 1) ≤ (n : ℚ) / d ∧
      (n : ℚ) / d < 2 ^ ((n.log2 : Int) - d.log2 + 1) := by
  have dPos : (0 : ℚ) < d := Nat.cast_pos.mpr (Nat.pos_of_ne_zero positive)
  have numeratorLow : (2 : ℚ) ^ (n.log2 : Int) ≤ n := by
    rw [zpow_natCast]
    exact_mod_cast Nat.log2_self_le nonzero
  have numeratorHigh : (n : ℚ) < 2 ^ ((n.log2 : Int) + 1) := by
    rw [← Nat.cast_succ, zpow_natCast]
    exact_mod_cast Nat.lt_log2_self
  have denominatorLow : (2 : ℚ) ^ (d.log2 : Int) ≤ d := by
    rw [zpow_natCast]
    exact_mod_cast Nat.log2_self_le positive
  have denominatorHigh : (d : ℚ) < 2 ^ ((d.log2 : Int) + 1) := by
    rw [← Nat.cast_succ, zpow_natCast]
    exact_mod_cast Nat.lt_log2_self
  constructor
  · rw [le_div_iff₀ dPos]
    calc (2 : ℚ) ^ ((n.log2 : Int) - d.log2 - 1) * d
        ≤ 2 ^ ((n.log2 : Int) - d.log2 - 1) * 2 ^ ((d.log2 : Int) + 1) :=
          mul_le_mul_of_nonneg_left denominatorHigh.le (by positivity)
      _ = 2 ^ (n.log2 : Int) := by
          rw [← zpow_add₀ (by norm_num)]
          congr 1
          omega
      _ ≤ n := numeratorLow
  · rw [div_lt_iff₀ dPos]
    calc (n : ℚ) < 2 ^ ((n.log2 : Int) + 1) := numeratorHigh
      _ = 2 ^ ((n.log2 : Int) - d.log2 + 1) * 2 ^ (d.log2 : Int) := by
          rw [← zpow_add₀ (by norm_num)]
          congr 1
          omega
      _ ≤ 2 ^ ((n.log2 : Int) - d.log2 + 1) * d :=
          mul_le_mul_of_nonneg_left denominatorLow (by positivity)

theorem isUnit_unit {n d : Nat} (nonzero : n ≠ 0) (positive : d ≠ 0) :
    IsUnit ((n : ℚ) / d) (unit n d) := by
  obtain ⟨atLeast, below⟩ := quotient_bounds nonzero positive
  have split : ∀ e : Int, ((2 ^ 53 : Nat) : ℚ) * 2 ^ e = 2 ^ (53 + e) := by
    intro e
    rw [zpow_add₀ (by norm_num)]
    norm_num
  simp only [unit]
  generalize isLow : max (-1074) ((n.log2 : Int) - d.log2 - 53) = low
  split
  · rename_i fits
    rw [scaled_lt_iff positive, split] at fits
    refine ⟨by omega, fits, ?_⟩
    by_cases isSmallest : low = -1074
    · exact .inl isSmallest
    · refine .inr (le_trans (zpow_le_zpow_right₀ (by norm_num) ?_) atLeast)
      omega
  · rename_i overflows
    rw [scaled_lt_iff positive, split, not_lt] at overflows
    refine ⟨by omega, ?_, .inr ?_⟩
    · refine below.trans_le (zpow_le_zpow_right₀ (by norm_num) ?_)
      omega
    · rwa [show 52 + (low + 1) = 53 + low by omega]

/-! ### Rounding depends on the quotient alone -/

theorem divRound_mul_left {k : Nat} (positive : 0 < k) (n d : Nat) :
    divRound (k * n) (k * d) = divRound n d := by
  unfold divRound
  simp only [Nat.mul_div_mul_left n d positive, Nat.mul_mod_mul_left, Nat.mul_left_comm 2 k,
    Nat.mul_lt_mul_left positive]

theorem divRound_congr {n d n' d' : Nat} (positive : 0 < d) (positive' : 0 < d')
    (same : n * d' = n' * d) : divRound n d = divRound n' d' := by
  rw [← divRound_mul_left positive' n d, ← divRound_mul_left positive n' d', Nat.mul_comm d' n,
    same, Nat.mul_comm n' d, Nat.mul_comm d' d]

/-- Equal quotients are rounded to the same magnitude. -/
theorem nearest_congr {n d n' d' : Nat} (positive : d ≠ 0) (positive' : d' ≠ 0)
    (same : n * d' = n' * d) : nearest n d = nearest n' d' := by
  by_cases isZero : n = 0
  · have isZero' : n' = 0 := by
      rw [isZero, Nat.zero_mul] at same
      exact (Nat.mul_eq_zero.mp same.symm).resolve_right positive
    rw [nearest, nearest, if_pos (.inl isZero), if_pos (.inl isZero')]
  · have nonzero' : n' ≠ 0 := by
      rintro rfl
      rw [Nat.zero_mul] at same
      exact (Nat.mul_eq_zero.mp same).elim isZero positive'
    have sameQuotient : (n : ℚ) / d = n' / d' := by
      rw [div_eq_div_iff (by exact_mod_cast positive) (by exact_mod_cast positive')]
      exact_mod_cast same
    have isUnit := isUnit_unit isZero positive
    rw [sameQuotient] at isUnit
    have sameUnit := isUnit.unique (isUnit_unit nonzero' positive')
    rw [nearest_eq isZero positive, nearest_eq nonzero' positive', sameUnit]
    refine congrArg (fun steps => clamp (_ + steps)) (divRound_congr ?_ ?_ ?_)
    · exact Nat.mul_pos (Nat.pos_of_ne_zero positive) (powerUp_pos _)
    · exact Nat.mul_pos (Nat.pos_of_ne_zero positive') (powerUp_pos _)
    · calc n * powerUp (-unit n' d') * (d' * powerUp (unit n' d'))
          = n * d' * (powerUp (-unit n' d') * powerUp (unit n' d')) := by ring
        _ = n' * powerUp (-unit n' d') * (d * powerUp (unit n' d')) := by rw [same]; ring

/-! ### Magnitudes that are exact -/

theorem divRound_mul_right {d : Nat} (positive : 0 < d) (k : Nat) : divRound (k * d) d = k := by
  unfold divRound
  simp only [Nat.mul_mod_left, Nat.mul_zero, if_pos positive, Nat.mul_div_cancel k positive]

theorem denominator_pos (m : Magnitude) : 0 < m.denominator := powerUp_pos _

/-- A finite magnitude as a quotient is its significand times its power of two. -/
theorem numerator_div_denominator (m : Magnitude) :
    (m.numerator : ℚ) / m.denominator = m.significand * (2 : ℚ) ^ m.exponent := by
  have nonzero : (m.denominator : ℚ) ≠ 0 := powerUp_ne_zero _
  rw [div_eq_iff nonzero, numerator, Nat.cast_mul, powerUp_eq, denominator, mul_assoc]

theorem significand_lt (m : Magnitude) : m.significand < 2 ^ 53 := by
  rw [significand_eq]
  split <;> omega

theorem exponent_bounds (m : Magnitude) :
    -1074 ≤ m.exponent ∧ (m.exponent = -1074 ∨ 2 ^ 52 ≤ m.significand) := by
  rw [exponent_eq, significand_eq]
  split <;> omega

/-- The index of a magnitude from its power of two and its significand. -/
theorem index_eq (m : Magnitude) :
    (m.exponent + 1074).toNat * 2 ^ 52 + m.significand = m.val := by
  rw [exponent_eq, significand_eq]
  split <;> omega

/-- A magnitude is the one nearest to its own quotient. -/
theorem nearest_exact (m : Magnitude) : nearest m.numerator m.denominator = m := by
  have positive := (denominator_pos m).ne'
  by_cases isZero : m.numerator = 0
  · have noSignificand : m.significand = 0 :=
      (Nat.mul_eq_zero.mp isZero).resolve_right (powerUp_pos _).ne'
    rw [nearest, if_pos (.inl isZero)]
    apply Fin.ext
    have := index_eq m
    have := (exponent_bounds m).2
    rw [Fin.val_zero]
    omega
  · have value := numerator_div_denominator m
    have isUnit : IsUnit ((m.numerator : ℚ) / m.denominator) m.exponent := by
      refine ⟨(exponent_bounds m).1, ?_, (exponent_bounds m).2.imp_right fun large => ?_⟩
      · rw [value, zpow_add₀ (by norm_num)]
        refine mul_lt_mul_of_pos_right ?_ (by positivity)
        exact_mod_cast significand_lt m
      · rw [value, zpow_add₀ (by norm_num)]
        refine mul_le_mul_of_nonneg_right ?_ (by positivity)
        exact_mod_cast large
    rw [nearest_eq isZero positive, (isUnit_unit isZero positive).unique isUnit]
    have steps : divRound (m.numerator * powerUp (-m.exponent))
        (m.denominator * powerUp m.exponent) = m.significand := by
      rw [numerator, denominator, Nat.mul_assoc, Nat.mul_comm (powerUp m.exponent)]
      exact divRound_mul_right (Nat.mul_pos (powerUp_pos _) (powerUp_pos _)) _
    have inRange := val_lt m
    apply Fin.ext
    rw [steps, index_eq, val_clamp]
    omega

/-! ### Decimal numbers -/

theorem div_le_divRound (n d : Nat) : n / d ≤ divRound n d := by
  unfold divRound
  simp only
  split
  · exact Nat.le_refl _
  · split
    · exact Nat.le_succ _
    · split
      · exact Nat.le_refl _
      · exact Nat.le_succ _

/-- What is past the range is rounded to infinity. -/
theorem nearest_of_large {n d : Nat} (positive : d ≠ 0) (large : 2 ^ 1024 * d ≤ n) :
    nearest n d = infinity := by
  have nonzero : n ≠ 0 := by
    rintro rfl
    exact absurd large (Nat.not_le.mpr (Nat.mul_pos (by positivity) (Nat.pos_of_ne_zero positive)))
  have isUnit := isUnit_unit nonzero positive
  rw [nearest_eq nonzero positive]
  generalize unit n d = e at isUnit
  have dPos : (0 : ℚ) < d := Nat.cast_pos.mpr (Nat.pos_of_ne_zero positive)
  have reaches : (2 : ℚ) ^ (1024 : Int) ≤ (n : ℚ) / d := by
    rw [le_div_iff₀ dPos]
    exact_mod_cast large
  have unitLarge : (1024 : Int) < 53 + e :=
    (zpow_lt_zpow_iff_right₀ (by norm_num)).mp (reaches.trans_lt isUnit.lt)
  have normal : (2 : ℚ) ^ (52 + e) ≤ (n : ℚ) / d := isUnit.le.resolve_left (by omega)
  have quotientLarge : 2 ^ 52 ≤ n * powerUp (-e) / (d * powerUp e) := by
    rw [← not_lt, scaled_lt_iff positive, not_lt]
    refine le_trans (le_of_eq ?_) normal
    rw [zpow_add₀ (by norm_num)]
    norm_num
  have steps := quotientLarge.trans (div_le_divRound _ _)
  apply Fin.ext
  rw [val_clamp, val_infinity]
  omega

/-- What is less than half of the smallest magnitude is rounded to zero. -/
theorem nearest_of_small {n d : Nat} (nonzero : n ≠ 0) (small : 2 ^ 1074 * (2 * n) < d) :
    nearest n d = 0 := by
  have positive : d ≠ 0 := by omega
  have dPos : (0 : ℚ) < d := Nat.cast_pos.mpr (Nat.pos_of_ne_zero positive)
  have isUnit : IsUnit ((n : ℚ) / d) (-1074) := by
    have below : (n : ℚ) / d < 2 ^ (-1074 : Int) := by
      have smaller : 2 ^ 1074 * n < d :=
        Nat.lt_of_le_of_lt (Nat.mul_le_mul_left _ (by omega)) small
      have scaled : (2 : ℚ) ^ (1074 : Int) * n < d := by exact_mod_cast smaller
      rw [div_lt_iff₀ dPos]
      calc (n : ℚ) = 2 ^ (-1074 : Int) * (2 ^ (1074 : Int) * n) := by
            rw [← mul_assoc, ← zpow_add₀ (by norm_num), Int.add_left_neg, zpow_zero, one_mul]
        _ < 2 ^ (-1074 : Int) * d := mul_lt_mul_of_pos_left scaled (by positivity)
    exact ⟨Int.le_refl _, below.trans_le (zpow_le_zpow_right₀ (by norm_num) (by omega)), .inl rfl⟩
  have noStep : divRound (n * powerUp 1074) (d * powerUp (-1074)) = 0 := by
    have up : powerUp 1074 = 2 ^ 1074 := by
      unfold powerUp
      congr 1
    have less : 2 * (n * powerUp 1074) < d * powerUp (-1074) := by
      calc 2 * (n * powerUp 1074) = 2 ^ 1074 * (2 * n) := by
            rw [up, Nat.mul_comm n, Nat.mul_left_comm]
        _ < d := small
        _ = d * powerUp (-1074) := (Nat.mul_one d).symm
    have inner : n * powerUp 1074 < d * powerUp (-1074) := by omega
    unfold divRound
    rw [Nat.mod_eq_of_lt inner, if_pos less, Nat.div_eq_of_lt inner]
  rw [nearest_eq nonzero positive, (isUnit_unit nonzero positive).unique isUnit, Int.neg_neg, noStep]
  rfl

theorem two_pow_le_ten_pow {k power : Nat} (small : k ≤ 3 * power) : 2 ^ k ≤ 10 ^ power := by
  calc 2 ^ k ≤ 2 ^ (3 * power) := Nat.pow_le_pow_right (by decide) small
    _ = (2 ^ 3) ^ power := pow_mul _ _ _
    _ ≤ 10 ^ power := Nat.pow_le_pow_left (by decide) power

/-- The shortcuts of `ofDecimal` change nothing: it rounds the quotient that the decimal number is. -/
theorem ofDecimal_eq_nearest (digits : Nat) (exponent : Int) :
    ofDecimal digits exponent
      = nearest (digits * 10 ^ exponent.toNat) (10 ^ (-exponent).toNat) := by
  have positive : 10 ^ (-exponent).toNat ≠ 0 := by positivity
  unfold ofDecimal
  split
  · rename_i isZero
    rw [isZero, Nat.zero_mul, nearest, if_pos (.inl rfl)]
  · rename_i nonzero
    split
    · rename_i large
      refine (nearest_of_large positive ?_).symm
      have noDenominator : (-exponent).toNat = 0 := by omega
      rw [noDenominator, pow_zero, Nat.mul_one]
      calc 2 ^ 1024 ≤ 10 ^ 400 := two_pow_le_ten_pow (by omega)
        _ ≤ 10 ^ exponent.toNat := Nat.pow_le_pow_right (by norm_num) (by omega)
        _ ≤ digits * 10 ^ exponent.toNat :=
            Nat.le_mul_of_pos_left _ (Nat.pos_of_ne_zero nonzero)
    · split
      · rename_i small
        refine (nearest_of_small (Nat.mul_ne_zero nonzero (by positivity)) ?_).symm
        have noFactor : exponent.toNat = 0 := by omega
        rw [noFactor, pow_zero, Nat.mul_one]
        have below : 2 * digits < 2 ^ 2 * 2 ^ digits.log2 := by
          have : digits < 2 ^ (digits.log2 + 1) := Nat.lt_log2_self
          rw [pow_succ] at this
          omega
        calc 2 ^ 1074 * (2 * digits) < 2 ^ 1074 * (2 ^ 2 * 2 ^ digits.log2) :=
              Nat.mul_lt_mul_of_pos_left below (by positivity)
          _ = 2 ^ 1076 * 2 ^ digits.log2 := by
              rw [← Nat.mul_assoc, ← pow_add]
          _ ≤ 10 ^ 400 * 10 ^ digits.log2 :=
              Nat.mul_le_mul (two_pow_le_ten_pow (by omega))
                (Nat.pow_le_pow_left (by decide) _)
          _ = 10 ^ (400 + digits.log2) := (pow_add _ _ _).symm
          _ ≤ 10 ^ (-exponent).toNat := Nat.pow_le_pow_right (by norm_num) (by omega)
      · rfl

end TreeLint.Magnitude
