import Mathlib.Tactic.GCongr
import Mathlib.Tactic.NormNum
import LedgerIntake.Proofs.Number.Exact

/-!
# Errors of rounding

A quotient that is not too small keeps 53 bits when it is rounded, so it and the magnitude it is
rounded to differ by at most one part in 2⁵³ of either. Errors are counted by factors: one of them
for each rounding.
-/

namespace LedgerIntake.Binary64

/-- Neither of two numbers exceeds the other by more than a factor. -/
structure Within (factor x y : ℚ) : Prop where
  le : x ≤ factor * y
  ge : y ≤ factor * x

namespace Within

variable {factor factor' x y z : ℚ}

/-- A number is within each factor that is one or more of itself, so values that
are not rounded count as near. -/
theorem refl (more : 1 ≤ factor) (nonneg : 0 ≤ x) : Within factor x x :=
  ⟨le_mul_of_one_le_left nonneg more, le_mul_of_one_le_left nonneg more⟩

/-- Two factors multiply along a chain, so the errors of several roundings
compose without differences. -/
theorem trans (nonneg : 0 ≤ factor) (nonneg' : 0 ≤ factor') (first : Within factor x y)
    (second : Within factor' y z) :
    Within (factor * factor') x z where
  le := calc x ≤ factor * y := first.le
    _ ≤ factor * (factor' * z) := mul_le_mul_of_nonneg_left second.le nonneg
    _ = factor * factor' * z := (mul_assoc ..).symm
  ge := calc z ≤ factor' * y := second.ge
    _ ≤ factor' * (factor * x) := mul_le_mul_of_nonneg_left first.ge nonneg'
    _ = factor * factor' * x := by ring

/-- Two numbers that are near each other stay so when both are scaled by the same factor. -/
theorem mul_right (close : Within factor x y) (scale : ℚ) (nonneg : 0 ≤ scale) :
    Within factor (x * scale) (y * scale) where
  le := by
    rw [← mul_assoc]
    exact mul_le_mul_of_nonneg_right close.le nonneg
  ge := by
    rw [← mul_assoc]
    exact mul_le_mul_of_nonneg_right close.ge nonneg

end Within

/-- The factor of one rounding. -/
def roundingFactor : ℚ := 1 + 1 / 2 ^ 53

/-- The factor of a rounding is not negative, so it may be multiplied on both sides of a bound. -/
theorem roundingFactor_nonneg : 0 ≤ roundingFactor := by
  norm_num [roundingFactor]

/-- The number one has 1074 bits behind its first. The exponent is a variable, so that
nothing computes the power. -/
theorem one_eq_pow {least : Nat} (same : least = 1074) : one = 2 ^ least :=
  (Nat.one_shiftLeft 1074).trans (congrArg _ same.symm)

/-- A number without units has no magnitude, and only such a number has none. -/
theorem units_eq_zero_iff {x : Binary64} : x.units = 0 ↔ x.magnitude = 0 := by
  rw [units_eq]
  constructor
  · intro none
    by_contra nonzero
    have positive := significand_pos x (Nat.pos_of_ne_zero nonzero)
    exact absurd none (Nat.ne_of_gt (by positivity))
  · intro zero
    rw [significand_of_lt x (by rw [zero]; decide), zero, Nat.zero_mul]

section Quotients

variable {numerator denominator : Nat}

/-- A rounded quotient is at most half a divisor away, stated in
products so that naturals suffice. -/
theorem roundDivision_half (numerator : Nat) (positive : 0 < denominator) :
    2 * numerator ≤ 2 * (roundDivision numerator denominator * denominator) + denominator ∧
      2 * (roundDivision numerator denominator * denominator) ≤ 2 * numerator + denominator := by
  have division := Nat.div_add_mod numerator denominator
  have remainder := Nat.mod_lt numerator positive
  have next : (numerator / denominator + 1) * denominator
    = numerator / denominator * denominator + denominator :=
    Nat.succ_mul _ _
  rw [Nat.mul_comm] at division
  unfold roundDivision
  dsimp only
  split
  · omega
  · split
    · rw [next]
      omega
    · rcases Nat.mod_two_eq_zero_or_one (numerator / denominator) with even | odd
      · rw [even, Nat.add_zero]
        omega
      · rw [odd, next]
        omega

/-- What a finite quotient is rounded to has the units of the rounded significand at its scale. -/
theorem units_nearest (negative : Bool) (finite : nearest numerator denominator < infinite) :
    (ofMagnitude negative (nearest numerator denominator)).isFinite = true ∧
      (ofMagnitude negative (nearest numerator denominator)).isNegative = negative ∧
      (ofMagnitude negative (nearest numerator denominator)).units
        = roundDivision numerator (denominator <<< scaleFor numerator denominator)
          * 2 ^ scaleFor numerator denominator := by
  obtain ⟨upper, full⟩ := rounded_bounds numerator denominator
  rw [nearest_eq] at finite ⊢
  generalize scaleFor numerator denominator = scale at *
  generalize roundDivision numerator (denominator <<< scale) = rounded at *
  have bounded : scale * leadingBit + rounded < infinite := by omega
  rw [Nat.min_eq_right (Nat.le_of_lt bounded)]
  rcases Nat.lt_or_eq_of_le upper with less | equal
  · exact ofMagnitude_exact scale rounded less full bounded negative
  · -- The carry out of the significand raises the scale.
    have carried : scale * leadingBit + rounded = (scale + 1) * leadingBit + leadingBit := by
      rw [equal]
      ring
    have value : leadingBit * 2 ^ (scale + 1) = rounded * 2 ^ scale := by
      rw [equal, Nat.pow_succ]
      ring
    rw [carried] at bounded ⊢
    rw [← value]
    exact ofMagnitude_exact (scale + 1) leadingBit (by decide)
      (fun _ => Nat.le_refl _) bounded negative

/-- At its scale a quotient that has 53 bits has no fewer, so the significand is full and
the error relatively small. -/
theorem le_scaled (normal : leadingBit * denominator ≤ numerator) (positive : 0 < denominator) :
    leadingBit * (denominator <<< scaleFor numerator denominator) ≤ numerator := by
  have quotient : leadingBit ≤ numerator / denominator :=
    (Nat.le_div_iff_mul_le positive).mpr normal
  have nonzero : numerator / denominator ≠ 0 :=
    Nat.ne_of_gt (Nat.lt_of_lt_of_le (by decide) quotient)
  have log : 52 ≤ (numerator / denominator).log2 := (Nat.le_log2 nonzero).mpr quotient
  have scaled : leadingBit * 2 ^ scaleFor numerator denominator ≤ numerator / denominator :=
    calc leadingBit * 2 ^ scaleFor numerator denominator
      = 2 ^ (52 + scaleFor numerator denominator) := by
          rw [Nat.pow_add]
          rfl
      _ = 2 ^ (numerator / denominator).log2 := by rw [scaleFor, Nat.add_sub_cancel' log]
      _ ≤ numerator / denominator := Nat.log2_self_le nonzero
  calc leadingBit * (denominator <<< scaleFor numerator denominator)
      = leadingBit * 2 ^ scaleFor numerator denominator * denominator := by
        rw [Nat.shiftLeft_eq]
        ring
    _ ≤ numerator / denominator * denominator := Nat.mul_le_mul_right _ scaled
    _ ≤ numerator := Nat.div_mul_le_self _ _

/-- A quotient that has 53 bits is rounded by at most one part in 2⁵³. -/
theorem within_nearest (negative : Bool) (normal : leadingBit * denominator ≤ numerator)
    (positive : 0 < denominator)
    (finite : nearest numerator denominator < infinite) :
    Within roundingFactor (ofMagnitude negative (nearest numerator denominator)).units
    (numerator / denominator) := by
  have shifted : denominator <<< scaleFor numerator denominator
      = 2 ^ scaleFor numerator denominator * denominator := by
    rw [Nat.shiftLeft_eq, Nat.mul_comm]
  have divided := le_scaled normal positive
  have wide : 0 < denominator <<< scaleFor numerator denominator := by
    rw [shifted]
    positivity
  have least :
      leadingBit ≤ roundDivision numerator (denominator <<< scaleFor numerator denominator) := by
    exact Nat.le_trans ((Nat.le_div_iff_mul_le wide).mpr divided) (roundDivision_bounds _ _).1
  have half := roundDivision_half numerator wide
  rw [(units_nearest negative finite).2.2]
  generalize roundDivision numerator (denominator <<< scaleFor numerator denominator) = rounded at *
  rw [shifted, ← Nat.mul_assoc rounded] at half
  rw [shifted] at divided
  have product := Nat.mul_le_mul_right (2 ^ scaleFor numerator denominator * denominator) least
  generalize 2 ^ scaleFor numerator denominator = step at *
  rw [← Nat.mul_assoc rounded] at product
  simp only [leadingBit] at divided product
  have above : (0 : ℚ) < denominator := Nat.cast_pos.mpr positive
  constructor
  · rw [roundingFactor, ← mul_div_assoc, le_div_iff₀ above]
    have bound : 2 ^ 53 * (rounded * step * denominator) ≤ (2 ^ 53 + 1) * numerator := by omega
    have inRationals : (2 : ℚ) ^ 53 * (rounded * step * denominator)
      ≤ (2 ^ 53 + 1) * numerator := by
      exact_mod_cast bound
    push_cast
    linarith
  · rw [roundingFactor, div_le_iff₀ above]
    have bound : 2 ^ 53 * numerator ≤ (2 ^ 53 + 1) * (rounded * step * denominator) := by omega
    have inRationals : (2 : ℚ) ^ 53 * numerator
      ≤ (2 ^ 53 + 1) * (rounded * step * denominator) := by
      exact_mod_cast bound
    push_cast
    linarith

/-- A quotient that is not too great is rounded to a finite magnitude. -/
theorem nearest_lt_infinite {bits : Nat} (few : bits ≤ 2097) (positive : 0 < denominator)
    (bounded : numerator < 2 ^ bits * denominator) : nearest numerator denominator < infinite := by
  have wider : numerator < 2 ^ max bits 53 * denominator :=
    Nat.lt_of_lt_of_le bounded
      (Nat.mul_le_mul_right _ (Nat.pow_le_pow_right (by decide) (Nat.le_max_left _ _)))
  have least :=
    nearest_le_of_lt numerator denominator (max bits 53) positive (Nat.le_max_right _ _) wider
  have level : (max bits 53 - 51) * leadingBit ≤ 2046 * leadingBit :=
    Nat.mul_le_mul_right _ (by omega)
  calc nearest numerator denominator ≤ 2046 * leadingBit := Nat.le_trans least level
    _ < infinite := by decide

/-- A quotient that is an integer up to 2⁵³ times a power of two is not rounded. -/
theorem units_nearest_exact (negative : Bool) (value power : Nat) (small : value ≤ 2 ^ 53)
    (few : power ≤ 900)
    (positive : 0 < denominator) :
    nearest (value * 2 ^ power * one * denominator) denominator < infinite ∧
      (ofMagnitude negative (nearest (value * 2 ^ power * one * denominator) denominator)).units
        = value * 2 ^ power * one := by
  rcases Nat.eq_zero_or_pos value with rfl | nonzero
  · have none := nearest_exact 0 0 denominator positive (by decide) (by decide)
    have zero := (ofMagnitude_exact 0 0 (by decide) (by decide) (by decide) negative).2.2
    simp only [Nat.zero_mul, Nat.zero_add, Nat.min_zero] at none zero ⊢
    rw [none]
    exact ⟨by decide, zero⟩
  · obtain ⟨level, coefficient, units, full, bounded, low⟩ := exists_significand value nonzero small
    have levels : (level + power) * leadingBit ≤ 1975 * leadingBit :=
      Nat.mul_le_mul_right _ (by omega)
    have finite : (level + power) * leadingBit + coefficient < infinite := by
      simp only [infinite, leadingBit] at *
      omega
    have same : value * 2 ^ power * one = coefficient * 2 ^ (level + power) := by
      rw [Nat.mul_right_comm, units, Nat.pow_add, Nat.mul_assoc]
    rw [same, nearest_exact (level + power) coefficient denominator positive bounded fun _ => full,
      Nat.min_eq_right (Nat.le_of_lt finite)]
    exact ⟨finite,
      (ofMagnitude_exact (level + power) coefficient bounded (fun _ => full) finite negative).2.2⟩

/-- Nothing is rounded below such an integer that it is not less than. -/
theorem le_units_nearest (negative : Bool) (value power : Nat) (small : value ≤ 2 ^ 53)
    (few : power ≤ 900)
    (positive : 0 < denominator) (least : value * 2 ^ power * one * denominator ≤ numerator) :
    value * 2 ^ power * one ≤ (ofMagnitude negative (nearest numerator denominator)).units := by
  have room (top : Nat) : nearest top denominator < signBit :=
    Nat.lt_of_le_of_lt (Nat.min_le_left _ _) (by decide)
  rw [← (units_nearest_exact negative value power small few positive).2]
  apply units_le_units
  rw [magnitude_ofMagnitude _ _ (room _), magnitude_ofMagnitude _ _ (room _)]
  exact nearest_le_nearest denominator least

end Quotients

/-- The rational number that a finite pattern stands for, without its sign. -/
def extent (x : Binary64) : ℚ := x.units / one

/-- The value of a number is its extent with its sign, so laws about
magnitudes carry over to numbers. -/
theorem exact_eq_extent (x : Binary64) : x.exact = (if x.isNegative then -1 else 1) * x.extent := by
  rw [exact_eq, signedUnits, extent]
  cases x.isNegative
  · rw [if_neg Bool.false_ne_true, if_neg Bool.false_ne_true, one_mul, Int.cast_natCast]
  · rw [if_pos rfl, if_pos rfl, Int.cast_neg, Int.cast_natCast, neg_one_mul, neg_div]

/-- An extent is a natural number exactly if the units are so many ones. -/
theorem extent_eq_iff {x : Binary64} {natural : Nat} :
    x.extent = natural ↔ x.units = natural * one := by
  rw [extent, div_eq_iff one_ne_zero, ← Nat.cast_mul, Nat.cast_inj]

/-- An extent is not negative, as both its units and the unit are naturals. -/
theorem extent_nonneg (x : Binary64) : 0 ≤ x.extent :=
  div_nonneg (Nat.cast_nonneg _) (Nat.cast_nonneg _)

/-- A number that needs all its 53 bits in front of the point is an integer. -/
theorem exists_extent_eq {x : Binary64} (large : 2 ^ 52 ≤ x.extent) :
    ∃ natural : Nat, x.extent = natural := by
  obtain ⟨least, same⟩ : ∃ least, least = 1074 := ⟨_, rfl⟩
  have units : 2 ^ 52 * one ≤ x.units := by
    rw [extent, le_div_iff₀ (Nat.cast_pos.mpr one_pos)] at large
    exact_mod_cast large
  have raised : least ≤ x.scale := by
    rw [units_eq, one_eq_pow same, ← Nat.pow_add] at units
    have less : 2 ^ (52 + least) < 2 ^ (53 + x.scale) := by
      refine Nat.lt_of_le_of_lt units ?_
      rw [Nat.pow_add]
      exact (Nat.mul_lt_mul_right (by positivity)).mpr (significand_lt x)
    have exponents := (Nat.pow_lt_pow_iff_right (by decide)).mp less
    omega
  refine ⟨x.significand * 2 ^ (x.scale - least), extent_eq_iff.mpr ?_⟩
  rw [units_eq, one_eq_pow same, Nat.mul_assoc, ← Nat.pow_add, Nat.sub_add_cancel raised]

/-- Integers up to 2⁵³ are their own extent, since they are stored without rounding. -/
theorem extent_ofNat {value : Nat} (small : value ≤ 2 ^ 53) : (ofNat value).extent = value :=
  extent_eq_iff.mpr (ofFraction_integer false value small).2.2

/-- A number is what a positive number is rounded to, in one rounding. -/
structure Rounds (x : Binary64) (value : ℚ) : Prop where
  finite : x.isFinite = true
  positive : x.isNegative = false
  within : Within roundingFactor x.extent value
  /-- Integers up to 2⁵³ are kept. -/
  integer : ∀ natural : Nat, natural ≤ 2 ^ 53 → value = natural → x.extent = natural

section Rounding

variable {numerator denominator factor : Nat}

/-- A normal fraction is rounded within the factor of a rounding: the error is half of the last
place at most, and the significand has its leading bit. -/
theorem rounds_nearest {bits : Nat} (few : bits ≤ 2097) (positive : 0 < denominator)
    (normal : leadingBit * denominator ≤ numerator) (bounded : numerator < 2 ^ bits * denominator) :
    Rounds (ofMagnitude false (nearest numerator denominator)) (numerator / denominator / one) := by
  have finite := nearest_lt_infinite few positive bounded
  obtain ⟨proper, sign, -⟩ := units_nearest false finite
  have divisor : (0 : ℚ) < one := Nat.cast_pos.mpr one_pos
  refine ⟨proper, sign, ?_, fun natural small same => ?_⟩
  · have close :=
      (within_nearest false normal positive finite).mul_right
        (one : ℚ)⁻¹ (inv_nonneg.mpr divisor.le)
    rwa [← div_eq_mul_inv, ← div_eq_mul_inv] at close
  · have nonzero : (denominator : ℚ) * one ≠ 0 :=
      mul_ne_zero (Nat.cast_ne_zero.mpr (Nat.ne_of_gt positive)) one_ne_zero
    rw [div_div, div_eq_iff nonzero, mul_comm (denominator : ℚ), ← mul_assoc] at same
    have product : numerator = natural * 2 ^ 0 * one * denominator := by
      rw [Nat.pow_zero, Nat.mul_one]
      exact_mod_cast same
    rw [extent_eq_iff, product,
      (units_nearest_exact false natural 0 small (Nat.zero_le _) positive).2, Nat.pow_zero,
      Nat.mul_one]

/-- Significands of 126 bits are less than the units of the number one. -/
theorem leadingBit_mul_le_one (small : factor ≤ 2 ^ 74) : leadingBit * factor ≤ one := by
  obtain ⟨least, same⟩ : ∃ least, least = 1074 := ⟨_, rfl⟩
  calc leadingBit * factor ≤ leadingBit * 2 ^ 74 := Nat.mul_le_mul_left _ small
    _ = 2 ^ 126 := by decide
    _ ≤ 2 ^ least := Nat.pow_le_pow_right (by decide) (by omega)
    _ = one := (one_eq_pow same).symm

/-- A natural number below 2¹⁰⁰ is rounded once when it becomes a number, and does not overflow. -/
theorem rounds_ofNat {value : Nat} (positive : 0 < value) (small : value < 2 ^ 100) :
    Rounds (ofNat value) value := by
  obtain ⟨power, same⟩ : ∃ power, power = 1074 := ⟨_, rfl⟩
  have wide : value * one < 2 ^ (100 + power) * 1 := by
    rw [one_eq_pow same, Nat.mul_one, Nat.pow_add]
    exact (Nat.mul_lt_mul_right (by positivity)).mpr small
  have normal : leadingBit * 1 ≤ value * one :=
    Nat.le_trans (leadingBit_mul_le_one (by decide)) (Nat.le_mul_of_pos_left _ positive)
  have rounds := rounds_nearest (by omega) Nat.one_pos normal wide
  rwa [Nat.cast_mul, Nat.cast_one, div_one, mul_div_assoc, div_self one_ne_zero, mul_one] at rounds

/-- An integer up to 2⁵³ times a power of two has its own units, because the
power only raises the scale. -/
theorem units_ofNat_mul_pow (value power : Nat) (small : value ≤ 2 ^ 53) (few : power ≤ 900) :
    (ofNat (value * 2 ^ power)).units = value * 2 ^ power * one := by
  have exact := (units_nearest_exact false value power small few Nat.one_pos).2
  rwa [Nat.mul_one] at exact

/-- A natural number of `53 + power` bits is rounded to a multiple of `2 ^ power` that
is at most half of it away. -/
theorem exists_units_ofNat (value power : Nat) (few : power ≤ 900) (wide : 2 ^ (52 + power) ≤ value)
    (narrow : value < 2 ^ (53 + power)) :
    ∃ multiple, (ofNat value).units = multiple * 2 ^ power * one ∧
      2 * value ≤ 2 * (multiple * 2 ^ power) + 2 ^ power := by
  obtain ⟨least, same⟩ : ∃ least, least = 1074 := ⟨_, rfl⟩
  have unit := one_eq_pow same
  have lower : 2 ^ (52 + power + least) ≤ value * one := by
    rw [unit, Nat.pow_add]
    exact Nat.mul_le_mul_right _ wide
  have upper : value * one < 2 ^ (53 + power + least) := by
    rw [unit, Nat.pow_add]
    exact (Nat.mul_lt_mul_right (by positivity)).mpr narrow
  have nonzero : value * one ≠ 0 := Nat.ne_of_gt (Nat.lt_of_lt_of_le (by positivity) lower)
  have scale : scaleFor (value * one) 1 = power + least := by
    have above := (Nat.le_log2 nonzero).mpr lower
    have below := (Nat.log2_lt nonzero).mpr upper
    rw [scaleFor, Nat.div_one]
    omega
  have finite : nearest (value * one) 1 < infinite :=
    nearest_lt_infinite (by omega : 53 + power + least ≤ 2097) Nat.one_pos (by rwa [Nat.mul_one])
  have units := (units_nearest false finite).2.2
  have step : 0 < 1 <<< scaleFor (value * one) 1 := by
    rw [Nat.one_shiftLeft]
    positivity
  have half := (roundDivision_half (value * one) step).1
  rw [scale, Nat.one_shiftLeft] at units half
  generalize roundDivision (value * one) (2 ^ (power + least)) = rounded at units half
  rw [Nat.pow_add, ← unit] at units half
  refine ⟨rounded, ?_, ?_⟩
  · rw [ofNat, ofFraction, units, Nat.mul_assoc]
  · refine Nat.le_of_mul_le_mul_right ?_ one_pos
    calc 2 * value * one = 2 * (value * one) := Nat.mul_assoc _ _ _
      _ ≤ 2 * (rounded * (2 ^ power * one)) + 2 ^ power * one := half
      _ = (2 * (rounded * 2 ^ power) + 2 ^ power) * one := by ring

variable {x y : Binary64} {bits : Nat} (signs : x.isNegative = false ∧ y.isNegative = false)
  (least : one ≤ x.units) (most : x.units < 2 ^ bits) (few : bits ≤ 2000)
    (whole : y.units = factor * one)
  (nonzero : 0 < factor) (small : factor ≤ 2 ^ 74)

include signs least most few whole nonzero small

/-- The product by an integer is the exact product, rounded once: it
is normal and stays in range. -/
theorem rounds_mul : Rounds (x.mul y) (x.extent * factor) := by
  have normal : leadingBit * one ≤ x.units * y.units := by
    rw [whole, ← Nat.mul_assoc]
    refine Nat.mul_le_mul_right _ (Nat.le_trans ?_ (Nat.le_mul_of_pos_right _ nonzero))
    exact Nat.le_trans (leadingBit_mul_le_one (by decide : 1 ≤ 2 ^ 74)) least
  have bounded : x.units * y.units < 2 ^ (bits + 74) * one := by
    rw [whole, ← Nat.mul_assoc, Nat.pow_add]
    exact (Nat.mul_lt_mul_right one_pos).mpr (Nat.mul_lt_mul_of_lt_of_le most small (by positivity))
  have rounds := rounds_nearest (by omega) one_pos normal bounded
  have value : ((x.units * y.units : Nat) : ℚ) / one / one = x.extent * factor := by
    rw [extent, whole]
    push_cast
    field_simp [one_ne_zero]
  rw [value] at rounds
  rwa [mul, signs.1, signs.2]

/-- The quotient by an integer is the exact quotient, rounded once: it is still normal, as
the divisor is at most 2⁷⁴. -/
theorem rounds_div : Rounds (x.div y) (x.extent / factor) := by
  have normal : leadingBit * y.units ≤ x.units * one := by
    rw [whole, ← Nat.mul_assoc]
    exact Nat.mul_le_mul_right _ (Nat.le_trans (leadingBit_mul_le_one small) least)
  have bounded : x.units * one < 2 ^ bits * y.units := by
    rw [whole, ← Nat.mul_assoc]
    refine (Nat.mul_lt_mul_right one_pos).mpr
      (Nat.lt_of_lt_of_le most (Nat.le_mul_of_pos_right _ nonzero))
  have rounds := rounds_nearest (by omega) (whole ▸ Nat.mul_pos nonzero one_pos) normal bounded
  have value : ((x.units * one : Nat) : ℚ) / y.units / one = x.extent / factor := by
    rw [extent, whole]
    push_cast
    field_simp [one_ne_zero]
  rw [value] at rounds
  rwa [div, signs.1, signs.2]

end Rounding

end LedgerIntake.Binary64
