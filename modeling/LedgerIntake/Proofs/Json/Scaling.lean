import LedgerIntake.Json.Number
import LedgerIntake.Proofs.Number.Rounding
import LedgerIntake.Proofs.Number.Shortest

/-!
# Significands and scaling

The significand of a literal is the number that its digits denote as long as that number fits in 64
bits. Scaling down never leads beyond the significand's own magnitude, so it always ends in a finite
number; scaling up ends in one if the product does not round beyond the greatest.
-/

namespace LedgerIntake.Json.Number.Literal

section Digits

variable (digits : List Char)

/-- A significand only grows with further digits, so a prefix fits if the whole does. -/
theorem le_ofDigitChars (significand : Nat) :
    significand ≤ Nat.ofDigitChars 10 digits significand := by
  induction digits generalizing significand with
  | nil => exact Nat.le_of_eq Nat.ofDigitChars_nil.symm
  | cons digit rest inductionHypothesis =>
    rw [Nat.ofDigitChars_cons]
    exact Nat.le_trans (by omega) (inductionHypothesis _)

/-- Extending a significand by a digit, as the reader does it and as the library does. -/
theorem extend_digit (significand : Nat) (digit : Char) :
    significand * 10 + digitValue digit = 10 * significand + (digit.toNat - '0'.toNat) := by
  rw [Nat.mul_comm]
  rfl

/-- Digits denote the number that the library computes for them, so
its lemmas about digits apply. -/
theorem natural_eq : natural digits = Nat.ofDigitChars 10 digits 0 := by
  rw [natural, Nat.ofDigitChars_eq_foldl]
  congr 1
  funext significand digit
  exact extend_digit significand digit

/-- Digits before the point are all taken in if they fit, and the power stays zero. -/
theorem foldl_takeWhole (significand : Nat)
    (fits : Nat.ofDigitChars 10 digits significand ≤ greatest) :
    digits.foldl takeWhole ⟨significand, 0⟩ = ⟨Nat.ofDigitChars 10 digits significand, 0⟩ := by
  induction digits generalizing significand with
  | nil => rw [List.foldl_nil, Nat.ofDigitChars_nil]
  | cons digit rest inductionHypothesis =>
    rw [Nat.ofDigitChars_cons, ← extend_digit] at fits ⊢
    have room := Nat.le_trans (le_ofDigitChars rest _) fits
    have taken : takeWhole ⟨significand, 0⟩ digit = ⟨significand * 10 + digitValue digit, 0⟩ :=
      if_pos ⟨rfl, room⟩
    rw [List.foldl_cons, taken, inductionHypothesis _ fits]

/-- Digits after the point are all taken in if they fit, and each lowers the power. -/
theorem takeFraction_eq (significand : Nat) (power : Int)
    (fits : Nat.ofDigitChars 10 digits significand ≤ greatest) :
    takeFraction ⟨significand, power⟩ digits
      = ⟨Nat.ofDigitChars 10 digits significand, power - digits.length⟩ := by
  induction digits generalizing significand power with
  | nil => rw [takeFraction, Nat.ofDigitChars_nil, List.length_nil, Int.natCast_zero, Int.sub_zero]
  | cons digit rest inductionHypothesis =>
    rw [Nat.ofDigitChars_cons, ← extend_digit] at fits ⊢
    have room := Nat.le_trans (le_ofDigitChars rest _) fits
    rw [takeFraction]
    dsimp only
    rw [if_pos room, inductionHypothesis _ _ fits, List.length_cons]
    congr 1
    omega

end Digits

/-- The digits of a literal before and after the point. -/
def digits (literal : Literal) : List Char := literal.whole ++ literal.fraction.getD []

/-- Digits that fit are scaled by as many places as stand after the point. -/
theorem scaled_eq (literal : Literal) (fits : Nat.ofDigitChars 10 literal.digits 0 ≤ greatest) :
    literal.scaled
      = ⟨Nat.ofDigitChars 10 literal.digits 0, -((literal.fraction.getD []).length : Int)⟩ := by
  rw [digits, Nat.ofDigitChars_append] at fits ⊢
  have whole := Nat.le_trans (le_ofDigitChars (literal.fraction.getD []) _) fits
  rw [scaled, foldl_takeWhole literal.whole 0 whole, takeFraction_eq _ _ _ fits, Int.zero_sub]

open Binary64

section Scaling

variable {x y z : Binary64}

/-- Rounding gives magnitudes that leave room for a sign, infinity included. -/
theorem nearest_lt (numerator denominator : Nat) : nearest numerator denominator < signBit :=
  Nat.lt_of_le_of_lt (Nat.min_le_left _ _) (by decide)

/-- A natural number is rounded as a fraction without denominator. -/
theorem magnitude_ofNat (value : Nat) : (Binary64.ofNat value).magnitude = nearest
    (value * one) 1 :=
  magnitude_ofMagnitude false _ (nearest_lt _ _)

/-- Natural numbers are not negative. -/
theorem isNegative_ofNat (value : Nat) : (Binary64.ofNat value).isNegative = false :=
  isNegative_ofMagnitude false _ (nearest_lt _ _)

/-- Rounding natural numbers keeps their order. -/
theorem ofNat_magnitude_le {value value' : Nat} (atMost : value ≤ value') :
    (Binary64.ofNat value).magnitude ≤ (Binary64.ofNat value').magnitude := by
  rw [magnitude_ofNat, magnitude_ofNat]
  exact nearest_le_nearest 1 (Nat.mul_le_mul_right one atMost)

/-- No significand is too large for a binary64: 2⁶⁴ is far below the greatest one. -/
theorem ofNat_isFinite {value : Nat} (fits : value ≤ greatest) :
    (Binary64.ofNat value).isFinite = true := by
  apply decide_eq_true
  rw [magnitude_ofNat]
  obtain ⟨power, same⟩ : ∃ power, power = 1074 := ⟨_, rfl⟩
  have bounded : value * one < 2 ^ (64 + power) * 1 := by
    rw [one, Nat.one_shiftLeft, Nat.mul_one, ← same, Nat.pow_add]
    exact (Nat.mul_lt_mul_right (by positivity)).mpr (Nat.lt_of_le_of_lt fits (by decide))
  have least := nearest_le_of_lt _ 1 (64 + power) (by decide) (by omega) bounded
  rw [same] at least
  exact Nat.lt_of_le_of_lt least (by decide)

/-- Powers of ten are not less than one, so dividing by them does not increase. -/
theorem one_le_units_powerOfTen (power : Nat) : one ≤ (powerOfTen power).units := by
  have unit : (Binary64.ofNat 1).units = one := by
    have exact := (ofFraction_integer false 1 (by decide)).2.2
    rw [Nat.one_mul] at exact
    exact exact
  rw [← unit]
  apply units_le_units
  exact ofNat_magnitude_le (Nat.pow_pos (by decide))

/-- A quotient by a power of ten is finite, not greater than what is divided, and has its sign. -/
theorem div_powerOfTen (power : Nat) (finite : x.isFinite = true) :
    (x.div (powerOfTen power)).magnitude ≤ x.magnitude ∧
      (x.div (powerOfTen power)).isNegative = x.isNegative := by
  have bounded : x.magnitude < infinite := of_decide_eq_true finite
  have positive : (powerOfTen power).isNegative = false := isNegative_ofNat _
  have above := one_le_units_powerOfTen power
  generalize powerOfTen power = divisor at positive above
  have exact :=
    nearest_exact x.scale x.significand divisor.units (Nat.lt_of_lt_of_le Binary64.one_pos above)
      (significand_lt x) (le_significand x)
  rw [← units_eq, ← magnitude_eq, Nat.min_eq_right (Nat.le_of_lt bounded)] at exact
  constructor
  · calc (x.div divisor).magnitude = nearest (x.units * one) divisor.units :=
          magnitude_ofMagnitude _ _ (nearest_lt _ _)
      _ ≤ nearest (x.units * divisor.units) divisor.units :=
        nearest_le_nearest _ (Nat.mul_le_mul_left _ above)
      _ = x.magnitude := exact
  · rw [div, isNegative_ofMagnitude _ _ (nearest_lt _ _), positive, Bool.bne_false]

/-- Scaling down keeps the sign and never leads beyond the number. The induction follows
the scaling, power by power. -/
theorem scaleDown_spec (power : Nat) (finite : x.isFinite = true) :
    (scaleDown x power).magnitude ≤ x.magnitude ∧
    (scaleDown x power).isNegative = x.isNegative := by
  fun_induction scaleDown x power with
  | case1 x power small => exact div_powerOfTen power finite
  | case2 x power large zero => exact ⟨Nat.le_refl _, rfl⟩
  | case3 x power large nonzero inductionHypothesis =>
    obtain ⟨smaller, sign⟩ := div_powerOfTen (x := x) greatestPower finite
    have bounded : x.magnitude < infinite := of_decide_eq_true finite
    obtain ⟨least, same⟩ :=
      inductionHypothesis (decide_eq_true (Nat.lt_of_le_of_lt smaller bounded))
    exact ⟨Nat.le_trans least smaller, same.trans sign⟩

/-- Smaller factors do not make a finite product infinite, since rounding keeps order. -/
theorem mul_isFinite_of_le {x' y' : Binary64} (first : x.magnitude ≤ x'.magnitude)
    (second : y.magnitude ≤ y'.magnitude) (finite : (x'.mul y').isFinite = true) :
    (x.mul y).isFinite = true := by
  have bounded : (x'.mul y').magnitude < infinite := of_decide_eq_true finite
  rw [mul, magnitude_ofMagnitude _ _ (nearest_lt _ _)] at bounded
  apply decide_eq_true
  rw [mul, magnitude_ofMagnitude _ _ (nearest_lt _ _)]
  have product : x.units * y.units ≤ x'.units * y'.units :=
    Nat.mul_le_mul (units_le_units x x' first) (units_le_units y y' second)
  exact Nat.lt_of_le_of_lt (nearest_le_nearest one product) bounded

/-- The greatest coefficient that a decimal with some power of ten has if it rounds to a number
below the greatest one. -/
def greatestCoefficient (power : Nat) : Nat :=
  min coefficientBound ((2 ^ 55 - 6) * 2 ^ 969 / 10 ^ power)

/-- Up to some power every coefficient can be scaled up; the powers that remain are few. -/
theorem mul_greatestCoefficient (power : Nat) (small : power ≤ greatestPower) :
    ((Binary64.ofNat (greatestCoefficient power)).mul (powerOfTen power)).isFinite = true := by
  obtain ⟨limit, same⟩ : ∃ limit, limit = 290 := ⟨_, rfl⟩
  by_cases low : power ≤ limit
  · have whole : ((Binary64.ofNat coefficientBound).mul (powerOfTen limit)).isFinite = true := by
      rw [same]
      decide +kernel
    exact mul_isFinite_of_le (ofNat_magnitude_le (Nat.min_le_left _ _))
      (ofNat_magnitude_le (Nat.pow_le_pow_right (by decide) low)) whole
  · have high : ∀ more : Fin 18,
        ((Binary64.ofNat (greatestCoefficient (291 + more))).mul (powerOfTen (291 + more))).isFinite
          = true := by
      decide +kernel
    simp only [greatestPower] at small
    have found := high ⟨power - 291, by omega⟩
    rw [show 291 + (power - 291) = power by omega] at found
    exact found

/-- A coefficient whose decimal rounds to a number below the greatest one can be scaled up. -/
theorem scaleUp_isSome (coefficient power : Nat) (small : coefficient ≤ coefficientBound)
    (bounded : coefficient * 10 ^ power ≤ (2 ^ 55 - 6) * 2 ^ 969) (positive : 0 < coefficient) :
    ∃ product, scaleUp (Binary64.ofNat coefficient) power = some product ∧ product.isFinite = true ∧
      product.isNegative = false := by
  have power_le : power ≤ greatestPower := by
    obtain ⟨limit, same⟩ : ∃ limit, limit = greatestPower + 1 := ⟨_, rfl⟩
    have above : (2 ^ 55 - 6) * 2 ^ 969 < 10 ^ limit := by
      rw [same]
      decide +kernel
    apply Nat.le_of_lt_succ
    rw [Nat.succ_eq_add_one, ← same]
    apply (Nat.pow_lt_pow_iff_right (by decide : 1 < 10)).mp
    calc 10 ^ power ≤ coefficient * 10 ^ power := Nat.le_mul_of_pos_left _ positive
      _ ≤ (2 ^ 55 - 6) * 2 ^ 969 := bounded
      _ < 10 ^ limit := above
  have least : coefficient ≤ greatestCoefficient power :=
    Nat.le_min.mpr ⟨small, (Nat.le_div_iff_mul_le (by positivity)).mpr bounded⟩
  have finite := mul_isFinite_of_le (ofNat_magnitude_le least) (Nat.le_refl _)
    (mul_greatestCoefficient power power_le)
  refine ⟨_, ?_, finite, ?_⟩
  · rw [scaleUp, if_pos power_le]
    dsimp only
    rw [if_pos finite]
  · rw [mul, isNegative_ofMagnitude _ _ (nearest_lt _ _), isNegative_ofNat, powerOfTen,
      isNegative_ofNat]
    rfl

end Scaling

end LedgerIntake.Json.Number.Literal
