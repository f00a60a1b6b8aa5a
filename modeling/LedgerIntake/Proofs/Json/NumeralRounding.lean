import LedgerIntake.Proofs.Json.Dropping
import LedgerIntake.Proofs.Json.Numbers

/-!
# What numerals are rounded to

A numeral with a point or an exponent is read as a binary number: its significand is rounded, and
the product or quotient by a power of ten is rounded again. Between 10⁻²² and 10²² powers of ten are
exact, and outside that range the result is no natural number below 2⁶⁴ other than zero, so two
roundings and the dropped digits are all that a natural number that is read may be away from what is
written.
-/

namespace LedgerIntake.Json.Number.Literal

open Binary64

section Powers

variable {power : Nat}

/-- Powers of ten up to the twenty-second are exact, as their odd part has 53 bits at most. -/
theorem units_powerOfTen (small : power ≤ 22) : (powerOfTen power).units = 10 ^ power * one := by
  have odd : 5 ^ power ≤ 2 ^ 53 := Nat.le_trans (Nat.pow_le_pow_right (by decide) small) (by decide)
  have split : 10 ^ power = 5 ^ power * 2 ^ power := (Nat.mul_pow 5 2 power)
  rw [powerOfTen, Nat.pow_eq, split]
  exact units_ofNat_mul_pow _ _ odd (by omega)

/-- Powers of ten are not negative, so scaling keeps signs. -/
theorem isNegative_powerOfTen (power : Nat) : (powerOfTen power).isNegative = false :=
  isNegative_ofNat _

/-- The powers of ten up to 10²² have 74 bits at most, twenty-two of which are zeros. -/
theorem ten_pow_le (small : power ≤ 22) : 10 ^ power ≤ 2 ^ 74 :=
  Nat.le_trans (Nat.pow_le_pow_right (by decide) small) (by decide)

end Powers

section Significands

variable {significand : Nat}

/-- Significands are not rounded to less than one, unless they are zero. -/
theorem one_le_units_ofNat (positive : 0 < significand) :
    one ≤ (Binary64.ofNat significand).units := by
  have least := units_ofNat_mul_pow 1 0 (by decide) (by decide)
  rw [Nat.pow_zero, Nat.one_mul, Nat.one_mul] at least
  calc one = (Binary64.ofNat 1).units := least.symm
    _ ≤ (Binary64.ofNat significand).units := units_le_units _ _ (ofNat_magnitude_le positive)

/-- Significands that fit are rounded to 2⁶⁴ at most. -/
theorem units_ofNat_le (fits : significand ≤ greatest) :
    (Binary64.ofNat significand).units ≤ 2 ^ 64 * one := by
  have most := units_ofNat_mul_pow 1 64 (by decide) (by decide)
  rw [Nat.one_mul] at most
  calc (Binary64.ofNat significand).units ≤ (Binary64.ofNat (2 ^ 64)).units :=
        units_le_units _ _ (ofNat_magnitude_le (Nat.le_trans fits (by decide)))
    _ = 2 ^ 64 * one := most

/-- Zero has no units, so it is told from every other significand. -/
theorem units_ofNat_zero : (Binary64.ofNat 0).units = 0 := by
  have zero := units_ofNat_mul_pow 0 0 (by decide) (by decide)
  rwa [Nat.zero_mul, Nat.zero_mul] at zero

/-- A significand that fits has far fewer units than would overflow. -/
theorem exists_units_ofNat_lt (fits : significand ≤ greatest) :
    ∃ bits ≤ 2000, (Binary64.ofNat significand).units < 2 ^ bits := by
  obtain ⟨power, same⟩ : ∃ power, power = 1074 := ⟨_, rfl⟩
  refine ⟨65 + power, by omega, Nat.lt_of_le_of_lt (units_ofNat_le fits) ?_⟩
  rw [one_eq_pow same, Nat.pow_add]
  exact (Nat.mul_lt_mul_right (by positivity)).mpr (by decide)

/-- Up to 10²² in both directions scaling is one rounding, since the power itself is exact. -/
theorem rounds_magnitude? (positive : 0 < significand) (fits : significand ≤ greatest) {power : Int}
    (low : -22 ≤ power) (high : power ≤ 22) :
    ∃ magnitude, Scaled.magnitude? ⟨significand, power⟩ = some magnitude ∧
      Rounds magnitude ((Binary64.ofNat significand).extent * 10 ^ power) := by
  obtain ⟨bits, few, most⟩ := exists_units_ofNat_lt fits
  have least := one_le_units_ofNat positive
  have signs (places : Nat) :=
    And.intro (isNegative_ofNat significand) (isNegative_powerOfTen places)
  have nonzero (places : Nat) : 0 < 10 ^ places := Nat.pow_pos (by decide)
  rw [Scaled.magnitude?]
  dsimp only
  rcases Int.lt_or_le power 0 with negative | natural
  · obtain ⟨places, rfl⟩ := Int.exists_eq_neg_ofNat (Int.le_of_lt negative)
    have small : places ≤ 22 := by omega
    have rounds :=
      rounds_div (signs places) least most few (units_powerOfTen small)
        (nonzero places) (ten_pow_le small)
    rw [Nat.cast_pow, Nat.cast_ofNat, div_eq_mul_inv, ← zpow_natCast, ← zpow_neg] at rounds
    have within : places ≤ greatestPower := Nat.le_trans small (by decide)
    refine ⟨_, ?_, rounds⟩
    rw [if_pos negative, Int.natAbs_neg, Int.natAbs_natCast, scaleDown, if_pos within]
  · obtain ⟨places, rfl⟩ := Int.eq_ofNat_of_zero_le natural
    have small : places ≤ 22 := by omega
    have rounds :=
      rounds_mul (signs places) least most few (units_powerOfTen small)
        (nonzero places) (ten_pow_le small)
    rw [Nat.cast_pow, Nat.cast_ofNat, ← zpow_natCast] at rounds
    have within : places ≤ greatestPower := Nat.le_trans small (by decide)
    refine ⟨_, ?_, rounds⟩
    rw [if_neg (Int.not_lt.mpr natural), Int.natAbs_natCast, scaleUp, if_pos within]
    dsimp only
    rw [if_pos rounds.finite]

end Significands

section Ranges

variable {x y : Binary64} {places : Nat}

/-- A quotient by `10 ^ 20` or more is at most a half, so it is not read as
a natural number above zero. -/
theorem two_mul_units_div_le (small : x.units ≤ 2 ^ 64 * one) (many : 20 ≤ places) :
    2 * (x.div (powerOfTen places)).units ≤ one := by
  obtain ⟨level, same⟩ : ∃ level, level = 1021 := ⟨_, rfl⟩
  have half : 2 * (leadingBit * 2 ^ level) = one := by
    rw [one_eq_pow (by omega : 53 + level = 1074), Nat.pow_add, leadingBit]
    ring
  have finite : level * leadingBit + leadingBit < infinite := by
    rw [same]
    decide
  have above : 2 ^ 65 * one ≤ (powerOfTen places).units := by
    calc 2 ^ 65 * one ≤ 10 ^ 20 * one := Nat.mul_le_mul_right _ (by decide)
      _ = (powerOfTen 20).units := (units_powerOfTen (by decide)).symm
      _ ≤ (powerOfTen places).units :=
        units_le_units _ _ (ofNat_magnitude_le (Nat.pow_le_pow_right (by decide) many))
  generalize powerOfTen places = divisor at *
  have positive : 0 < divisor.units :=
    Nat.lt_of_lt_of_le (Nat.mul_pos (by decide) Binary64.one_pos) above
  have numerator : x.units * one ≤ leadingBit * 2 ^ level * divisor.units := by
    rw [← half, ← Nat.mul_assoc, Nat.mul_comm _ divisor.units, Nat.mul_comm x.units 2]
    exact Nat.mul_le_mul_right _ (by omega)
  have exact := nearest_exact level leadingBit divisor.units positive (by decide) fun _ =>
    Nat.le_refl _
  rw [Nat.min_eq_right (Nat.le_of_lt finite)] at exact
  have value :=
    (ofMagnitude_exact level leadingBit (by decide) (fun _ => Nat.le_refl _) finite false).2.2
  rw [← half, ← value]
  refine Nat.mul_le_mul_left 2 (units_le_units _ _ ?_)
  rw [magnitude_ofMagnitude _ _ (exact ▸ nearest_lt _ _), ← exact, div,
    magnitude_ofMagnitude _ _ (nearest_lt _ _)]
  exact nearest_le_nearest _ numerator

/-- What is scaled down by `10 ^ 20` or more is at most a half. -/
theorem two_mul_units_scaleDown_le (finite : x.isFinite = true) (small : x.units ≤ 2 ^ 64 * one)
    (many : 20 ≤ places) :
    2 * (scaleDown x places).units ≤ one := by
  rw [scaleDown]
  split
  · exact two_mul_units_div_le small many
  · split
    · next zero =>
      rw [units_eq_zero_iff.mpr zero]
      exact Nat.zero_le _
    · have smaller := (div_powerOfTen (x := x) greatestPower finite).1
      have bounded : x.magnitude < infinite := of_decide_eq_true finite
      have rest := (scaleDown_spec (x := x.div (powerOfTen greatestPower)) (places - greatestPower)
        (decide_eq_true (Nat.lt_of_le_of_lt smaller bounded))).1
      exact Nat.le_trans (Nat.mul_le_mul_left 2 (units_le_units _ _ rest))
        (two_mul_units_div_le small (by decide))

/-- A great product stays great when it is rounded, because 2⁶⁴ is not rounded itself. -/
theorem le_units_scaleUp (found : scaleUp x places = some y) (nonzero : x.units ≠ 0)
    (large : 2 ^ 64 * one * one ≤ x.units * (powerOfTen places).units) :
    2 ^ 64 * one ≤ y.units := by
  rw [scaleUp] at found
  split at found
  · dsimp only at found
    split at found
    · cases found
      have least :=
        le_units_nearest (x.isNegative != (powerOfTen places).isNegative) 1 64 (by decide)
          (by decide) Binary64.one_pos (Nat.one_mul (2 ^ 64) ▸ large)
      rwa [Nat.one_mul] at least
    · cases found
  · split at found
    · next zero => exact absurd (units_eq_zero_iff.mpr zero) nonzero
    · cases found

/-- A fraction of a unit or more is not rounded to zero, as rounding keeps order. -/
theorem nearest_pos {numerator denominator : Nat} (positive : 0 < denominator)
    (least : denominator ≤ numerator) :
    0 < nearest numerator denominator := by
  have single := nearest_exact 0 1 denominator positive (by decide) (by decide)
  rw [Nat.pow_zero, Nat.mul_one, Nat.one_mul] at single
  calc 0 < min infinite (0 * leadingBit + 1) := by decide
    _ = nearest denominator denominator := single.symm
    _ ≤ nearest numerator denominator := nearest_le_nearest denominator least

end Ranges

section Scaling

variable {scaled : Scaled} {magnitude : Binary64}

/-- What is known of the magnitude that a significand and a power of ten are
read as, whatever the power is. -/
structure Scaled.Reads (scaled : Scaled) (magnitude : Binary64) : Prop where
  finite : magnitude.isFinite = true
  positive : magnitude.isNegative = false
  low : scaled.power ≤ -20 → 2 * magnitude.units ≤ one
  high : 20 ≤ scaled.power → scaled.significand ≠ 0 → 2 ^ 64 * one ≤ magnitude.units
  zero : scaled.significand = 0 → magnitude.units = 0
  vanishing : magnitude.units = 0 → scaled.significand ≠ 0 → scaled.power < -308

/-- No power of ten has more units than the square of what the number one has. -/
theorem units_powerOfTen_le (places : Nat) : (powerOfTen places).units ≤ one * one := by
  obtain ⟨least, same⟩ : ∃ least, least = 1074 := ⟨_, rfl⟩
  have most : (powerOfTen places).magnitude ≤ infinite := by
    rw [powerOfTen, magnitude_ofNat]
    exact Nat.min_le_left _ _
  have scale : (powerOfTen places).scale ≤ 2046 := by
    simp only [Binary64.scale, infinite, leadingBit] at most ⊢
    omega
  have wide := significand_lt (powerOfTen places)
  rw [units_eq, one_eq_pow same, ← Nat.pow_add]
  calc (powerOfTen places).significand * 2 ^ (powerOfTen places).scale
      ≤ 2 ^ 53 * 2 ^ (powerOfTen places).scale := Nat.mul_le_mul_right _ (Nat.le_of_lt wide)
    _ = 2 ^ (53 + (powerOfTen places).scale) := (Nat.pow_add ..).symm
    _ ≤ 2 ^ (least + least) := Nat.pow_le_pow_right (by decide) (by omega)

/-- What is scaled down is read so: divided by one exact power, or by so great a one
that less than a half is left. -/
theorem reads_scaleDown (fits : scaled.significand ≤ greatest) (negative : scaled.power < 0) :
    scaled.Reads (scaleDown (Binary64.ofNat scaled.significand) scaled.power.natAbs) := by
  obtain ⟨smaller, sign⟩ := scaleDown_spec scaled.power.natAbs (ofNat_isFinite fits)
  have proper : (Binary64.ofNat scaled.significand).magnitude < infinite :=
    of_decide_eq_true (ofNat_isFinite fits)
  refine ⟨decide_eq_true (Nat.lt_of_le_of_lt smaller proper),
    sign.trans (isNegative_ofNat _), fun low => ?_,
    fun high => by omega, fun zero => ?_, fun none nonzero => ?_⟩
  · exact two_mul_units_scaleDown_le (ofNat_isFinite fits) (units_ofNat_le fits) (by omega)
  · have least := units_le_units _ _ smaller
    rw [zero] at least ⊢
    exact Nat.le_zero.mp (units_ofNat_zero ▸ least)
  · by_contra near
    have within : scaled.power.natAbs ≤ greatestPower := by
      rw [greatestPower]
      omega
    have large := one_le_units_ofNat (Nat.pos_of_ne_zero nonzero)
    rw [units_eq_zero_iff, scaleDown, if_pos within, div,
      magnitude_ofMagnitude _ _ (nearest_lt _ _)] at none
    have above := one_le_units_powerOfTen scaled.power.natAbs
    refine absurd none (Nat.ne_of_gt (nearest_pos (Nat.lt_of_lt_of_le Binary64.one_pos above) ?_))
    exact Nat.le_trans (units_powerOfTen_le _) (Nat.mul_le_mul_right _ large)

/-- What is scaled up is read so: multiplied by one exact power, or by so
great a one that it passes 2⁶⁴. -/
theorem reads_scaleUp (natural : 0 ≤ scaled.power)
    (found : scaleUp (Binary64.ofNat scaled.significand) scaled.power.natAbs = some magnitude) :
    scaled.Reads magnitude := by
  have above := one_le_units_powerOfTen scaled.power.natAbs
  have high (many : 20 ≤ scaled.power) (nonzero : scaled.significand ≠ 0) :
      2 ^ 64 * one ≤ magnitude.units := by
    have large := one_le_units_ofNat (Nat.pos_of_ne_zero nonzero)
    refine le_units_scaleUp found (Nat.ne_of_gt (Nat.lt_of_lt_of_le Binary64.one_pos large)) ?_
    have great : 10 ^ 20 * one ≤ (powerOfTen scaled.power.natAbs).units := by
      rw [← units_powerOfTen (by decide : 20 ≤ 22)]
      exact units_le_units _ _ (ofNat_magnitude_le (Nat.pow_le_pow_right (by decide) (by omega)))
    calc 2 ^ 64 * one * one ≤ 10 ^ 20 * one * one :=
      Nat.mul_le_mul_right _ (Nat.mul_le_mul_right _ (by decide))
      _ = one * (10 ^ 20 * one) := Nat.mul_comm _ _
      _ ≤ _ := Nat.mul_le_mul large great
  have low (few : scaled.power ≤ -20) : 2 * magnitude.units ≤ one := by omega
  rw [scaleUp] at found
  split at found
  · dsimp only at found
    split at found
    · next finite =>
      cases found
      refine ⟨finite, ?_, low, high, fun zero => ?_, fun none nonzero => ?_⟩
      · rw [mul, isNegative_ofMagnitude _ _ (nearest_lt _ _), isNegative_ofNat,
          isNegative_powerOfTen]
        rfl
      · have exact := nearest_exact 0 0 one Binary64.one_pos (by decide) (by decide)
        rw [Nat.zero_mul, Nat.zero_mul, Nat.zero_mul, Nat.add_zero, Nat.min_zero] at exact
        rw [units_eq_zero_iff, mul, magnitude_ofMagnitude _ _ (nearest_lt _ _), zero,
          units_ofNat_zero, Nat.zero_mul, exact]
      · have large := one_le_units_ofNat (Nat.pos_of_ne_zero nonzero)
        rw [units_eq_zero_iff, mul, magnitude_ofMagnitude _ _ (nearest_lt _ _)] at none
        refine absurd none (Nat.ne_of_gt (nearest_pos Binary64.one_pos ?_))
        exact Nat.le_trans large
          (Nat.le_mul_of_pos_right _ (Nat.lt_of_lt_of_le Binary64.one_pos above))
    · cases found
  · split at found
    · next zero =>
      cases found
      have none : scaled.significand = 0 := by
        by_contra nonzero
        have large := one_le_units_ofNat (Nat.pos_of_ne_zero nonzero)
        rw [units_eq_zero_iff.mpr zero] at large
        exact absurd large (Nat.not_le.mpr Binary64.one_pos)
      exact ⟨ofNat_isFinite (none ▸ Nat.zero_le _), isNegative_ofNat _, low, high, fun _ =>
        units_eq_zero_iff.mpr zero,
        fun _ nonzero => absurd none nonzero⟩
    · cases found

/-- Whatever a significand and a power are read as, they are read so, by one case
for each sign of the power. -/
theorem reads_magnitude? (scaled : Scaled) (fits : scaled.significand ≤ greatest)
    (found : scaled.magnitude? = some magnitude) :
    scaled.Reads magnitude := by
  rw [Scaled.magnitude?] at found
  split at found
  · next negative =>
    cases found
    exact reads_scaleDown fits negative
  · next natural => exact reads_scaleUp (Int.not_lt.mp natural) found

/-- Zero is read with every power, as nothing overflows. -/
theorem exists_magnitude?_zero (power : Int) :
    ∃ magnitude, Scaled.magnitude? ⟨0, power⟩ = some magnitude := by
  have none : (Binary64.ofNat 0).magnitude = 0 := units_eq_zero_iff.mp units_ofNat_zero
  rw [Scaled.magnitude?]
  dsimp only
  split
  · exact ⟨_, rfl⟩
  · rw [scaleUp]
    by_cases within : power.natAbs ≤ greatestPower
    · have product := nearest_exact 0 0 one Binary64.one_pos (by decide) (by decide)
      rw [Nat.zero_mul, Nat.zero_mul, Nat.zero_mul, Nat.add_zero, Nat.min_zero] at product
      have finite : ((Binary64.ofNat 0).mul (powerOfTen power.natAbs)).isFinite = true := by
        rw [isFinite, mul, magnitude_ofMagnitude _ _ (nearest_lt _ _), units_ofNat_zero,
          Nat.zero_mul, product]
        decide
      rw [if_pos within]
      dsimp only
      rw [if_pos finite]
      exact ⟨_, rfl⟩
    · rw [if_neg within, if_pos none]
      exact ⟨_, rfl⟩

/-- A significand without room for a digit gives 2⁶⁴ or more as soon as it is scaled up: what it is
rounded to is a multiple of 2⁸ that is greater than a tenth of 2⁶⁴. -/
theorem le_units_magnitude? (wide : greatest / 10 ≤ scaled.significand)
    (scaledUp : 1 ≤ scaled.power)
    (found : scaled.magnitude? = some magnitude) : 2 ^ 64 * one ≤ magnitude.units := by
  rw [Scaled.magnitude?, if_neg (by omega)] at found
  obtain ⟨multiple, units, half⟩ :=
    exists_units_ofNat (greatest / 10) 8 (by decide) (by decide) (by decide)
  have enough : 7205759403792794 ≤ multiple := by
    simp only [greatest, UInt64.size] at half
    omega
  have large : 7205759403792794 * 2 ^ 8 * one ≤ (Binary64.ofNat scaled.significand).units := by
    refine Nat.le_trans ?_ (units_le_units _ _ (ofNat_magnitude_le wide))
    rw [units]
    exact Nat.mul_le_mul_right _ (Nat.mul_le_mul_right _ enough)
  have ten : 10 * one ≤ (powerOfTen scaled.power.natAbs).units := by
    have exact := units_powerOfTen (by decide : 1 ≤ 22)
    rw [Nat.pow_one] at exact
    rw [← exact]
    exact units_le_units _ _ (ofNat_magnitude_le (Nat.pow_le_pow_right (by decide) (by omega)))
  have positive : 0 < 7205759403792794 * 2 ^ 8 * one := Nat.mul_pos (by decide) Binary64.one_pos
  refine le_units_scaleUp found (Nat.ne_of_gt (Nat.lt_of_lt_of_le positive large)) ?_
  calc 2 ^ 64 * one * one ≤ 7205759403792794 * 2 ^ 8 * 10 * one * one :=
        Nat.mul_le_mul_right _ (Nat.mul_le_mul_right _ (by decide))
    _ = 7205759403792794 * 2 ^ 8 * one * (10 * one) := by ring
    _ ≤ _ := Nat.mul_le_mul large ten

end Scaling

end LedgerIntake.Json.Number.Literal
