import LedgerIntake.Proofs.Json.NumeralRounding

/-!
# Magnitudes of numerals

A numeral is read by way of the magnitude that its significand and its powers of ten give, and that
magnitude is compared with what the numeral denotes. They are close to each other wherever the
magnitude is a natural number other than zero; zero is given by what denotes almost nothing; and
what denotes a number of moderate size has a magnitude. Powers of ten are counted up to 2³¹, so the
laws that go from the numeral to its magnitude are about numerals of at most two billion digits.
-/

namespace LedgerIntake.Json.Number.Literal

open Binary64

/-- A power of ten that is as good as another: the same, or one beyond the range
of binary64 on the same side. -/
def Clamped (power power' : Int) : Prop :=
  power' = power ∨ (power < -308 ∧ power' < -308) ∨ (308 < power ∧ 308 < power')

/-- A power that is clamped stays between the bounds. -/
theorem clamped_clampPower (power : Int) : Clamped power (clampPower power) := by
  simp only [Clamped, clampPower, powerLimit]
  omega

/-- The power of ten that the significand of a literal is scaled by. -/
def scaling (literal : Literal) : Int := literal.scaled.power + literal.written

/-- The rounded significand, scaled by that power: what is rounded last. -/
def scaledSize (literal : Literal) : ℚ :=
  (Binary64.ofNat literal.scaled.significand).extent * 10 ^ literal.scaling

section Magnitudes

variable {literal : Literal} {magnitude : Binary64}

/-- Powers of ten below 2³¹ are added to what the digits give, clamped to the range
in which powers are counted. -/
theorem magnitude?_eq (few : literal.written.natAbs ≤ powerLimit) :
    ∃ power, Clamped literal.scaling power ∧
      literal.magnitude? = Scaled.magnitude? ⟨literal.scaled.significand, power⟩ := by
  rw [Literal.magnitude?, scaling]
  unfold written at few ⊢
  revert few
  cases literal.exponent with
  | none => exact fun _ => ⟨literal.scaled.power, .inl (Int.add_zero _).symm, rfl⟩
  | some exponent =>
    intro few
    obtain ⟨negative, digits⟩ := exponent
    refine ⟨clampPower (literal.scaled.power + if negative then -(natural digits : Int)
      else natural digits),
      clamped_clampPower _, ?_⟩
    dsimp only at few ⊢
    cases negative with
    | true =>
      rw [if_pos rfl, Int.natAbs_neg, Int.natAbs_natCast] at few
      rw [if_neg (Nat.not_lt.mpr few), if_pos rfl, if_pos rfl, Int.sub_eq_add_neg]
    | false =>
      rw [if_neg Bool.false_ne_true, Int.natAbs_natCast] at few
      rw [if_neg (Nat.not_lt.mpr few), if_neg Bool.false_ne_true, if_neg Bool.false_ne_true]

/-- Powers of ten from 2³¹ on give zero, or nothing: their own digits
are not counted any further. -/
theorem magnitude?_far (far : powerLimit < literal.written.natAbs) :
    literal.magnitude? = some magnitude ↔
      magnitude = .ofMagnitude false 0 ∧
        (literal.written < 0 ∨ literal.scaled.significand = 0) := by
  rw [Literal.magnitude?, @eq_comm _ magnitude]
  unfold written at far ⊢
  revert far
  cases literal.exponent with
  | none => exact fun far => absurd far (by decide)
  | some exponent =>
    intro far
    obtain ⟨negative, digits⟩ := exponent
    dsimp only at far ⊢
    cases negative with
    | true =>
      rw [if_pos rfl, Int.natAbs_neg, Int.natAbs_natCast] at far
      have below : -(natural digits : Int) < 0 := by omega
      rw [if_pos far, Bool.true_or, if_pos rfl, if_pos rfl, Option.some.injEq]
      exact (and_iff_left (.inl below)).symm
    | false =>
      rw [if_neg Bool.false_ne_true, Int.natAbs_natCast] at far
      have above : ¬(natural digits : Int) < 0 := by omega
      rw [if_pos far, if_neg Bool.false_ne_true, Bool.false_or, or_iff_right above]
      by_cases zero : literal.scaled.significand = 0
      · rw [if_pos (decide_eq_true zero), Option.some.injEq]
        exact (and_iff_left zero).symm
      · rw [if_neg (by simpa using zero)]
        exact iff_of_false (fun same => by cases same) fun both => zero both.2

/-- The size of a literal as its significand and its powers give it, but for what is dropped. -/
theorem within_size (proper : literal.WellFormed) :
    Within droppingFactor (literal.scaled.significand * 10 ^ literal.scaling) literal.size := by
  have close := (covers_scaled proper).close.mul_right (10 ^ literal.written) (ten_zpow_pos _).le
  rw [Scaled.value, mul_assoc, mul_assoc, ← zpow_add₀ (by norm_num),
    ← zpow_add₀ (by norm_num)] at close
  rwa [size, power, Int.sub_eq_add_neg, Int.add_comm literal.written]

/-- What is known of the magnitude that a literal is read as. -/
structure Reads (literal : Literal) (magnitude : Binary64) : Prop where
  finite : magnitude.isFinite = true
  positive : magnitude.isNegative = false
  /-- A magnitude that is a natural number other than zero has been rounded twice at most. -/
  rounds : one ≤ magnitude.units → magnitude.units < 2 ^ 64 * one →
    0 < literal.scaled.significand ∧ Rounds magnitude literal.scaledSize
  /-- Nothing but zero and what is far too small becomes zero. -/
  vanishing : magnitude.units = 0 →
    literal.scaled.significand = 0 ∨ literal.scaling < -308 ∨ literal.written < -powerLimit

/-- Whatever magnitude a literal is read as is read so: zero, one rounding of a scaled significand,
or a chain of them. The cases are those of the reader. -/
theorem reads (proper : literal.WellFormed) (found : literal.magnitude? = some magnitude) :
    literal.Reads magnitude := by
  have fits := (covers_scaled proper).fits
  by_cases few : literal.written.natAbs ≤ powerLimit
  · obtain ⟨power, clamped, same⟩ := magnitude?_eq few
    rw [same] at found
    have spec := reads_magnitude? ⟨_, power⟩ fits found
    refine ⟨spec.finite, spec.positive, fun least less => ?_, fun none => ?_⟩
    · have nonzero : literal.scaled.significand ≠ 0 := by
        intro zero
        have none := spec.zero zero
        have unit := Binary64.one_pos
        omega
      have low : -20 < power := by
        by_contra low
        have half := spec.low (Int.not_lt.mp low)
        have unit := Binary64.one_pos
        omega
      have high : power < 20 := by
        by_contra high
        have great := spec.high (Int.not_lt.mp high) nonzero
        omega
      have equal : power = literal.scaling := by
        simp only [Clamped] at clamped
        omega
      obtain ⟨_, read, rounds⟩ :=
        rounds_magnitude? (Nat.pos_of_ne_zero nonzero) fits
          (Int.le_of_lt (by omega : -22 < power)) (by omega)
      rw [read] at found
      cases found
      rw [equal] at rounds
      exact ⟨Nat.pos_of_ne_zero nonzero, rounds⟩
    · refine or_iff_not_imp_left.mpr fun nonzero => .inl ?_
      have low := spec.vanishing none nonzero
      simp only [Clamped] at clamped
      dsimp only at low
      omega
  · obtain ⟨rfl, zero⟩ := (magnitude?_far (Nat.not_le.mp few)).mp found
    have none : (Binary64.ofMagnitude false 0).units = 0 := by decide
    refine ⟨by decide, by decide, fun least _ => ?_, fun _ => ?_⟩
    · rw [none] at least
      exact absurd least (Nat.not_le.mpr Binary64.one_pos)
    · rcases zero with negative | zero
      · exact .inr (.inr (by omega))
      · exact .inl zero

/-- A significand of zero is read whatever the powers are, as zero. -/
theorem exists_magnitude?_of_zero (zero : literal.scaled.significand = 0) :
    ∃ magnitude, literal.magnitude? = some magnitude ∧ magnitude.units = 0 := by
  by_cases few : literal.written.natAbs ≤ powerLimit
  · obtain ⟨power, -, same⟩ := magnitude?_eq few
    rw [zero] at same
    obtain ⟨magnitude, found⟩ := exists_magnitude?_zero power
    exact ⟨magnitude, same.trans found,
      (reads_magnitude? ⟨0, power⟩ (Nat.zero_le _) found).zero rfl⟩
  · exact ⟨_, (magnitude?_far (Nat.not_le.mp few)).mpr ⟨rfl, .inr zero⟩, by decide⟩

end Magnitudes

/-- The factor between what is read and what is written: two roundings, and
the digits that are dropped. -/
def readingFactor : ℚ := roundingFactor * (roundingFactor * droppingFactor)

/-- Both roundings and the digits that are dropped come together to less than one part in 2⁵¹. -/
theorem abs_sub_le_of_within {x y : ℚ} (nonneg : 0 ≤ x) (close : Within readingFactor x y) :
    |y - x| ≤ x / 2 ^ 51 := by
  obtain ⟨below, above⟩ := close
  rw [readingFactor, roundingFactor, droppingFactor] at below above
  rw [abs_le]
  constructor
  · linarith
  · linarith

section Sizes

variable {literal : Literal} {magnitude : Binary64} (proper : literal.WellFormed)

/-- The size of a literal is not negative. -/
theorem size_nonneg (literal : Literal) : 0 ≤ literal.size :=
  mul_nonneg (Nat.cast_nonneg _) (ten_zpow_pos _).le

/-- The size of a literal is positive if a digit of it is not zero. -/
theorem size_pos (positive : 0 < literal.coefficient) : 0 < literal.size :=
  mul_pos (Nat.cast_pos.mpr positive) (ten_zpow_pos _)

include proper

/-- A significand that is rounded once, and once more when it is scaled, is
within the factor of a reading. -/
theorem within_of_rounds (positive : 0 < literal.scaled.significand)
    (rounds : Rounds magnitude literal.scaledSize) :
    Within readingFactor magnitude.extent literal.size := by
  have fits := (covers_scaled proper).fits
  have wide : literal.scaled.significand < 2 ^ 100 := Nat.lt_of_le_of_lt fits (by decide)
  have scaled :=
    (rounds_ofNat positive wide).within.mul_right (10 ^ literal.scaling) (ten_zpow_pos _).le
  have dropping : 0 ≤ droppingFactor := by norm_num [droppingFactor]
  exact rounds.within.trans roundingFactor_nonneg (mul_nonneg roundingFactor_nonneg dropping)
    (scaled.trans roundingFactor_nonneg dropping (within_size proper))

/-- A literal with a significand of zero denotes zero, so no small
number is lost among its digits. -/
theorem size_eq_zero (zero : literal.scaled.significand = 0) : literal.size = 0 := by
  have close := (within_size proper).ge
  rw [zero, Nat.cast_zero, zero_mul, mul_zero] at close
  exact le_antisymm close (mul_nonneg (Nat.cast_nonneg _) (ten_zpow_pos _).le)

/-- All digits of a proper literal are decimal, before and after the point. -/
theorem isDigit_digits : ∀ digit ∈ literal.digits, digit.isDigit = true := by
  intro digit among
  rcases List.mem_append.mp among with whole | fraction
  · exact proper.whole.2 digit whole
  · exact isDigit_fractional proper digit fraction

/-- The significand is zero exactly if all digits are: no digit that is taken in is lost. -/
theorem significand_eq_zero_iff : literal.scaled.significand = 0 ↔ literal.coefficient = 0 := by
  constructor
  · intro zero
    by_contra nonzero
    exact absurd (size_eq_zero proper zero) (size_pos (Nat.pos_of_ne_zero nonzero)).ne'
  · intro zero
    have close := (within_size proper).le
    rw [size, zero, Nat.cast_zero, zero_mul, mul_zero] at close
    by_contra nonzero
    have product :=
      mul_pos (Nat.cast_pos.mpr (Nat.pos_of_ne_zero nonzero)) (ten_zpow_pos literal.scaling)
    exact absurd close (not_le.mpr product)

/-- Only what denotes almost nothing is read as zero. From 2³¹ on powers are not counted, which is
why the digits have to be few. -/
theorem size_lt_of_vanishing (few : literal.digits.length ≤ 2 * 10 ^ 9)
    (found : literal.magnitude? = some magnitude)
    (none : magnitude.units = 0) : literal.size < 10 ^ (-280 : ℤ) := by
  rcases (reads proper found).vanishing none with zero | low | low
  · rw [size_eq_zero proper zero]
    exact ten_zpow_pos _
  · have fits : (literal.scaled.significand : ℚ) ≤ 10 ^ 20 := by
      have natural : literal.scaled.significand ≤ 10 ^ 20 :=
        Nat.le_trans (covers_scaled proper).fits (by decide)
      exact_mod_cast natural
    have step := ten_zpow_pos literal.scaling
    calc literal.size
        ≤ droppingFactor * (literal.scaled.significand * 10 ^ literal.scaling) :=
          (within_size proper).ge
      _ ≤ 10 * (10 ^ 20 * 10 ^ literal.scaling) := by
        gcongr
        norm_num [droppingFactor]
      _ = 10 ^ (21 + literal.scaling) := by
        rw [zpow_add₀ (by norm_num) 21]
        norm_num
        ring
      _ < 10 ^ (-280 : ℤ) := zpow_lt_zpow_right₀ (by norm_num) (by omega)
  · have bounded : (literal.coefficient : ℚ) ≤ 10 ^ (literal.digits.length : ℤ) := by
      have natural := (ofDigitChars_bounds (isDigit_digits proper) 0).2.le
      rw [Nat.zero_add, Nat.one_mul] at natural
      rw [zpow_natCast]
      exact_mod_cast natural
    calc literal.size ≤ 10 ^ (literal.digits.length : ℤ) * 10 ^ literal.power :=
          mul_le_mul_of_nonneg_right bounded (ten_zpow_pos _).le
      _ = 10 ^ (literal.digits.length + literal.power) := (zpow_add₀ (by norm_num) _ _).symm
      _ < 10 ^ (-280 : ℤ) := by
        refine zpow_lt_zpow_right₀ (by norm_num) ?_
        simp only [power, powerLimit] at *
        omega

/-- A significand that is scaled moderately is rounded once more, as powers up to 10²² are exact. -/
theorem exists_rounds (few : literal.digits.length ≤ 2 * 10 ^ 9)
    (positive : 0 < literal.scaled.significand)
    (low : -22 ≤ literal.scaling) (high : literal.scaling ≤ 22) :
    ∃ magnitude, literal.magnitude? = some magnitude ∧ Rounds magnitude literal.scaledSize := by
  have covers := covers_scaled proper
  have lengths : literal.digits.length = literal.whole.length + literal.fractional.length :=
    List.length_append
  have counted : literal.written.natAbs ≤ powerLimit := by
    have lowest := covers.lowest
    have highest := covers.highest
    rw [scaling] at low high
    rw [powerLimit]
    omega
  obtain ⟨power, clamped, same⟩ := magnitude?_eq counted
  have equal : power = literal.scaling := by
    simp only [Clamped] at clamped
    omega
  rw [same, equal]
  exact rounds_magnitude? positive covers.fits low high

/-- Every size from 2⁵³ almost up to 2⁶⁴ is read as some natural number, because
floats of that size are integers. -/
theorem exists_natural (few : literal.digits.length ≤ 2 * 10 ^ 9) (least : 2 ^ 53 ≤ literal.size)
    (most : literal.size ≤ 2 ^ 64 - 2 ^ 13) : ∃ magnitude, literal.magnitude? = some magnitude ∧
      ∃ natural : Nat, natural < 2 ^ 64 ∧ magnitude.extent = natural := by
  have close := within_size proper
  have positive : 0 < literal.scaled.significand := by
    by_contra zero
    rw [size_eq_zero proper (by omega)] at least
    norm_num at least
  have fits : (literal.scaled.significand : ℚ) < 2 ^ 64 := by
    have natural : literal.scaled.significand < 2 ^ 64 :=
      Nat.lt_of_le_of_lt (covers_scaled proper).fits (by decide)
    exact_mod_cast natural
  have present : (1 : ℚ) ≤ literal.scaled.significand := by exact_mod_cast positive
  have step := ten_zpow_pos literal.scaling
  have low : -22 ≤ literal.scaling := by
    by_contra low
    have small : (10 : ℚ) ^ literal.scaling ≤ 10 ^ (-22 : ℤ) :=
      zpow_le_zpow_right₀ (by norm_num) (by omega)
    have product : literal.scaled.significand * (10 : ℚ) ^ literal.scaling
        ≤ 2 ^ 64 * 10 ^ (-22 : ℤ) := mul_le_mul fits.le small step.le (by norm_num)
    have above := close.ge
    norm_num [droppingFactor] at above product least
    linarith
  have high : literal.scaling ≤ 22 := by
    by_contra high
    have great : (10 : ℚ) ^ (22 : ℤ) ≤ 10 ^ literal.scaling :=
      zpow_le_zpow_right₀ (by norm_num) (by omega)
    have product : 1 * (10 : ℚ) ^ (22 : ℤ)
        ≤ literal.scaled.significand * 10 ^ literal.scaling :=
      mul_le_mul present great (by norm_num) (by linarith)
    have below := close.le
    norm_num [droppingFactor] at below product most
    linarith
  obtain ⟨magnitude, found, rounds⟩ := exists_rounds proper few positive low high
  obtain ⟨below, above⟩ := within_of_rounds proper positive rounds
  rw [readingFactor, roundingFactor, droppingFactor] at below above
  obtain ⟨natural, same⟩ : ∃ natural : Nat, magnitude.extent = natural :=
    exists_extent_eq (by linarith)
  refine ⟨magnitude, found, natural, ?_, same⟩
  have bounded : (natural : ℚ) < 2 ^ 64 := by linarith
  exact_mod_cast bounded

end Sizes

end LedgerIntake.Json.Number.Literal
