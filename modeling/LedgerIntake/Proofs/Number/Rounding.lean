import LedgerIntake.Proofs.Number.Binary64

/-!
# Rounding

Rounding to the nearest magnitude is monotone, leaves what a magnitude stands for as it is, and is
bounded by the scale of the quotient. Integers up to 2⁵³ are among what is left as it is.
-/

namespace LedgerIntake.Binary64

section Division

variable {numerator numerator' denominator : Nat}

/-- A rounded quotient is one of the two integers around the quotient. -/
theorem roundDivision_bounds (numerator denominator : Nat) :
    numerator / denominator ≤ roundDivision numerator denominator ∧
      roundDivision numerator denominator ≤ numerator / denominator + 1 := by
  unfold roundDivision
  dsimp only
  split
  · omega
  · split
    · omega
    · omega

/-- A quotient that leaves no remainder is not rounded, so exact results are kept. -/
theorem roundDivision_mul (quotient denominator : Nat) (positive : 0 < denominator) :
    roundDivision (quotient * denominator) denominator = quotient := by
  unfold roundDivision
  dsimp only
  rw [Nat.mul_mod_left, Nat.mul_div_cancel _ positive, Nat.mul_zero, if_pos positive]

/-- Greater numerators round to greater quotients. Between two integers the remainders decide, and a
tie goes up only if the greater one does. -/
theorem roundDivision_le_roundDivision (atMost : numerator ≤ numerator') :
    roundDivision numerator denominator ≤ roundDivision numerator' denominator := by
  have quotients : numerator / denominator ≤ numerator' / denominator := Nat.div_le_div_right atMost
  rcases Nat.lt_or_eq_of_le quotients with less | same
  · have upper := (roundDivision_bounds numerator denominator).2
    have lower := (roundDivision_bounds numerator' denominator).1
    omega
  · have first := Nat.div_add_mod numerator denominator
    have second := Nat.div_add_mod numerator' denominator
    rw [same] at first
    have remainders : numerator % denominator ≤ numerator' % denominator := by omega
    unfold roundDivision
    dsimp only
    rw [same]
    split
    · split
      · exact Nat.le_refl _
      · split
        · exact Nat.le_succ _
        · exact Nat.le_add_right _ _
    · split
      · rw [if_neg (by omega), if_pos (by omega)]
      · split
        · omega
        · split
          · omega
          · exact Nat.le_refl _

end Division

/-- The scale that keeps 53 bits of a quotient. -/
def scaleFor (numerator denominator : Nat) : Nat := (numerator / denominator).log2 - 52

/-- The nearest magnitude: the scale in the field of the exponent and the rounded
quotient below it, or infinity. -/
theorem nearest_eq (numerator denominator : Nat) :
    nearest numerator denominator = min infinite (scaleFor numerator denominator * leadingBit
      + roundDivision numerator (denominator <<< scaleFor numerator denominator)) := rfl

/-- At its scale a quotient has at most 53 bits, and all of them unless the scale is the least. -/
theorem rounded_bounds (numerator denominator : Nat) :
    roundDivision numerator (denominator <<< scaleFor numerator denominator) ≤ 2 * leadingBit ∧
      (0 < scaleFor numerator denominator →
        leadingBit ≤ roundDivision numerator (denominator <<< scaleFor numerator denominator)) := by
  obtain ⟨lower, upper⟩ :=
    roundDivision_bounds numerator (denominator <<< scaleFor numerator denominator)
  have quotient : numerator / (denominator <<< scaleFor numerator denominator)
      = numerator / denominator / 2 ^ scaleFor numerator denominator := by
    rw [Nat.shiftLeft_eq, Nat.div_div_eq_div_mul]
  rw [quotient] at lower upper
  have below : numerator / denominator < 2 ^ ((numerator / denominator).log2 + 1) :=
    Nat.lt_log2_self
  have bits : numerator / denominator / 2 ^ scaleFor numerator denominator < 2 * leadingBit := by
    apply (Nat.div_lt_iff_lt_mul (by positivity)).mpr
    calc numerator / denominator
        < 2 ^ ((numerator / denominator).log2 + 1) := below
      _ ≤ 2 ^ (53 + scaleFor numerator denominator) :=
        Nat.pow_le_pow_right (by decide) (by simp only [scaleFor]; omega)
      _ = 2 * leadingBit * 2 ^ scaleFor numerator denominator := by rw [Nat.pow_add]; rfl
  refine ⟨by omega, ?_⟩
  intro scaled
  refine Nat.le_trans ?_ lower
  apply (Nat.le_div_iff_mul_le (by positivity)).mpr
  have nonzero : numerator / denominator ≠ 0 := by
    intro zero
    rw [scaleFor, zero] at scaled
    contradiction
  calc leadingBit * 2 ^ scaleFor numerator denominator
      = 2 ^ (52 + scaleFor numerator denominator) := by rw [Nat.pow_add]; rfl
    _ = 2 ^ (numerator / denominator).log2 := by
      congr 1
      simp only [scaleFor] at scaled ⊢
      omega
    _ ≤ numerator / denominator := Nat.log2_self_le nonzero

/-- A greater numerator is scaled no less, as its quotient has no fewer bits. -/
theorem scaleFor_le_scaleFor {numerator numerator' : Nat} (denominator : Nat)
    (atMost : numerator ≤ numerator') :
    scaleFor numerator denominator ≤ scaleFor numerator' denominator := by
  have quotients : numerator / denominator ≤ numerator' / denominator := Nat.div_le_div_right atMost
  apply Nat.sub_le_sub_right
  by_cases zero : numerator / denominator = 0
  · rw [zero]
    exact Nat.zero_le _
  · have nonzero : numerator' / denominator ≠ 0 :=
      Nat.ne_of_gt (Nat.lt_of_lt_of_le (Nat.pos_of_ne_zero zero) quotients)
    apply (Nat.le_log2 nonzero).mpr
    exact Nat.le_trans (Nat.log2_self_le zero) quotients

/-- Greater quotients round to greater magnitudes. If the scales differ, a full significand of the
greater one settles it; else the rounded quotients are compared. -/
theorem nearest_le_nearest {numerator numerator' : Nat} (denominator : Nat)
    (atMost : numerator ≤ numerator') :
    nearest numerator denominator ≤ nearest numerator' denominator := by
  rw [nearest_eq, nearest_eq]
  refine Nat.le_min.mpr ⟨Nat.min_le_left _ _, Nat.le_trans (Nat.min_le_right _ _) ?_⟩
  have scales := scaleFor_le_scaleFor denominator atMost
  rcases Nat.lt_or_eq_of_le scales with lower | same
  · have upper := (rounded_bounds numerator denominator).1
    have full := (rounded_bounds numerator' denominator).2 (by omega)
    have levels : (scaleFor numerator denominator + 1) * leadingBit
        ≤ scaleFor numerator' denominator * leadingBit := Nat.mul_le_mul_right _ lower
    rw [Nat.succ_mul] at levels
    omega
  · rw [same]
    exact Nat.add_le_add_left (roundDivision_le_roundDivision atMost) _

/-- A quotient below a power of two rounds to a magnitude of a lower scale. -/
theorem nearest_le_of_lt (numerator denominator bits : Nat) (positive : 0 < denominator)
    (wide : 53 ≤ bits)
    (bounded : numerator < 2 ^ bits * denominator) :
    nearest numerator denominator ≤ (bits - 51) * leadingBit := by
  have quotient : numerator / denominator < 2 ^ bits := (Nat.div_lt_iff_lt_mul positive).mpr bounded
  have scale : scaleFor numerator denominator ≤ bits - 53 := by
    by_cases zero : numerator / denominator = 0
    · simp only [scaleFor, zero]
      exact Nat.zero_le _
    · have log : (numerator / denominator).log2 < bits := (Nat.log2_lt zero).mpr quotient
      simp only [scaleFor]
      omega
  have upper := (rounded_bounds numerator denominator).1
  rw [nearest_eq]
  refine Nat.le_trans (Nat.min_le_right _ _) ?_
  calc scaleFor numerator denominator * leadingBit
        + roundDivision numerator (denominator <<< scaleFor numerator denominator)
      ≤ (bits - 53) * leadingBit + 2 * leadingBit :=
        Nat.add_le_add (Nat.mul_le_mul_right _ scale) upper
    _ = (bits - 51) * leadingBit := by rw [← Nat.add_mul]; congr 1; omega

/-- A scale and a significand that fit are not rounded: the scale that is chosen for their value is
the given one, and the division at that scale is exact. -/
theorem nearest_exact (level coefficient denominator : Nat) (positive : 0 < denominator)
    (bounded : coefficient < 2 * leadingBit) (full : 0 < level → leadingBit ≤ coefficient) :
    nearest (coefficient * 2 ^ level * denominator) denominator
      = min infinite (level * leadingBit + coefficient) := by
  have quotient : coefficient * 2 ^ level * denominator / denominator = coefficient * 2 ^ level :=
    Nat.mul_div_cancel _ positive
  have scale : scaleFor (coefficient * 2 ^ level * denominator) denominator = level := by
    rw [scaleFor, quotient]
    by_cases zero : level = 0
    · subst zero
      rw [Nat.pow_zero, Nat.mul_one]
      by_cases none : coefficient = 0
      · subst none
        rfl
      · have log : coefficient.log2 < 53 := (Nat.log2_lt none).mpr bounded
        omega
    · have least := full (Nat.pos_of_ne_zero zero)
      have nonzero : coefficient * 2 ^ level ≠ 0 := by
        have some : 0 < coefficient := Nat.lt_of_lt_of_le (by decide) least
        positivity
      have below : (coefficient * 2 ^ level).log2 < 53 + level := by
        apply (Nat.log2_lt nonzero).mpr
        rw [Nat.pow_add]
        exact (Nat.mul_lt_mul_right (by positivity)).mpr bounded
      have above : 52 + level ≤ (coefficient * 2 ^ level).log2 := by
        apply (Nat.le_log2 nonzero).mpr
        rw [Nat.pow_add]
        exact Nat.mul_le_mul_right _ least
      omega
  have shifted : coefficient * 2 ^ level * denominator = coefficient * (denominator <<< level) := by
    rw [Nat.shiftLeft_eq]
    ring
  have divisor : 0 < denominator <<< level := by
    rw [Nat.shiftLeft_eq]
    positivity
  rw [nearest_eq, scale, shifted, roundDivision_mul _ _ divisor]

/-- The number one has units, so divisions by them are proper. -/
theorem one_pos : 0 < one := by
  rw [one, Nat.one_shiftLeft]
  positivity

section Exact

variable (level coefficient : Nat) (bounded : coefficient < 2 * leadingBit)
  (full : 0 < level → leadingBit ≤ coefficient)
    (finite : level * leadingBit + coefficient < infinite)

include bounded full finite

/-- A scale and a significand that fit make a finite number, which has the given sign
and counts just their value. -/
theorem ofMagnitude_exact (negative : Bool) :
    (ofMagnitude negative (level * leadingBit + coefficient)).isFinite = true ∧
      (ofMagnitude negative (level * leadingBit + coefficient)).isNegative = negative ∧
      (ofMagnitude negative (level * leadingBit + coefficient)).units
        = coefficient * 2 ^ level := by
  have room : level * leadingBit + coefficient < signBit := Nat.lt_trans finite (by decide)
  have magnitude := magnitude_ofMagnitude negative _ room
  obtain ⟨scale, significand⟩ := scale_significand_unique _ level coefficient magnitude bounded full
  refine ⟨?_, isNegative_ofMagnitude negative _ room, ?_⟩
  · exact decide_eq_true (magnitude.symm ▸ finite)
  · rw [units_eq, scale, significand]

/-- A fraction that equals a scale and a significand that fit becomes their
number, and nothing is lost. -/
theorem ofFraction_exact (negative : Bool) (numerator denominator : Nat)
    (positive : 0 < denominator)
    (same : numerator * one = coefficient * 2 ^ level * denominator) :
    ofFraction negative numerator denominator
      = ofMagnitude negative (level * leadingBit + coefficient) := by
  rw [ofFraction, same, nearest_exact level coefficient denominator positive bounded full,
    Nat.min_eq_right (Nat.le_of_lt finite)]

end Exact

/-- An integer up to 2⁵³ has a scale and a full significand. Shifting it until it has 53 bits gives
both, and 2⁵³ itself is one bit longer. -/
theorem exists_significand (value : Nat) (positive : 0 < value) (small : value ≤ 2 ^ 53) :
    ∃ level coefficient, value * one = coefficient * 2 ^ level ∧ leadingBit ≤ coefficient ∧
      coefficient < 2 * leadingBit ∧ level ≤ 1075 := by
  rcases Nat.lt_or_eq_of_le small with less | rfl
  · have nonzero : value ≠ 0 := Nat.ne_of_gt positive
    have log : value.log2 < 53 := (Nat.log2_lt nonzero).mpr less
    have lower : 2 ^ value.log2 ≤ value := Nat.log2_self_le nonzero
    have upper : value < 2 ^ (value.log2 + 1) := Nat.lt_log2_self
    refine ⟨1022 + value.log2, value * 2 ^ (52 - value.log2), ?_, ?_, ?_, by omega⟩
    · rw [Nat.mul_assoc, ← Nat.pow_add, one, Nat.one_shiftLeft]
      congr 2
      omega
    · calc leadingBit = 2 ^ value.log2 * 2 ^ (52 - value.log2) := by
            rw [← Nat.pow_add, Nat.add_sub_cancel' (by omega)]
            rfl
        _ ≤ value * 2 ^ (52 - value.log2) := Nat.mul_le_mul_right _ lower
    · calc value * 2 ^ (52 - value.log2)
          < 2 ^ (value.log2 + 1) * 2 ^ (52 - value.log2) :=
            (Nat.mul_lt_mul_right (by positivity)).mpr upper
        _ = 2 * leadingBit := by
          rw [← Nat.pow_add, show value.log2 + 1 + (52 - value.log2) = 53 by omega]
          rfl
  · have raised (power : Nat) : 2 ^ 53 * 2 ^ power = leadingBit * 2 ^ (power + 1) := by
      rw [Nat.pow_succ, leadingBit]
      ring
    obtain ⟨power, same⟩ : ∃ power, power = 1074 := ⟨_, rfl⟩
    refine ⟨power + 1, leadingBit, ?_, Nat.le_refl _, by decide, by omega⟩
    rw [one, Nat.one_shiftLeft, ← same]
    exact raised power

/-- An integer up to 2⁵³ is the value of the number that is nearest to it. -/
theorem ofFraction_integer (negative : Bool) (value : Nat) (small : value ≤ 2 ^ 53) :
    (ofFraction negative value 1).isFinite = true ∧
    (ofFraction negative value 1).isNegative = negative ∧
      (ofFraction negative value 1).units = value * one := by
  rcases Nat.eq_zero_or_pos value with rfl | positive
  · rw [ofFraction_exact 0 0 (by decide) (by decide) (by decide) negative 0 1 (by decide)
      (by rw [Nat.zero_mul, Nat.zero_mul, Nat.zero_mul]), Nat.zero_mul one]
    simpa using ofMagnitude_exact 0 0 (by decide) (by decide) (by decide) negative
  · obtain ⟨level, coefficient, same, full, bounded, few⟩ := exists_significand value positive small
    have finite : level * leadingBit + coefficient < infinite := by
      have levels : level * leadingBit ≤ 1075 * leadingBit := Nat.mul_le_mul_right _ few
      simp only [infinite, leadingBit] at *
      omega
    rw [ofFraction_exact level coefficient bounded (fun _ => full) finite negative value 1
      (by decide) (by rw [same, Nat.mul_one]), same]
    exact ofMagnitude_exact level coefficient bounded (fun _ => full) finite negative

/-- An integer of magnitude up to 2⁵³ is exactly the number that is nearest to it. -/
theorem toInt?_ofInt (value : Int) (small : value.natAbs ≤ 2 ^ 53) :
    (ofInt value).isFinite = true ∧ (ofInt value).toInt? = some value := by
  obtain ⟨finite, sign, units⟩ := ofFraction_integer (decide (value < 0)) value.natAbs small
  refine ⟨finite, ?_⟩
  have whole : (ofInt value).units % one = 0 := by
    rw [ofInt, units, Nat.mul_mod_left]
  have quotient : (ofInt value).units / one = value.natAbs := by
    rw [ofInt, units, Nat.mul_div_cancel _ one_pos]
  rw [toInt?, if_pos whole, quotient, ofInt, sign]
  by_cases negative : value < 0
  · simp only [negative, decide_true, if_true, Option.some.injEq]
    omega
  · simp only [negative, decide_false, Bool.false_eq_true, if_false, Option.some.injEq]
    omega

end LedgerIntake.Binary64
