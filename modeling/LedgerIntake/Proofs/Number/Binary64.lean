import Mathlib.Tactic.Linarith
import Mathlib.Tactic.Ring
import LedgerIntake.Number.Binary64

/-!
# Patterns and values

A pattern is a sign and a magnitude, and a magnitude is a significand and a scale. Magnitudes are
ordered as their scales are, and those of one scale as their significands; values follow that order.
Numbers below 2⁵³ in units of some power of two are exactly those that a magnitude stands for.
-/

namespace LedgerIntake.Binary64

/-- The magnitude of a pattern leaves room for the sign, as it is the rest by the sign bit. -/
theorem magnitude_lt (x : Binary64) : x.magnitude < signBit := Nat.mod_lt _ (by decide)

/-- A magnitude that leaves room for the sign is kept by the pattern that is made of both. -/
theorem magnitude_ofMagnitude (negative : Bool) (magnitude : Nat) (bounded : magnitude < signBit) :
    (ofMagnitude negative magnitude).magnitude = magnitude := by
  simp only [signBit] at bounded
  simp only [Binary64.magnitude, ofMagnitude, UInt64.toNat_ofNat', signBit]
  cases negative
  · simp only [Bool.false_eq_true, if_false]
    omega
  · simp only [if_true]
    omega

/-- A magnitude below the bit of the sign leaves that bit as it was given. -/
theorem isNegative_ofMagnitude (negative : Bool) (magnitude : Nat) (bounded : magnitude < signBit) :
    (ofMagnitude negative magnitude).isNegative = negative := by
  simp only [signBit] at bounded
  simp only [isNegative, ofMagnitude, UInt64.toNat_ofNat', signBit]
  cases negative
  · simp only [Bool.false_eq_true, if_false, decide_eq_false_iff_not]
    omega
  · simp only [if_true, decide_eq_true_eq]
    omega

/-- A pattern is made of its sign and its magnitude again, so nothing else is in it. -/
theorem ofMagnitude_magnitude (x : Binary64) : ofMagnitude x.isNegative x.magnitude = x := by
  obtain ⟨bits⟩ := x
  have bounded : bits.toNat < UInt64.size := bits.toNat_lt_size
  simp only [UInt64.size] at bounded
  have same : (if isNegative ⟨bits⟩ then signBit else 0) + Binary64.magnitude ⟨bits⟩
    = bits.toNat := by
    by_cases sign : signBit ≤ bits.toNat
    · simp only [isNegative, Binary64.magnitude, sign, decide_true, if_true]
      simp only [signBit] at sign ⊢
      omega
    · simp only [isNegative, Binary64.magnitude, sign, decide_false, Bool.false_eq_true, if_false]
      simp only [signBit] at sign ⊢
      omega
  rw [ofMagnitude, same, UInt64.ofNat_toNat]

/-- Two numbers with the same sign and the same magnitude are one pattern. Most
equalities of numbers are proved so. -/
theorem ext_magnitude {x y : Binary64} (sign : x.isNegative = y.isNegative)
    (magnitude : x.magnitude = y.magnitude) : x = y := by
  rw [← ofMagnitude_magnitude x, ← ofMagnitude_magnitude y, sign, magnitude]

/-- Below the leading bit a magnitude is its own significand; above it
the leading bit is part of it. -/
theorem significand_of_lt (x : Binary64) (small : x.magnitude < leadingBit) :
    x.significand = x.magnitude :=
  if_pos small

/-- A normal number has the leading bit in front of the bits of its pattern. -/
theorem significand_of_le (x : Binary64) (great : leadingBit ≤ x.magnitude) :
    x.significand = leadingBit + x.magnitude % leadingBit :=
  if_neg (Nat.not_lt.mpr great)

/-- A magnitude is put together from its scale and its significand: the leading bit of a normal
significand is the step to the next scale. -/
theorem magnitude_eq (x : Binary64) : x.magnitude = x.scale * leadingBit + x.significand := by
  rcases Nat.lt_or_ge x.magnitude leadingBit with small | great
  · rw [significand_of_lt x small]
    simp only [scale, leadingBit] at small ⊢
    omega
  · rw [significand_of_le x great]
    simp only [scale, leadingBit] at great ⊢
    omega

/-- A significand has at most 53 bits, since its lower 52 are a remainder
and the leading one is added. -/
theorem significand_lt (x : Binary64) : x.significand < 2 * leadingBit := by
  have remainder : x.magnitude % leadingBit < leadingBit := Nat.mod_lt _ (by decide)
  rcases Nat.lt_or_ge x.magnitude leadingBit with small | great
  · rw [significand_of_lt x small]
    omega
  · rw [significand_of_le x great]
    omega

/-- A significand has all of its 53 bits unless the number has the least
scale, where it may have fewer. -/
theorem le_significand (x : Binary64) (scaled : 0 < x.scale) : leadingBit ≤ x.significand := by
  have great : leadingBit ≤ x.magnitude := by
    simp only [scale, leadingBit] at scaled ⊢
    omega
  rw [significand_of_le x great]
  exact Nat.le_add_right _ _

/-- A magnitude that is not zero has a significand that is not, so its exact value is not zero. -/
theorem significand_pos (x : Binary64) (positive : 0 < x.magnitude) : 0 < x.significand := by
  rcases Nat.lt_or_ge x.magnitude leadingBit with small | great
  · rw [significand_of_lt x small]
    exact positive
  · rw [significand_of_le x great]
    simp only [leadingBit]
    omega

/-- The parity of a significand is that of the magnitude, so a tie that goes to an even magnitude
goes to an even significand. -/
theorem significand_mod_two (x : Binary64) : x.significand % 2 = x.magnitude % 2 := by
  have same := magnitude_eq x
  simp only [leadingBit] at same
  omega

/-- There is one way to put a magnitude together, so a scale and a
significand that make it are its own. -/
theorem scale_significand_unique (x : Binary64) (level coefficient : Nat)
    (same : x.magnitude = level * leadingBit + coefficient) (bounded : coefficient < 2 * leadingBit)
    (full : 0 < level → leadingBit ≤ coefficient) :
    x.scale = level ∧ x.significand = coefficient := by
  have whole := magnitude_eq x
  have wide := significand_lt x
  have own := le_significand x
  simp only [leadingBit] at same bounded full whole wide own
  omega

/-- Magnitudes are ordered by scale first and by significand second, so
comparing patterns compares numbers. -/
theorem scale_lt_or (x y : Binary64) (less : x.magnitude < y.magnitude) :
    x.scale < y.scale ∨ x.scale = y.scale ∧ x.significand < y.significand := by
  have first := magnitude_eq x
  have second := magnitude_eq y
  have scales : x.scale ≤ y.scale := by
    simp only [scale]
    exact Nat.sub_le_sub_right (Nat.div_le_div_right (Nat.le_of_lt less)) 1
  rcases Nat.lt_or_eq_of_le scales with lower | same
  · exact .inl lower
  · right
    rw [same] at first
    exact ⟨same, by omega⟩

/-- A finite number has one of 2046 scales, since the patterns above them stand for
infinity and for no number. -/
theorem scale_lt (x : Binary64) (finite : x.isFinite = true) : x.scale < 2046 := by
  have bounded : x.magnitude < infinite := of_decide_eq_true finite
  simp only [infinite, leadingBit] at bounded
  simp only [scale, leadingBit]
  omega

/-- A number counts its significand in units, scaled by a power of two. -/
theorem units_eq (x : Binary64) : x.units = x.significand * 2 ^ x.scale := by
  rw [units, Nat.shiftLeft_eq]

/-- Greater magnitudes have greater values: at one scale the significand decides, and a full
significand exceeds every one of a lower scale. -/
theorem units_lt_units (x y : Binary64) (less : x.magnitude < y.magnitude) : x.units < y.units := by
  rw [units_eq, units_eq]
  rcases scale_lt_or x y less with lower | ⟨same, smaller⟩
  · have wide := significand_lt x
    have full := le_significand y (by omega)
    calc x.significand * 2 ^ x.scale
        < 2 * leadingBit * 2 ^ x.scale := (Nat.mul_lt_mul_right (by positivity)).mpr wide
      _ = leadingBit * 2 ^ (x.scale + 1) := by rw [Nat.pow_succ]; ring
      _ ≤ y.significand * 2 ^ y.scale :=
        Nat.mul_le_mul full (Nat.pow_le_pow_right (by decide) lower)
  · rw [same]
    exact (Nat.mul_lt_mul_right (by positivity)).mpr smaller

/-- A greater pattern counts no fewer units: either its scale is
greater, or only its significand. -/
theorem units_le_units (x y : Binary64) (atMost : x.magnitude ≤ y.magnitude) :
    x.units ≤ y.units := by
  rcases Nat.lt_or_eq_of_le atMost with less | same
  · exact Nat.le_of_lt (units_lt_units x y less)
  · have equal : x.units = y.units := by simp only [units, significand, scale, same]
    exact Nat.le_of_eq equal

end LedgerIntake.Binary64
