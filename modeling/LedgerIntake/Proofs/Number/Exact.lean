import Mathlib.Algebra.Order.Field.Rat
import Mathlib.Data.Rat.Cast.Lemmas
import Mathlib.Tactic.FieldSimp
import LedgerIntake.Proofs.Number.Rounding

/-!
# The rational numbers that patterns stand for

A finite pattern stands for a significand times a power of two. Two patterns stand for one rational
number only if they are the same pattern or the two zeros, and a pattern stands for an integer
exactly if `toInt?` gives it.
-/

namespace LedgerIntake.Binary64

/-- The rational number that a finite pattern stands for. -/
def exact (x : Binary64) : ℚ :=
  (if x.isNegative then -1 else 1) * x.significand * 2 ^ ((x.scale : ℤ) - 1074)

/-- The units of one are not zero, so exact values may be divided by them. -/
theorem one_ne_zero : (one : ℚ) ≠ 0 := Nat.cast_ne_zero.mpr (Nat.ne_of_gt one_pos)

/-- A significand at a power of two that is counted from a least one is a fraction over
that least one, with its sign. -/
theorem signed_eq_div (negative : Bool) (significand scale least : ℕ) :
    (if negative then (-1 : ℚ) else 1) * significand * 2 ^ ((scale : ℤ) - least) =
      ((if negative then -(significand * 2 ^ scale : ℕ) else (significand * 2 ^ scale : ℕ) : ℤ) : ℚ)
        / (1 <<< least : ℕ) := by
  rw [zpow_sub₀ (by decide), zpow_natCast, zpow_natCast, Nat.one_shiftLeft]
  cases negative
  · simp only [Bool.false_eq_true, if_false]
    push_cast
    ring
  · simp only [if_true]
    push_cast
    ring

/-- A number is its signed units, divided by the units of the number one. -/
theorem exact_eq (x : Binary64) : x.exact = x.signedUnits / one := by
  have signed := signed_eq_div x.isNegative x.significand x.scale 1074
  rw [Nat.cast_ofNat] at signed
  rw [exact, signedUnits, units_eq]
  exact signed

/-- Patterns stand for the same number exactly if they have as many units. -/
theorem exact_eq_exact_iff (x y : Binary64) : x.exact = y.exact ↔
    x.signedUnits = y.signedUnits := by
  rw [exact_eq, exact_eq, div_left_inj' one_ne_zero, Int.cast_inj]

/-- Numbers with as many units have the same magnitude, since units grow with the magnitude. -/
theorem magnitude_eq_of_units {x y : Binary64} (same : x.units = y.units) :
    x.magnitude = y.magnitude := by
  rcases Nat.lt_trichotomy x.magnitude y.magnitude with less | equal | greater
  · exact absurd same (Nat.ne_of_lt (units_lt_units x y less))
  · exact equal
  · exact absurd same (Nat.ne_of_gt (units_lt_units y x greater))

/-- Patterns of one sign that stand for the same number are the same. Only the two zeros
need the condition on the sign. -/
theorem eq_of_exact {x y : Binary64} (sign : x.isNegative = y.isNegative)
    (same : x.exact = y.exact) : x = y := by
  have units := (exact_eq_exact_iff x y).mp same
  rw [signedUnits, signedUnits, sign] at units
  have magnitudes : x.units = y.units := by
    split at units
    · omega
    · omega
  exact ext_magnitude sign (magnitude_eq_of_units magnitudes)

/-- So are patterns that stand for the same number other than zero,
since that number has the sign. -/
theorem isNegative_eq_of_exact {x y : Binary64} (nonzero : x.units ≠ 0) (same : x.exact = y.exact) :
    x.isNegative = y.isNegative := by
  have units := (exact_eq_exact_iff x y).mp same
  rw [signedUnits, signedUnits] at units
  cases first : x.isNegative
  · cases second : y.isNegative
    · rfl
    · rw [first, second, if_neg Bool.false_ne_true, if_pos rfl] at units
      omega
  · cases second : y.isNegative
    · rw [first, second, if_pos rfl, if_neg Bool.false_ne_true] at units
      omega
    · rfl

/-- A pattern equals an integer exactly if it has the units of that integer. -/
theorem toInt?_eq_some_iff (x : Binary64) (integer : Int) :
    x.toInt? = some integer ↔ x.signedUnits = integer * one := by
  have positive : (one : Int) ≠ 0 := by exact Int.natCast_ne_zero.mpr (Nat.ne_of_gt one_pos)
  rw [toInt?, signedUnits]
  split
  · next whole =>
    obtain ⟨quotient, units⟩ := Nat.dvd_of_mod_eq_zero whole
    rw [units, Nat.mul_div_cancel_left _ one_pos, Option.some.injEq, Int.natCast_mul, Int.mul_comm]
    have signed :
        (if x.isNegative = true then -((quotient : Int) * one) else (quotient : Int) * one)
        = (if x.isNegative = true then -(quotient : Int) else quotient) * one := by
      split
      · exact (Int.neg_mul _ _).symm
      · rfl
    rw [signed, Int.mul_eq_mul_right_iff positive]
  · next fraction =>
    constructor
    · intro same
      cases same
    · intro same
      have divides : (one : Int) ∣ x.units := by
        have multiple : (one : Int) ∣ if x.isNegative = true then -(x.units : Int) else x.units :=
          ⟨integer, same.trans (Int.mul_comm _ _)⟩
        split at multiple
        · exact Int.dvd_neg.mp multiple
        · exact multiple
      exact absurd (Nat.mod_eq_zero_of_dvd (Int.natCast_dvd_natCast.mp divides)) fraction

/-- A pattern stands for an integer exactly if it equals that integer. -/
theorem exact_eq_intCast_iff (x : Binary64) (integer : Int) :
    x.exact = integer ↔ x.toInt? = some integer := by
  rw [toInt?_eq_some_iff, exact_eq, div_eq_iff one_ne_zero, ← Int.cast_natCast, ← Int.cast_mul,
    Int.cast_inj]

section Counts

/-- A finite number is a number, as its magnitude is below that of infinity. -/
theorem isNaN_of_isFinite {x : Binary64} (finite : x.isFinite = true) : x.isNaN = false := by
  have below : x.magnitude < infinite := of_decide_eq_true finite
  exact decide_eq_false (by omega)

/-- A finite number is not infinite, as its magnitude is below that of infinity. -/
theorem isInfinite_of_isFinite {x : Binary64} (finite : x.isFinite = true) :
    x.isInfinite = false := by
  have below : x.magnitude < infinite := of_decide_eq_true finite
  exact decide_eq_false (by omega)

variable {first second : Nat}

/-- A count up to 2⁵³ has the units of its integer, without a sign. -/
theorem signedUnits_ofNat (small : first ≤ 2 ^ 53) :
    (ofNat first).signedUnits = ((first * one : Nat) : Int) := by
  obtain ⟨-, sign, units⟩ := ofFraction_integer false first small
  rw [ofNat, signedUnits, sign, if_neg Bool.false_ne_true, units]

/-- A count up to 2⁵³ stands for itself, so the counters of a server are exact that far. -/
theorem exact_ofNat (small : first ≤ 2 ^ 53) : (ofNat first).exact = first := by
  rw [exact_eq, signedUnits_ofNat small, Int.cast_natCast, Nat.cast_mul, mul_div_assoc,
    div_self one_ne_zero, mul_one]

/-- Counts are added without rounding while their sum is at most 2⁵³, since the sum is an
integer that is stored exactly. -/
theorem add_ofNat (small : first + second ≤ 2 ^ 53) :
    (ofNat first).add (ofNat second) = ofNat (first + second) := by
  have finite := (ofFraction_integer false first (by omega)).1
  have finite' := (ofFraction_integer false second (by omega)).1
  have units : (ofNat first).signedUnits + (ofNat second).signedUnits
    = (((first + second) * one : Nat) : Int) := by
    rw [signedUnits_ofNat (by omega), signedUnits_ofNat (by omega), ← Int.natCast_add,
      ← Nat.add_mul]
  rw [add, ofNat, ofNat, isNaN_of_isFinite finite, isNaN_of_isFinite finite',
    isInfinite_of_isFinite finite, isInfinite_of_isFinite finite']
  simp only [Bool.or_self, Bool.false_eq_true, if_false]
  rw [← ofNat, ← ofNat, units, Int.natAbs_natCast]
  split
  · next none =>
    have sum : first + second = 0 :=
      (Nat.mul_eq_zero.mp (Int.natCast_eq_zero.mp none)).resolve_right (Nat.ne_of_gt one_pos)
    obtain ⟨rfl, rfl⟩ := Nat.add_eq_zero_iff.mp sum
    decide
  · rw [decide_eq_false (by omega)]
    rfl

/-- Counts up to 2⁵³ have magnitudes in the order of their integers, as both follow the units. -/
theorem magnitude_ofNat_le_iff (small : first ≤ 2 ^ 53) (small' : second ≤ 2 ^ 53) :
    (ofNat first).magnitude ≤ (ofNat second).magnitude ↔ first ≤ second := by
  have units : (ofNat first).units = first * one := (ofFraction_integer false first small).2.2
  have units' : (ofNat second).units = second * one := (ofFraction_integer false second small').2.2
  constructor
  · intro below
    have inUnits := units_le_units _ _ below
    rw [units, units'] at inUnits
    exact Nat.le_of_mul_le_mul_right inUnits one_pos
  · intro below
    by_contra above
    have inUnits := units_lt_units _ _ (Nat.lt_of_not_le above)
    rw [units, units'] at inUnits
    exact absurd (Nat.mul_le_mul_right one below) (Nat.not_le.mpr inUnits)

/-- Counts up to 2⁵³ compare as their integers do, for neither is
negative and neither is rounded. -/
theorem atMost_ofNat (small : first ≤ 2 ^ 53) (small' : second ≤ 2 ^ 53) :
    (ofNat first).atMost (ofNat second) = decide (first ≤ second) := by
  obtain ⟨finite, sign, -⟩ := ofFraction_integer false first small
  obtain ⟨finite', sign', -⟩ := ofFraction_integer false second small'
  have ordered := magnitude_ofNat_le_iff small small'
  rw [ofNat, ofNat] at ordered ⊢
  rw [atMost, isNaN_of_isFinite finite, isNaN_of_isFinite finite', place, place, sign, sign']
  simp only [Bool.not_false, Bool.true_and, Bool.false_eq_true, if_false, Int.ofNat_le, ordered]

end Counts

end LedgerIntake.Binary64
