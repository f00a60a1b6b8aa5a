import LedgerIntake.Proofs.Json.NumberReading
import LedgerIntake.Proofs.Json.NumeralMagnitude

/-!
# What numerals are read as

A natural number that is read of a numeral is the number that the numeral denotes if there is
neither a point nor an exponent, or if all digits are an integer below 2⁵³ and the power of ten is
small. Otherwise it is near that number.
-/

namespace LedgerIntake.Json.Number.Literal

open Binary64

/-- There is neither a point nor an exponent. -/
structure Plain (literal : Literal) : Prop where
  fraction : literal.fraction = none
  exponent : literal.exponent = none

/-- All digits of a literal as one integer, with its sign. -/
def integer (literal : Literal) : Int := if literal.negative then -literal.coefficient
    else literal.coefficient

/-- A literal is read as a number that stands for a rational number. -/
def ReadAs (literal : Literal) (exact : ℚ) : Prop :=
  ∃ number, literal.number? = some number ∧ number.exact = exact

section Signs

/-- The negative of a positive number has the opposite value; its pattern differs in one bit. -/
theorem exact_neg (x : Binary64) (positive : x.isNegative = false) : x.neg.exact = -x.extent := by
  have magnitude : x.neg.magnitude = x.magnitude := magnitude_ofMagnitude _ _ (magnitude_lt x)
  have negative : x.neg.isNegative = true := by
    rw [neg, isNegative_ofMagnitude _ _ (magnitude_lt x), positive]
    rfl
  have units : x.neg.units = x.units := by
    simp only [Binary64.units, Binary64.significand, Binary64.scale, magnitude]
  rw [exact_eq_extent, negative, if_pos rfl, neg_one_mul, extent, extent, units]

variable {literal : Literal} (proper : literal.WellFormed)

include proper

/-- A literal that is read as a binary number is read as its magnitude with its sign. -/
theorem float?_exact_iff {exact : ℚ} :
    (∃ number, literal.float? = some number ∧ number.exact = exact) ↔
      ∃ magnitude, literal.magnitude? = some magnitude ∧
        literal.sign * magnitude.extent = exact := by
  have signed (magnitude : Binary64) (found : literal.magnitude? = some magnitude) :
      ∃ finite, ofBinary64? (if literal.negative then magnitude.neg else magnitude)
          = some (.float (if literal.negative then magnitude.neg else magnitude) finite) ∧
        (Number.float (if literal.negative then magnitude.neg else magnitude) finite).exact
          = literal.sign * magnitude.extent := by
    have spec := reads proper found
    have finite : (if literal.negative then magnitude.neg else magnitude).isFinite = true := by
      split
      · rw [isFinite, neg, magnitude_ofMagnitude _ _ (magnitude_lt magnitude)]
        exact spec.finite
      · exact spec.finite
    refine ⟨finite, dif_pos finite, ?_⟩
    rw [Number.exact, sign]
    split
    · rw [exact_neg magnitude spec.positive, neg_one_mul]
    · rw [exact_eq_extent, spec.positive, if_neg Bool.false_ne_true]
  have bound : literal.float? = literal.magnitude?.bind fun magnitude =>
      ofBinary64? (if literal.negative then magnitude.neg else magnitude) := rfl
  rw [bound]
  constructor
  · rintro ⟨number, read, rfl⟩
    obtain ⟨magnitude, found, formed⟩ := Option.bind_eq_some_iff.mp read
    obtain ⟨finite, same, value⟩ := signed magnitude found
    rw [same] at formed
    cases formed
    exact ⟨magnitude, found, value.symm⟩
  · rintro ⟨magnitude, found, rfl⟩
    obtain ⟨finite, same, value⟩ := signed magnitude found
    exact ⟨_, Option.bind_eq_some_iff.mpr ⟨magnitude, found, same⟩, value⟩

/-- With a point or an exponent every literal is read as a binary number. -/
theorem readAs_iff_of_marked (marked : ¬literal.Plain) {exact : ℚ} : literal.ReadAs exact ↔
    ∃ magnitude, literal.magnitude? = some magnitude ∧ literal.sign * magnitude.extent = exact := by
  rw [← float?_exact_iff proper, ReadAs, number?.eq_def]
  split
  · next fraction exponent => exact absurd ⟨fraction, exponent⟩ marked
  · rfl

/-- A positive natural number that is read of a literal is a magnitude that has been rounded. -/
theorem rounds_of_natural {magnitude : Binary64} {natural : Nat}
    (found : literal.magnitude? = some magnitude)
    (same : literal.sign * magnitude.extent = natural) (positive : 0 < natural)
    (small : natural < 2 ^ 64) :
    literal.negative = false ∧ magnitude.extent = natural ∧ 0 < literal.scaled.significand ∧
      Rounds magnitude literal.scaledSize := by
  have above : (0 : ℚ) < natural := Nat.cast_pos.mpr positive
  have nonneg := extent_nonneg magnitude
  have plus : literal.negative = false := by
    by_contra minus
    rw [sign, if_pos (Bool.not_eq_false _ ▸ minus)] at same
    linarith
  rw [sign, plus, if_neg Bool.false_ne_true, one_mul] at same
  have units := extent_eq_iff.mp same
  have least : one ≤ magnitude.units := by
    rw [units]
    exact Nat.le_mul_of_pos_left _ positive
  have less : magnitude.units < 2 ^ 64 * one := by
    rw [units]
    exact (Nat.mul_lt_mul_right Binary64.one_pos).mpr small
  obtain ⟨present, rounds⟩ := (reads proper found).rounds least less
  exact ⟨plus, same, present, rounds⟩

end Signs

/-- All digits are an integer below 2⁵³, the power of ten is exact, and
what is denoted is at most 2⁵³. -/
structure Short (literal : Literal) : Prop where
  coefficient : literal.coefficient < 2 ^ 53
  low : -22 ≤ literal.power
  high : literal.power ≤ 22
  size : literal.size ≤ 2 ^ 53

section Exact

variable {literal : Literal} {magnitude : Binary64} {natural : Nat} (proper : literal.WellFormed)

/-- A quotient of an integer below 2⁵³ is not rounded to an integer that it does not equal: the two
are less than one step of the quotient's own denominator apart. -/
theorem eq_of_within_integer {coefficient places : Nat} (small : coefficient < 2 ^ 53)
    (close : Within roundingFactor natural (coefficient * 10 ^ (-places : ℤ))) :
    (coefficient * 10 ^ (-places : ℤ) : ℚ) = natural := by
  obtain ⟨below, above⟩ := close.mul_right (10 ^ places) (by positivity)
  have cancelled : (coefficient * 10 ^ (-places : ℤ) * 10 ^ places : ℚ) = coefficient := by
    rw [mul_assoc, zpow_neg, zpow_natCast, inv_mul_cancel₀ (by positivity), mul_one]
  rw [cancelled, roundingFactor] at below above
  have bounded : (coefficient : ℚ) < 2 ^ 53 := by exact_mod_cast small
  have atMost : natural * 10 ^ places ≤ coefficient := by
    have less : (natural * 10 ^ places : ℚ) < coefficient + 1 := by linarith
    exact Nat.le_of_lt_succ (by exact_mod_cast less)
  have atLeast : coefficient ≤ natural * 10 ^ places := by
    have inRationals : (natural * 10 ^ places : ℚ) ≤ coefficient := by exact_mod_cast atMost
    have less : (coefficient : ℚ) < natural * 10 ^ places + 1 := by linarith
    exact Nat.le_of_lt_succ (by exact_mod_cast less)
  rw [Nat.le_antisymm atLeast atMost]
  push_cast
  rw [mul_assoc, zpow_neg, zpow_natCast, mul_inv_cancel₀ (by positivity), mul_one]

include proper in
/-- A short literal other than zero is read as a magnitude that is a natural number
only if the literal denotes it. -/
theorem exists_extent_iff_of_short (few : literal.digits.length ≤ 2 * 10 ^ 9)
    (short : literal.Short)
    (positive : 0 < literal.coefficient) : ∃ magnitude, literal.magnitude? = some magnitude ∧
      ∀ natural : Nat, magnitude.extent = natural ↔ literal.size = natural := by
  have fits : literal.coefficient ≤ greatest :=
    Nat.le_trans (Nat.le_of_lt short.coefficient) (by decide)
  have scaled : literal.scaled = ⟨literal.coefficient, -(literal.fractional.length : Int)⟩ :=
    scaled_eq literal fits
  have sum : literal.scaling = literal.power := by
    rw [scaling, scaled, power]
    dsimp only
    omega
  have significand : literal.scaled.significand = literal.coefficient := by rw [scaled]
  have exactly : literal.scaledSize = literal.size := by
    rw [scaledSize, sum, significand, extent_ofNat (Nat.le_of_lt short.coefficient), size]
  obtain ⟨magnitude, found, rounds⟩ :=
    exists_rounds proper few (significand ▸ positive) (sum ▸ short.low)
      (sum ▸ short.high)
  rw [exactly] at rounds
  refine ⟨magnitude, found, fun natural => ⟨fun same => ?_, fun same => ?_⟩⟩
  · rw [size]
    rcases Int.lt_or_le literal.power 0 with negative | whole
    · obtain ⟨places, raised⟩ := Int.exists_eq_neg_ofNat (Int.le_of_lt negative)
      have close := rounds.within
      rw [size, raised, same] at close
      rw [raised]
      exact eq_of_within_integer short.coefficient close
    · obtain ⟨places, raised⟩ := Int.eq_ofNat_of_zero_le whole
      have integral : literal.size = (literal.coefficient * 10 ^ places : Nat) := by
        rw [size, raised, zpow_natCast]
        push_cast
        rfl
      have bounded : literal.coefficient * 10 ^ places ≤ 2 ^ 53 := by
        have inRationals := integral ▸ short.size
        exact_mod_cast inRationals
      have kept := rounds.integer _ bounded integral
      rw [← size, integral, ← kept, same]
  · have bounded : natural ≤ 2 ^ 53 := by
      have inRationals := same ▸ short.size
      exact_mod_cast inRationals
    exact rounds.integer natural bounded same

section Plain

variable (plain : literal.Plain)

include plain

/-- What is denoted without a point and an exponent is the integer of the digits. -/
theorem size_of_plain : literal.size = literal.coefficient := by
  have written : literal.written = 0 := by rw [Literal.written, plain.exponent]
  have fractional : literal.fractional = [] := by
    rw [Literal.fractional, plain.fraction, Option.getD_none]
  rw [size, power, written, fractional, List.length_nil]
  simp

/-- A plain literal has its whole digits as its coefficient. -/
theorem natural_whole_of_plain : Literal.natural literal.whole = literal.coefficient := by
  rw [natural_eq, coefficient, digits, plain.fraction, Option.getD_none, List.append_nil]

include proper

/-- An integer beyond 2⁶⁴ is read as no natural number below, since rounding
does not fall back behind 2⁶⁴. -/
theorem le_extent_of_plain (beyond : greatest < literal.coefficient)
    (found : literal.magnitude? = some magnitude) :
    2 ^ 64 ≤ magnitude.extent := by
  obtain ⟨wide, raised⟩ := scaled_of_overflow proper plain.fraction beyond
  have same : literal.magnitude? = literal.scaled.magnitude? := by
    rw [Literal.magnitude?, plain.exponent]
  have units := le_units_magnitude? wide raised (same ▸ found)
  rw [extent, le_div_iff₀ (Nat.cast_pos.mpr Binary64.one_pos)]
  exact_mod_cast units

end Plain

end Exact

section Reading

variable {literal : Literal} {natural : Nat} (proper : literal.WellFormed)

/-- The sign of a literal is one or minus one. -/
theorem sign_eq (literal : Literal) : literal.sign = 1 ∨ literal.sign = -1 := by
  rw [sign]
  split
  · exact .inr rfl
  · exact .inl rfl

/-- The size of a literal is what its value is without the sign. -/
theorem abs_value (literal : Literal) : |literal.value| = literal.size := by
  rw [value]
  rcases sign_eq literal with plus | minus
  · rw [plus, one_mul, abs_of_nonneg literal.size_nonneg]
  · rw [minus, neg_one_mul, abs_neg, abs_of_nonneg literal.size_nonneg]

include proper

/-- Digits that are all zero are read as zero, with either sign. -/
theorem exists_magnitude?_iff_of_zero (zero : literal.coefficient = 0) {exact : ℚ} :
    (∃ magnitude, literal.magnitude? = some magnitude ∧ literal.sign * magnitude.extent = exact) ↔
      literal.value = exact := by
  obtain ⟨magnitude, found, none⟩ :=
    exists_magnitude?_of_zero ((significand_eq_zero_iff proper).mpr zero)
  have nothing : magnitude.extent = 0 := by rw [extent, none, Nat.cast_zero, zero_div]
  have value_eq : literal.value = 0 := by rw [value, size, zero, Nat.cast_zero, zero_mul, mul_zero]
  rw [value_eq]
  constructor
  · rintro ⟨other, read, rfl⟩
    rw [found] at read
    cases read
    rw [nothing, mul_zero]
  · rintro rfl
    exact ⟨magnitude, found, by rw [nothing, mul_zero]⟩

omit proper in
/-- With a sign only zero is a natural number, and both are zero then. -/
theorem eq_zero_of_negative {magnitude : Binary64} (minus : literal.negative = true)
    (same : literal.sign * magnitude.extent = natural) :
    magnitude.extent = (0 : Nat) ∧ natural = 0 := by
  have nonneg := extent_nonneg magnitude
  have nonneg' : (0 : ℚ) ≤ natural := Nat.cast_nonneg _
  rw [sign, if_pos minus] at same
  have none : (natural : ℚ) = 0 := by linarith
  refine ⟨?_, by exact_mod_cast none⟩
  rw [Nat.cast_zero]
  linarith

/-- Digits alone that are not all zero are not read as zero, as they are never scaled down. -/
theorem extent_ne_zero_of_plain (plain : literal.Plain) (positive : 0 < literal.coefficient)
    {magnitude : Binary64}
    (found : literal.magnitude? = some magnitude) : magnitude.extent ≠ (0 : Nat) := by
  intro none
  have units := extent_eq_iff.mp none
  rw [Nat.zero_mul] at units
  have written : literal.written = 0 := by rw [Literal.written, plain.exponent]
  have fractional : literal.fractional.length = 0 := by
    rw [Literal.fractional, plain.fraction, Option.getD_none, List.length_nil]
  have lowest := (covers_scaled proper).lowest
  rcases (reads proper found).vanishing units with zero | low | low
  · exact absurd ((significand_eq_zero_iff proper).mp zero) (Nat.ne_of_gt positive)
  · rw [scaling] at low
    omega
  · rw [written, powerLimit] at low
    omega

omit proper in
/-- A plain literal is worth its integer, with its sign. -/
theorem value_of_plain (plain : literal.Plain) : literal.value = literal.integer := by
  rw [value, sign, integer, size_of_plain plain]
  split
  · rw [neg_one_mul, Int.cast_neg, Int.cast_natCast]
  · rw [one_mul, Int.cast_natCast]

omit proper in
/-- Digits alone are an integer if a form without a point holds it,
and the negative zero is none. -/
theorem number?_of_plain (plain : literal.Plain) : literal.number? =
    if literal.negative = true ∧ literal.coefficient = 0 then literal.float?
    else (ofInt? literal.integer).or literal.float? := by
  rw [number?, plain.fraction, plain.exponent, integer]
  dsimp only
  rw [natural_whole_of_plain plain]
  cases literal.negative with
  | true =>
    rw [if_pos rfl, if_pos rfl]
    by_cases zero : literal.coefficient = 0
    · rw [if_pos zero, if_pos ⟨rfl, zero⟩]
    · rw [if_neg zero, if_neg fun both => zero both.2]
  | false =>
    rw [if_neg Bool.false_ne_true, if_neg Bool.false_ne_true, if_neg fun both =>
      Bool.false_ne_true both.1]

/-- An integer without a form of its own is read as no natural number below 2⁶⁴: it
is below -2⁶³, or too great. -/
theorem ne_natural_of_unformed (plain : literal.Plain) (unformed : ofInt? literal.integer = none)
    (small : natural < 2 ^ 64) {magnitude : Binary64}
    (found : literal.magnitude? = some magnitude) :
    literal.sign * magnitude.extent ≠ natural := by
  intro same
  unfold ofInt? integer at unformed
  cases minus : literal.negative with
  | true =>
    have positive : 0 < literal.coefficient := by
      by_contra zero
      rw [minus, Nat.eq_zero_of_not_pos zero] at unformed
      cases unformed
    exact extent_ne_zero_of_plain proper plain positive found (eq_zero_of_negative minus same).1
  | false =>
    rw [minus, if_neg Bool.false_ne_true, if_pos (Int.natCast_nonneg _)] at unformed
    have beyond : greatest < literal.coefficient := by
      split at unformed
      · cases unformed
      · next great =>
        simp only [greatest, UInt64.size] at great ⊢
        omega
    have large := le_extent_of_plain proper plain beyond found
    rw [sign, minus, if_neg Bool.false_ne_true, one_mul] at same
    rw [same] at large
    exact absurd (by exact_mod_cast large : 2 ^ 64 ≤ natural) (Nat.not_le.mpr small)

/-- Digits alone are read as the natural number that they denote, and as no other. -/
theorem readAs_natural_iff_of_plain (plain : literal.Plain) (small : natural < 2 ^ 64) :
    literal.ReadAs natural ↔ literal.value = natural := by
  rw [ReadAs, number?_of_plain plain]
  split
  · next zero =>
    rw [float?_exact_iff proper]
    exact exists_magnitude?_iff_of_zero proper zero.2
  · cases formed : ofInt? literal.integer with
    | some number =>
      rw [Option.some_or, value_of_plain plain, ← exact_of_integer? (integer?_of_ofInt? formed)]
      constructor
      · rintro ⟨_, same, equal⟩
        cases same
        exact equal
      · exact fun equal => ⟨number, rfl, equal⟩
    | none =>
      rw [Option.none_or, float?_exact_iff proper]
      refine iff_of_false ?_ fun same => ?_
      · rintro ⟨magnitude, found, same⟩
        exact ne_natural_of_unformed proper plain formed small found same
      · have equal : literal.integer = natural := by
          rw [value_of_plain plain] at same
          exact_mod_cast same
        rw [equal, ofInt?, if_pos (Int.natCast_nonneg _),
          if_pos (by simp only [UInt64.size]; omega)] at formed
        cases formed

/-- A short literal is read as exactly the natural number that it denotes: its significand is not
rounded, and scaling it is one rounding. -/
theorem readAs_natural_iff_of_short (few : literal.digits.length ≤ 2 * 10 ^ 9)
    (short : literal.Short)
    (marked : ¬literal.Plain) : literal.ReadAs natural ↔ literal.value = natural := by
  rw [readAs_iff_of_marked proper marked]
  rcases Nat.eq_zero_or_pos literal.coefficient with zero | positive
  · exact exists_magnitude?_iff_of_zero proper zero
  · obtain ⟨magnitude, found, exact⟩ := exists_extent_iff_of_short proper few short positive
    have single :
        (∃ other, literal.magnitude? = some other ∧ literal.sign * other.extent = natural) ↔
          literal.sign * magnitude.extent = natural := by
      constructor
      · rintro ⟨_, read, same⟩
        rw [found] at read
        cases read
        exact same
      · exact fun same => ⟨magnitude, found, same⟩
    rw [single, value]
    cases minus : literal.negative with
    | true =>
      have above := size_pos positive
      refine iff_of_false (fun same => ?_) fun same => ?_
      · have none := (exact 0).mp (eq_zero_of_negative minus same).1
        rw [none, Nat.cast_zero] at above
        exact lt_irrefl _ above
      · have nonneg : (0 : ℚ) ≤ natural := Nat.cast_nonneg _
        rw [sign, if_pos minus] at same
        linarith
    | false =>
      rw [sign, minus, if_neg Bool.false_ne_true, one_mul, one_mul]
      exact exact natural

/-- Whatever positive natural number is read is near what is denoted, by one part in 2⁵¹. -/
theorem abs_sub_le_of_readAs (read : literal.ReadAs natural) (positive : 0 < natural)
    (small : natural < 2 ^ 64) :
    |literal.value - natural| ≤ natural / 2 ^ 51 := by
  by_cases plain : literal.Plain
  · rw [(readAs_natural_iff_of_plain proper plain small).mp read, sub_self, abs_zero]
    exact div_nonneg (Nat.cast_nonneg _) (by norm_num)
  · obtain ⟨magnitude, found, same⟩ := (readAs_iff_of_marked proper plain).mp read
    obtain ⟨plus, extent, present, rounds⟩ := rounds_of_natural proper found same positive small
    have close := within_of_rounds proper present rounds
    rw [extent] at close
    rw [value, sign, plus, if_neg Bool.false_ne_true, one_mul]
    exact abs_sub_le_of_within (Nat.cast_nonneg _) close

/-- Whatever is read as zero denotes almost nothing, if its digits are at most two billion. -/
theorem abs_lt_of_readAs_zero (few : literal.digits.length ≤ 2 * 10 ^ 9) (read : literal.ReadAs 0) :
    |literal.value| < 10 ^ (-280 : ℤ) := by
  by_cases plain : literal.Plain
  · have none : literal.value = (0 : Nat) :=
      (readAs_natural_iff_of_plain proper plain (by decide)).mp (by rwa [Nat.cast_zero])
    rw [none, Nat.cast_zero, abs_zero]
    exact ten_zpow_pos _
  · obtain ⟨magnitude, found, same⟩ := (readAs_iff_of_marked proper plain).mp read
    have nothing : magnitude.extent = (0 : Nat) := by
      rcases sign_eq literal with plus | minus
      · rwa [plus, one_mul] at same
      · rwa [minus, neg_one_mul, neg_eq_zero] at same
    have units := extent_eq_iff.mp nothing
    rw [Nat.zero_mul] at units
    rw [abs_value]
    exact size_lt_of_vanishing proper few found units

/-- Whatever denotes a number from 2⁵³ almost up to 2⁶⁴ is read as some natural
number, under the same limit. -/
theorem exists_readAs (few : literal.digits.length ≤ 2 * 10 ^ 9) (least : 2 ^ 53 ≤ literal.value)
    (most : literal.value ≤ 2 ^ 64 - 2 ^ 13) :
    ∃ natural : Nat, natural < 2 ^ 64 ∧ literal.ReadAs natural := by
  have plus : literal.sign = 1 := by
    refine (sign_eq literal).resolve_right fun minus => ?_
    have nonneg := size_nonneg literal
    rw [value, minus] at least
    linarith
  have value_eq : literal.value = literal.size := by rw [value, plus, one_mul]
  rw [value_eq] at least most
  by_cases plain : literal.Plain
  · have integral : literal.value = literal.coefficient := value_eq.trans (size_of_plain plain)
    have small : literal.coefficient < 2 ^ 64 := by
      rw [size_of_plain plain] at most
      have less : (literal.coefficient : ℚ) < 2 ^ 64 := by linarith
      exact_mod_cast less
    exact ⟨literal.coefficient, small,
      (readAs_natural_iff_of_plain proper plain small).mpr integral⟩
  · obtain ⟨magnitude, found, natural, small, same⟩ := exists_natural proper few least most
    refine ⟨natural, small, (readAs_iff_of_marked proper plain).mpr ⟨magnitude, found, ?_⟩⟩
    rw [plus, one_mul, same]

end Reading

end LedgerIntake.Json.Number.Literal
