import LedgerIntake.Proofs.Json.NumberText
import LedgerIntake.Proofs.Json.Reading
import LedgerIntake.Proofs.Json.Scaling

/-!
# Numbers read back

Text of a number always has a number again, in every layout that keeps digits in full short.
Integers come back as they were, and a binary64 comes back as a binary64 of the same sign, but not
always as the same one: scaling may round more than once.
-/

namespace LedgerIntake

open Json.Number (Literal)
open Json.Number.Literal

namespace Binary64

/-- The unit of decimals as a power of five: a quarter of 10⁻¹⁰⁷⁴, divided by its powers of two. -/
theorem decimalUnit_eq {power : Nat} (exponent : power = 1074) : decimalUnit = 5 ^ power := by
  unfold decimalUnit
  generalize 1074 = limit at *
  subst exponent
  rfl

section Decimals

variable {x : Binary64} {decimal : Decimal} {places : Nat}

/-- A decimal of a number is not above the numbers that round to it, so
it is bounded by the number. -/
theorem coefficient_mul_le (found : Found x decimal places) :
    decimal.coefficient * 10 ^ places * 4 ≤
      (4 * x.significand + 2) * 2 ^ x.scale * decimalUnit := by
  have above := (bounds_of_roundsHere found.here).2.1
  calc decimal.coefficient * 10 ^ places * 4 = decimal.coefficient * (4 * 10 ^ places) := by ring
    _ ≤ x.highest := above
    _ = (4 * x.significand + 2) * 2 ^ x.scale * decimalUnit := by
      rw [highest, quarters, step, Nat.shiftLeft_eq]
      ring

/-- Decimals of finite numbers have moderate powers of ten, so reading them never counts far. -/
theorem places_le (finite : x.isFinite = true) (positive : 0 < decimal.coefficient)
    (found : Found x decimal places) : places ≤ 2102 := by
  have scale := scale_lt x finite
  have wide := significand_lt x
  have bits : 4 * x.significand + 2 ≤ 2 ^ 56 := by
    simp only [leadingBit] at wide
    omega
  obtain ⟨limit, same⟩ : ∃ limit, limit = 2102 := ⟨_, rfl⟩
  obtain ⟨power, exponent⟩ : ∃ power, power = 1074 := ⟨_, rfl⟩
  have unit : decimalUnit ≤ 5 ^ limit := by
    rw [decimalUnit_eq exponent]
    exact Nat.pow_le_pow_right (by decide) (by omega)
  have least : 10 ^ places ≤ 10 ^ limit := by
    calc 10 ^ places = 1 * 10 ^ places * 1 := by rw [Nat.one_mul, Nat.mul_one]
      _ ≤ decimal.coefficient * 10 ^ places * 4 :=
        Nat.mul_le_mul (Nat.mul_le_mul_right _ positive) (by decide)
      _ ≤ (4 * x.significand + 2) * 2 ^ x.scale * decimalUnit := coefficient_mul_le found
      _ ≤ 2 ^ 56 * 2 ^ x.scale * 5 ^ limit := Nat.mul_le_mul (Nat.mul_le_mul_right _ bits) unit
      _ = 2 ^ (56 + x.scale) * 5 ^ limit := by rw [Nat.pow_add]
      _ ≤ 2 ^ limit * 5 ^ limit :=
        Nat.mul_le_mul_right _ (Nat.pow_le_pow_right (by decide) (by omega))
      _ = 10 ^ limit := (Nat.mul_pow 2 5 limit).symm
  rw [← same]
  exact (Nat.pow_le_pow_iff_right (by decide)).mp least

/-- The decimal of the greatest number, which is the only one that lies
close to what would overflow. -/
theorem shortest_greatest (tie : Tie) (negative : Bool) :
    (ofMagnitude negative (infinite - 1)).shortest tie = ⟨17976931348623157, 292⟩ := by
  have searched (negative : Bool) : (ofMagnitude negative (infinite - 1)).searchGrids tie
      (((ofMagnitude negative (infinite - 1)).quarters / 4).log2 * 1234 / 4096 + 1)
        = ⟨17976931348623157, 292⟩ := by
    cases tie <;> cases negative <;> decide +kernel
  rw [shortest, searched negative, Decimal.trim, if_neg (by decide)]

/-- The upper bound of a number below the greatest one, which leaves room for rounding twice. -/
theorem bound_le (finite : x.isFinite = true) (less : x.magnitude < infinite - 1) :
    (4 * x.significand + 2) * 2 ^ x.scale ≤ (2 ^ 55 - 6) * 2 ^ 2045 := by
  have scale := scale_lt x finite
  have wide := significand_lt x
  have whole := magnitude_eq x
  simp only [infinite, leadingBit] at less wide whole
  obtain ⟨limit, same⟩ : ∃ limit, limit = 2044 := ⟨_, rfl⟩
  rw [show 2045 = limit + 1 by omega]
  by_cases top : x.scale = limit + 1
  · rw [top]
    exact Nat.mul_le_mul_right _ (by omega)
  · calc (4 * x.significand + 2) * 2 ^ x.scale ≤ 2 * (2 ^ 55 - 6) * 2 ^ limit :=
          Nat.mul_le_mul (by omega) (Nat.pow_le_pow_right (by decide) (by omega))
      _ = (2 ^ 55 - 6) * 2 ^ (limit + 1) := by
        rw [Nat.pow_succ]
        ring

/-- A decimal of a number below the greatest one can be scaled up without reaching infinity. -/
theorem coefficient_mul_pow_le (power : Nat) (finite : x.isFinite = true)
    (less : x.magnitude < infinite - 1)
    (found : Found x decimal (power + 1074)) :
    decimal.coefficient * 10 ^ power ≤ (2 ^ 55 - 6) * 2 ^ 969 := by
  have above := coefficient_mul_le found
  have bound := bound_le finite less
  obtain ⟨limit, same⟩ : ∃ limit, limit = 1074 := ⟨_, rfl⟩
  obtain ⟨rest, left⟩ : ∃ rest, rest = 969 := ⟨_, rfl⟩
  rw [decimalUnit_eq same, ← same] at above
  rw [show 2045 = rest + 2 + limit by omega] at bound
  rw [← left]
  have fives : 0 < 5 ^ limit := by positivity
  have twos : 0 < 4 * 2 ^ limit := by positivity
  apply Nat.le_of_mul_le_mul_right _ twos
  apply Nat.le_of_mul_le_mul_right _ fives
  calc decimal.coefficient * 10 ^ power * (4 * 2 ^ limit) * 5 ^ limit
      = decimal.coefficient * 10 ^ (power + limit) * 4 := by
        rw [Nat.pow_add, show (10 : Nat) ^ limit = 2 ^ limit * 5 ^ limit from Nat.mul_pow 2 5 limit]
        ring
    _ ≤ (4 * x.significand + 2) * 2 ^ x.scale * 5 ^ limit := above
    _ ≤ (2 ^ 55 - 6) * 2 ^ (rest + 2 + limit) * 5 ^ limit := Nat.mul_le_mul_right _ bound
    _ = (2 ^ 55 - 6) * 2 ^ rest * (4 * 2 ^ limit) * 5 ^ limit := by
      rw [Nat.pow_add, Nat.pow_add]
      ring

/-- The decimal of every number that is not zero is read without overflow, as a number that is not
negative. Only the greatest number needs a look at its digits. -/
theorem shortest_magnitude? (tie : Tie) (finite : x.isFinite = true) (positive : 0 < x.magnitude) :
    ∃ y, Scaled.magnitude? ⟨(x.shortest tie).coefficient, (x.shortest tie).exponent⟩ = some y ∧
      y.isFinite = true ∧ y.isNegative = false := by
  have bounded : x.magnitude < infinite := of_decide_eq_true finite
  obtain ⟨places, found, some, -⟩ := shortest_spec tie x positive
  have small := found.small
  unfold Scaled.magnitude?
  dsimp only
  by_cases below : (x.shortest tie).exponent < 0
  · have fits : (x.shortest tie).coefficient ≤ greatest := Nat.le_trans small (by decide)
    have whole := ofNat_isFinite fits
    obtain ⟨least, sign⟩ := scaleDown_spec (x.shortest tie).exponent.natAbs whole
    refine ⟨_, if_pos below, ?_, sign.trans (isNegative_ofNat _)⟩
    exact decide_eq_true (Nat.lt_of_le_of_lt least (of_decide_eq_true whole))
  · rw [if_neg below]
    by_cases greatest : x.magnitude = infinite - 1
    · have decimal : x.shortest tie = ⟨17976931348623157, 292⟩ := by
        rw [← ofMagnitude_magnitude x, greatest]
        exact shortest_greatest tie x.isNegative
      have scaled : (scaleUp (Binary64.ofNat 17976931348623157) 292).any
          (fun y => y.isFinite && !y.isNegative) = true := by decide +kernel
      rw [decimal]
      cases product : scaleUp (Binary64.ofNat 17976931348623157) 292 with
      | none =>
        rw [product] at scaled
        contradiction
      | some y =>
        rw [product] at scaled
        simp only [Option.any_some, Bool.and_eq_true, Bool.not_eq_true'] at scaled
        exact ⟨y, product, scaled⟩
    · have exponent := found.exponent
      have places_eq : places = (x.shortest tie).exponent.natAbs + 1074 := by omega
      rw [places_eq] at found
      exact scaleUp_isSome _ _ small (coefficient_mul_pow_le _ finite (by omega) found) some

end Decimals

end Binary64

/-- In full, a layout writes only numbers whose digits a significand holds. -/
def Layout.Short (layout : Layout) : Prop := ∀ leading, layout.inFull leading = true → leading < 16

namespace Json.Number

open Binary64

/-- The digits of a literal with an exponent are those that it is made of. -/
theorem Literal.fraction_scientific (negative : Bool) (digits : List Char) (leading : Int) :
    (scientific negative digits leading).fraction.getD [] = digits.drop 1 := by
  unfold scientific
  dsimp only
  split
  · next single => exact (List.drop_eq_nil_of_le single).symm
  · rfl

/-- Writing digits with an exponent keeps all of them. -/
theorem Literal.digits_scientific (negative : Bool) (digits : List Char) (leading : Int) :
    (scientific negative digits leading).digits = digits := by
  rw [Literal.digits, fraction_scientific]
  exact List.take_append_drop 1 digits

section Scaled

variable (negative : Bool) (coefficient : Nat) (leading : Int)
    (small : coefficient ≤ coefficientBound)

include small

/-- The digits of a literal with an exponent are scaled by all of them but the first. -/
theorem scaled_scientific :
    (scientific negative (Nat.toDigits 10 coefficient) leading).scaled
      = ⟨coefficient, 1 - ((Nat.toDigits 10 coefficient).length : Int)⟩ := by
  have present : 0 < (Nat.toDigits 10 coefficient).length := Nat.length_toDigits_pos
  have value : Nat.ofDigitChars 10 (Nat.toDigits 10 coefficient) 0 = coefficient :=
    Nat.ofDigitChars_ten_toDigits
  have fits : coefficient ≤ greatest := Nat.le_trans small (by decide)
  rw [scaled_eq _ (by rw [digits_scientific, value]; exact fits), digits_scientific, value,
    fraction_scientific, List.length_drop]
  congr 1
  omega

/-- The digits of a literal in full denote a number that fits: at most one zero
is added to sixteen digits. -/
theorem fits_full (low : leading < 16) :
    Nat.ofDigitChars 10 (full negative (Nat.toDigits 10 coefficient) leading).digits 0
      ≤ greatest := by
  have value : Nat.ofDigitChars 10 (Nat.toDigits 10 coefficient) 0 = coefficient :=
    Nat.ofDigitChars_ten_toDigits
  have fits : coefficient ≤ greatest := Nat.le_trans small (by decide)
  unfold full
  by_cases fractional : leading < 0
  · rw [if_pos fractional]
    show Nat.ofDigitChars 10
      (['0'] ++ (List.replicate _ '0' ++ Nat.toDigits 10 coefficient)) 0 ≤ greatest
    rw [Nat.ofDigitChars_append, Nat.ofDigitChars_append, Nat.ofDigitChars_replicate_zero]
    simp only [Nat.ofDigitChars_cons, Nat.ofDigitChars_nil]
    rw [Nat.mul_zero, Nat.zero_add, Nat.sub_self, Nat.mul_zero, value]
    exact fits
  · rw [if_neg fractional]
    by_cases whole : (Nat.toDigits 10 coefficient).length ≤ leading.toNat + 1
    · rw [if_pos whole]
      have below : coefficient < 10 ^ (Nat.toDigits 10 coefficient).length :=
        (Nat.length_toDigits_le_iff (by decide) Nat.length_toDigits_pos).mp (Nat.le_refl _)
      generalize (Nat.toDigits 10 coefficient).length = length at *
      have filled : 10 ^ (leading.toNat + 1 - length) * coefficient ≤ 10 ^ 16 := by
        calc 10 ^ (leading.toNat + 1 - length) * coefficient
            ≤ 10 ^ (leading.toNat + 1 - length) * 10 ^ length :=
              Nat.mul_le_mul_left _ (Nat.le_of_lt below)
          _ = 10 ^ (leading.toNat + 1) := by
            rw [← Nat.pow_add, Nat.sub_add_cancel whole]
          _ ≤ 10 ^ 16 := Nat.pow_le_pow_right (by decide) (by omega)
      show Nat.ofDigitChars 10
        (Nat.toDigits 10 coefficient ++ List.replicate _ '0' ++ ['0']) 0 ≤ greatest
      rw [Nat.ofDigitChars_append, Nat.ofDigitChars_append, value, Nat.ofDigitChars_replicate_zero]
      simp only [Nat.ofDigitChars_cons, Nat.ofDigitChars_nil]
      simp only [greatest, UInt64.size]
      omega
    · rw [if_neg whole]
      show Nat.ofDigitChars 10 (List.take _ _ ++ List.drop _ _) 0 ≤ greatest
      rw [List.take_append_drop, value]
      exact fits

omit small in
/-- A literal in full has a digit after the point, so it is never read as an integer. -/
theorem fraction_full :
    0 < ((full negative (Nat.toDigits 10 coefficient) leading).fraction.getD []).length := by
  have present : 0 < (Nat.toDigits 10 coefficient).length := Nat.length_toDigits_pos
  unfold full
  by_cases fractional : leading < 0
  · rw [if_pos fractional]
    show 0 < (List.replicate _ '0' ++ Nat.toDigits 10 coefficient).length
    rw [List.length_append]
    exact Nat.lt_add_left _ present
  · rw [if_neg fractional]
    by_cases whole : (Nat.toDigits 10 coefficient).length ≤ leading.toNat + 1
    · rw [if_pos whole]
      exact Nat.zero_lt_one
    · rw [if_neg whole]
      show 0 < (List.drop _ _).length
      rw [List.length_drop]
      omega

omit small in
/-- A literal in full has no exponent, whatever its digits. -/
theorem exponent_full : (full negative (Nat.toDigits 10 coefficient) leading).exponent = none := by
  unfold full
  split
  · rfl
  · split <;> rfl

/-- The magnitude of a literal in full is a significand scaled down, by as many
places as stand after the point. -/
theorem magnitude?_full (low : leading < 16) :
    ∃ y, (full negative (Nat.toDigits 10 coefficient) leading).magnitude? = some y ∧
      y.isFinite = true ∧
      y.isNegative = false := by
  have fits := fits_full negative coefficient leading small low
  have whole := ofNat_isFinite fits
  obtain ⟨least, sign⟩ := scaleDown_spec (x := Binary64.ofNat _)
    ((full negative (Nat.toDigits 10 coefficient) leading).fraction.getD []).length whole
  refine ⟨_, ?_, ?_, sign.trans (isNegative_ofNat _)⟩
  · have point := fraction_full negative coefficient leading
    rw [magnitude?, scaled_eq _ fits, exponent_full]
    dsimp only
    have below :
        -(((full negative (Nat.toDigits 10 coefficient) leading).fraction.getD []).length : Int)
          < 0 := by
      omega
    rw [Scaled.magnitude?, if_pos below, Int.natAbs_neg, Int.natAbs_natCast]
  · exact decide_eq_true (Nat.lt_of_le_of_lt least (of_decide_eq_true whole))

end Scaled

section Figures

variable {x : Binary64} (tie : Tie) {layout : Layout} (short : layout.Short)
    (finite : x.isFinite = true)
  (negative : Bool)

include finite

/-- The power of ten of the first digit of a number is counted exactly. -/
theorem leading_bounds (positive : 0 < x.magnitude) :
    (x.shortest tie).leading
        = ((x.shortest tie).digits.length : Int) - 1 + (x.shortest tie).exponent ∧
      (x.shortest tie).digits.length ≤ 18 ∧ -1074 ≤ (x.shortest tie).exponent ∧
      (x.shortest tie).exponent ≤ 1028 := by
  obtain ⟨places, found, some, -⟩ := shortest_spec tie x positive
  have few := places_le finite some found
  have exponent := found.exponent
  refine ⟨rfl, ?_, by omega, by omega⟩
  apply (Nat.length_toDigits_le_iff (by decide) (by decide)).mpr
  exact Nat.lt_of_le_of_lt found.small (by decide)

/-- The magnitude of a literal with an exponent is the one that its decimal denotes: its digits are
the coefficient, and the point is moved by the exponent. -/
theorem magnitude?_scientific (positive : 0 < x.magnitude) :
    (scientific negative (x.shortest tie).digits (x.shortest tie).leading).magnitude?
      = Scaled.magnitude? ⟨(x.shortest tie).coefficient, (x.shortest tie).exponent⟩ := by
  obtain ⟨leading, few, least, most⟩ := leading_bounds tie finite positive
  obtain ⟨places, found, -, -⟩ := shortest_spec tie x positive
  have present : 0 < (x.shortest tie).digits.length := Nat.length_toDigits_pos
  have scaled := scaled_scientific negative _ (x.shortest tie).leading found.small
  have power : (scientific negative (x.shortest tie).digits (x.shortest tie).leading).exponent
      = some (decide ((x.shortest tie).leading < 0),
        Nat.toDigits 10 (x.shortest tie).leading.natAbs) := rfl
  have written : Literal.natural (Nat.toDigits 10 (x.shortest tie).leading.natAbs)
      = (x.shortest tie).leading.natAbs := by
    rw [natural_eq]
    exact Nat.ofDigitChars_ten_toDigits
  rw [magnitude?, power]
  dsimp only
  rw [written, if_neg (by simp only [powerLimit]; omega)]
  rw [Decimal.digits] at leading few present ⊢
  rw [scaled]
  dsimp only
  have sum : clampPower (if decide ((x.shortest tie).leading < 0) = true then
        1 - ((Nat.toDigits 10 (x.shortest tie).coefficient).length : Int)
          - (x.shortest tie).leading.natAbs
      else 1 - ((Nat.toDigits 10 (x.shortest tie).coefficient).length : Int)
          + (x.shortest tie).leading.natAbs) = (x.shortest tie).exponent := by
    simp only [clampPower, powerLimit]
    split <;> rename_i sign <;> simp only [decide_eq_true_eq] at sign <;> omega
  rw [sum]

include short in
/-- The magnitude that is read for a finite number is finite. A decimal may be read as a neighbour
of the number that it was written for, but not as infinity. -/
theorem magnitude?_literal : ∃ y, (layout.literal x).magnitude? = some y ∧ y.isFinite = true ∧
    y.isNegative = false := by
  by_cases zero : x.magnitude = 0
  · have figures_eq : x.figures layout.tie = ['0'] := if_pos zero
    have leading_eq : x.leading layout.tie = 0 := if_pos zero
    rw [Layout.literal, figures_eq, leading_eq]
    by_cases inFull : layout.inFull 0 = true
    · rw [if_pos inFull]
      exact ⟨ofMagnitude false 0, by cases x.isNegative <;> decide +kernel, by decide, by decide⟩
    · rw [if_neg inFull]
      exact ⟨ofMagnitude false 0, by cases x.isNegative <;> decide +kernel, by decide, by decide⟩
  · have positive := Nat.pos_of_ne_zero zero
    have figures_eq : x.figures layout.tie = (x.shortest layout.tie).digits := if_neg zero
    have leading_eq : x.leading layout.tie = (x.shortest layout.tie).leading := if_neg zero
    rw [Layout.literal, figures_eq, leading_eq]
    by_cases inFull : layout.inFull (x.shortest layout.tie).leading = true
    · obtain ⟨places, found, -, -⟩ := shortest_spec layout.tie x positive
      obtain ⟨y, read, proper, sign⟩ :=
        magnitude?_full x.isNegative _ _ found.small (short _ inFull)
      rw [if_pos inFull]
      exact ⟨y, read, proper, sign⟩
    · obtain ⟨y, read, proper, sign⟩ := shortest_magnitude? layout.tie finite positive
      rw [if_neg inFull, magnitude?_scientific layout.tie finite _ positive]
      exact ⟨y, read, proper, sign⟩

omit finite in
/-- A literal of a binary64 is read as one: it has a fraction or an
exponent, so it is no integer. -/
theorem number?_literal : (layout.literal x).number? = (layout.literal x).float? := by
  rw [number?.eq_def]
  split
  · next fraction exponent =>
    rcases layout.literal_marked x with present | present
    · exact absurd fraction present
    · exact absurd exponent present
  · rfl

include short in
/-- Text of a finite number is read as a finite number of the same sign. -/
theorem float?_literal : ∃ y proper, (layout.literal x).float? = some (.float y proper) ∧
    y.isNegative = x.isNegative := by
  obtain ⟨y, read, proper, sign⟩ := magnitude?_literal short finite
  have negative : (layout.literal x).negative = x.isNegative := by
    unfold Layout.literal full scientific
    repeat' split
    all_goals rfl
  obtain ⟨z, same, magnitude, isNegative⟩ : ∃ z, (if x.isNegative then y.neg else y) = z ∧
      z.magnitude = y.magnitude ∧ z.isNegative = x.isNegative := by
    refine ⟨_, rfl, ?_⟩
    cases written : x.isNegative with
    | true =>
      rw [if_pos rfl]
      exact ⟨magnitude_ofMagnitude _ _ (magnitude_lt y),
        (isNegative_ofMagnitude _ _ (magnitude_lt y)).trans (by rw [sign]; rfl)⟩
    | false =>
      rw [if_neg (by decide)]
      exact ⟨rfl, sign⟩
  have whole : z.isFinite = true := by
    rw [isFinite, magnitude]
    exact proper
  refine ⟨z, whole, ?_, isNegative⟩
  rw [Literal.float?, read, negative]
  show ofBinary64? (if x.isNegative = true then y.neg else y) = _
  rw [same, ofBinary64?, dif_pos whole]

end Figures

/-- An integer that a number is written as is that of one number only. -/
theorem ofInt?_integer {number : Number} {integer : Int} (known : number.integer? = some integer) :
    ofInt? integer = some number := by
  cases number with
  | natural value =>
    cases known
    rw [ofInt?, if_pos (Int.natCast_nonneg _), if_pos (Int.ofNat_lt.mpr value.toNat_lt_size),
      Int.toNat_natCast, UInt64.ofNat_toNat]
  | negative below =>
    cases known
    have back : (-(-(below.val : Int) - 1) - 1).toNat = below.val := by omega
    rw [ofInt?, if_neg (by omega), dif_pos (by omega)]
    congr 2
    exact Fin.ext back
  | float value finite => cases known

/-- The number that is formed of an integer is written as that integer. -/
theorem integer?_of_ofInt? {integer : Int} {number : Number}
    (formed : ofInt? integer = some number) :
    number.integer? = some integer := by
  unfold ofInt? at formed
  split at formed
  · next positive =>
    split at formed
    · next small =>
      cases formed
      simp only [UInt64.size] at small
      have back : (UInt64.ofNat integer.toNat).toNat = integer.toNat := by
        rw [UInt64.toNat_ofNat']
        exact Nat.mod_eq_of_lt (by omega)
      rw [integer?, back, Int.toNat_of_nonneg positive]
    · cases formed
  · split at formed
    · cases formed
      simp only [integer?, Option.some.injEq]
      omega
    · cases formed

section Reading

variable (layout : Layout)

/-- The number that a number is read as when it was written in a layout. -/
def rereadIn (number : Number) : Number := ((number.literal layout).number?).getD number

/-- Natural numbers are read as they were written, digit by digit. -/
theorem number?_natural (value : UInt64) :
    ((Number.natural value).literal layout).number? = some (.natural value) := by
  have digits : Literal.natural (Nat.toDigits 10 value.toNat) = value.toNat := by
    rw [natural_eq]
    exact Nat.ofDigitChars_ten_toDigits
  have inRange : ofInt? (value.toNat : Int) = some (.natural value) := ofInt?_integer rfl
  rw [Number.literal, Literal.number?]
  dsimp only
  rw [digits, if_neg (by decide), inRange, Option.some_or]

/-- The text of a negative integer is read as that integer, down to -2⁶³. -/
theorem number?_negative (below : Fin 0x8000000000000000) :
    ((Number.negative below).literal layout).number? = some (.negative below) := by
  have digits : Literal.natural (Nat.toDigits 10 (below.val + 1)) = below.val + 1 := by
    rw [natural_eq]
    exact Nat.ofDigitChars_ten_toDigits
  have inRange : ofInt? (-((below.val + 1 : Nat) : Int)) = some (.negative below) := by
    have same : -((below.val + 1 : Nat) : Int) = -(below.val : Int) - 1 := by omega
    rw [same]
    exact ofInt?_integer rfl
  rw [Number.literal, Literal.number?]
  dsimp only
  rw [digits, if_pos rfl, if_neg (Nat.succ_ne_zero _), inRange, Option.some_or]

/-- Only a binary64 may change when it is read back, and then only into one of the same sign. -/
theorem rereadIn_natural (value : UInt64) :
    (Number.natural value).rereadIn layout = .natural value := by
  rw [rereadIn, number?_natural, Option.getD_some]

/-- A negative integer survives being written and read. -/
theorem rereadIn_negative (below : Fin 0x8000000000000000) :
    (Number.negative below).rereadIn layout = .negative below := by
  rw [rereadIn, number?_negative, Option.getD_some]

variable {layout} (short : layout.Short)

include short

/-- A float that is written and read is a float of the same sign, though perhaps its neighbour. -/
theorem rereadIn_float (value : Binary64) (finite : value.isFinite = true) :
    ∃ other proper, (Number.float value finite).rereadIn layout = .float other proper ∧
      other.isNegative = value.isNegative := by
  obtain ⟨other, proper, read, sign⟩ := float?_literal short finite
  refine ⟨other, proper, ?_, sign⟩
  rw [rereadIn, Number.literal, number?_literal, read, Option.getD_some]

/-- Every number that is written is read as a number, though floats may change by a place. -/
theorem number?_eq_rereadIn (number : Number) :
    (number.literal layout).number? = some (number.rereadIn layout) := by
  have read : ∃ other, (number.literal layout).number? = some other := by
    cases number with
    | natural value => exact ⟨_, number?_natural layout value⟩
    | negative below => exact ⟨_, number?_negative layout below⟩
    | float value finite =>
      obtain ⟨other, proper, read, -⟩ := float?_literal short finite
      exact ⟨.float other proper, number?_literal.trans read⟩
  obtain ⟨other, read⟩ := read
  rw [rereadIn, read, Option.getD_some]

/-- The text of a number is read as the number that its literal denotes. -/
theorem read?_number {style : Style} {mark : Char} {plus : List Char}
    (writes : style.Writes layout mark plus)
    (number : Number) : read? (style.number number).toList = some (number.rereadIn layout) := by
  obtain ⟨proper, spelled⟩ := writes.numeral number
  rw [read?, spelled, Literal.read?_spelling writes.marked writes.sign _ proper, Option.bind_some,
    number?_eq_rereadIn short]

end Reading

/-- The number that the plain text of a number is read as. -/
def reread (number : Number) : Number := ((number.literal layout).number?).getD number

/-- The plain layout writes few digits in full. -/
theorem short_layout : layout.Short := fun _ inFull => (of_decide_eq_true inFull).2

/-- The text of a number is read as what the number is read again as; for most
numbers this is themselves. -/
theorem read?_text (number : Number) : read? number.text.toList = some number.reread :=
  read?_number short_layout plain_writes number

end Json.Number

/-- Text of a value that does not nest too deep is read as the value with its numbers read back. -/
theorem Json.Style.Writes.readBytes {style : Style} {layout : Layout} {mark : Char}
    {plus : List Char}
    (writes : style.Writes layout mark plus) (legible : style.Legible) (short : layout.Short)
    (value : Value)
    (shallow : value.depth ≤ greatestDepth) :
    readBytes? (Utf8.encode (value.write style)) =
      some (value.revalue (Number.rereadIn layout)) := by
  refine (writes.readable legible).readBytes ?_ value shallow
  intro number
  rw [writes.literal_eq, Number.number?_eq_rereadIn short]

/-- The text of a value is read as the value with its numbers read
again, unless it nests too deep. -/
theorem Json.readBytes?_toText (value : Json.Value) (shallow : value.depth ≤ Json.greatestDepth) :
    Json.readBytes? (Utf8.encode value.toText) = some (value.revalue Json.Number.reread) :=
  plain_writes.readBytes legible_plain Number.short_layout value shallow

end LedgerIntake
