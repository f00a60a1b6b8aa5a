import LedgerIntake.Proofs.Json.NumberReading

/-!
# Literals tell numbers apart

Whatever the layout, what is written of a number is written of no other number. Integers are digits
alone, a binary64 in full has a point and no exponent, and otherwise it has an exponent. A literal
with an exponent holds the digits of a number and the power of ten of the first one as they are. A
literal in full adds zeros on either side; but digits of shortest decimals do not end in zero, so
the digits in full, taken as one integer, tell where the zeros begin.
-/

namespace LedgerIntake

open Json.Number (Literal)
open Json.Number.Literal

section Decimals

/-- Digits tell numbers apart, since a number is read back from its digits. -/
theorem toDigits_injective {value other : Nat}
    (same : Nat.toDigits 10 value = Nat.toDigits 10 other) :
    value = other := by
  calc value = Nat.ofDigitChars 10 (Nat.toDigits 10 value) 0 := Nat.ofDigitChars_ten_toDigits.symm
    _ = Nat.ofDigitChars 10 (Nat.toDigits 10 other) 0 := by rw [same]
    _ = other := Nat.ofDigitChars_ten_toDigits

namespace Decimal

/-- A decimal is its coefficient and its power of ten. -/
theorem ext {decimal other : Decimal} (coefficient : decimal.coefficient = other.coefficient)
    (exponent : decimal.exponent = other.exponent) : decimal = other := by
  cases decimal
  cases other
  cases coefficient
  cases exponent
  rfl

/-- A decimal is its digits and the power of ten of the first one. This is how texts show it. -/
theorem ext_digits {decimal other : Decimal} (digits : decimal.digits = other.digits)
    (power : decimal.leading = other.leading) : decimal = other := by
  apply ext (toDigits_injective digits)
  rw [leading, leading, digits] at power
  omega

/-- Digits that do not end in zero, or zero itself. -/
def Trimmed (decimal : Decimal) : Prop := decimal.coefficient % 10 ≠ 0 ∨ decimal = ⟨0, 0⟩

end Decimal

/-- Zeros behind a number that does not end in one tell how many they are. -/
theorem le_of_mul_pow_eq {value other zeros zeros' : Nat} (last : value % 10 ≠ 0)
    (same : value * 10 ^ zeros = other * 10 ^ zeros') : zeros' ≤ zeros := by
  apply Nat.le_of_not_lt
  intro fewer
  obtain ⟨more, rfl⟩ := Nat.exists_eq_add_of_lt fewer
  have ending : value = 10 * (other * 10 ^ more) := by
    apply Nat.mul_right_cancel (Nat.pow_pos (n := zeros) (show 0 < 10 by decide))
    rw [same, Nat.pow_succ, Nat.pow_add]
    ring
  rw [ending, Nat.mul_mod_right] at last
  exact last rfl

/-- Numbers that do not end in zero are equal if they are with zeros behind them, and so
many zeros stand behind both. -/
theorem eq_of_mul_pow_eq {value other zeros zeros' : Nat} (last : value % 10 ≠ 0)
    (last' : other % 10 ≠ 0)
    (same : value * 10 ^ zeros = other * 10 ^ zeros') : value = other ∧ zeros = zeros' := by
  have equal := Nat.le_antisymm (le_of_mul_pow_eq last' same.symm) (le_of_mul_pow_eq last same)
  subst equal
  exact ⟨Nat.mul_right_cancel (Nat.pow_pos (show 0 < 10 by decide)) same, rfl⟩

end Decimals

namespace Json.Number.Literal

/-- A literal with an exponent tells its sign, its digits and the power of ten of the first one. -/
theorem scientific_injective {negative negative' : Bool} {digits digits' : List Char}
    {leading leading' : Int}
    (same : scientific negative digits leading = scientific negative' digits' leading') :
    negative = negative' ∧ digits = digits' ∧ leading = leading' := by
  refine ⟨congrArg Literal.negative same, ?_, ?_⟩
  · have digitsSame := congrArg Literal.digits same
    rwa [digits_scientific, digits_scientific] at digitsSame
  · have powers : some (decide (leading < 0), Nat.toDigits 10 leading.natAbs)
        = some (decide (leading' < 0), Nat.toDigits 10 leading'.natAbs) :=
          congrArg Literal.exponent same
    obtain ⟨sign, magnitude⟩ := Prod.mk.inj (Option.some.inj powers)
    have absolute := toDigits_injective magnitude
    have below : leading < 0 ↔ leading' < 0 := decide_eq_decide.mp sign
    omega

/-- Writing digits in full keeps the sign. -/
theorem negative_full (negative : Bool) (digits : List Char) (leading : Int) :
    (full negative digits leading).negative = negative := by
  unfold full
  split
  · rfl
  · split <;> rfl

/-- The digits in full, taken as one integer, are those of the decimal with some zeros behind. How
many they are is told by the number of digits after the point. -/
theorem full_value (negative : Bool) (coefficient : Nat) (leading : Int) :
    ∃ zeros : Nat,
      Nat.ofDigitChars 10 (full negative (Nat.toDigits 10 coefficient) leading).digits 0
        = coefficient * 10 ^ zeros ∧
      (zeros : Int) =
        ((full negative (Nat.toDigits 10 coefficient) leading).fraction.getD []).length
          + leading + 1 - (Nat.toDigits 10 coefficient).length := by
  have value : Nat.ofDigitChars 10 (Nat.toDigits 10 coefficient) 0 = coefficient :=
    Nat.ofDigitChars_ten_toDigits
  unfold full
  by_cases fractional : leading < 0
  · rw [if_pos fractional]
    refine ⟨0, ?_, ?_⟩
    · show Nat.ofDigitChars 10 (['0'] ++ (List.replicate _ '0' ++ Nat.toDigits 10 coefficient)) 0
        = _
      rw [Nat.ofDigitChars_append, Nat.ofDigitChars_append, Nat.ofDigitChars_replicate_zero]
      simp only [Nat.ofDigitChars_cons, Nat.ofDigitChars_nil]
      rw [Nat.mul_zero, Nat.zero_add, Nat.sub_self, Nat.mul_zero, value, Nat.pow_zero, Nat.mul_one]
    · simp only [Option.getD_some, List.length_append, List.length_replicate]
      omega
  · rw [if_neg fractional]
    by_cases whole : (Nat.toDigits 10 coefficient).length ≤ leading.toNat + 1
    · rw [if_pos whole]
      refine ⟨leading.toNat + 1 - (Nat.toDigits 10 coefficient).length + 1, ?_, ?_⟩
      · show Nat.ofDigitChars 10 (Nat.toDigits 10 coefficient ++ List.replicate _ '0' ++ ['0']) 0
          = _
        rw [Nat.ofDigitChars_append, Nat.ofDigitChars_append, value,
          Nat.ofDigitChars_replicate_zero]
        simp only [Nat.ofDigitChars_cons, Nat.ofDigitChars_nil]
        rw [Nat.pow_succ]
        simp only [Char.reduceToNat, Nat.sub_self]
        ring
      · simp only [Option.getD_some, List.length_singleton]
        omega
    · rw [if_neg whole]
      refine ⟨0, ?_, ?_⟩
      · show Nat.ofDigitChars 10 (List.take _ _ ++ List.drop _ _) 0 = _
        rw [List.take_append_drop, value, Nat.pow_zero, Nat.mul_one]
      · simp only [Option.getD_some, List.length_drop]
        omega

/-- A literal in full tells its sign and the decimal. The zeros around the digits do no harm,
because trimmed digits neither begin nor end with one. -/
theorem full_injective {negative negative' : Bool} {decimal other : Decimal}
    (trimmed : decimal.Trimmed)
    (trimmed' : other.Trimmed)
    (same : full negative decimal.digits decimal.leading
      = full negative' other.digits other.leading) :
    negative = negative' ∧ decimal = other := by
  obtain ⟨zeros, value, places⟩ := full_value negative decimal.coefficient decimal.leading
  obtain ⟨zeros', value', places'⟩ := full_value negative' other.coefficient other.leading
  change full negative (Nat.toDigits 10 decimal.coefficient)
    _ = full _ (Nat.toDigits 10 other.coefficient) _ at same
  constructor
  · have signs := congrArg Literal.negative same
    rwa [negative_full, negative_full] at signs
  · rw [same] at value places
    have integers := value.symm.trans value'
    have nonzero {decimal : Decimal} {zeros : Nat} (last : decimal.coefficient % 10 ≠ 0) :
        decimal.coefficient * 10 ^ zeros ≠ 0 := by
      refine Nat.ne_of_gt (Nat.mul_pos (Nat.pos_of_ne_zero ?_) (Nat.pow_pos (by decide)))
      intro zero
      exact last (by rw [zero])
    rcases trimmed with last | rfl
    · rcases trimmed' with last' | rfl
      · obtain ⟨coefficient, equal⟩ := eq_of_mul_pow_eq last last' integers
        apply Decimal.ext_digits (congrArg (Nat.toDigits 10) coefficient)
        rw [coefficient] at places
        omega
      · exact absurd (integers.trans (Nat.zero_mul _)) (nonzero last)
    · rcases trimmed' with last' | rfl
      · exact absurd (integers.symm.trans (Nat.zero_mul _)) (nonzero last')
      · rfl

end Json.Number.Literal

namespace Binary64

variable {x y : Binary64} {tie : Tie}

/-- The decimal that is written of a magnitude. -/
def decimal (tie : Tie) (x : Binary64) : Decimal := if x.magnitude = 0 then ⟨0, 0⟩
    else x.shortest tie

/-- The figures of a number are the digits of its trimmed decimal. -/
theorem figures_eq (tie : Tie) (x : Binary64) : x.figures tie = (x.decimal tie).digits := by
  unfold figures decimal
  split <;> rfl

/-- The place of the first figure is that of its trimmed decimal. -/
theorem leading_eq (tie : Tie) (x : Binary64) : x.leading tie = (x.decimal tie).leading := by
  unfold leading decimal
  split <;> rfl

/-- The trimmed decimal does not end in zero, so equal texts come from equal decimals. -/
theorem trimmed_decimal (tie : Tie) (x : Binary64) : (x.decimal tie).Trimmed := by
  unfold decimal
  by_cases zero : x.magnitude = 0
  · rw [if_pos zero]
    exact .inr rfl
  · obtain ⟨places, -, -, last⟩ := shortest_spec tie x (Nat.pos_of_ne_zero zero)
    rw [if_neg zero]
    exact .inl last

/-- The shortest decimal of a number tells its magnitude: it rounds to the
number, and to no other one. -/
theorem magnitude_eq_of_shortest (positive : 0 < x.magnitude) (positive' : 0 < y.magnitude)
    (same : x.shortest tie = y.shortest tie) : x.magnitude = y.magnitude := by
  obtain ⟨places, found, -, -⟩ := shortest_spec tie x positive
  obtain ⟨places', found', -, -⟩ := shortest_spec tie y positive'
  have exponent := found.exponent
  have exponent' := found'.exponent
  have here := found.here
  rw [same] at exponent here
  have grid : places = places' := by omega
  rw [grid] at here
  exact magnitude_unique here found'.here

/-- The decimal that is written of a magnitude tells it, whether it is
zero or has a shortest decimal. -/
theorem magnitude_eq_of_decimal (same : x.decimal tie = y.decimal tie) :
    x.magnitude = y.magnitude := by
  have apart {z : Binary64} (positive : 0 < z.magnitude) : z.shortest tie ≠ ⟨0, 0⟩ := by
    intro zero
    obtain ⟨places, -, some, -⟩ := shortest_spec tie z positive
    rw [zero] at some
    exact Nat.lt_irrefl 0 some
  unfold decimal at same
  rcases Nat.eq_zero_or_pos x.magnitude with zero | positive
  · rcases Nat.eq_zero_or_pos y.magnitude with zero' | positive'
    · rw [zero, zero']
    · rw [if_pos zero, if_neg (Nat.ne_of_gt positive')] at same
      exact absurd same.symm (apart positive')
  · rcases Nat.eq_zero_or_pos y.magnitude with zero' | positive'
    · rw [if_neg (Nat.ne_of_gt positive), if_pos zero'] at same
      exact absurd same (apart positive)
    · rw [if_neg (Nat.ne_of_gt positive), if_neg (Nat.ne_of_gt positive')] at same
      exact magnitude_eq_of_shortest positive positive' same

end Binary64

/-- What a layout writes of a binary64 is written of no other one, in full or with an exponent. -/
theorem Layout.literal_injective (layout : Layout) {x y : Binary64}
    (same : layout.literal x = layout.literal y) :
    x = y := by
  have decimals : x.isNegative = y.isNegative ∧ x.decimal layout.tie = y.decimal layout.tie := by
    unfold literal at same
    rw [Binary64.figures_eq, Binary64.figures_eq, Binary64.leading_eq, Binary64.leading_eq] at same
    split at same
    · split at same
      · exact full_injective (x.trimmed_decimal _) (y.trimmed_decimal _) same
      · have exponents := congrArg Literal.exponent same
        rw [Decimal.digits, Json.Number.exponent_full] at exponents
        cases exponents
    · split at same
      · have exponents := congrArg Literal.exponent same
        rw [Decimal.digits, Decimal.digits, Json.Number.exponent_full] at exponents
        cases exponents
      · obtain ⟨sign, digits, power⟩ := scientific_injective same
        exact ⟨sign, Decimal.ext_digits digits power⟩
  exact Binary64.ext_magnitude decimals.1 (Binary64.magnitude_eq_of_decimal decimals.2)

/-- What is written of a number is written of no other number. Floats are told from integers by a
fraction or an exponent, which integers never have. -/
theorem Json.Number.literal_injective (layout : Layout) {number other : Number}
    (same : number.literal layout = other.literal layout) : number = other := by
  have apart {x : Binary64} {integer : Literal} (fraction : integer.fraction = none)
      (exponent : integer.exponent = none) : layout.literal x ≠ integer := by
    rintro rfl
    rcases layout.literal_marked x with present | present
    · exact present fraction
    · exact present exponent
  cases number with
  | natural value =>
    cases other with
    | natural value' =>
      have digits := toDigits_injective (congrArg Literal.whole same)
      rw [UInt64.toNat_inj.mp digits]
    | negative below => cases congrArg Literal.negative same
    | float x finite => exact absurd same.symm (apart rfl rfl)
  | negative below =>
    cases other with
    | natural value => cases congrArg Literal.negative same
    | negative below' =>
      have digits := toDigits_injective (congrArg Literal.whole same)
      rw [Fin.ext (Nat.succ.inj digits)]
    | float x finite => exact absurd same.symm (apart rfl rfl)
  | float x finite =>
    cases other with
    | natural value => exact absurd same (apart rfl rfl)
    | negative below => exact absurd same (apart rfl rfl)
    | float y finite' =>
      have equal : x = y := layout.literal_injective same
      subst equal
      rfl

/-- The plain text of a number is the text of no other number, so equal texts of
timestamps are equal timestamps. -/
theorem Json.Number.text_injective {number other : Number} (same : number.text = other.text) :
    number = other := by
  apply literal_injective layout
  rw [← plain_writes.literal_eq, ← plain_writes.literal_eq, Style.literal, Style.literal]
  exact congrArg (fun text : String => (Literal.read? text.toList).getD ⟨false, [], none, none⟩)
    same

end LedgerIntake
