import LedgerIntake.Proofs.Json.Numerals
import LedgerIntake.Proofs.Json.Scaling
import LedgerIntake.Proofs.Number.Error

/-!
# Digits that are dropped

A literal denotes a rational number: all its digits as one integer, times a power of ten. Its
significand takes in the digits that fit in 64 bits. Where digits are dropped, the significand and
the integer begin with the same digits, at least eighteen of them, so with their powers of ten they
differ by less than one part in 2⁶⁰.
-/

namespace LedgerIntake.Json.Number.Literal

open Binary64 (Within)

/-- All digits of a literal as one integer. -/
def coefficient (literal : Literal) : Nat := Nat.ofDigitChars 10 literal.digits 0

/-- The written power of ten. -/
def written (literal : Literal) : Int :=
  match literal.exponent with
  | none => 0
  | some (negative, digits) => if negative then -natural digits else natural digits

/-- The digits after the point. -/
def fractional (literal : Literal) : List Char := literal.fraction.getD []

/-- The power of ten of the last digit. -/
def power (literal : Literal) : Int := literal.written - literal.fractional.length

/-- The rational number that a literal denotes, without its sign. -/
def size (literal : Literal) : ℚ := literal.coefficient * 10 ^ literal.power

/-- The sign of a literal. -/
def sign (literal : Literal) : ℚ := if literal.negative then -1 else 1

/-- The rational number that a literal denotes. -/
def value (literal : Literal) : ℚ := literal.sign * literal.size

/-- What a significand and a power of ten stand for. -/
def Scaled.value (scaled : Scaled) : ℚ := scaled.significand * 10 ^ scaled.power

/-- What is taken in of the digits behind a significand: all that fits. -/
structure Taken (significand : Nat) (digits front back : List Char) : Prop where
  split : digits = front ++ back
  fits : Nat.ofDigitChars 10 front significand ≤ greatest
  full : back ≠ [] → greatest / 10 ≤ Nat.ofDigitChars 10 front significand

section Digits

variable {digits : List Char} {significand : Nat}

/-- A decimal digit is worth nine at most. -/
theorem digitValue_le {digit : Char} (decimal : digit.isDigit = true) : digitValue digit ≤ 9 := by
  simp only [Char.isDigit, Bool.and_eq_true, decide_eq_true_eq] at decimal
  have most : digit.toNat ≤ 57 := decimal.2
  rw [digitValue]
  omega

/-- Further digits do not reach the next significand. So what digits denote is
bounded by those in front of them. -/
theorem ofDigitChars_bounds (decimal : ∀ digit ∈ digits, digit.isDigit = true) (significand : Nat) :
    significand * 10 ^ digits.length ≤ Nat.ofDigitChars 10 digits significand ∧
      Nat.ofDigitChars 10 digits significand < (significand + 1) * 10 ^ digits.length := by
  induction digits generalizing significand with
  | nil =>
    rw [Nat.ofDigitChars_nil, List.length_nil, Nat.pow_zero]
    omega
  | cons digit rest inductionHypothesis =>
    have small := digitValue_le (decimal digit List.mem_cons_self)
    obtain ⟨lower, upper⟩ :=
      inductionHypothesis (fun other among => decimal other (List.mem_cons_of_mem _ among))
        (significand * 10 + digitValue digit)
    rw [Nat.ofDigitChars_cons, ← extend_digit, List.length_cons, Nat.pow_succ]
    constructor
    · refine Nat.le_trans ?_ lower
      calc significand * (10 ^ rest.length * 10) = significand * 10 * 10 ^ rest.length := by ring
        _ ≤ (significand * 10 + digitValue digit) * 10 ^ rest.length :=
          Nat.mul_le_mul_right _ (Nat.le_add_right _ _)
    · refine Nat.lt_of_lt_of_le upper ?_
      calc (significand * 10 + digitValue digit + 1) * 10 ^ rest.length
          ≤ (significand + 1) * 10 * 10 ^ rest.length := Nat.mul_le_mul_right _ (by omega)
        _ = (significand + 1) * (10 ^ rest.length * 10) := by ring

/-- A significand that has no room for a digit is nearly the greatest. -/
theorem le_of_overflow {digit : Char} (decimal : digit.isDigit = true)
    (beyond : ¬significand * 10 + digitValue digit ≤ greatest) : greatest / 10 ≤ significand := by
  have small := digitValue_le decimal
  simp only [greatest, UInt64.size] at beyond ⊢
  omega

/-- Once a digit before the point is dropped, so are all later ones, and each raises the power. -/
theorem foldl_takeWhole_dropped (digits : List Char) {power : Int} (dropped : 0 < power) :
    digits.foldl takeWhole ⟨significand, power⟩ = ⟨significand, power + digits.length⟩ := by
  induction digits generalizing power with
  | nil => rw [List.foldl_nil, List.length_nil, Int.natCast_zero, Int.add_zero]
  | cons digit rest inductionHypothesis =>
    have skipped : takeWhole ⟨significand, power⟩ digit = ⟨significand, power + 1⟩ :=
      if_neg fun both => absurd both.1 (Int.ne_of_gt dropped)
    rw [List.foldl_cons, skipped, inductionHypothesis (by omega), List.length_cons]
    congr 1
    omega

/-- Digits before the point are taken in while they fit, and the others raise the power. -/
theorem exists_takeWhole (decimal : ∀ digit ∈ digits, digit.isDigit = true)
    (fits : significand ≤ greatest) :
    ∃ front back, Taken significand digits front back ∧
      digits.foldl takeWhole ⟨significand, 0⟩
        = ⟨Nat.ofDigitChars 10 front significand, back.length⟩ := by
  induction digits generalizing significand with
  | nil => exact ⟨[], [], ⟨rfl, fits, fun filled => absurd rfl filled⟩, rfl⟩
  | cons digit rest inductionHypothesis =>
    by_cases room : significand * 10 + digitValue digit ≤ greatest
    · obtain ⟨front, back, taken, folded⟩ :=
        inductionHypothesis (fun other among => decimal other (List.mem_cons_of_mem _ among)) room
      have first : takeWhole ⟨significand, 0⟩ digit = ⟨significand * 10 + digitValue digit, 0⟩ :=
        if_pos ⟨rfl, room⟩
      refine ⟨digit :: front, back, ⟨congrArg _ taken.split, ?_, ?_⟩, ?_⟩
      · rw [Nat.ofDigitChars_cons, ← extend_digit]
        exact taken.fits
      · rw [Nat.ofDigitChars_cons, ← extend_digit]
        exact taken.full
      · rw [List.foldl_cons, first, folded, Nat.ofDigitChars_cons, ← extend_digit]
    · have first : takeWhole ⟨significand, 0⟩ digit = ⟨significand, 1⟩ :=
        if_neg fun both => room both.2
      refine ⟨[], digit :: rest,
        ⟨rfl, fits, fun _ => le_of_overflow (decimal digit List.mem_cons_self) room⟩, ?_⟩
      rw [List.foldl_cons, first, foldl_takeWhole_dropped rest Int.one_pos, Nat.ofDigitChars_nil,
        List.length_cons]
      congr 1
      omega

/-- Digits after the point are taken in while they fit, and each lowers the power. -/
theorem exists_takeFraction (decimal : ∀ digit ∈ digits, digit.isDigit = true)
    (fits : significand ≤ greatest)
    (power : Int) : ∃ front back, Taken significand digits front back ∧
      takeFraction ⟨significand, power⟩ digits
        = ⟨Nat.ofDigitChars 10 front significand, power - front.length⟩ := by
  induction digits generalizing significand power with
  | nil => exact ⟨[], [], ⟨rfl, fits, fun filled => absurd rfl filled⟩, by simp [takeFraction]⟩
  | cons digit rest inductionHypothesis =>
    rw [takeFraction]
    dsimp only
    by_cases room : significand * 10 + digitValue digit ≤ greatest
    · obtain ⟨front, back, taken, folded⟩ :=
        inductionHypothesis (fun other among => decimal other (List.mem_cons_of_mem _ among))
          room (power - 1)
      refine ⟨digit :: front, back, ⟨congrArg _ taken.split, ?_, ?_⟩, ?_⟩
      · rw [Nat.ofDigitChars_cons, ← extend_digit]
        exact taken.fits
      · rw [Nat.ofDigitChars_cons, ← extend_digit]
        exact taken.full
      · rw [if_pos room, folded, Nat.ofDigitChars_cons, ← extend_digit, List.length_cons]
        congr 1
        omega
    · refine ⟨[], digit :: rest,
        ⟨rfl, fits, fun _ => le_of_overflow (decimal digit List.mem_cons_self) room⟩, ?_⟩
      rw [if_neg room, Nat.ofDigitChars_nil]
      simp

end Digits

/-- The factor between integers that begin with the same digits, if digits had to be dropped. -/
def droppingFactor : ℚ := 1 + 1 / 2 ^ 60

/-- Integers that continue one significand are close to each other, each divided by ten
for every digit that it adds. -/
theorem within_of_shared {significand first second places places' : Nat}
    (large : greatest / 10 ≤ significand)
    (bounds : significand * 10 ^ places ≤ first ∧ first < (significand + 1) * 10 ^ places)
    (bounds' : significand * 10 ^ places' ≤ second ∧ second < (significand + 1) * 10 ^ places') :
    Within droppingFactor (first / 10 ^ places : ℚ) (second / 10 ^ places' : ℚ) := by
  have inRationals {value places : Nat} (bounds : significand * 10 ^ places ≤ value ∧
      value < (significand + 1) * 10 ^ places) :
      (significand : ℚ) ≤ value / 10 ^ places ∧ (value / 10 ^ places : ℚ) ≤ significand + 1 := by
    rw [le_div_iff₀ (by positivity), div_le_iff₀ (by positivity)]
    exact ⟨by exact_mod_cast bounds.1, by exact_mod_cast bounds.2.le⟩
  obtain ⟨lower, upper⟩ := inRationals bounds
  obtain ⟨lower', upper'⟩ := inRationals bounds'
  have wide : (2 : ℚ) ^ 60 ≤ significand := by
    have natural : 2 ^ 60 ≤ significand := Nat.le_trans (by decide) large
    exact_mod_cast natural
  rw [droppingFactor]
  constructor
  · linarith
  · linarith

/-- A power of ten is positive. -/
theorem ten_zpow_pos (power : Int) : (0 : ℚ) < 10 ^ power := zpow_pos (by norm_num) power

/-- A fraction may be counted from another power of ten, less as many places. -/
theorem div_pow_mul_zpow (value : ℚ) (places : Nat) (power : Int) :
    value / 10 ^ places * 10 ^ power = value * 10 ^ (power - places) := by
  rw [zpow_sub₀ (by norm_num), zpow_natCast, div_mul_eq_mul_div, mul_div_assoc]

/-- The significand and its power stand for what the digits denote but
for those that are dropped. -/
structure Scaled.Covers (scaled : Scaled) (literal : Literal) : Prop where
  fits : scaled.significand ≤ greatest
  lowest : -(literal.fractional.length : Int) ≤ scaled.power
  highest : scaled.power ≤ literal.whole.length
  close :
      Within droppingFactor scaled.value
        (literal.coefficient * 10 ^ (-literal.fractional.length : Int))

section Literals

variable {literal : Literal} (proper : literal.WellFormed)

include proper

/-- The fractional digits of a proper literal are decimal. -/
theorem isDigit_fractional : ∀ digit ∈ literal.fractional, digit.isDigit = true := by
  rw [fractional]
  cases present : literal.fraction with
  | none => exact fun digit among => absurd among List.not_mem_nil
  | some digits => exact (proper.fraction digits present).2

/-- The digits of a literal have a significand that covers them. Digits are taken in
from the front while they fit: those before the point that do not fit raise the power,
those behind it are passed over. -/
theorem covers_scaled : literal.scaled.Covers literal := by
  have decimal := isDigit_fractional proper
  obtain ⟨front, back, taken, whole⟩ := exists_takeWhole proper.whole.2 (Nat.zero_le greatest)
  obtain ⟨front', back', taken', fraction⟩ := exists_takeFraction decimal taken.fits back.length
  have scaled : literal.scaled = ⟨Nat.ofDigitChars 10 front' (Nat.ofDigitChars 10 front 0),
      (back.length : Int) - front'.length⟩ := by
    rw [Literal.scaled, whole]
    exact fraction
  have lengths : literal.whole.length = front.length + back.length := by
    rw [taken.split, List.length_append]
  have lengths' : literal.fractional.length = front'.length + back'.length := by
    rw [taken'.split, List.length_append]
  have all : literal.coefficient
      = Nat.ofDigitChars 10 literal.fractional
        (Nat.ofDigitChars 10 back (Nat.ofDigitChars 10 front 0)) := by
    rw [coefficient, digits, Nat.ofDigitChars_append, taken.split, Nat.ofDigitChars_append]
    rfl
  rw [scaled]
  refine ⟨taken'.fits, by dsimp only; omega, by dsimp only; omega, ?_⟩
  rw [Scaled.value, all]
  dsimp only
  by_cases kept : back = []
  · subst kept
    rw [Nat.ofDigitChars_nil, taken'.split, Nat.ofDigitChars_append, List.length_nil,
      Int.natCast_zero, List.length_append]
    generalize significant : Nat.ofDigitChars 10 front' (Nat.ofDigitChars 10 front 0) = significand
    by_cases kept' : back' = []
    · subst kept'
      rw [Nat.ofDigitChars_nil, List.length_nil, Nat.add_zero, Int.zero_sub]
      exact .refl (by norm_num [droppingFactor])
        (mul_nonneg (Nat.cast_nonneg _) (ten_zpow_pos _).le)
    · -- Digits are dropped behind the point only: the significand itself is what they continue.
      have large : greatest / 10 ≤ significand := significant ▸ taken'.full kept'
      have behind : ∀ digit ∈ back', digit.isDigit = true :=
        fun digit among => decimal digit (taken'.split ▸ List.mem_append_right _ among)
      have alone : significand * 10 ^ 0 ≤ significand ∧
        significand < (significand + 1) * 10 ^ 0 := by omega
      have close :=
        (within_of_shared large alone (ofDigitChars_bounds behind significand)).mul_right
          (10 ^ (-front'.length : Int)) (ten_zpow_pos _).le
      rw [div_pow_mul_zpow, div_pow_mul_zpow] at close
      convert close using 3
      · simp
      · push_cast
        ring
  · -- A digit is dropped before the point: what is taken in of the whole is continued in two ways.
    have large := taken.full kept
    generalize Nat.ofDigitChars 10 front 0 = significand at *
    have before : ∀ digit ∈ front', digit.isDigit = true :=
      fun digit among => decimal digit (taken'.split ▸ List.mem_append_left _ among)
    have behind : ∀ digit ∈ back ++ literal.fractional, digit.isDigit = true := by
      intro digit among
      rcases List.mem_append.mp among with whole | fraction
      · exact proper.whole.2 digit (taken.split ▸ List.mem_append_right _ whole)
      · exact decimal digit fraction
    have close := (within_of_shared large (ofDigitChars_bounds before significand)
      (ofDigitChars_bounds behind significand)).mul_right (10 ^ (back.length : Int))
        (ten_zpow_pos _).le
    rw [div_pow_mul_zpow, div_pow_mul_zpow, Nat.ofDigitChars_append, List.length_append] at close
    convert close using 3
    push_cast
    ring

/-- An integer that does not fit drops its last digit at least, and what is left is nearly full. -/
theorem scaled_of_overflow (alone : literal.fraction = none)
    (beyond : greatest < literal.coefficient) :
    greatest / 10 ≤ literal.scaled.significand ∧ 1 ≤ literal.scaled.power := by
  obtain ⟨front, back, taken, whole⟩ := exists_takeWhole proper.whole.2 (Nat.zero_le greatest)
  have dropped : back ≠ [] := by
    rintro rfl
    have fits := taken.fits
    rw [coefficient, digits, alone, Option.getD_none, taken.split, List.append_nil,
      List.append_nil] at beyond
    omega
  have present := List.length_pos_iff.mpr dropped
  rw [Literal.scaled, alone, Option.getD_none, takeFraction, whole]
  exact ⟨taken.full dropped, by dsimp only; omega⟩

end Literals

end LedgerIntake.Json.Number.Literal
