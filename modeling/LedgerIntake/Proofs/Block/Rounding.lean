import LedgerIntake.Proofs.Block.Spelling
import LedgerIntake.Proofs.Json.NumeralReading

/-!
# Rounding of indexes and nonces

An index or a nonce may be given as text. Digits alone are taken in as the integer that they are, or
refused. Text with a point or an exponent is a binary number first, and whether that is an integer
is asked of the rounded number: short text is still taken in exactly, longer text only nearly, and
from 2⁵³ on text that denotes no integer is taken in too.
-/

namespace LedgerIntake.BlockHeader

open Json
open Json.Number (Literal)

/-- A text writes a literal in the grammar of JSON numbers, between blanks. -/
structure Numeral (text : String) (literal : Literal) : Prop where
  wellFormed : literal.WellFormed
  spelled : ∃ mark plus, (mark = 'e' ∨ mark = 'E') ∧ (plus = [] ∨ plus = ['+']) ∧
    Text.trim text.toList = literal.spelling mark plus

section Texts

variable {text : String} {literal : Literal} (numeral : Numeral text literal)

include numeral

/-- The number of a text is the number of the literal that it writes, once
the blanks around it are gone. -/
theorem read?_numeral : Number.read? (Text.trim text.toList) = literal.number? := by
  obtain ⟨mark, plus, marked, sign, spelled⟩ := numeral.spelled
  rw [Number.read?, spelled, Number.Literal.read?_spelling marked sign literal numeral.wellFormed]
  rfl

/-- A natural number is read of a text exactly if the literal is read as that number. -/
theorem readNatural_text_iff {natural : UInt64} :
    readNatural (.text text) = .ok natural ↔ literal.ReadAs natural.toNat := by
  rw [readNatural_eq_ok_iff, spells_iff, Literal.ReadAs, ← read?_numeral numeral]
  refine exists_congr fun number => and_congr_left fun _ => ?_
  rw [readNumber]
  split
  · next other found =>
    rw [found, Option.some.injEq]
    exact ⟨Except.ok.inj, congrArg _⟩
  · next missing =>
    rw [missing]
    exact iff_of_false (fun read => by cases read) fun read => by cases read

end Texts

/-- Of a text that writes a number for an index or a nonce, exactly the natural number that
it denotes is taken in if it is digits alone or short; any number that is taken in is nearly
the one that is denoted; and from 2⁵³ almost up to 2⁶⁴ some natural number is taken in
whether or not one is denoted. Texts of more than two billion digits aside, since powers of
ten are counted up to 2³¹ only. -/
theorem readNatural_numeral (text : String) (literal : Literal) (numeral : Numeral text literal) :
    (literal.Plain ∨ literal.Short ∧ literal.digits.length ≤ 2 * 10 ^ 9 → ∀ natural : UInt64,
        readNatural (.text text) = .ok natural ↔ literal.value = natural.toNat) ∧
      (∀ natural : UInt64, natural ≠ 0 → readNatural (.text text) = .ok natural →
        |literal.value - natural.toNat| ≤ natural.toNat / 2 ^ 51) ∧
      (literal.digits.length ≤ 2 * 10 ^ 9 → readNatural (.text text) = .ok 0 →
        |literal.value| < 10 ^ (-280 : ℤ)) ∧
      (literal.digits.length ≤ 2 * 10 ^ 9 → 2 ^ 53 ≤ literal.value →
        literal.value ≤ 2 ^ 64 - 2 ^ 13 →
        ∃ natural, readNatural (.text text) = .ok natural) ∧
      ∀ (members : Members) (header : BlockHeader), ofJson (.object members) = .ok header →
        (members.get? Field.index.name = some (.text text) →
          readNatural (.text text) = .ok header.index) ∧
          (members.get? Field.nonce.name = some (.text text) →
            readNatural (.text text) = .ok header.nonce) := by
  have proper := numeral.wellFormed
  refine ⟨fun exactly natural => ?_, fun natural nonzero read =>
    ?_, fun few read => ?_, fun few least most => ?_,
    fun members header read => ?_⟩
  · rw [readNatural_text_iff numeral]
    by_cases plain : literal.Plain
    · exact literal.readAs_natural_iff_of_plain proper plain natural.toNat_lt
    · obtain ⟨short, few⟩ := exactly.resolve_left plain
      exact literal.readAs_natural_iff_of_short proper few short plain
  · have positive : 0 < natural.toNat :=
      Nat.pos_of_ne_zero fun zero => nonzero (UInt64.toNat_inj.mp zero)
    exact literal.abs_sub_le_of_readAs proper ((readNatural_text_iff numeral).mp read)
      positive natural.toNat_lt
  · exact literal.abs_lt_of_readAs_zero proper few
      (by simpa using (readNatural_text_iff numeral).mp read)
  · obtain ⟨natural, small, readAs⟩ := literal.exists_readAs proper few least most
    refine ⟨UInt64.ofNat natural, (readNatural_text_iff numeral).mpr ?_⟩
    rwa [UInt64.toNat_ofNat', Nat.mod_eq_of_lt small]
  · obtain ⟨⟨_, found, index⟩, -, -, -, _, found', nonce⟩ := ofMembers_eq_ok_iff.mp read
    constructor
    · intro given
      rw [given] at found
      cases found
      exact index
    · intro given
      rw [given] at found'
      cases found'
      exact nonce

/-- Digits on both sides of a point make a literal, unless a zero leads others. -/
theorem wellFormed_fraction {whole fraction : List Char} (digits : Literal.Digits whole)
    (leading : whole.head? = some '0' → whole.length ≤ 1) (digits' : Literal.Digits fraction) :
    (⟨false, whole, some fraction, none⟩ : Literal).WellFormed where
  whole := digits
  leading := leading
  fraction _ same := by
    cases same
    exact digits'
  exponent _ _ same := by cases same

/-- Twelve is taken in as twelve also with a fraction of zero and between blanks. -/
theorem readNatural_numeral_twelve :
    let literal : Literal := ⟨false, ['1', '2'], some ['0'], none⟩
    Numeral " 12.0\n" literal ∧ literal.Short ∧ literal.digits.length ≤ 2 * 10 ^ 9 ∧
      readNatural (.text " 12.0\n") = .ok 12 := by
  intro literal
  have proper : literal.WellFormed :=
    wellFormed_fraction ⟨by decide, List.all_eq_true.mp rfl⟩ (by decide)
      ⟨by decide, List.all_eq_true.mp rfl⟩
  have numeral : Numeral " 12.0\n" literal := ⟨proper, 'e', [], .inl rfl, .inl rfl, by decide⟩
  have coefficient : literal.coefficient = 120 := by decide
  have power : literal.power = -1 := by decide
  have size : literal.size = 12 := by
    rw [Literal.size, coefficient, power]
    norm_num
  have short : literal.Short :=
    { coefficient := by
        rw [coefficient]
        decide
      low := by
        rw [power]
        decide
      high := by
        rw [power]
        decide
      size := by
        rw [size]
        norm_num }
  have few : literal.digits.length ≤ 2 * 10 ^ 9 := by decide
  have value : literal.value = (12 : UInt64).toNat := by
    rw [Literal.value, Literal.sign, if_neg (by decide), one_mul, size,
      show (12 : UInt64).toNat = 12 from rfl]
    norm_num
  exact ⟨numeral, short, few,
    ((readNatural_numeral _ literal numeral).1 (.inr ⟨short, few⟩) 12).mpr value⟩

/-- A significand of `10 ^ 19` with nineteen of its digits behind the point is read as one, whatever
digits are dropped behind them: the power and the quotient are exact. -/
theorem readAs_one_of_tail (literal : Literal) (proper : literal.WellFormed)
    (scaled : literal.scaled = ⟨10 ^ 19, -19⟩) (fraction : literal.fraction ≠ none)
    (exponent : literal.exponent = none) (plus : literal.negative = false)
    (few : literal.digits.length ≤ 2 * 10 ^ 9) : literal.ReadAs (1 : Nat) := by
  have written : literal.written = 0 := by rw [Literal.written, exponent]
  have scaling : literal.scaling = -19 := by rw [Literal.scaling, scaled, written, Int.add_zero]
  obtain ⟨magnitude, found, rounds⟩ := literal.exists_rounds proper few (by rw [scaled]; decide)
    (by rw [scaling]; decide) (by rw [scaling]; decide)
  have significand : (Binary64.ofNat (10 ^ 19)).extent = (10 ^ 19 : Nat) := by
    have exact := Binary64.units_ofNat_mul_pow (5 ^ 19) 19 (by decide) (by decide)
    rw [← Nat.mul_pow] at exact
    exact Binary64.extent_eq_iff.mpr exact
  have exactly : literal.scaledSize = (1 : Nat) := by
    rw [Literal.scaledSize, scaling, scaled, significand]
    norm_num
  have quotient := rounds.integer 1 (by decide) exactly
  refine (literal.readAs_iff_of_marked proper fun plain => fraction plain.fraction).mpr
    ⟨magnitude, found, ?_⟩
  rw [quotient, Literal.sign, plus, if_neg Bool.false_ne_true, one_mul]

/-- Slightly more than one is taken in as one: a header with that index has the hash of a header
with the index one. The digits past the nineteenth place are lost. -/
theorem hashOf_numeral_rounded :
    let zeros : String := String.ofList (List.replicate 64 '0')
    let entry (index : String) : Value :=
      .object [("index", .text index), ("merkle_root", .text zeros),
        ("nonce", .number (.natural 0)), ("previous_hash", .text zeros),
        ("timestamp", .number (.natural 0))]
    ∃ literal, Numeral "1.00000000000000000001" literal ∧ (∀ integer : ℤ, literal.value ≠ integer) ∧
      ∃ digest, hashOf (entry "1") = .ok digest ∧
        hashOf (entry "1.00000000000000000001") = .ok digest := by
  intro zeros entry
  obtain ⟨literal, written⟩ : ∃ literal : Literal,
    literal = ⟨false, ['1'], some "00000000000000000001".toList, none⟩ := ⟨_, rfl⟩
  have proper : literal.WellFormed := by
    rw [written]
    exact wellFormed_fraction ⟨by decide, List.all_eq_true.mp rfl⟩
      (by decide) ⟨by decide, List.all_eq_true.mp rfl⟩
  have numeral : Numeral "1.00000000000000000001" literal := by
    refine ⟨proper, 'e', [], .inl rfl, .inl rfl, ?_⟩
    rw [written]
    decide
  refine ⟨literal, numeral, fun integer same => ?_, ?_⟩
  · have value : literal.value = 100000000000000000001 / 10 ^ 20 := by
      have coefficient : literal.coefficient = 100000000000000000001 := by rw [written]; decide
      have power : literal.power = -20 := by rw [written]; decide
      have plus : literal.sign = 1 := by rw [written]; rfl
      rw [Literal.value, Literal.size, plus, coefficient, power]
      norm_num
    rw [value, div_eq_iff (by norm_num)] at same
    have integral : (100000000000000000001 : ℤ) = integer * 10 ^ 20 := by exact_mod_cast same
    omega
  · have read : readNatural (.text "1.00000000000000000001") = .ok 1 := by
      have taken : literal.ReadAs (1 : Nat) := by
        rw [written] at proper ⊢
        exact readAs_one_of_tail _ proper rfl (by decide) rfl rfl (by decide)
      exact (readNatural_text_iff numeral).mpr taken
    have zero : readDigest (.text zeros) = .ok ⟨List.replicate 32 0, List.length_replicate⟩ :=
      readDigest_eq_ok_iff.mpr ⟨zeros, rfl, by decide⟩
    let header : BlockHeader := ⟨1, .natural 0, ⟨List.replicate 32 0, List.length_replicate⟩,
      ⟨List.replicate 32 0, List.length_replicate⟩, 0⟩
    have given (index : String) (taken : readNatural (.text index) = .ok 1) :
        hashOf (entry index) = .ok header.hash := by
      have fields : ofJson (entry index) = .ok header :=
        ofMembers_eq_ok_iff.mpr
          ⟨⟨_, rfl, taken⟩, ⟨_, rfl, rfl⟩, ⟨_, rfl, zero⟩, ⟨_, rfl, zero⟩, ⟨_, rfl, rfl⟩⟩
      rw [hashOf, fields]
      rfl
    exact ⟨header.hash, given "1" rfl, given "1.00000000000000000001" read⟩

end LedgerIntake.BlockHeader
