import LedgerIntake.Proofs.Canonical

/-!
# Numbers in records and in headers

A number is hashed with a record in its canonical text, and with a header in plain text, after the
same integers have replaced the same binary numbers. Integers are digits in both texts. Any other
number has an exponent behind `E` in canonical text, and no plain text has that letter; so a number
of a record and one of a header have the same text only if they are the same integer, within the
range of those that are written without a point.
-/

namespace LedgerIntake

open Json
open Json.Number (Literal)

namespace Json.Number.Literal

variable {literal : Literal}

/-- An exponent shows its mark, so texts with and without one are told apart by the letter. -/
theorem mark_mem_spelling (mark : Char) (plus : List Char) (powered : literal.exponent ≠ none) :
    mark ∈ literal.spelling mark plus := by
  obtain ⟨⟨negative, digits⟩, written⟩ := Option.ne_none_iff_exists'.mp powered
  rw [spelling, written, exponentSpelling]
  simp only [List.mem_append, List.mem_cons, true_or, or_true]

/-- Where exponents are marked by a small letter the capital one does not occur. -/
theorem capital_notMem_spelling (proper : literal.WellFormed) :
    'E' ∉ literal.spelling 'e' ['+'] := by
  have digits {list : List Char} (decimal : Digits list) : 'E' ∉ list := by
    intro among
    have digit := decimal.2 'E' among
    contradiction
  have whole := digits proper.whole
  have fraction : 'E' ∉ fractionSpelling literal.fraction := by
    cases written : literal.fraction with
    | none => exact List.not_mem_nil
    | some list =>
      rw [fractionSpelling, List.mem_cons, not_or]
      exact ⟨by decide, digits (proper.fraction list written)⟩
  have exponent : 'E' ∉ exponentSpelling 'e' ['+'] literal.exponent := by
    cases written : literal.exponent with
    | none => exact List.not_mem_nil
    | some power =>
      obtain ⟨negative, list⟩ := power
      have power := digits (proper.exponent negative list written)
      rw [exponentSpelling, List.mem_cons, List.mem_append, not_or, not_or]
      refine ⟨by decide, ?_, power⟩
      cases negative <;> decide
  rw [spelling, List.mem_append, List.mem_append, List.mem_append]
  rintro (sign | among | among | among)
  · cases literal.negative <;> simp at sign
  · exact whole among
  · exact fraction among
  · exact exponent among

end Json.Number.Literal

namespace Canonical

/-- Canonical text writes every binary number with an exponent, however small. -/
theorem exponent_literal (x : Binary64) : (layout.literal x).exponent ≠ none := by
  rw [Layout.literal, if_neg (show ¬ layout.inFull _ = true from Bool.false_ne_true)]
  exact Option.some_ne_none _

/-- The canonical text of one number is the plain text of another only if both are one integer. -/
theorem numberText_eq_text_iff (number other : Number) :
    numberText number = other.text ↔ number = other ∧
      ∃ integer, number.integer? = some integer := by
  cases number with
  | natural value =>
    rw [show numberText (.natural value) = (Number.natural value).text from rfl]
    exact ⟨fun same => ⟨Number.text_injective same, _, rfl⟩, fun same =>
      congrArg Number.text same.1⟩
  | negative below =>
    rw [show numberText (.negative below) = (Number.negative below).text from rfl]
    exact ⟨fun same => ⟨Number.text_injective same, _, rfl⟩, fun same =>
      congrArg Number.text same.1⟩
  | float x finite =>
    constructor
    · intro same
      obtain ⟨-, spelled⟩ := style_writes.numeral (.float x finite)
      obtain ⟨proper, plain⟩ := plain_writes.numeral other
      have marked : 'E' ∈ (numberText (.float x finite)).toList := by
        show 'E' ∈ (style.number _).toList
        rw [spelled]
        exact Literal.mark_mem_spelling 'E' [] (exponent_literal x)
      rw [same, show other.text = Style.plain.number other from rfl, plain] at marked
      exact absurd marked (Literal.capital_notMem_spelling proper)
    · rintro ⟨-, integer, known⟩
      cases known

/-- The integers that a number is formed of are those of 64 bits, with a sign or without. -/
theorem exists_ofInt?_iff (integer : Int) :
    (∃ number, Number.ofInt? integer = some number) ↔ -2 ^ 63 ≤ integer ∧ integer < 2 ^ 64 := by
  unfold Number.ofInt?
  split
  · split
    · next small =>
      simp only [UInt64.size] at small
      exact iff_of_true ⟨_, rfl⟩ ⟨by omega, small⟩
    · next great =>
      simp only [UInt64.size] at great
      exact iff_of_false (fun ⟨_, nothing⟩ => by cases nothing) fun bounds => great bounds.2
  · split
    · exact iff_of_true ⟨_, rfl⟩ (by omega)
    · exact iff_of_false (fun ⟨_, nothing⟩ => by cases nothing) (by omega)

/-- An integer is settled already, so only floats change. -/
theorem settle_of_integer? {number : Number} {integer : Int}
    (known : number.integer? = some integer) :
    settle number = number := by
  cases number with
  | natural value => rfl
  | negative below => rfl
  | float x finite => cases known

/-- A number is settled as an integer exactly if it stands for one that a number is formed of. -/
theorem exists_integer?_settle_iff (number : Number) :
    (∃ integer, (settle number).integer? = some integer) ↔
      ∃ integer : Int, number.exact = integer ∧ -2 ^ 63 ≤ integer ∧ integer < 2 ^ 64 := by
  constructor
  · rintro ⟨integer, known⟩
    refine ⟨integer, ?_, (exists_ofInt?_iff integer).mp ⟨_, Number.ofInt?_integer known⟩⟩
    rw [← exact_settle, Number.exact_of_integer? known]
  · rintro ⟨integer, equal, bounds⟩
    obtain ⟨formed, same⟩ := (exists_ofInt?_iff integer).mpr bounds
    have known := Number.integer?_of_ofInt? same
    have settled : settle number = settle formed := by
      rw [settle_eq_settle_iff, equal, Number.exact_of_integer? known]
    refine ⟨integer, ?_⟩
    rw [settled, settle_of_integer? known, known]

/-- The canonical text of a number is its settled form in canonical text. -/
theorem text_number (number : Number) : text (.number number) = numberText (settle number) := by
  have single : (Value.number number).WellFormed := trivial
  rw [text, normalize_fst single, Value.revalue]
  rfl

/-- The canonical bytes of a number are those of a text exactly if that is the
text of the settled number. -/
theorem bytes_eq_encode_iff (number : Number) (plain : String) :
    bytes (.number number) = Utf8.encode plain ↔ numberText (settle number) = plain := by
  rw [bytes, text_number]
  exact ⟨Utf8.encode_injective, congrArg _⟩

/-- A number of a record and a number of a header are hashed in the same text exactly if they are
the same integer, at least -2⁶³ and below 2⁶⁴. Both texts begin with settling the number; of a
float, only the text of the record always has an exponent. -/
theorem bytes_eq_plainNumberText_iff (number other : Number) :
    bytes (.number number) = Utf8.encode (plainNumberText other) ↔
      number.exact = other.exact ∧ ∃ integer : Int, other.exact = integer ∧
        -2 ^ 63 ≤ integer ∧ integer < 2 ^ 64 := by
  have plain : plainNumberText other = (settle other).text := rfl
  rw [bytes_eq_encode_iff, plain, numberText_eq_text_iff, settle_eq_settle_iff,
    exists_integer?_settle_iff]
  refine and_congr_right fun same => ?_
  rw [same]

/-- A quarter has one text in a record and another in a header: only the former has an exponent. -/
theorem bytes_ne_plainNumberText : ∃ quarter : Number, quarter.exact = 1 / 4 ∧
    bytes (.number quarter) ≠ Utf8.encode (plainNumberText quarter) := by
  obtain ⟨quarter, same⟩ : ∃ quarter : Number,
      quarter = .float ⟨0x3fd0000000000000⟩ (by decide) := ⟨_, rfl⟩
  have settled : settle quarter = quarter := by
    rw [same]
    decide
  have plain : plainNumberText quarter = quarter.text := congrArg Number.text settled
  refine ⟨quarter, ?_, ?_⟩
  · have significand : Binary64.significand ⟨0x3fd0000000000000⟩ = 2 ^ 52 := by decide
    have scale : Binary64.scale ⟨0x3fd0000000000000⟩ = 1020 := by decide
    have sign : Binary64.isNegative ⟨0x3fd0000000000000⟩ = false := by decide
    rw [same, Number.exact, Binary64.exact, significand, scale, sign]
    norm_num
  · rw [ne_eq, bytes_eq_encode_iff, plain, settled, numberText_eq_text_iff, same]
    rintro ⟨-, integer, known⟩
    cases known

end Canonical

end LedgerIntake
