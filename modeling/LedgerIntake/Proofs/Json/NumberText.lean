import LedgerIntake.Proofs.Json.Values
import LedgerIntake.Proofs.Number.Shortest

/-!
# Literals of written numbers

What a layout writes for a finite number is the spelling of a literal: the digits with a point among
them, or one digit, a point, the others and an exponent. Digits of decimals never begin with zero,
so no such literal has a zero in front of other digits.
-/

namespace LedgerIntake

open Json.Number (Literal)
open Json.Number.Literal

namespace Json.Number.Literal

/-- Digits behind others do not change the first one, so padding with zeros keeps a numeral. -/
theorem head?_append_of_ne_nil {digits : List Char} (present : digits ≠ []) (after : List Char) :
    (digits ++ after).head? = digits.head? := by
  cases digits with
  | nil => exact absurd rfl present
  | cons digit others => rfl

/-- The digits of a number do not begin with zero unless it is zero. The induction is on the number,
whose last digit is cut off. -/
theorem head?_toDigits (value : Nat) (positive : 0 < value) :
    (Nat.toDigits 10 value).head? ≠ some '0' := by
  induction value using Nat.strongRecOn with
  | ind value inductionHypothesis =>
    by_cases single : value < 10
    · rw [Nat.toDigits_of_lt_base single, List.head?_cons]
      simp only [ne_eq, Option.some.injEq, Nat.digitChar_eq_zero]
      exact Nat.ne_of_gt positive
    · rw [Nat.toDigits_of_base_le (by decide) (Nat.le_of_not_lt single),
        head?_append_of_ne_nil Nat.toDigits_ne_nil]
      exact inductionHypothesis (value / 10) (by omega) (by omega)

/-- The digits of a number are decimal digits, and there is at least one. -/
theorem digits_toDigits (value : Nat) : Digits (Nat.toDigits 10 value) :=
  ⟨Nat.toDigits_ne_nil, fun _ member => Nat.isDigit_of_mem_toDigits (by decide) (by decide) member⟩

/-- Digits alone are a numeral, with a sign or without. -/
theorem wellFormed_toDigits (negative : Bool) (value : Nat) :
    WellFormed ⟨negative, Nat.toDigits 10 value, none, none⟩ where
  whole := digits_toDigits value
  leading := by
    intro zero
    rcases Nat.eq_zero_or_pos value with rfl | positive
    · exact Nat.le_refl 1
    · exact absurd zero (head?_toDigits value positive)
  fraction := by
    intro digits same
    cases same
  exponent := by
    intro negative digits same
    cases same

/-- The digits with the point where the power of ten of the first one puts it; an
integer has the fraction zero. -/
def full (negative : Bool) (digits : List Char) (leading : Int) : Literal :=
  if leading
    < 0 then ⟨negative, ['0'], some (List.replicate (-leading - 1).toNat '0' ++ digits), none⟩
  else if digits.length ≤ leading.toNat + 1 then
    ⟨negative, digits ++ List.replicate (leading.toNat + 1 - digits.length) '0', some ['0'], none⟩
  else ⟨negative, digits.take (leading.toNat + 1), some (digits.drop (leading.toNat + 1)), none⟩

/-- One digit, the others after a point, and the exponent. -/
def scientific (negative : Bool) (digits : List Char) (leading : Int) : Literal :=
  ⟨negative, digits.take 1, if digits.length ≤ 1 then none else some (digits.drop 1),
    some (decide (leading < 0), Nat.toDigits 10 leading.natAbs)⟩

/-- Digits that a layout can place: the first is not zero, or there is
only a zero before the point. -/
structure Placeable (digits : List Char) (leading : Int) : Prop where
  proper : Digits digits
  leading : digits.head? = some '0' → digits.length ≤ 1 ∧ leading ≤ 0

section Literals

variable {digits : List Char} {leading : Int} (placeable : Placeable digits leading)

include placeable

/-- A literal in full is a numeral, wherever the point stands: before the
digits, among them or behind them. -/
theorem wellFormed_full (negative : Bool) : (full negative digits leading).WellFormed := by
  have zeros (count : Nat) : ∀ digit ∈ List.replicate count '0', digit.isDigit = true := by
    intro digit member
    rw [List.eq_of_mem_replicate member]
    decide
  obtain ⟨⟨present, decimal⟩, first⟩ := placeable
  unfold full
  split
  · refine ⟨⟨by simp, by simp⟩, by simp, ?_, by simp⟩
    intro fraction same
    cases same
    refine ⟨by simp [present], ?_⟩
    intro digit member
    rcases List.mem_append.mp member with member | member
    · exact zeros _ digit member
    · exact decimal digit member
  · next least =>
    split
    · refine ⟨⟨by simp [present], ?_⟩, ?_, ?_, by simp⟩
      · intro digit member
        rcases List.mem_append.mp member with member | member
        · exact decimal digit member
        · exact zeros _ digit member
      · intro zero
        rw [head?_append_of_ne_nil present] at zero
        obtain ⟨alone, small⟩ := first zero
        rw [List.length_append, List.length_replicate]
        omega
      · intro fraction same
        cases same
        exact ⟨by simp, by simp⟩
    · next many =>
      refine ⟨⟨?_, ?_⟩, ?_, ?_, by simp⟩
      · simp [present]
      · intro digit member
        exact decimal digit (List.mem_of_mem_take member)
      · intro zero
        rw [List.head?_take, if_neg (by omega)] at zero
        have alone := (first zero).1
        rw [List.length_take]
        omega
      · intro fraction same
        cases same
        refine ⟨?_, fun digit member => decimal digit (List.mem_of_mem_drop member)⟩
        intro empty
        have short := List.drop_eq_nil_iff.mp empty
        omega

/-- Digits with an exponent make a proper literal, with one digit in front of the point. -/
theorem wellFormed_scientific (negative : Bool) :
    (scientific negative digits leading).WellFormed := by
  obtain ⟨⟨present, decimal⟩, first⟩ := placeable
  refine ⟨⟨by simp [present, scientific], ?_⟩, ?_, ?_, ?_⟩
  · intro digit member
    exact decimal digit (List.mem_of_mem_take member)
  · intro _
    exact List.length_take_le 1 digits
  · intro fraction same
    simp only [scientific] at same
    split at same
    · cases same
    · next many =>
      cases same
      refine ⟨?_, fun digit member => decimal digit (List.mem_of_mem_drop member)⟩
      intro empty
      exact many (List.drop_eq_nil_iff.mp empty)
  · intro sign power same
    cases same
    exact digits_toDigits leading.natAbs

end Literals

end Json.Number.Literal

namespace Binary64

/-- The digits that are written of a finite number. -/
def figures (tie : Tie) (x : Binary64) : List Char :=
  if x.magnitude = 0 then ['0'] else (x.shortest tie).digits

/-- The power of ten of the first of them. -/
def leading (tie : Tie) (x : Binary64) : Int := if x.magnitude = 0 then 0
    else (x.shortest tie).leading

/-- A layout can place the digits of every number, since they begin
with zero only for zero itself. -/
theorem placeable (tie : Tie) (x : Binary64) : Placeable (x.figures tie) (x.leading tie) := by
  unfold figures leading
  by_cases zero : x.magnitude = 0
  · rw [if_pos zero, if_pos zero]
    exact ⟨digits_toDigits 0, fun _ => ⟨Nat.le_refl 1, Int.le_refl 0⟩⟩
  · obtain ⟨places, found, positive, last⟩ := shortest_spec tie x (Nat.pos_of_ne_zero zero)
    rw [if_neg zero, if_neg zero]
    exact ⟨digits_toDigits _, fun first => absurd first (head?_toDigits _ positive)⟩

end Binary64

namespace Layout

variable (layout : Layout)

/-- What a layout writes of a finite number. -/
def literal (x : Binary64) : Literal :=
  if layout.inFull (x.leading layout.tie) then
    Literal.full x.isNegative (x.figures layout.tie) (x.leading layout.tie)
  else Literal.scientific x.isNegative (x.figures layout.tie) (x.leading layout.tie)

/-- The literal that a layout writes for a float is proper, in full or with an exponent. -/
theorem wellFormed_literal (x : Binary64) : (layout.literal x).WellFormed := by
  unfold literal
  split
  · exact wellFormed_full (x.placeable layout.tie) x.isNegative
  · exact wellFormed_scientific (x.placeable layout.tie) x.isNegative

/-- A literal of a binary64 is not digits alone, so it is told from the literal of an integer. -/
theorem literal_marked (x : Binary64) : (layout.literal x).fraction ≠ none ∨
    (layout.literal x).exponent ≠ none := by
  unfold literal
  split
  · left
    unfold Literal.full
    split
    · exact Option.some_ne_none _
    · split <;> exact Option.some_ne_none _
  · right
    exact Option.some_ne_none _

/-- The text of digits in full is spelled by their literal if whole
numbers end in a point and a zero. -/
theorem full_spelling (ending : layout.wholeEnding = ".0") (negative : Bool) (digits : List Char)
    (leading : Int) (mark : Char) (plus : List Char) :
    (if negative then ['-'] else []) ++ (layout.full digits leading).toList
      = (Literal.full negative digits leading).spelling mark plus := by
  unfold Layout.full Literal.full
  by_cases below : leading < 0
  · rw [if_pos below, if_pos below, String.toList_append, String.toList_ofList]
    simp [Literal.spelling, Literal.fractionSpelling, Literal.exponentSpelling]
  · rw [if_neg below, if_neg below]
    dsimp only
    by_cases whole : digits.length ≤ leading.toNat + 1
    · rw [if_pos whole, if_pos whole, ending, String.toList_append, String.toList_ofList]
      simp [Literal.spelling, Literal.fractionSpelling, Literal.exponentSpelling]
    · rw [if_neg whole, if_neg whole, String.toList_append, String.toList_append,
        String.toList_ofList, String.toList_ofList]
      simp [Literal.spelling, Literal.fractionSpelling, Literal.exponentSpelling]

/-- The text of digits with an exponent is spelled by their literal with
the layout's mark and sign. -/
theorem scientific_spelling {mark : Char} {plus : List Char}
    (marked : layout.exponentMark.toList = [mark])
    (sign : layout.exponentPlus.toList = plus) (negative : Bool) (digits : List Char)
    (leading : Int) :
    (if negative then ['-'] else []) ++ (layout.scientific digits leading).toList
      = (Literal.scientific negative digits leading).spelling mark plus := by
  have power : (if leading < 0 then "-" else layout.exponentPlus).toList
      = if decide (leading < 0) then ['-'] else plus := by
    by_cases below : leading < 0
    · simp [below]
    · simp [below, sign]
  have fraction : (if digits.length ≤ 1 then "" else "." ++ String.ofList (digits.drop 1)).toList
      = fractionSpelling (if digits.length ≤ 1 then none else some (digits.drop 1)) := by
    by_cases single : digits.length ≤ 1
    · simp only [single, if_true, fractionSpelling]
      rfl
    · simp only [single, if_false, fractionSpelling, String.toList_append, String.toList_ofList]
      rfl
  unfold Layout.scientific Literal.scientific Literal.spelling
  simp only [String.toList_append, String.toList_ofList, marked, power, fraction, exponentSpelling]
  cases negative <;> simp

/-- The text of a finite number is the spelling of its literal: sign, digits, point and mark stand
where the literal has them. -/
theorem write_spelling {mark : Char} {plus : List Char}
    (marked : layout.exponentMark.toList = [mark])
    (sign : layout.exponentPlus.toList = plus)
    (ending : ∀ leading, layout.inFull leading = true → layout.wholeEnding = ".0") (x : Binary64)
    (finite : x.isFinite = true) : (layout.write x).toList =
      (layout.literal x).spelling mark plus := by
  have bounded : x.magnitude < Binary64.infinite := of_decide_eq_true finite
  have number : x.isNaN = false := decide_eq_false (by omega)
  have bound : x.isInfinite = false := decide_eq_false (by omega)
  have written : (layout.write x).toList = (if x.isNegative then ['-'] else [])
      ++ (layout.place (x.figures layout.tie) (x.leading layout.tie)).toList := by
    have minus : (if x.isNegative then "-" else "").toList = if x.isNegative then ['-']
      else [] := by
      cases x.isNegative <;> rfl
    unfold write Binary64.figures Binary64.leading
    simp only [number, bound, Bool.false_eq_true, if_false]
    by_cases zero : x.magnitude = 0
    · rw [if_pos zero, if_pos zero, if_pos zero, String.toList_append, minus]
    · rw [if_neg zero, if_neg zero, if_neg zero, String.toList_append, minus]
  rw [written, literal, place]
  by_cases full : layout.inFull (x.leading layout.tie) = true
  · rw [if_pos full, if_pos full]
    exact layout.full_spelling (ending _ full) _ _ _ mark plus
  · rw [if_neg full, if_neg full]
    exact layout.scientific_spelling marked sign _ _ _

end Layout

namespace Json

/-- What is written of a number whose floats are written in a layout; integers are their digits. -/
def Number.literal (layout : Layout) : Number → Literal
  | .natural value => ⟨false, Nat.toDigits 10 value.toNat, none, none⟩
  | .negative below => ⟨true, Nat.toDigits 10 (below.val + 1), none, none⟩
  | .float value _ => layout.literal value

/-- A style writes integers in digits and other numbers in a layout with
an exponent that JSON knows. -/
structure Style.Writes (style : Style) (layout : Layout) (mark : Char)
    (plus : List Char) : Prop where
  natural : ∀ value, style.number (.natural value) = value.toNat.repr
  negative : ∀ below, style.number (.negative below) = "-" ++ (below.val + 1).repr
  float : ∀ value finite, style.number (.float value finite) = layout.write value
  exponentMark : layout.exponentMark.toList = [mark]
  exponentPlus : layout.exponentPlus.toList = plus
  ending : ∀ leading, layout.inFull leading = true → layout.wholeEnding = ".0"
  marked : mark = 'e' ∨ mark = 'E'
  sign : plus = [] ∨ plus = ['+']

namespace Style.Writes

variable {style : Style} {layout : Layout} {mark : Char} {plus : List Char}
  (writes : style.Writes layout mark plus)

include writes

/-- The text of a number is the spelling of its literal, which is a numeral. -/
theorem numeral (number : Number) :
    (number.literal layout).WellFormed ∧
      (style.number number).toList = (number.literal layout).spelling mark plus := by
  cases number with
  | natural value =>
    refine ⟨wellFormed_toDigits false value.toNat, ?_⟩
    rw [writes.natural, Nat.toList_repr]
    simp [Number.literal, Literal.spelling, Literal.fractionSpelling, Literal.exponentSpelling]
  | negative below =>
    refine ⟨wellFormed_toDigits true (below.val + 1), ?_⟩
    rw [writes.negative, String.toList_append, Nat.toList_repr]
    simp [Number.literal, Literal.spelling, Literal.fractionSpelling, Literal.exponentSpelling]
  | float value finite =>
    refine ⟨layout.wellFormed_literal value, ?_⟩
    rw [writes.float]
    exact layout.write_spelling writes.exponentMark writes.exponentPlus writes.ending value finite

/-- A legible style is readable: its numbers are literals, and it writes those that it says. -/
theorem readable (legible : style.Legible) : style.Readable where
  legible := legible
  numeral := by
    intro number
    obtain ⟨proper, spelled⟩ := writes.numeral number
    exact ⟨number.literal layout, mark, plus, proper, writes.marked, writes.sign, spelled⟩

/-- The literal of a number in a style is the one of its layout. -/
theorem literal_eq (number : Number) : style.literal number = number.literal layout := by
  obtain ⟨proper, spelled⟩ := writes.numeral number
  exact Style.literal_of_spelling proper writes.marked writes.sign spelled

end Style.Writes

/-- Plain text writes numbers so that they read back as literals, with a small
mark and a signed exponent. -/
theorem plain_writes : Style.plain.Writes Number.layout 'e' ['+'] where
  natural := fun _ => rfl
  negative := fun _ => rfl
  float := fun _ _ => rfl
  exponentMark := rfl
  exponentPlus := rfl
  ending := fun _ _ => rfl
  marked := .inl rfl
  sign := .inr rfl

/-- Plain text is readable, as its strings are legible and its numbers are literals. -/
theorem plain_readable : Style.plain.Readable := plain_writes.readable legible_plain

end Json

end LedgerIntake
