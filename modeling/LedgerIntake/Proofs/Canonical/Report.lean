import Mathlib.Logic.Function.Iterate
import LedgerIntake.Proofs.Canonical.NumberText

/-!
# What the report of a normalization counts

Normalizing threads one report through a value. What the report says at the end is told by the value
alone: by how many of its numbers, at any depth, are binary numbers that stand for an integer from
-2⁶³ up to 2⁶⁴. Each of them is replaced and recorded once, the warning stands once however often it
occurs, and no other number is touched. So a value without such a number is written as it is, and a
normalized value has nothing left to replace.
-/

namespace LedgerIntake

open Json

namespace Json

/-- A binary number that stands for an integer, at least -2⁶³ and below 2⁶⁴. -/
def Number.isIntegral : Number → Bool
  | .float value _ => value.exact.isInt && decide (-2 ^ 63 ≤ value.exact ∧ value.exact < 2 ^ 64)
  | _ => false

/-- How many numbers of a value are such binary numbers, at any depth. -/
def Value.integralFloats (value : Value) : Nat := value.numbers.countP Number.isIntegral

/-- A float is integral exactly if its value is an integer that has 64
bits, with a sign or without. -/
theorem Number.isIntegral_float_iff (value : Binary64) (finite : value.isFinite = true) :
    (Number.float value finite).isIntegral = true ↔
      ∃ integer : Int, value.exact = integer ∧ -2 ^ 63 ≤ integer ∧ integer < 2 ^ 64 := by
  rw [isIntegral, Bool.and_eq_true, decide_eq_true_iff]
  constructor
  · rintro ⟨whole, least, greatest⟩
    have same : value.exact = value.exact.num := Rat.eq_num_of_isInt whole
    rw [same] at least greatest
    exact ⟨value.exact.num, same, by exact_mod_cast least, by exact_mod_cast greatest⟩
  · rintro ⟨integer, same, least, greatest⟩
    rw [same]
    exact ⟨rfl, by exact_mod_cast least, by exact_mod_cast greatest⟩

/-- A value has no integral floats exactly if none of its numbers is one. -/
theorem Value.integralFloats_eq_zero_iff {value : Value} :
    value.integralFloats = 0 ↔ ∀ number ∈ value.numbers, number.isIntegral = false := by
  simp only [integralFloats, List.countP_eq_zero, Bool.not_eq_true]

end Json

namespace Canonical

section Numbers

/-- The numbers that are replaced are the integral ones, and no other number is. -/
theorem isSome_replacement? (number : Number) :
    (replacement? number).isSome = number.isIntegral := by
  cases number with
  | natural value => rfl
  | negative below => rfl
  | float value finite =>
    rw [Bool.eq_iff_iff, Option.isSome_iff_exists, Number.isIntegral_float_iff]
    constructor
    · rintro ⟨number, replaced⟩
      obtain ⟨integer, equal, formed⟩ := Option.bind_eq_some_iff.mp replaced
      exact ⟨integer, (value.exact_eq_intCast_iff integer).mpr equal,
        (exists_ofInt?_iff integer).mp ⟨number, formed⟩⟩
    · rintro ⟨integer, equal, bounds⟩
      obtain ⟨number, formed⟩ := (exists_ofInt?_iff integer).mpr bounds
      exact ⟨number,
        Option.bind_eq_some_iff.mpr
          ⟨integer, (value.exact_eq_intCast_iff integer).mp equal, formed⟩⟩

/-- Settling leaves a number as it is exactly if the number is not integral. -/
theorem settle_eq_self_iff (number : Number) : settle number = number ↔
    number.isIntegral = false := by
  rw [← isSome_replacement?, Option.isSome_eq_false_iff, Option.isNone_iff_eq_none]
  constructor
  · intro same
    cases replaced : replacement? number with
    | none => rfl
    | some integer =>
      cases number with
      | float value finite =>
        obtain ⟨whole, -, known⟩ := integral?_eq_some replaced
        rw [settle, replaced, Option.getD_some] at same
        rw [same] at known
        cases known
      | natural => cases replaced
      | negative => cases replaced
  · intro kept
    rw [settle, kept, Option.getD_none]

end Numbers

section Reports

/-- The report after some more numbers were replaced. -/
def recorded (count : Nat) (report : HygieneReport) : HygieneReport :=
  (fun report => report.record .integralFloat)^[count] report

/-- Recording two counts is recording their sum, so the counts of parts can be added. -/
theorem recorded_add (first second : Nat) (report : HygieneReport) :
    recorded (first + second) report = recorded second (recorded first report) := by
  rw [Nat.add_comm]
  exact Function.iterate_add_apply _ second first report

/-- A clean report after so many records: one warning, and how often it was given. Only the count
tells whether it occurred more than once. -/
theorem recorded_clean (count : Nat) : recorded (count + 1) .clean
    = ⟨.normalized, [.integralFloat], [(.integralFloat, count + 1)]⟩ := by
  induction count with
  | zero => rfl
  | succ count inductionHypothesis =>
    rw [recorded_add, inductionHypothesis]
    rfl

/-- A list records what its items record, one after the other. -/
theorem normalizeItems_snd (items : List Value) (report : HygieneReport)
    (each : ∀ item ∈ items, ∀ report, (normalize report item).2
      = recorded item.integralFloats report) :
    (normalizeItems report items).2 = recorded
    ((numbersOfItems items).countP Number.isIntegral) report := by
  induction items generalizing report with
  | nil => rfl
  | cons item rest inductionHypothesis =>
    rw [normalizeItems, numbersOfItems, List.countP_append, recorded_add]
    dsimp only
    rw [inductionHypothesis _ fun other member => each other (List.mem_cons_of_mem _ member),
      each item List.mem_cons_self]
    rfl

/-- Normalizing members records what each of them records, so the
counts add up along the members. -/
theorem normalizeMembers_snd (members : List (String × Value)) (report : HygieneReport)
    (each : ∀ member ∈ members, ∀ report, (normalize report member.2).2
      = recorded member.2.integralFloats report) :
    (normalizeMembers report members).2
      = recorded ((numbersOfMembers members).countP Number.isIntegral) report := by
  induction members generalizing report with
  | nil => rfl
  | cons member rest inductionHypothesis =>
    have first := each member List.mem_cons_self
    obtain ⟨key, value⟩ := member
    rw [normalizeMembers, numbersOfMembers, List.countP_append, recorded_add]
    dsimp only
    rw [inductionHypothesis _ fun other among => each other (List.mem_cons_of_mem _ among), first]
    rfl

/-- Normalizing a value records each of its integral numbers once. The induction is on the value,
and reports are handed from part to part. -/
theorem normalize_snd (value : Value) (report : HygieneReport) :
    (normalize report value).2 = recorded value.integralFloats report := by
  induction value using Value.induction generalizing report with
  | null => rfl
  | bool value => rfl
  | text value => rfl
  | number value =>
    have integral := isSome_replacement? value
    rw [normalize, Value.integralFloats, Value.numbers, List.countP_singleton, ← integral]
    cases replacement? value <;> rfl
  | array items inductionHypothesis =>
    rw [normalize]
    exact normalizeItems_snd items report inductionHypothesis
  | object members inductionHypothesis =>
    rw [normalize]
    exact normalizeMembers_snd members report inductionHypothesis

end Reports

section Values

variable {value : Value} (wellFormed : value.WellFormed)

include wellFormed

/-- Settling changes a value exactly if one of its numbers is integral. -/
theorem revalue_settle_eq_self_iff : value.revalue settle = value ↔ value.integralFloats = 0 := by
  conv_lhs => rhs; rw [← revalue_id wellFormed]
  rw [revalue_eq_revalue_iff wellFormed, Value.integralFloats_eq_zero_iff]
  exact forall₂_congr fun number _ => settle_eq_self_iff number

/-- A normalized value is normal: nothing in it is integral, and it has the bytes of the value. -/
theorem normal_revalue_settle :
    (value.revalue settle).integralFloats = 0 ∧ bytes (value.revalue settle) = bytes value := by
  have twice : (value.revalue settle).revalue settle = value.revalue settle := by
    rw [revalue_revalue wellFormed, revalue_eq_revalue_iff wellFormed]
    exact fun number _ => settle_settle number
  have wellFormed' := wellFormed_revalue wellFormed settle
  exact ⟨(revalue_settle_eq_self_iff wellFormed').mp twice,
    (bytes_eq_bytes_iff wellFormed' wellFormed).mpr twice⟩

end Values

/-- The report of a value is told by how many of its numbers are integral. If there are none,
nothing is reported and the value is written as it is; otherwise the one warning is given once and
counted as often. The normalized value has the same bytes, and nothing is reported of it. -/
theorem report_exact (value : Value) (wellFormed : value.WellFormed) :
    (value.integralFloats = 0 → report value = ⟨.ok, [], []⟩ ∧
      bytes value = Utf8.encode (value.write style)) ∧
    (0 < value.integralFloats →
      report value = ⟨.normalized, [.integralFloat], [(.integralFloat, value.integralFloats)]⟩) ∧
    (normalize .clean value).1.integralFloats = 0 ∧
      report (normalize .clean value).1 = ⟨.ok, [], []⟩ ∧
      bytes (normalize .clean value).1 = bytes value := by
  have reported (value : Value) : report value = recorded value.integralFloats .clean :=
    normalize_snd value .clean
  refine ⟨fun none => ⟨?_, ?_⟩, fun some => ?_, ?_⟩
  · rw [reported, none]
    rfl
  · rw [bytes, text, normalize_fst wellFormed, (revalue_settle_eq_self_iff wellFormed).mpr none]
  · obtain ⟨count, counted⟩ := Nat.exists_eq_succ_of_ne_zero (Nat.ne_of_gt some)
    rw [reported, counted]
    exact recorded_clean count
  · obtain ⟨none, same⟩ := normal_revalue_settle wellFormed
    rw [normalize_fst wellFormed, reported, none]
    exact ⟨rfl, rfl, same⟩

/-- The negative zero, 2⁶³ and -2⁶³ are replaced where they stand; 2⁶⁴, a
half and an integer are not. -/
theorem report_exact_limits : ∃ limits : Value,
    limits = .object [("a", .array [.number (.float ⟨0x8000000000000000⟩ (by decide)),
        .number (.float ⟨0x43e0000000000000⟩ (by decide)), .number
        (.float ⟨0x43f0000000000000⟩ (by decide))]),
      ("b", .object [("c", .number (.float ⟨0xc3e0000000000000⟩ (by decide))),
        ("d", .number (.float ⟨0x3fe0000000000000⟩ (by decide))), ("e", .number (.natural 7))])] ∧
    limits.WellFormed ∧ limits.integralFloats = 3 ∧
    report limits = ⟨.normalized, [.integralFloat], [(.integralFloat, 3)]⟩ ∧
    report (normalize .clean limits).1 = ⟨.ok, [], []⟩ ∧
      bytes (normalize .clean limits).1 = bytes limits := by
  refine ⟨_, rfl, ?_⟩
  generalize same : Value.object _ = limits
  have wellFormed : limits.WellFormed := by
    rw [← same]
    simp only [Value.WellFormed, WellFormedItems, WellFormedMembers, Members.Sorted,
      List.pairwise_cons, List.forall_mem_cons]
    decide
  have three : limits.integralFloats = 3 := by
    rw [← same, Value.integralFloats,
      List.countP_congr fun number _ =>
        iff_of_eq (congrArg (· = true) (isSome_replacement? number).symm)]
    decide
  obtain ⟨-, replaced, -, normal⟩ := report_exact limits wellFormed
  rw [three] at replaced
  exact ⟨wellFormed, three, replaced (by decide), normal⟩

end Canonical

end LedgerIntake
