import LedgerIntake.Batch.Column

/-!
# Inferred types

Kinds of cells form a join semilattice. The kind of a column is the join of the kinds of its cells,
so it covers each of them, and the type of a column holds every cell that it was inferred from.
-/

namespace LedgerIntake.Batch

open Json

namespace CellKind

/-- Another kind covers this one. -/
def Below (kind cover : CellKind) : Prop := kind.join cover = cover

/-- A kind covers itself, so a column of one kind has the type of that kind. -/
theorem below_self (kind : CellKind) : kind.Below kind := by
  cases kind <;> rfl

/-- A join covers its right side, which is the cell that is met. -/
theorem below_join_right (left right : CellKind) : right.Below (left.join right) := by
  cases left <;> cases right <;> rfl

/-- What a kind covers, its join with any other covers too. So nothing is lost
when further cells are met. -/
theorem below_join_left {kind left : CellKind} (right : CellKind) (below : kind.Below left) :
    kind.Below (left.join right) := by
  cases kind <;> cases left <;> cases right <;> first | rfl | cases below

/-- A kind is covered by itself, by the kind of any value, and, if it is that of
integers, by that of floats. -/
theorem Below.cases {kind cover : CellKind} (below : kind.Below cover) :
    cover = .other ∨ cover = kind ∨ kind = .integer ∧ cover = .float := by
  unfold Below at below
  revert below
  cases kind <;> cases cover <;> decide

end CellKind

namespace Inference

/-- An inference has met a cell: its kind covers the cell's, and it has noted a large integer. -/
def Covers (inference : Inference) (cell : Value) : Prop :=
  ∀ kind, CellKind.of? cell = some kind →
    (∃ joined, inference.kind = some joined ∧ kind.Below joined) ∧
      (isLargeInteger cell = true → inference.large = true)

/-- A cell is covered as soon as it is taken in, and a large integer is remembered. -/
theorem covers_add (inference : Inference) (cell : Value) : (inference.add cell).Covers cell := by
  intro kind known
  rw [add, known]
  refine ⟨⟨_, rfl, ?_⟩, fun large => by rw [large, Bool.or_true]⟩
  cases inference.kind with
  | none => exact kind.below_self
  | some earlier => exact earlier.below_join_right kind

/-- What was covered before stays covered when another cell is met, and a
large integer stays remembered. -/
theorem Covers.add {inference : Inference} {cell : Value} (covers : inference.Covers cell)
    (other : Value) :
    (inference.add other).Covers cell := by
  intro kind known
  obtain ⟨⟨joined, found, below⟩, large⟩ := covers kind known
  rw [Inference.add]
  split
  · exact ⟨⟨joined, found, below⟩, large⟩
  · next otherKind _ =>
    rw [found]
    exact ⟨⟨_, rfl, CellKind.below_join_left otherKind below⟩,
      fun wide => by rw [large wide, Bool.true_or]⟩

/-- Taking in cells covers all of them and loses none that were covered. The induction is
on the cells that are left. -/
theorem covers_foldl (cells : List Value) (inference : Inference) (cell : Value)
    (met : inference.Covers cell ∨ cell ∈ cells) : (cells.foldl add inference).Covers cell := by
  induction cells generalizing inference with
  | nil =>
    rcases met with covers | absent
    · exact covers
    · cases absent
  | cons first rest inductionHypothesis =>
    apply inductionHypothesis
    rcases met with covers | member
    · exact .inl (covers.add first)
    · rcases List.mem_cons.mp member with rfl | member
      · exact .inl (inference.covers_add cell)
      · exact .inr member

end Inference

/-- The range of 64-bit integers with a sign. -/
def Signed64 (integer : Int) : Prop := -0x8000000000000000 ≤ integer ∧ integer < 0x8000000000000000

/-- The cells that a column of some type may hold. -/
inductive ColumnType.Holds : ColumnType → Value → Prop
  | null (type : ColumnType) : Holds type .null
  | bool (value : Bool) : Holds .bool (.bool value)
  | int64 (number : Number) (integer : Int) (known : number.integer? = some integer)
    (range : Signed64 integer) :
      Holds .int64 (.number number)
  | float (value : Binary64) (finite : value.isFinite = true) :
      Holds .float64 (.number (.float value finite))
  | widened (number : Number) (integer : Int) (known : number.integer? = some integer)
      (exact : integer.natAbs ≤ exactIntegerLimit) : Holds .float64 (.number number)
  | utf8 (value : String) : Holds .utf8 (.text value)
  | json (value : Value) : Holds .json value

/-- A cell whose kind is that of 64-bit integers is one: natural numbers
from 2⁶³ on have another kind. -/
theorem signed64_of_kind {cell : Value} (kind : CellKind.of? cell = some .integer) :
    ∃ number integer, cell = .number number ∧ number.integer? = some integer ∧
      Signed64 integer := by
  cases cell with
  | number number =>
    cases number with
    | natural value =>
      simp only [CellKind.of?, Option.some.injEq] at kind
      split at kind
      · next small => exact ⟨_, _, rfl, rfl, by omega, by omega⟩
      · cases kind
    | negative below =>
      have bound := below.isLt
      exact ⟨_, _, rfl, rfl, by omega, by omega⟩
    | float value finite => cases kind
  | _ => cases kind

/-- The type of a kind holds the cells of that kind, unless it is widened. There is one case for
each cell, and the kinds exclude the others. -/
theorem holds_of_kind {cell : Value} {kind : CellKind} {large : Bool}
    (known : CellKind.of? cell = some kind) :
    (Inference.type ⟨some kind, large⟩).Holds cell := by
  by_cases integer : kind = .integer
  · rw [integer] at known ⊢
    obtain ⟨number, value, rfl, written, range⟩ := signed64_of_kind known
    exact .int64 number value written range
  · cases cell with
    | null => cases known
    | bool value =>
      cases known
      exact .bool value
    | text value =>
      cases known
      exact .utf8 value
    | array items =>
      cases known
      exact .json _
    | object members =>
      cases known
      exact .json _
    | number number =>
      cases number with
      | natural value =>
        simp only [CellKind.of?, Option.some.injEq] at known
        split at known
        · exact absurd known.symm integer
        · cases known
          exact .json _
      | negative below =>
        cases known
        contradiction
      | float value finite =>
        cases known
        cases large with
        | true => exact .json _
        | false => exact .float value finite

/-- The type of floats holds the integers that were noted not to be large; that of
JSON text holds the others. -/
theorem holds_of_widened {cell : Value} {large : Bool} (known : CellKind.of? cell = some .integer)
    (noted : isLargeInteger cell = true → large = true) :
    (Inference.type ⟨some .float, large⟩).Holds cell := by
  obtain ⟨number, value, rfl, written, -⟩ := signed64_of_kind known
  cases large with
  | true => exact .json _
  | false =>
    apply ColumnType.Holds.widened number value written
    apply Nat.le_of_not_lt
    intro wide
    have flagged : isLargeInteger (.number number) = true := by
      simp only [isLargeInteger, written, decide_eq_true_eq]
      exact wide
    cases noted flagged

/-- Every type that a kind and the kinds above it lead to holds the cells of that kind. -/
theorem holds_of_below {cell : Value} {kind joined : CellKind} {large : Bool}
    (known : CellKind.of? cell = some kind) (below : kind.Below joined)
    (noted : isLargeInteger cell = true → large = true) :
    (Inference.type ⟨some joined, large⟩).Holds cell := by
  rcases below.cases with rfl | rfl | ⟨rfl, rfl⟩
  · exact .json _
  · exact holds_of_kind known
  · exact holds_of_widened known noted

/-- The type of an inference holds every cell that it has met. An integer among floats is held
because no large one was met. -/
theorem Inference.Covers.holds {inference : Inference} {cell : Value}
    (covers : inference.Covers cell) :
    inference.type.Holds cell := by
  cases known : CellKind.of? cell with
  | none =>
    cases cell with
    | null => exact .null _
    | number number => cases number <;> cases known
    | _ => cases known
  | some kind =>
    obtain ⟨⟨joined, found, below⟩, large⟩ := covers kind known
    have whole : inference = ⟨some joined, inference.large⟩ := by rw [← found]
    rw [whole]
    exact holds_of_below known below large

/-- The type inferred for a column holds each of its cells, so writing a column is never refused
for a cell of another type. -/
theorem holds_inferType {cells : List Value} {cell : Value} (member : cell ∈ cells) :
    (inferType cells).Holds cell :=
  (Inference.covers_foldl cells ⟨none, false⟩ cell (.inr member)).holds

end LedgerIntake.Batch
