import LedgerIntake.Proofs.Batch.Inference

/-!
# The type of a column in closed form

A column's type is inferred cell by cell, but the result can be told from its cells at once: a type
of its own for cells that are all truth values, all integers of 64 bits, all texts, or all numbers
that a binary64 holds, and JSON text for everything else. The kind that an inference reaches is the
least that covers all kinds it has met. Which cells these were decides the type, and neither their
order nor the nulls between them; and once no type but JSON text is left, no later cell changes it.
-/

namespace LedgerIntake.Batch

open Json

namespace CellKind

/-- Whether a kind covers another is decided by comparing kinds. -/
instance (kind cover : CellKind) : Decidable (kind.Below cover) :=
  inferInstanceAs (Decidable (_ = _))

/-- A join is the least kind that covers both of its sides. This is all that is used of joins. -/
theorem join_below_iff {left right cover : CellKind} :
    (left.join right).Below cover ↔ left.Below cover ∧ right.Below cover := by
  cases left <;> cases right <;> cases cover <;> decide

end CellKind

namespace Inference

/-- Every kind met so far is covered. -/
def CoveredBy (inference : Inference) (cover : CellKind) : Prop :=
  ∀ kind ∈ inference.kind, kind.Below cover

/-- An inference that met no kind is covered by any. -/
@[simp] theorem coveredBy_none (large : Bool) (cover : CellKind) :
    CoveredBy ⟨none, large⟩ cover := nofun

/-- An inference is covered exactly if the kind it has met is. -/
@[simp] theorem coveredBy_some {kind cover : CellKind} {large : Bool} :
    CoveredBy ⟨some kind, large⟩ cover ↔ kind.Below cover := by
  simp [CoveredBy]

/-- Taking in a cell adds its kind to those that have to be covered, and nothing else. -/
theorem coveredBy_add {inference : Inference} {cell : Value} {cover : CellKind} :
    (inference.add cell).CoveredBy cover
      ↔ inference.CoveredBy cover ∧ ∀ kind ∈ CellKind.of? cell, kind.Below cover := by
  obtain ⟨met, large⟩ := inference
  rw [add]
  cases CellKind.of? cell with
  | none => simp
  | some kind =>
    cases met with
    | none => simp [CoveredBy]
    | some earlier => simp [CoveredBy, CellKind.join_below_iff]

/-- An inference has met no kind at all exactly if no cell had one, that is, if all were null. -/
theorem kind_add_eq_none_iff {inference : Inference} {cell : Value} :
    (inference.add cell).kind = none ↔ inference.kind = none ∧ CellKind.of? cell = none := by
  rw [add]
  cases CellKind.of? cell <;> simp

/-- A large integer is noted, wherever it stands among the cells. -/
theorem large_add (inference : Inference) (cell : Value) :
    (inference.add cell).large = (inference.large || isLargeInteger cell) := by
  rw [add]
  cases known : CellKind.of? cell with
  | some kind => rfl
  | none =>
    cases cell with
    | null => exact (Bool.or_false _).symm
    | number number => cases number <;> cases known
    | _ => cases known

/-- What an inference has met is what its cells are, in whatever order they came. The induction is
on the cells; what the first one adds is told by the laws of one step. -/
theorem foldl_add_spec (cells : List Value) (inference : Inference) :
    (∀ cover, (cells.foldl add inference).CoveredBy cover
      ↔ inference.CoveredBy cover ∧ ∀ cell ∈ cells, ∀ kind ∈ CellKind.of? cell, kind.Below cover) ∧
    ((cells.foldl add inference).kind = none
      ↔ inference.kind = none ∧ ∀ cell ∈ cells, CellKind.of? cell = none) ∧
    (cells.foldl add inference).large = (inference.large || cells.any isLargeInteger) := by
  induction cells generalizing inference with
  | nil => simp
  | cons cell rest inductionHypothesis =>
    obtain ⟨covered, unmet, large⟩ := inductionHypothesis (inference.add cell)
    refine ⟨fun cover => ?_, ?_, ?_⟩
    · rw [List.foldl_cons, covered, coveredBy_add, List.forall_mem_cons, and_assoc]
    · rw [List.foldl_cons, unmet, kind_add_eq_none_iff, List.forall_mem_cons, and_assoc]
    · rw [List.foldl_cons, large, large_add, List.any_cons, Bool.or_assoc]

end Inference

section ClosedForm

/-- Whether an integer fits 64 bits with a sign is decided by comparing it. -/
instance : DecidablePred Signed64 := fun _ => inferInstanceAs (Decidable (_ ∧ _))

/-- Whether a value is true or false. -/
def isBool : Value → Bool
  | .bool _ => true
  | _ => false

/-- Whether a value is a text. -/
def isText : Value → Bool
  | .text _ => true
  | _ => false

/-- Whether a value is a number that was not written as an integer. -/
def isFloat : Value → Bool
  | .number (.float _ _) => true
  | _ => false

/-- Whether a value is an integer of 64 bits with a sign. -/
def isSigned64 : Value → Bool
  | .number value => value.integer?.any fun integer => decide (Signed64 integer)
  | _ => false

/-- The narrowest type that holds values none of which is null. -/
def narrowest (values : List Value) : ColumnType :=
  if values = [] then .null
  else if values.all isBool then .bool
  else if values.all isSigned64 then .int64
  else if values.all isText then .utf8
  else if values.all (fun value => isFloat value || isSigned64 value) ∧ values.any isFloat
      ∧ values.all (fun value => !isLargeInteger value) then .float64
  else .json

/-- The cells of a column that have a value. -/
def present (cells : List Value) : List Value := cells.filter fun cell => !cell.isNull

/-- A cell has a kind unless it is null, so null cells leave the type to the others. -/
theorem of?_eq_none_iff {cell : Value} : CellKind.of? cell = none ↔ cell.isNull = true := by
  cases cell with
  | number number => cases number <;> simp [CellKind.of?, Value.isNull]
  | _ => simp [CellKind.of?, Value.isNull]

/-- Truth values are exactly the cells of that kind. -/
theorem isBool_iff {cell : Value} : isBool cell = true ↔ CellKind.of? cell = some .bool := by
  cases cell with
  | number number => cases number <;> grind [isBool, CellKind.of?]
  | _ => simp [isBool, CellKind.of?]

/-- Texts are exactly the cells of that kind. -/
theorem isText_iff {cell : Value} : isText cell = true ↔ CellKind.of? cell = some .text := by
  cases cell with
  | number number => cases number <;> grind [isText, CellKind.of?]
  | _ => simp [isText, CellKind.of?]

/-- Floats are exactly the cells of that kind. -/
theorem isFloat_iff {cell : Value} : isFloat cell = true ↔ CellKind.of? cell = some .float := by
  cases cell with
  | number number => cases number <;> grind [isFloat, CellKind.of?]
  | _ => simp [isFloat, CellKind.of?]

/-- An integer is of the kind of integers exactly if it fits 64 bits with a sign. -/
theorem isSigned64_iff {cell : Value} : isSigned64 cell = true ↔
    CellKind.of? cell = some .integer := by
  constructor
  · intro fits
    cases cell with
    | number number =>
      cases number with
      | natural value =>
        rw [isSigned64, Number.integer?, Option.any_some, decide_eq_true_iff] at fits
        have small : value.toNat < 0x8000000000000000 := Int.ofNat_lt.mp fits.2
        rw [CellKind.of?, if_pos small]
      | negative below => rfl
      | float value finite => cases fits
    | _ => cases fits
  · intro kind
    obtain ⟨number, integer, rfl, known, range⟩ := signed64_of_kind kind
    rw [isSigned64, known]
    exact decide_eq_true range

/-- The tests of the closed form are bounds on kinds, so both forms ask the same of a cell. -/
theorem tests_of_kind {cell : Value} {kind : CellKind} (known : CellKind.of? cell = some kind) :
    (isBool cell = true ↔ kind.Below .bool) ∧ (isSigned64 cell = true ↔ kind.Below .integer) ∧
      (isText cell = true ↔ kind.Below .text) ∧
      ((isFloat cell || isSigned64 cell) = true ↔ kind.Below .float) := by
  rw [Bool.or_eq_true, isBool_iff, isSigned64_iff, isText_iff, isFloat_iff, known]
  cases kind <;> decide

variable {cells : List Value}

/-- No cell is present exactly if every cell is null. -/
theorem present_eq_nil_iff : present cells = [] ↔ ∀ cell ∈ cells, CellKind.of? cell = none := by
  simp [present, of?_eq_none_iff]

/-- The cells that are present are those that have a kind, in whatever order they stand. -/
theorem mem_present_iff {cell : Value} :
    cell ∈ present cells ↔ cell ∈ cells ∧ ∃ kind, CellKind.of? cell = some kind := by
  rw [present, List.mem_filter, ← Option.isSome_iff_exists, Option.isSome_iff_ne_none, ne_eq,
    of?_eq_none_iff, Bool.not_eq_true, Bool.not_eq_true']

/-- A test holds of all cells that are present exactly if the kind that
was reached keeps the bound. -/
theorem all_present_iff (cells : List Value) {test : Value → Bool} {cover : CellKind}
    (tests : ∀ cell kind, CellKind.of? cell = some kind → (test cell = true ↔ kind.Below cover)) :
    (present cells).all test = true ↔
      (cells.foldl Inference.add ⟨none, false⟩).CoveredBy cover := by
  rw [List.all_eq_true, (Inference.foldl_add_spec cells ⟨none, false⟩).1,
    and_iff_right (Inference.coveredBy_none false cover)]
  constructor
  · intro passes cell among kind known
    exact (tests cell kind known).mp (passes cell (mem_present_iff.mpr ⟨among, kind, known⟩))
  · intro bounded cell among
    obtain ⟨among, kind, known⟩ := mem_present_iff.mp among
    exact (tests cell kind known).mpr (bounded cell among kind known)

/-- Null is no large integer, so leaving it out changes nothing about them. -/
theorem all_present_small (cells : List Value) :
    (present cells).all (fun value => !isLargeInteger value) = !cells.any isLargeInteger := by
  have value (cell : Value) : (!cell.isNull && isLargeInteger cell) = isLargeInteger cell := by
    cases cell <;> rfl
  rw [← List.not_any_eq_all_not, present, List.any_filter]
  simp only [value]

/-- Among numbers that are not all integers there is a float, which is what makes integers widen. -/
theorem any_isFloat (values : List Value)
    (numbers : values.all (fun value => isFloat value || isSigned64 value) = true)
    (mixed : values.all isSigned64 = false) : values.any isFloat = true := by
  obtain ⟨value, among, other⟩ := List.all_eq_false.mp mixed
  have number := List.all_eq_true.mp numbers value among
  rw [Bool.eq_false_iff.mpr other, Bool.or_false] at number
  exact List.any_eq_true.mpr ⟨value, among, number⟩

/-- The type that is inferred is that of the closed form. The kinds that were met are bounded by a
test exactly if all present cells pass it, and the cases go through the kinds. -/
theorem inferType_eq_narrowest (cells : List Value) :
    inferType cells = narrowest (present cells) := by
  have bools := all_present_iff cells fun cell kind known => (tests_of_kind known).1
  have integers := all_present_iff cells fun cell kind known => (tests_of_kind known).2.1
  have texts := all_present_iff cells fun cell kind known => (tests_of_kind known).2.2.1
  have floats := all_present_iff cells fun cell kind known => (tests_of_kind known).2.2.2
  obtain ⟨-, unmet, large⟩ := Inference.foldl_add_spec cells ⟨none, false⟩
  rw [Bool.false_or] at large
  have empty : present cells = [] ↔ _ :=
    present_eq_nil_iff.trans ((and_iff_right rfl).symm.trans unmet.symm)
  have float := any_isFloat (present cells)
  rw [floats, ← Bool.not_eq_true, integers] at float
  rw [inferType, narrowest, all_present_small, ← large]
  generalize cells.foldl Inference.add ⟨none, false⟩ = inference at *
  obtain ⟨kind, noted⟩ := inference
  cases kind with
  | none => rw [if_pos (empty.mpr rfl), Inference.type]
  | some kind =>
    simp only [Inference.coveredBy_some] at bools integers texts floats float
    simp only [empty, bools, integers, texts, floats]
    cases kind with
    | float =>
      rw [float (by decide) (by decide)]
      cases noted <;> rfl
    | bool | integer | text | other => rfl

/-- The closed form asks only which values there are, not where or how often. -/
theorem narrowest_congr {values others : List Value}
    (same : ∀ value, value ∈ others ↔ value ∈ values) :
    narrowest others = narrowest values := by
  have empty : others = [] ↔ values = [] := by simp only [List.eq_nil_iff_forall_not_mem, same]
  have all (test : Value → Bool) : others.all test = values.all test := by
    rw [Bool.eq_iff_iff]
    simp only [List.all_eq_true, same]
  have any (test : Value → Bool) : others.any test = values.any test := by
    rw [Bool.eq_iff_iff]
    simp only [List.any_eq_true, same]
  simp only [narrowest, empty, all, any]

end ClosedForm

section Stopping

/-- The type of the cells that are left, where cells of some kind were met: told cell by cell up to
the first one whose kind has no type with that of the cells in front of it. -/
def typeFrom (met : Option CellKind) (large : Bool) : List Value → ColumnType
  | [] => Inference.type ⟨met, large⟩
  | cell :: rest =>
    match CellKind.of? cell with
    | none => typeFrom met large rest
    | some kind =>
      let large := large || isLargeInteger cell
      match met with
      | none => typeFrom (some kind) large rest
      | some earlier =>
        if earlier = kind then typeFrom (some earlier) large rest
        else if earlier = .integer ∧ kind = .float ∨ earlier = .float ∧ kind = .integer then
          typeFrom (some .float) large rest
        else .json

/-- Where no type but JSON text is left no cell changes it, so the rest need not be read. -/
theorem type_foldl_other (cells : List Value) (large : Bool) :
    (cells.foldl Inference.add ⟨some .other, large⟩).type = .json := by
  obtain ⟨covered, unmet, -⟩ := Inference.foldl_add_spec cells ⟨some .other, large⟩
  generalize cells.foldl Inference.add ⟨some .other, large⟩ = inference at *
  obtain ⟨kind, noted⟩ := inference
  cases kind with
  | none => cases (unmet.mp rfl).1
  | some kind =>
    have reached := (covered kind).mp (Inference.coveredBy_some.mpr kind.below_self)
    have least := Inference.coveredBy_some.mp reached.1
    cases kind with
    | other => rfl
    | _ => cases least

/-- Stopping early gives the type that reading on would give. The induction is on the cells that are
left, under whatever was met before. -/
theorem typeFrom_eq (cells : List Value) (met : Option CellKind) (large : Bool) :
    typeFrom met large cells = (cells.foldl Inference.add ⟨met, large⟩).type := by
  induction cells generalizing met large with
  | nil => rfl
  | cons cell rest inductionHypothesis =>
    rw [typeFrom, List.foldl_cons, Inference.add]
    cases CellKind.of? cell with
    | none => exact inductionHypothesis met large
    | some kind =>
      cases met with
      | none => exact inductionHypothesis (some kind) _
      | some earlier =>
        dsimp only
        split
        · next same =>
          subst same
          have alone : earlier.join earlier = earlier := earlier.below_self
          rw [inductionHypothesis, alone]
        · next different =>
          split
          · next numbers =>
            rw [inductionHypothesis]
            rcases numbers with ⟨rfl, rfl⟩ | ⟨rfl, rfl⟩ <;> rfl
          · next mixed =>
            have other : earlier.join kind = .other := by
              cases earlier <;> cases kind <;> simp_all [CellKind.join]
            rw [other, type_foldl_other]

end Stopping

/-- The type of a column is the narrowest one for the cells that have a value. Reading the cells
only up to the first that leaves JSON text alone gives the same, and so does any column in which the
same values occur, in whatever order and with whatever nulls between them. Inference joins the kinds
that it meets; the join is the least kind that covers them, and a join does not depend on order. -/
theorem inferType_exact (cells : List Value) :
    inferType cells = narrowest (present cells) ∧ typeFrom none false cells = inferType cells ∧
      ∀ other : List Value, (∀ cell, cell.isNull = false → (cell ∈ other ↔ cell ∈ cells)) →
        inferType other = inferType cells := by
  refine ⟨inferType_eq_narrowest cells, typeFrom_eq cells none false, fun other same => ?_⟩
  rw [inferType_eq_narrowest, inferType_eq_narrowest]
  apply narrowest_congr
  intro cell
  simp only [present, List.mem_filter, Bool.not_eq_true']
  exact and_congr_left fun value => same cell value

end LedgerIntake.Batch
