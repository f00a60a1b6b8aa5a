import LedgerIntake.Proofs.Canonical

/-!
# What canonical bytes identify

Two values are the same up to the form of their numbers if they have the same structure, the same
keys and texts, and at each place of a number the same rational number. Canonical bytes identify
values that are the same in this sense and no others: `bytes_eq_iff_same`. Equal bytes are known to
mean equal normalized forms, so what is left is to follow both values at once and to settle their
numbers place by place.
-/

namespace LedgerIntake

open Json

namespace Json

mutual

/-- The same structure, keys and texts, and numbers that stand for the same rational numbers. -/
def Value.Same : Value → Value → Prop
  | .null, .null => True
  | .bool value, .bool other => value = other
  | .number value, .number other => value.exact = other.exact
  | .text value, .text other => value = other
  | .array items, .array others => SameItems items others
  | .object members, .object others => SameMembers members others
  | _, _ => False

/-- As many items, one by one the same. -/
def SameItems : List Value → List Value → Prop
  | [], [] => True
  | item :: rest, other :: others => item.Same other ∧ SameItems rest others
  | _, _ => False

/-- The same keys with values that are the same. -/
def SameMembers : List (String × Value) → List (String × Value) → Prop
  | [], [] => True
  | (key, value) :: rest, (key', value') :: others =>
    key = key' ∧ value.Same value' ∧ SameMembers rest others
  | _, _ => False

end

end Json

namespace Canonical

section Trees

/-- Lists have the same settled forms exactly if their items are the same, where
this is known of each item. -/
theorem sameItems_iff {items others : List Value} (each : ∀ item ∈ items, ∀ other ∈ others,
      (item.revalue settle = other.revalue settle ↔ item.Same other)) :
    items.map (Value.revalue settle) = others.map (Value.revalue settle) ↔
      SameItems items others := by
  induction items generalizing others with
  | nil => cases others <;> simp [SameItems]
  | cons item rest inductionHypothesis =>
    cases others with
    | nil => simp [SameItems]
    | cons other others =>
      have first := each item List.mem_cons_self other List.mem_cons_self
      have later := inductionHypothesis fun item among other among' =>
        each item (List.mem_cons_of_mem _ among) other (List.mem_cons_of_mem _ among')
      rw [List.map_cons, List.map_cons, List.cons.injEq, first, later, SameItems]

/-- Members have equal normal forms exactly if they are the same pair by pair, where
that is known of their values. -/
theorem sameMembers_iff {members others : List (String × Value)}
    (each : ∀ member ∈ members, ∀ other ∈ others,
      (member.2.revalue settle = other.2.revalue settle ↔ member.2.Same other.2)) :
    (members.map fun member => (member.1, member.2.revalue settle))
        = (others.map fun member => (member.1, member.2.revalue settle)) ↔
          SameMembers members others := by
  induction members generalizing others with
  | nil => cases others <;> simp [SameMembers]
  | cons member rest inductionHypothesis =>
    cases others with
    | nil => simp [SameMembers]
    | cons other others =>
      have first := each member List.mem_cons_self other List.mem_cons_self
      have later := inductionHypothesis fun member among other among' =>
        each member (List.mem_cons_of_mem _ among) other (List.mem_cons_of_mem _ among')
      obtain ⟨key, value⟩ := member
      obtain ⟨key', value'⟩ := other
      rw [List.map_cons, List.map_cons, List.cons.injEq, Prod.mk.injEq, first, later, SameMembers,
        and_assoc]

/-- Values have the same settled form exactly if they are the same up
to the form of their numbers. -/
theorem revalue_settle_eq_iff {value other : Value} (wellFormed : value.WellFormed)
    (wellFormed' : other.WellFormed) : value.revalue settle = other.revalue settle ↔
      value.Same other := by
  induction value using Value.induction generalizing other with
  | null => cases other <;> simp [Value.revalue, Value.Same]
  | bool value => cases other <;> simp [Value.revalue, Value.Same]
  | text value => cases other <;> simp [Value.revalue, Value.Same]
  | number value => cases other <;> simp [Value.revalue, Value.Same, settle_eq_settle_iff]
  | array items inductionHypothesis =>
    cases other with
    | array others =>
      have each := wellFormedItems_iff.mp wellFormed
      have each' := wellFormedItems_iff.mp wellFormed'
      rw [revalue_array, revalue_array, Value.array.injEq, Value.Same]
      exact sameItems_iff fun item among other among' =>
        inductionHypothesis item among (each item among) (each' other among')
    | _ => simp [Value.revalue, Value.Same]
  | object members inductionHypothesis =>
    cases other with
    | object others =>
      have each := wellFormedMembers_iff.mp wellFormed.2
      have each' := wellFormedMembers_iff.mp wellFormed'.2
      rw [revalue_object wellFormed.1, revalue_object wellFormed'.1, Value.object.injEq, Value.Same]
      exact sameMembers_iff fun member among other among' =>
        inductionHypothesis member among (each member among) (each' other among')
    | _ => simp [Value.revalue, Value.Same]

end Trees

/-- Canonical bytes identify values exactly up to the form of their numbers. Between the two stands
a third form: the values whose numbers are settled. Text is read back as that value, so bytes tell
it, and sameness is equality of it. -/
theorem bytes_eq_iff_same {value other : Value} (wellFormed : value.WellFormed)
    (wellFormed' : other.WellFormed) :
    bytes value = bytes other ↔ value.Same other := by
  rw [bytes_eq_bytes_iff wellFormed wellFormed', revalue_settle_eq_iff wellFormed wellFormed']

/-- A binary64 that equals a natural number stands for the same number,
though it has another form. -/
theorem exact_float_eq_natural {value : Binary64} (finite : value.isFinite = true)
    {natural : UInt64}
    (equal : value.toInt? = some (natural.toNat : Int)) :
    (Number.float value finite).exact = (Number.natural natural).exact := by
  have known : (Number.natural natural).integer? = some (natural.toNat : Int) := rfl
  rw [Number.exact_of_integer? known]
  exact (value.exact_eq_intCast_iff _).mpr equal

/-- Two to the power of 63, a time and the negative zero, each as a binary64 and without a point. -/
theorem bytes_eq_iff_same_integral :
    bytes (.object [("great", .number (.float ⟨0x43e0000000000000⟩ (by decide))),
        ("time", .number (.float ⟨0x41d954fc40000000⟩ (by decide))),
        ("zero", .number (.float ⟨0x8000000000000000⟩ (by decide)))])
      = bytes (.object [("great", .number (.natural 0x8000000000000000)),
        ("time", .number (.natural 1700000000)), ("zero", .number (.natural 0))]) := by
  have ordered (great time zero : Number) :
      (Value.object
        [("great", .number great), ("time", .number time), ("zero", .number zero)]).WellFormed := by
    refine ⟨?_, trivial, trivial, trivial, trivial⟩
    simp only [Members.Sorted, List.pairwise_cons, List.forall_mem_cons]
    decide
  refine (bytes_eq_iff_same (ordered ..) (ordered ..)).mpr ⟨rfl, ?_, rfl, ?_, rfl, ?_, trivial⟩
  · exact exact_float_eq_natural _ (by decide)
  · exact exact_float_eq_natural _ (by decide)
  · exact exact_float_eq_natural _ (by decide)

end Canonical

end LedgerIntake
