import LedgerIntake.Proofs.Json.Members
import LedgerIntake.Proofs.Json.Reading
import LedgerIntake.Proofs.Number.Exact

/-!
# Numbers of values

In a value whose objects are in order, exchanging the numbers changes nothing else: the result is in
order again, exchanging twice is exchanging once by both steps, and two exchanges agree exactly if
they agree on every number that stands in the value. A number stands for a rational number, whatever
its form.
-/

namespace LedgerIntake.Json

/-- The rational number that a number stands for. -/
def Number.exact : Number → ℚ
  | .natural value => value.toNat
  | .negative below => -(below.val + 1 : ℚ)
  | .float value _ => value.exact

/-- An integer stands for itself, so comparing integers is comparing values. -/
theorem Number.exact_of_integer? {number : Number} {integer : Int}
    (known : number.integer? = some integer) :
    number.exact = integer := by
  cases number with
  | natural value =>
    cases known
    rw [Number.exact, Int.cast_natCast]
  | negative below =>
    cases known
    rw [Number.exact]
    push_cast
    ring
  | float => cases known

mutual

/-- The numbers that stand in a value. -/
def Value.numbers : Value → List Number
  | .number value => [value]
  | .array items => numbersOfItems items
  | .object members => numbersOfMembers members
  | _ => []

/-- The numbers of each value of a list. -/
def numbersOfItems : List Value → List Number
  | [] => []
  | item :: rest => item.numbers ++ numbersOfItems rest

/-- The numbers of each member's value. -/
def numbersOfMembers : List (String × Value) → List Number
  | [] => []
  | (_, value) :: rest => value.numbers ++ numbersOfMembers rest

end

/-- A number of items is one of some item. -/
theorem mem_numbersOfItems {items : List Value} {number : Number} :
    number ∈ numbersOfItems items ↔ ∃ item ∈ items, number ∈ item.numbers := by
  induction items with
  | nil => simp [numbersOfItems]
  | cons item rest inductionHypothesis => simp [numbersOfItems, inductionHypothesis]

/-- A number of members is one of some value. -/
theorem mem_numbersOfMembers {members : List (String × Value)} {number : Number} :
    number ∈ numbersOfMembers members ↔ ∃ member ∈ members, number ∈ member.2.numbers := by
  induction members with
  | nil => simp [numbersOfMembers]
  | cons member rest inductionHypothesis =>
    obtain ⟨key, value⟩ := member
    simp only [numbersOfMembers, List.mem_append, inductionHypothesis, List.mem_cons,
      exists_eq_or_imp]

/-- Items are well formed exactly if each is. -/
theorem wellFormedItems_iff {items : List Value} :
    WellFormedItems items ↔ ∀ item ∈ items, item.WellFormed := by
  induction items with
  | nil => simp [WellFormedItems]
  | cons item rest inductionHypothesis => simp [WellFormedItems, inductionHypothesis]

/-- Members are well formed exactly if each value is. Their order is asked of the
object that they belong to. -/
theorem wellFormedMembers_iff {members : List (String × Value)} :
    WellFormedMembers members ↔ ∀ member ∈ members, member.2.WellFormed := by
  induction members with
  | nil => simp [WellFormedMembers]
  | cons member rest inductionHypothesis =>
    obtain ⟨key, value⟩ := member
    simp only [WellFormedMembers, inductionHypothesis, List.forall_mem_cons]

/-- Members whose values are exchanged are as much in order as before. -/
theorem Members.sorted_map {members : Members} (sorted : Members.Sorted members)
    (change : Value → Value) :
    Members.Sorted (members.map fun member => (member.1, change member.2)) :=
  List.pairwise_map.mpr sorted

/-- In an object that is in order, only the values of the members change. -/
theorem revalue_object {members : Members} (sorted : Members.Sorted members)
    (image : Number → Number) :
    (Value.object members).revalue image
      = .object (members.map fun member => (member.1, member.2.revalue image)) := by
  rw [Value.revalue, revalueMembers_eq, Members.ofList_of_sorted _ (Members.sorted_map sorted _)]

/-- The numbers of an array are changed item by item. -/
theorem revalue_array (items : List Value) (image : Number → Number) :
    (Value.array items).revalue image = .array (items.map (Value.revalue image)) := by
  rw [Value.revalue, revalueItems_eq]

/-- A value stays well formed when its numbers are exchanged, since only keys are put in order. -/
theorem wellFormed_revalue {value : Value} (wellFormed : value.WellFormed)
    (image : Number → Number) :
    (value.revalue image).WellFormed := by
  induction value using Value.induction with
  | null => trivial
  | bool value => trivial
  | number value => trivial
  | text value => trivial
  | array items inductionHypothesis =>
    have each := wellFormedItems_iff.mp wellFormed
    rw [revalue_array]
    apply wellFormedItems_iff.mpr
    intro item member
    obtain ⟨former, among, rfl⟩ := List.mem_map.mp member
    exact inductionHypothesis former among (each former among)
  | object members inductionHypothesis =>
    obtain ⟨sorted, each⟩ := wellFormed
    rw [revalue_object sorted]
    refine ⟨Members.sorted_map sorted _, wellFormedMembers_iff.mpr ?_⟩
    intro member present
    obtain ⟨former, among, rfl⟩ := List.mem_map.mp present
    exact inductionHypothesis former among (wellFormedMembers_iff.mp each former among)

/-- Items whose depths stay as they were are as deep together. -/
theorem depthOfItems_map {items : List Value} {change : Value → Value}
    (kept : ∀ item ∈ items, (change item).depth = item.depth) :
    depthOfItems (items.map change) = depthOfItems items := by
  induction items with
  | nil => rfl
  | cons item rest inductionHypothesis =>
    rw [List.map_cons, depthOfItems, depthOfItems, kept item List.mem_cons_self,
      inductionHypothesis fun other member => kept other (List.mem_cons_of_mem _ member)]

/-- Changes that keep the depth of every value keep that of the members. -/
theorem depthOfMembers_map {members : List (String × Value)} {change : Value → Value}
    (kept : ∀ member ∈ members, (change member.2).depth = member.2.depth) :
    depthOfMembers (members.map fun member => (member.1, change member.2))
      = depthOfMembers members := by
  induction members with
  | nil => rfl
  | cons member rest inductionHypothesis =>
    have first := kept member List.mem_cons_self
    obtain ⟨key, value⟩ := member
    rw [List.map_cons, depthOfMembers, depthOfMembers, first,
      inductionHypothesis fun other among => kept other (List.mem_cons_of_mem _ among)]

/-- A value nests as deep as before when its numbers are exchanged.
The induction is on the value. -/
theorem depth_revalue {value : Value} (wellFormed : value.WellFormed) (image : Number → Number) :
    (value.revalue image).depth = value.depth := by
  induction value using Value.induction with
  | null => rfl
  | bool value => rfl
  | number value => rfl
  | text value => rfl
  | array items inductionHypothesis =>
    have each := wellFormedItems_iff.mp wellFormed
    rw [revalue_array, Value.depth, Value.depth,
      depthOfItems_map fun item member => inductionHypothesis item member (each item member)]
  | object members inductionHypothesis =>
    obtain ⟨sorted, each⟩ := wellFormed
    rw [revalue_object sorted, Value.depth, Value.depth, depthOfMembers_map fun member among =>
      inductionHypothesis member among (wellFormedMembers_iff.mp each member among)]

/-- Numbers that are exchanged twice are exchanged once by both steps. -/
theorem revalue_revalue {value : Value} (wellFormed : value.WellFormed)
    (first second : Number → Number) :
    (value.revalue first).revalue second = value.revalue (second ∘ first) := by
  induction value using Value.induction with
  | null => rfl
  | bool value => rfl
  | number value => rfl
  | text value => rfl
  | array items inductionHypothesis =>
    have each := wellFormedItems_iff.mp wellFormed
    rw [revalue_array, revalue_array, revalue_array, List.map_map]
    congr 1
    apply List.map_congr_left
    intro item member
    exact inductionHypothesis item member (each item member)
  | object members inductionHypothesis =>
    obtain ⟨sorted, each⟩ := wellFormed
    rw [revalue_object sorted, revalue_object (Members.sorted_map sorted _), revalue_object sorted,
      List.map_map]
    congr 1
    apply List.map_congr_left
    intro member among
    exact congrArg (Prod.mk member.1)
      (inductionHypothesis member among (wellFormedMembers_iff.mp each member among))

/-- Exchanging each number for itself changes nothing, so values may be compared
as exchanges of themselves. -/
theorem revalue_id {value : Value} (wellFormed : value.WellFormed) : value.revalue id = value := by
  induction value using Value.induction with
  | null => rfl
  | bool value => rfl
  | number value => rfl
  | text value => rfl
  | array items inductionHypothesis =>
    have each := wellFormedItems_iff.mp wellFormed
    rw [revalue_array]
    have same := List.map_congr_left fun item member =>
      inductionHypothesis item member (each item member)
    rw [same, List.map_id']
  | object members inductionHypothesis =>
    obtain ⟨sorted, each⟩ := wellFormed
    rw [revalue_object sorted]
    have same : ∀ member ∈ members, (member.1, member.2.revalue id) = member := fun member among =>
      Prod.ext rfl (inductionHypothesis member among (wellFormedMembers_iff.mp each member among))
    rw [List.map_congr_left same, List.map_id']

/-- Two exchanges agree on a value exactly if they agree on its numbers.
The induction is on the value. -/
theorem revalue_eq_revalue_iff {value : Value} (wellFormed : value.WellFormed)
    (first second : Number → Number) :
    value.revalue first = value.revalue second ↔
      ∀ number ∈ value.numbers, first number = second number := by
  induction value using Value.induction with
  | null => simp [Value.revalue, Value.numbers]
  | bool value => simp [Value.revalue, Value.numbers]
  | number value => simp [Value.revalue, Value.numbers]
  | text value => simp [Value.revalue, Value.numbers]
  | array items inductionHypothesis =>
    have each := wellFormedItems_iff.mp wellFormed
    rw [revalue_array, revalue_array, Value.array.injEq, List.map_inj_left, Value.numbers]
    constructor
    · intro same number member
      obtain ⟨item, among, inside⟩ := mem_numbersOfItems.mp member
      exact (inductionHypothesis item among (each item among)).mp (same item among) number inside
    · intro same item among
      apply (inductionHypothesis item among (each item among)).mpr
      intro number inside
      exact same number (mem_numbersOfItems.mpr ⟨item, among, inside⟩)
  | object members inductionHypothesis =>
    obtain ⟨sorted, each⟩ := wellFormed
    have single := wellFormedMembers_iff.mp each
    rw [revalue_object sorted, revalue_object sorted, Value.object.injEq, List.map_inj_left,
      Value.numbers]
    constructor
    · intro same number present
      obtain ⟨member, among, inside⟩ := mem_numbersOfMembers.mp present
      have equal := (Prod.mk.inj (same member among)).2
      exact (inductionHypothesis member among (single member among)).mp equal number inside
    · intro same member among
      apply congrArg (Prod.mk member.1)
      apply (inductionHypothesis member among (single member among)).mpr
      intro number inside
      exact same number (mem_numbersOfMembers.mpr ⟨member, among, inside⟩)

end LedgerIntake.Json
