import LedgerIntake.Proofs.Json.Values

/-!
# Values read back

What a readable style writes for a value has a value again, if arrays and objects do not nest too
deep. Strings come back as they were, the members of an object ordered by key, and each number as
whatever its literal is evaluated to; this is the one place where a value may change.
-/

namespace LedgerIntake.Json

mutual

/-- A value with other numbers, and the members of its objects in order. -/
def Value.revalue (image : Number → Number) : Value → Value
  | .null => .null
  | .bool value => .bool value
  | .number value => .number (image value)
  | .text value => .text value
  | .array items => .array (revalueItems image items)
  | .object members => .object (Members.ofList (revalueMembers image members))

/-- Each value of a list with other numbers. -/
def revalueItems (image : Number → Number) : List Value → List Value
  | [] => []
  | item :: rest => item.revalue image :: revalueItems image rest

/-- Each member's value with other numbers, beside its key. -/
def revalueMembers (image : Number → Number) : List (String × Value) → List (String × Value)
  | [] => []
  | (key, value) :: rest => (key, value.revalue image) :: revalueMembers image rest

end

/-- The numbers of items are changed item by item. -/
theorem revalueItems_eq (image : Number → Number) (items : List Value) :
    revalueItems image items = items.map (Value.revalue image) := by
  induction items with
  | nil => rfl
  | cons item rest inductionHypothesis => rw [revalueItems, inductionHypothesis, List.map_cons]

/-- The numbers of members are changed value by value, and keys stay. -/
theorem revalueMembers_eq (image : Number → Number) (members : List (String × Value)) :
    revalueMembers image members = members.map fun member =>
      (member.1, member.2.revalue image) := by
  induction members with
  | nil => rfl
  | cons member rest inductionHypothesis =>
    obtain ⟨key, value⟩ := member
    rw [revalueMembers, inductionHypothesis, List.map_cons]

/-- An item nests no deeper than the items together. -/
theorem depth_le_depthOfItems {item : Value} {items : List Value} (member : item ∈ items) :
    item.depth ≤ depthOfItems items := by
  induction items with
  | nil => cases member
  | cons first rest inductionHypothesis =>
    rw [depthOfItems]
    rcases List.mem_cons.mp member with rfl | member
    · exact Nat.le_max_left _ _
    · exact Nat.le_trans (inductionHypothesis member) (Nat.le_max_right _ _)

/-- A value nests no deeper than the members that it is one of. -/
theorem depth_le_depthOfMembers {member : String × Value} {members : List (String × Value)}
    (among : member ∈ members) : member.2.depth ≤ depthOfMembers members := by
  induction members with
  | nil => cases among
  | cons first rest inductionHypothesis =>
    obtain ⟨key, value⟩ := first
    rw [depthOfMembers]
    rcases List.mem_cons.mp among with rfl | among
    · exact Nat.le_max_left _ _
    · exact Nat.le_trans (inductionHypothesis among) (Nat.le_max_right _ _)

section Evaluation

variable {style : Style} {image : Number → Number}

/-- Items that all have a value have these values in order, behind those that were evaluated. -/
theorem itemValues?_sourceItems (depth : Nat) (items evaluated : List Value)
    (values : ∀ item ∈ items, (Source.ofValue style item).value? depth
      = some (item.revalue image)) :
    itemValues? depth evaluated (sourceItems style items)
      = some (evaluated.reverse ++ revalueItems image items) := by
  induction items generalizing evaluated with
  | nil => rw [sourceItems, itemValues?, revalueItems, List.append_nil]
  | cons item rest inductionHypothesis =>
    rw [sourceItems, itemValues?, values item List.mem_cons_self]
    dsimp only
    rw [inductionHypothesis _ fun other member => values other (List.mem_cons_of_mem _ member),
      revalueItems, List.reverse_cons, List.append_assoc, List.singleton_append]

/-- Members that all have a value are inserted in turn, each under the
key that its text resolves to. -/
theorem memberValues?_sourceMembers (legible : style.Legible) (depth : Nat)
    (members : List (String × Value))
    (evaluated : Members)
    (values : ∀ member ∈ members,
      (Source.ofValue style member.2).value? depth = some (member.2.revalue image)) :
    memberValues? depth evaluated (sourceMembers style members)
      = some ((revalueMembers image members).foldl
        (fun members member => Members.insert members member.1 member.2) evaluated) := by
  induction members generalizing evaluated with
  | nil => rfl
  | cons member rest inductionHypothesis =>
    have first := values member List.mem_cons_self
    obtain ⟨key, value⟩ := member
    rw [sourceMembers, memberValues?, legible.resolveText?_raw, first]
    dsimp only
    rw [inductionHypothesis _ fun other among => values other (List.mem_cons_of_mem _ among)]
    rfl

/-- What is written for a value has that value with its numbers evaluated, if it does not nest too
deep. The induction is on the value, whose parts nest one less. -/
theorem value?_ofValue (legible : style.Legible)
    (numbers : ∀ number, (style.literal number).number? = some (image number)) (value : Value)
    (depth : Nat)
    (shallow : value.depth ≤ depth) :
    (Source.ofValue style value).value? depth = some (value.revalue image) := by
  induction value using Value.induction generalizing depth with
  | null => rfl
  | bool value => rfl
  | number value =>
    rw [Source.ofValue, Source.value?, numbers, Option.map_some, Value.revalue]
  | text value =>
    rw [Source.ofValue, Source.value?, legible.resolveText?_raw, Option.map_some, Value.revalue]
  | array items inductionHypothesis =>
    rw [Value.depth] at shallow
    obtain ⟨inner, rfl⟩ : ∃ inner, depth = inner + 1 := ⟨depth - 1, by omega⟩
    have values : itemValues? inner [] (sourceItems style items)
        = some ([].reverse ++ revalueItems image items) :=
          itemValues?_sourceItems inner items [] (by
      intro item member
      have below := depth_le_depthOfItems member
      exact inductionHypothesis item member inner (by omega))
    rw [Source.ofValue, Source.value?, values, Option.map_some, Value.revalue, List.reverse_nil,
      List.nil_append]
  | object members inductionHypothesis =>
    rw [Value.depth] at shallow
    obtain ⟨inner, rfl⟩ : ∃ inner, depth = inner + 1 := ⟨depth - 1, by omega⟩
    have values : memberValues? inner [] (sourceMembers style members)
        = some (Members.ofList (revalueMembers image members)) :=
      memberValues?_sourceMembers legible inner members [] (by
      intro member among
      have below := depth_le_depthOfMembers among
      exact inductionHypothesis member among inner (by omega))
    rw [Source.ofValue, Source.value?, values, Option.map_some, Value.revalue]

/-- Items nest no deeper than a bound if each of them does not. -/
theorem depthOfItems_le {items : List Value} {bound : Nat}
    (each : ∀ item ∈ items, item.depth ≤ bound) :
    depthOfItems items ≤ bound := by
  induction items with
  | nil => exact Nat.zero_le _
  | cons item rest inductionHypothesis =>
    rw [depthOfItems]
    exact Nat.max_le.mpr ⟨each item List.mem_cons_self,
      inductionHypothesis fun other member => each other (List.mem_cons_of_mem _ member)⟩

/-- Members nest no deeper than a bound that holds for each of their values. -/
theorem depthOfMembers_le {members : List (String × Value)} {bound : Nat}
    (each : ∀ member ∈ members, member.2.depth ≤ bound) : depthOfMembers members ≤ bound := by
  induction members with
  | nil => exact Nat.zero_le _
  | cons member rest inductionHypothesis =>
    have first := each member List.mem_cons_self
    obtain ⟨key, value⟩ := member
    rw [depthOfMembers]
    exact Nat.max_le.mpr
      ⟨first, inductionHypothesis fun other among => each other (List.mem_cons_of_mem _ among)⟩

/-- Items that have values together have one each, since the first that
has none ends the evaluation. -/
theorem exists_value?_of_itemValues? {depth : Nat} {items evaluated values : List Value}
    (evaluates : itemValues? depth evaluated (sourceItems style items) = some values) :
    ∀ item ∈ items, ∃ value, (Source.ofValue style item).value? depth = some value := by
  induction items generalizing evaluated with
  | nil => exact fun item member => absurd member List.not_mem_nil
  | cons first rest inductionHypothesis =>
    rw [sourceItems, itemValues?] at evaluates
    split at evaluates
    · cases evaluates
    · next value found =>
      intro item member
      rcases List.mem_cons.mp member with rfl | member
      · exact ⟨value, found⟩
      · exact inductionHypothesis evaluates item member

/-- Where all members have values, each has one, as for items. -/
theorem exists_value?_of_memberValues? {depth : Nat} {members : List (String × Value)}
    {evaluated values : Members}
    (evaluates : memberValues? depth evaluated (sourceMembers style members) = some values) :
    ∀ member ∈ members, ∃ value, (Source.ofValue style member.2).value? depth = some value := by
  induction members generalizing evaluated with
  | nil => exact fun member among => absurd among List.not_mem_nil
  | cons first rest inductionHypothesis =>
    obtain ⟨key, value⟩ := first
    rw [sourceMembers, memberValues?] at evaluates
    split at evaluates
    · next value _ found =>
      intro member among
      rcases List.mem_cons.mp among with rfl | among
      · exact ⟨value, found⟩
      · exact inductionHypothesis evaluates member among
    · cases evaluates

/-- What nests too deep has no value, whatever its strings and numbers are.
The induction is on the value. -/
theorem depth_le_of_value? {value other : Value} {depth : Nat}
    (evaluates : (Source.ofValue style value).value? depth = some other) : value.depth ≤ depth := by
  induction value using Value.induction generalizing depth other with
  | null => exact Nat.zero_le _
  | bool value => exact Nat.zero_le _
  | number value => exact Nat.zero_le _
  | text value => exact Nat.zero_le _
  | array items inductionHypothesis =>
    rw [Source.ofValue, Source.value?.eq_def] at evaluates
    cases depth with
    | zero => cases evaluates
    | succ inner =>
      obtain ⟨values, found, -⟩ := Option.map_eq_some_iff.mp evaluates
      refine Nat.succ_le_succ (depthOfItems_le fun item member => ?_)
      obtain ⟨value, evaluated⟩ := exists_value?_of_itemValues? found item member
      exact inductionHypothesis item member evaluated
  | object members inductionHypothesis =>
    rw [Source.ofValue, Source.value?.eq_def] at evaluates
    cases depth with
    | zero => cases evaluates
    | succ inner =>
      obtain ⟨values, found, -⟩ := Option.map_eq_some_iff.mp evaluates
      refine Nat.succ_le_succ (depthOfMembers_le fun member among => ?_)
      obtain ⟨value, evaluated⟩ := exists_value?_of_memberValues? found member among
      exact inductionHypothesis member among evaluated

end Evaluation

/-- The text that a readable style writes for a value is read as that value
with its numbers evaluated. -/
theorem Style.Readable.readBytes {style : Style} {image : Number → Number}
    (readable : style.Readable)
    (numbers : ∀ number, (style.literal number).number? = some (image number)) (value : Value)
    (shallow : value.depth ≤ greatestDepth) :
    readBytes? (Utf8.encode (value.write style)) = some (value.revalue image) := by
  rw [readBytes?, readable.read value, Option.bind_some,
    value?_ofValue readable.legible numbers value greatestDepth shallow]

/-- The text of a value that nests too deep is not read, in whatever
readable style it is written. -/
theorem Style.Readable.depth_le_of_readBytes? {style : Style} (readable : style.Readable)
    {value other : Value}
    (read : readBytes? (Utf8.encode (value.write style)) = some other) :
    value.depth ≤ greatestDepth := by
  rw [readBytes?, readable.read value, Option.bind_some] at read
  exact depth_le_of_value? read

end LedgerIntake.Json
