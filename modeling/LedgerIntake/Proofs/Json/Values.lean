import LedgerIntake.Proofs.Json.Numerals
import LedgerIntake.Proofs.Json.Strings

/-!
# Texts of values

A style is readable if it writes characters and numbers so that they read back. The text that such a
style writes for a value spells the tree of what is written; the tree does not depend on where the
text stands, and a text has one tree, so the tree of a value is settled by its text.
-/

namespace LedgerIntake.Json

/-- A property of all values follows from its closure under arrays and objects. -/
theorem Value.induction {motive : Value → Prop} (null : motive .null)
    (bool : ∀ value, motive (.bool value))
    (number : ∀ value, motive (.number value)) (text : ∀ value, motive (.text value))
    (array : ∀ items, (∀ item ∈ items, motive item) → motive (.array items))
    (object : ∀ members, (∀ member ∈ members, motive member.2) → motive (.object members))
    (value : Value) :
    motive value :=
  match value with
  | .null => null
  | .bool value => bool value
  | .number value => number value
  | .text value => text value
  | .array items => array items fun item _ => item.induction null bool number text array object
  | .object members =>
    object members fun member _ => member.2.induction null bool number text array object
termination_by sizeOf value
decreasing_by
  · have smaller := List.sizeOf_lt_of_mem (by assumption : item ∈ items)
    simp only [Value.array.sizeOf_spec]
    omega
  · have smaller := List.sizeOf_lt_of_mem (by assumption : member ∈ members)
    obtain ⟨key, value⟩ := member
    simp only [Value.object.sizeOf_spec, Prod.mk.sizeOf_spec] at smaller ⊢
    omega

/-- The texts of items, one for each, in their order. -/
theorem writeItems_eq (style : Style) (items : List Value) :
    writeItems style items = items.map (Value.write style) := by
  induction items with
  | nil => rfl
  | cons item rest inductionHypothesis => rw [writeItems, inductionHypothesis, List.map_cons]

/-- Members are written value by value, and their keys stay. -/
theorem writeMembers_eq (style : Style) (members : List (String × Value)) :
    writeMembers style members = members.map fun member => (member.1, member.2.write style) := by
  induction members with
  | nil => rfl
  | cons member rest inductionHypothesis =>
    obtain ⟨key, value⟩ := member
    rw [writeMembers, inductionHypothesis, List.map_cons]

/-- What is written of a number. -/
def Style.literal (style : Style) (number : Number) : Number.Literal :=
  (Number.Literal.read? (style.number number).toList).getD ⟨false, [], none, none⟩

/-- Characters and numbers that a style writes read back. -/
structure Style.Readable (style : Style) : Prop where
  legible : style.Legible
  numeral : ∀ number, ∃ (literal : Number.Literal) (mark : Char) (plus : List Char),
    literal.WellFormed ∧ (mark = 'e' ∨ mark = 'E') ∧ (plus = [] ∨ plus = ['+']) ∧
      (style.number number).toList = literal.spelling mark plus

/-- What is written of a number is the literal that its text is the spelling of. -/
theorem Style.literal_of_spelling {style : Style} {number : Number} {literal : Number.Literal}
    {mark : Char}
    {plus : List Char} (proper : literal.WellFormed) (marked : mark = 'e' ∨ mark = 'E')
    (sign : plus = [] ∨ plus = ['+'])
    (spelled : (style.number number).toList = literal.spelling mark plus) :
    style.literal number = literal := by
  rw [Style.literal, spelled, Number.Literal.read?_spelling marked sign literal proper,
    Option.getD_some]

/-- A number spells what is written of it, since a readable style writes numerals. -/
theorem Style.Readable.spells_number {style : Style} (readable : style.Readable) (number : Number) :
    Spells (style.number number) (.number (style.literal number)) := by
  obtain ⟨literal, mark, plus, proper, marked, sign, spelled⟩ := readable.numeral number
  rw [literal_of_spelling proper marked sign spelled]
  refine Json.spells_number _ literal ?_ ?_
  · rw [spelled]
    exact Number.Literal.read?_spelling marked sign literal proper
  · rw [spelled]
    exact literal.numeric_spelling proper mark plus marked sign

mutual

/-- The tree of what a style writes for a value. -/
def Source.ofValue (style : Style) : Value → Source
  | .null => .null
  | .bool value => .bool value
  | .number value => .number (style.literal value)
  | .text value => .text (style.raw value)
  | .array items => .array (sourceItems style items)
  | .object members => .object (sourceMembers style members)

/-- The tree of each value. -/
def sourceItems (style : Style) : List Value → List Source
  | [] => []
  | item :: rest => Source.ofValue style item :: sourceItems style rest

/-- The tree of each member's value, beside what is written of its key. -/
def sourceMembers (style : Style) : List (String × Value) → List (Bytes × Source)
  | [] => []
  | (key, value) :: rest => (style.raw key, Source.ofValue style value) :: sourceMembers style rest

end

/-- What is read of items is read item by item. -/
theorem sourceItems_eq (style : Style) (items : List Value) :
    sourceItems style items = items.map (Source.ofValue style) := by
  induction items with
  | nil => rfl
  | cons item rest inductionHypothesis => rw [sourceItems, inductionHypothesis, List.map_cons]

/-- What is read of members is read value by value, beside the bytes of their keys. -/
theorem sourceMembers_eq (style : Style) (members : List (String × Value)) :
    sourceMembers style members
      = members.map fun member => (style.raw member.1, Source.ofValue style member.2) := by
  induction members with
  | nil => rfl
  | cons member rest inductionHypothesis =>
    obtain ⟨key, value⟩ := member
    rw [sourceMembers, inductionHypothesis, List.map_cons]

/-- The text of a value spells the tree of what is written for it. The induction is on the value,
and brackets and braces join the parts. -/
theorem Style.Readable.spells {style : Style} (readable : style.Readable) (value : Value) :
    Spells (value.write style) (.ofValue style value) := by
  induction value using Value.induction with
  | null => exact spells_null
  | bool value => exact spells_bool value
  | number value => exact readable.spells_number value
  | text value => exact readable.legible.spells value
  | array items inductionHypothesis =>
    have spelled :=
      Spells.brackets (items.map fun item => (item.write style, Source.ofValue style item)) (by
        intro pair member
        obtain ⟨item, among, rfl⟩ := List.mem_map.mp member
        exact inductionHypothesis item among)
    rw [List.map_map, List.map_map] at spelled
    rw [Value.write, writeItems_eq, Source.ofValue, sourceItems_eq]
    exact spelled
  | object members inductionHypothesis =>
    have spelled : Spells (style.braces _) _ := Spells.braces
      (members.map fun member =>
        ⟨member.1, member.2.write style, style.raw member.1, Source.ofValue style member.2⟩) (by
      intro written among
      obtain ⟨member, present, rfl⟩ := List.mem_map.mp among
      exact ⟨readable.legible.names member.1, inductionHypothesis member present⟩)
    rw [List.map_map, List.map_map] at spelled
    rw [Value.write, writeMembers_eq, Source.ofValue, sourceMembers_eq]
    exact spelled

/-- The text of a value is read as the tree of what is written for it. -/
theorem Style.Readable.read {style : Style} (readable : style.Readable) (value : Value) :
    Source.read? (Utf8.encode (value.write style)) = some (.ofValue style value) :=
  (readable.spells value).read

end LedgerIntake.Json
