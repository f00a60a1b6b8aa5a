import LedgerIntake.Json.Number

/-!
# JSON values

A value is a tree. The members of an object stand in a list ordered by key, so that two objects with
the same members are the same value; keys are ordered by code point, which is also the order of
their UTF-8 bytes. `Members.insert` keeps that order and lets the last value of a key win.
-/

namespace LedgerIntake.Json

/-- A JSON value. -/
inductive Value where
  | null
  | bool (value : Bool)
  | number (value : Number)
  | text (value : String)
  | array (items : List Value)
  | object (members : List (String × Value))

/-- Null stands in where a value is asked for and none matters. -/
instance : Inhabited Value := ⟨.null⟩

/-- The members of an object, ordered by key. -/
abbrev Members := List (String × Value)

namespace Members

/-- Sets a key; a value that it had before is replaced. -/
def insert (members : Members) (key : String) (value : Value) : Members :=
  match members with
  | [] => [(key, value)]
  | (other, old) :: rest =>
    if key < other then (key, value) :: (other, old) :: rest
    else if key = other then (key, value) :: rest
    else (other, old) :: insert rest key value

/-- The value of a key. -/
def get? (members : Members) (key : String) : Option Value :=
  (members.find? fun member => member.1 = key).map Prod.snd

/-- Whether a key is present, be its value null or not. -/
def contains (members : Members) (key : String) : Bool := members.any fun member => member.1 = key

/-- The members of a list of pairs; of equal keys the last one counts. -/
def ofList (pairs : List (String × Value)) : Members :=
  pairs.foldl (fun members member => insert members member.1 member.2) []

/-- The keys in order. -/
def keys (members : Members) : List String := members.map Prod.fst

/-- Each key is less than all later ones. -/
def Sorted (members : Members) : Prop := members.Pairwise fun earlier later => earlier.1 < later.1

end Members

namespace Value

/-- The items of an array. -/
def array? : Value → Option (List Value)
  | .array items => some items
  | _ => none

/-- The members of an object. -/
def object? : Value → Option Members
  | .object members => some members
  | _ => none

/-- The text of a string. -/
def text? : Value → Option String
  | .text value => some value
  | _ => none

/-- Whether the value is null. -/
def isNull : Value → Bool
  | .null => true
  | _ => false

/-- The natural number below 2⁶⁴ that stands without a point. -/
def natural? : Value → Option Nat
  | .number (.natural value) => some value.toNat
  | _ => none

end Value

mutual

/-- Every object in the tree lists its members in strictly increasing key order. -/
def Value.WellFormed : Value → Prop
  | .array items => WellFormedItems items
  | .object members => Members.Sorted members ∧ WellFormedMembers members
  | _ => True

/-- Every value of a list is well formed. -/
def WellFormedItems : List Value → Prop
  | [] => True
  | item :: rest => item.WellFormed ∧ WellFormedItems rest

/-- Every member's value is well formed. -/
def WellFormedMembers : List (String × Value) → Prop
  | [] => True
  | (_, value) :: rest => value.WellFormed ∧ WellFormedMembers rest

end

mutual

/-- How many arrays and objects stand inside one another. -/
def Value.depth : Value → Nat
  | .array items => depthOfItems items + 1
  | .object members => depthOfMembers members + 1
  | _ => 0

/-- The greatest depth of a list of values. -/
def depthOfItems : List Value → Nat
  | [] => 0
  | item :: rest => max item.depth (depthOfItems rest)

/-- The greatest depth of the members' values. -/
def depthOfMembers : List (String × Value) → Nat
  | [] => 0
  | (_, value) :: rest => max value.depth (depthOfMembers rest)

end

end LedgerIntake.Json
