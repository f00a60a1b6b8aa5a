import LedgerIntake.Json.Reader

/-!
# Messages with fixed fields

A message of known fields is an object with these keys or an array of the fields in their order.
Other keys are passed over together with what stands under them, evaluated or not; a known key that
stands twice makes the message unreadable. At the end of an array fields may be left out, which
counts as absence.
-/

namespace LedgerIntake.Json.Source

/-- The only value under a key, if it is present; a key that stands twice has no value. -/
def only? (named : List (String × Source)) (key : String) : Option (Option Source) :=
  match named.filter fun member => member.1 = key with
  | [] => some none
  | [(_, value)] => some (some value)
  | _ => none

/-- What is written for each of some fields; `none` inside the list is an absent field. -/
def fields? (keys : List String) : Source → Option (List (Option Source))
  | .object members => do
    let named ← members.mapM fun (key, value) => (resolveText? key).map fun key => (key, value)
    keys.mapM (only? named)
  | .array items =>
    if items.length ≤ keys.length then
      some (items.map some ++ List.replicate (keys.length - items.length) none)
    else none
  | _ => none

/-- The text of a string. -/
def text? : Source → Option String
  | .text raw => resolveText? raw
  | _ => none

/-- A truth value. -/
def bool? : Source → Option Bool
  | .bool value => some value
  | _ => none

/-- A natural number below 2⁶⁴, written without a point or an exponent. -/
def natural? : Source → Option UInt64
  | .number literal =>
    match literal.number? with
    | some (.natural value) => some value
    | _ => none
  | _ => none

/-- The items of an array. -/
def items? : Source → Option (List Source)
  | .array items => some items
  | _ => none

/-- A value that may be null or absent. -/
def optional? {α : Type} (read : Source → Option α) : Option Source → Option (Option α)
  | none => some none
  | some .null => some none
  | some written => (read written).map some

end LedgerIntake.Json.Source
