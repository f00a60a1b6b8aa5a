import LedgerIntake.Block
import LedgerIntake.Merkle

/-!
# Hashing that may fail

Hashes are taken in steps that are made for more than JSON: what is given is turned into a value,
the value is searched for numbers that are not finite, and its text is written. Each step may fail
in general, and callers are told so. Nothing that JSON text denotes makes one of them fail.
-/

namespace LedgerIntake

open Json

/-- Writes the text of a value into memory. Other places may refuse what is written to them, for a
reason of their own; memory takes it all. -/
def Json.Value.print (value : Value) (style : Style) : Except String String :=
  .ok (value.write style)

namespace Canonical

/-- Why a value has no canonical text. -/
inductive Refusal where
  /-- A number that is not finite, at a path of keys and positions. -/
  | notFinite (path : List String)
  /-- The text could not be written, for a reason that the writer gives. -/
  | unwritten (reason : String)
deriving DecidableEq

/-- A path in one line, from the outside to the inside. -/
def pathText (path : List String) : String :=
  if path.isEmpty then "root" else String.intercalate "." path

/-- The wording of a refusal. -/
def Refusal.message : Refusal → String
  | .notFinite path => "non-finite number detected at " ++ pathText path
  | .unwritten reason => "other error: " ++ reason

/-- Whether a number is infinite or none at all. -/
def isStray : Number → Bool
  | .float value _ => !value.isFinite
  | _ => false

mutual

/-- The path of the first number of a value that is not finite. -/
def stray? (path : List String) : Value → Option (List String)
  | .number value => if isStray value then some path else none
  | .array items => strayItem? path 0 items
  | .object members => strayMember? path members
  | _ => none

/-- The same of the values of an array, from a position on. -/
def strayItem? (path : List String) (position : Nat) : List Value → Option (List String)
  | [] => none
  | item :: rest =>
    (stray? (path ++ ["[" ++ position.repr ++ "]"]) item).or (strayItem? path (position + 1) rest)

/-- The same of the values of an object. -/
def strayMember? (path : List String) : List (String × Value) → Option (List String)
  | [] => none
  | (key, value) :: rest => (stray? (path ++ [key]) value).or (strayMember? path rest)

end

/-- The canonical bytes of a value, or why it has none. -/
def canonicalize (value : Value) : Except Refusal Bytes :=
  match stray? [] value with
  | some path => .error (.notFinite path)
  | none => (((normalize .clean value).1.print style).mapError .unwritten).map Utf8.encode

/-- A number that is hashed by itself has to be finite. -/
def checkNumber (value : Number) : Except Refusal Unit :=
  if isStray value then .error (.notFinite ["number"]) else .ok ()

end Canonical

namespace Hashing

/-- Why there is no hash. -/
inductive Fault where
  /-- What is given cannot be turned into a value. -/
  | serialization (reason : String)
  | canonicalization (refusal : Canonical.Refusal)
  /-- A value that is no header. -/
  | header (refusal : BlockHeader.Refusal)

/-- The wording of a fault. -/
def Fault.message : Fault → String
  | .serialization reason => "serialization failed: " ++ reason
  | .canonicalization refusal => "canonicalization failed: " ++ refusal.message
  | .header refusal => refusal.message

/-- A fault of one of several records: what cannot be turned into a
value is told by its position. -/
def Fault.ofItem (position : Nat) : Fault → Fault
  | .serialization reason => .serialization ("item " ++ position.repr ++ ": " ++ reason)
  | fault => fault

/-- The value that a record stands for: a value stands for itself. -/
def structural (record : Value) : Except String Value := .ok record

/-- The hash of a record. -/
def recordHash (record : Value) : Except Fault Digest := do
  let value ← (structural record).mapError .serialization
  let bytes ← (Canonical.canonicalize value).mapError .canonicalization
  return Digest.ofMessage bytes

/-- The hash of each of some records, in order. -/
def batchHashes (records : List Value) : Except Fault (List Digest) :=
  records.zipIdx.mapM fun (record, position) => (recordHash record).mapError (.ofItem position)

/-- The root over some records. -/
def merkleRoot (records : List Value) : Except Fault Digest := do
  let leaves ← records.mapM recordHash
  return Merkle.root leaves

/-- The hash of a header. -/
def blockHash (header : BlockHeader) : Except Fault Digest := do
  (Canonical.checkNumber header.timestamp).mapError .canonicalization
  return header.hash

/-- The hash of the header that a value gives. -/
def blockHashOf (value : Value) : Except Fault Digest := do
  let header ← (BlockHeader.ofJson value).mapError .header
  blockHash header

end Hashing

end LedgerIntake
