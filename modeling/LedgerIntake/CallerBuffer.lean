import LedgerIntake.Hashing
import LedgerIntake.Json.Reader
import LedgerIntake.Record

/-!
# Calls through buffers

Callers without values of their own pass JSON text that ends at its first zero byte, and a buffer
for the answer. A call gives a status, and the buffer as it is afterwards: the answer and a zero
byte in front of the old contents on success, the old contents alone otherwise.
-/

namespace LedgerIntake.CallerBuffer

open Json

/-- What can be asked for. -/
inductive Request where
  | merkleRoot
  | blockHash
  | batchHashes
deriving DecidableEq

/-- Why a call has no answer. -/
inductive Failure where
  /-- A buffer that is needed was not given. -/
  | noBuffer
  | notUtf8
  /-- The text is not JSON of the shape that is asked for. -/
  | wrongShape
  /-- The answer and its zero byte do not fit. -/
  | tooSmall
  /-- Anything else. -/
  | internal
deriving DecidableEq

/-- The status of a call without an answer. -/
def Failure.status : Failure → Int
  | .noBuffer => -1
  | .notUtf8 => -2
  | .wrongShape => -3
  | .tooSmall => -4
  | .internal => -5

/-- How a fault of hashing is told: the caller is to blame for a header that is
none, and for nothing else. -/
def Failure.ofFault : Hashing.Fault → Failure
  | .header _ => .wrongShape
  | .serialization _ | .canonicalization _ => .internal

/-- The status of a call, and the caller's buffer after it. -/
structure Outcome where
  status : Int
  buffer : Option Bytes
deriving DecidableEq

/-- The text in front of the first zero byte of the caller's memory. -/
def readText (memory : Option Bytes) : Except Failure String :=
  match memory with
  | none => .error .noBuffer
  | some memory =>
    match Utf8.decode? (memory.takeWhile fun byte => byte ≠ 0) with
    | some text => .ok text
    | none => .error .notUtf8

/-- The value in the caller's memory. -/
def readValue (memory : Option Bytes) : Except Failure Value := do
  let text ← readText memory
  match read? text with
  | some value => return value
  | none => .error .wrongShape

/-- The array in the caller's memory. -/
def readArray (memory : Option Bytes) : Except Failure (List Value) := do
  let value ← readValue memory
  match value.array? with
  | some items => return items
  | none => .error .wrongShape

/-- Writes an answer and a zero byte over the front of a buffer. -/
def writeText (text : String) (buffer : Option Bytes) : Except Failure Bytes :=
  match buffer with
  | none => .error .noBuffer
  | some buffer =>
    let bytes := Utf8.encode text
    if buffer.length ≤ bytes.length then .error .tooSmall
    else .ok (bytes ++ 0 :: buffer.drop (bytes.length + 1))

/-- The text of an answer. -/
def answer (request : Request) (memory : Option Bytes) : Except Failure String :=
  match request with
  | .merkleRoot => do
    let records ← readArray memory
    let root ← (Hashing.merkleRoot records).mapError .ofFault
    return root.toText
  | .blockHash => do
    let value ← readValue memory
    let digest ← (Hashing.blockHashOf value).mapError .ofFault
    return digest.toText
  | .batchHashes => do
    let records ← readArray memory
    let digests ← (Hashing.batchHashes records).mapError .ofFault
    let texts := Value.array (digests.map fun digest => .text digest.toText)
    (texts.print .plain).mapError fun _ => .internal

/-- The outcome of writing a text that could be computed. -/
def deliver (text : Except Failure String) (buffer : Option Bytes) : Outcome :=
  match text.bind (writeText · buffer) with
  | .ok written => ⟨0, some written⟩
  | .error failure => ⟨failure.status, buffer⟩

/-- Asks for a text. -/
def call (request : Request) (memory buffer : Option Bytes) : Outcome :=
  deliver (answer request memory) buffer

/-- Asks whether every record of an array carries the required fields: 1 if so, 0 if not. -/
def validate (memory : Option Bytes) : Int :=
  match readArray memory with
  | .ok records => if Record.allPresent records then 1 else 0
  | .error failure => failure.status

/-- The version of these calls. -/
def versionText : String := "0.1.0"

/-- Asks for the version. -/
def version (buffer : Option Bytes) : Outcome := deliver (.ok versionText) buffer

end LedgerIntake.CallerBuffer
