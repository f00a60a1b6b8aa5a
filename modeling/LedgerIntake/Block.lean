import LedgerIntake.Canonical
import LedgerIntake.Text.Blank
import LedgerIntake.Text.Quoted

/-!
# Block headers

A header ties a batch to the block before it. Its hash covers its five fields, each behind its
length, so that no text can move from one field into the next, and all behind a tag that no other
hashed text begins with. A header may be given as an object or as an array of the fields; numbers
may stand as text.
-/

namespace LedgerIntake

open Json

/-- What a block hash covers. -/
structure BlockHeader where
  index : UInt64
  timestamp : Number
  previousHash : Digest
  merkleRoot : Digest
  nonce : UInt64
deriving DecidableEq

namespace BlockHeader

/-- The fields of a header. -/
inductive Field where
  | index
  | timestamp
  | previousHash
  | merkleRoot
  | nonce
deriving DecidableEq

/-- The key of a field. -/
def Field.name : Field → String
  | .index => "index"
  | .timestamp => "timestamp"
  | .previousHash => "previous_hash"
  | .merkleRoot => "merkle_root"
  | .nonce => "nonce"

/-- What stood in the place of a header or of a digest. -/
inductive Shape where
  | null
  | bool (value : Bool)
  | number (value : Number)
  | text (value : String)
  | sequence
  | map
deriving DecidableEq

/-- The shape of a value. -/
def Shape.of : Value → Shape
  | .null => .null
  | .bool value => .bool value
  | .number value => .number value
  | .text value => .text value
  | .array _ => .sequence
  | .object _ => .map

/-- Why a value is no header. -/
inductive Refusal where
  /-- Neither an object nor an array. -/
  | notHeader (found : Shape)
  /-- A digest that is no text. -/
  | notText (found : Shape)
  | digest (refusal : InvalidDigest)
  /-- A number that is neither a number nor a text. -/
  | notNumeric
  /-- A text that is no number. -/
  | notNumber (value : String)
  /-- A number that is no natural number below 2⁶⁴. -/
  | notNatural (value : Number)
  | missing (field : Field)
  | tooFew (count : Nat)
  | tooMany (count : Nat)
deriving DecidableEq

/-- The wording of a shape. -/
def Shape.wording : Shape → String
  | .null => "null"
  | .bool value => "boolean `" ++ (if value then "true" else "false") ++ "`"
  | .number (.float value finite) => "floating point `" ++ (Number.float value finite).text ++ "`"
  | .number value => "integer `" ++ value.text ++ "`"
  | .text value => "string " ++ Text.quote value
  | .sequence => "sequence"
  | .map => "map"

/-- The wording of a refusal. -/
def Refusal.message (refusal : Refusal) : String :=
  "invalid block header: " ++
    match refusal with
    | .notHeader found => "invalid type: " ++ found.wording ++ ", expected struct BlockHeader"
    | .notText found => "invalid type: " ++ found.wording ++ ", expected a string"
    | .digest refusal => refusal.message
    | .notNumeric => "data did not match any variant of untagged enum NumberOrString"
    | .notNumber value => "not a number: " ++ Text.quote value
    | .notNatural value => "expected a non-negative integer, got " ++ value.text
    | .missing field => "missing field `" ++ field.name ++ "`"
    | .tooFew count =>
      "invalid length " ++ count.repr ++ ", expected struct BlockHeader with 5 elements"
    | .tooMany count => "invalid length " ++ count.repr ++ ", expected fewer elements in array"

/-- Reads a number, or a text that is one between blanks. -/
def readNumber : Value → Except Refusal Number
  | .number value => .ok value
  | .text value =>
    match Number.read? (Text.trim value.toList) with
    | some number => .ok number
    | none => .error (.notNumber value)
  | _ => .error .notNumeric

/-- The natural number below 2⁶⁴ that a number equals. -/
def natural? : Number → Option UInt64
  | .natural value => some value
  | .negative _ => none
  | .float value _ =>
    match value.toInt? with
    | some integer =>
      if 0 ≤ integer ∧ integer < UInt64.size then some (UInt64.ofNat integer.toNat) else none
    | none => none

/-- Reads a number that equals a natural number below 2⁶⁴. -/
def readNatural (value : Value) : Except Refusal UInt64 := do
  let number ← readNumber value
  match natural? number with
  | some natural => return natural
  | none => .error (.notNatural number)

/-- Reads a digest. -/
def readDigest : Value → Except Refusal Digest
  | .text value =>
    match Digest.parse value with
    | .ok digest => .ok digest
    | .error refusal => .error (.digest refusal)
  | value => .error (.notText (.of value))

/-- Reads a member if it is present. -/
def readMember {α : Type} (members : Members) (field : Field) (read : Value → Except Refusal α) :
    Except Refusal (Option α) :=
  match members.get? field.name with
  | some value => (read value).map some
  | none => .ok none

/-- The value of a field that has to be present. -/
def require {α : Type} (field : Field) : Option α → Except Refusal α
  | some value => .ok value
  | none => .error (.missing field)

/-- Reads the members of an object: those that are present in the order of their keys, then the
first that is missing in the order of the fields. Other keys are ignored. -/
def ofMembers (members : Members) : Except Refusal BlockHeader := do
  let index ← readMember members .index readNatural
  let merkleRoot ← readMember members .merkleRoot readDigest
  let nonce ← readMember members .nonce readNatural
  let previousHash ← readMember members .previousHash readDigest
  let timestamp ← readMember members .timestamp readNumber
  let index ← require .index index
  let timestamp ← require .timestamp timestamp
  let previousHash ← require .previousHash previousHash
  let merkleRoot ← require .merkleRoot merkleRoot
  let nonce ← require .nonce nonce
  return ⟨index, timestamp, previousHash, merkleRoot, nonce⟩

/-- The first of the items that are left, and the items after it. -/
def nextItem (position : Nat) : List Value → Except Refusal (Value × List Value)
  | item :: rest => .ok (item, rest)
  | [] => .error (.tooFew position)

/-- Reads the items of an array in the order of the fields. -/
def ofItems (items : List Value) : Except Refusal BlockHeader := do
  let (item, rest) ← nextItem 0 items
  let index ← readNatural item
  let (item, rest) ← nextItem 1 rest
  let timestamp ← readNumber item
  let (item, rest) ← nextItem 2 rest
  let previousHash ← readDigest item
  let (item, rest) ← nextItem 3 rest
  let merkleRoot ← readDigest item
  let (item, rest) ← nextItem 4 rest
  let nonce ← readNatural item
  if rest.isEmpty then return ⟨index, timestamp, previousHash, merkleRoot, nonce⟩
  else .error (.tooMany items.length)

/-- Reads a header. -/
def ofJson : Value → Except Refusal BlockHeader
  | .object members => ofMembers members
  | .array items => ofItems items
  | value => .error (.notHeader (.of value))

/-- The header as an object, its fields in their own order. -/
def toText (header : BlockHeader) : String :=
  object
    [(Field.index.name, header.index.toNat.repr), (Field.timestamp.name, header.timestamp.text),
     (Field.previousHash.name, quoted header.previousHash.toText),
     (Field.merkleRoot.name, quoted header.merkleRoot.toText),
     (Field.nonce.name, header.nonce.toNat.repr)]

/-- What every hashed header begins with. -/
def domain : Bytes := Utf8.encode "tessera:block:v1" ++ [0]

/-- A text behind its length in bytes. -/
def hashedField (text : String) : Bytes :=
  Bytes.bigEndian 4 text.utf8ByteSize ++ Utf8.encode text

/-- The bytes that are hashed for a header. -/
def hashedBytes (header : BlockHeader) : Bytes :=
  domain ++ hashedField header.index.toNat.repr
    ++ hashedField (Canonical.plainNumberText header.timestamp)
    ++ hashedField header.previousHash.toText ++ hashedField header.merkleRoot.toText
    ++ hashedField header.nonce.toNat.repr

/-- The hash of a header. -/
def hash (header : BlockHeader) : Digest := Digest.ofMessage header.hashedBytes

/-- The hash of the header that a value gives. -/
def hashOf (value : Value) : Except Refusal Digest := (ofJson value).map hash

end BlockHeader

end LedgerIntake
