import LedgerIntake.Bytes

/-!
# SHA-256

The hash of a byte string by the standard compression function over words of 32 bits. The padded
message is read in blocks of 64 bytes; each block is expanded to 64 words and folded into the eight
chaining words. The digest is 32 bytes long whatever the message.
-/

namespace LedgerIntake.Sha256

/-- The first 32 bits of the fractional parts of the cube roots of the first 64 primes. -/
def roundConstants : List UInt32 :=
  [0x428a2f98, 0x71374491, 0xb5c0fbcf, 0xe9b5dba5, 0x3956c25b, 0x59f111f1, 0x923f82a4, 0xab1c5ed5,
   0xd807aa98, 0x12835b01, 0x243185be, 0x550c7dc3, 0x72be5d74, 0x80deb1fe, 0x9bdc06a7, 0xc19bf174,
   0xe49b69c1, 0xefbe4786, 0x0fc19dc6, 0x240ca1cc, 0x2de92c6f, 0x4a7484aa, 0x5cb0a9dc, 0x76f988da,
   0x983e5152, 0xa831c66d, 0xb00327c8, 0xbf597fc7, 0xc6e00bf3, 0xd5a79147, 0x06ca6351, 0x14292967,
   0x27b70a85, 0x2e1b2138, 0x4d2c6dfc, 0x53380d13, 0x650a7354, 0x766a0abb, 0x81c2c92e, 0x92722c85,
   0xa2bfe8a1, 0xa81a664b, 0xc24b8b70, 0xc76c51a3, 0xd192e819, 0xd6990624, 0xf40e3585, 0x106aa070,
   0x19a4c116, 0x1e376c08, 0x2748774c, 0x34b0bcb5, 0x391c0cb3, 0x4ed8aa4a, 0x5b9cca4f, 0x682e6ff3,
   0x748f82ee, 0x78a5636f, 0x84c87814, 0x8cc70208, 0x90befffa, 0xa4506ceb, 0xbef9a3f7, 0xc67178f2]

/-- The eight chaining words. -/
structure Chaining where
  a : UInt32
  b : UInt32
  c : UInt32
  d : UInt32
  e : UInt32
  f : UInt32
  g : UInt32
  h : UInt32

/-- The first 32 bits of the fractional parts of the square roots of the first eight primes. -/
def Chaining.start : Chaining :=
  ⟨0x6a09e667, 0xbb67ae85, 0x3c6ef372, 0xa54ff53a, 0x510e527f, 0x9b05688c, 0x1f83d9ab, 0x5be0cd19⟩

/-- Bits shifted out on the right come back on the left. -/
def rotateRight (word amount : UInt32) : UInt32 := (word >>> amount) ||| (word <<< (32 - amount))

/-- Word `t` of a schedule from the words before it, of which the newest stands first. -/
def nextWord (words : List UInt32) : UInt32 :=
  let recent := words.getD 1 0
  let older := words.getD 14 0
  (rotateRight recent 17 ^^^ rotateRight recent 19 ^^^ (recent >>> 10)) + words.getD 6 0
    + (rotateRight older 7 ^^^ rotateRight older 18 ^^^ (older >>> 3)) + words.getD 15 0

/-- Adds words to a schedule whose newest word stands first. -/
def extend : (count : Nat) → (words : List UInt32) → List UInt32
  | 0, words => words
  | count + 1, words => extend count (nextWord words :: words)

/-- The big-endian words of a byte string whose length is a multiple of four. -/
def words : Bytes → List UInt32
  | a :: b :: c :: d :: rest =>
    ((a.toUInt32 <<< 24) ||| (b.toUInt32 <<< 16) ||| (c.toUInt32 <<< 8) ||| d.toUInt32)
      :: words rest
  | _ => []

/-- The 64 words of a block, oldest first. -/
def schedule (block : Bytes) : List UInt32 := (extend 48 (words block).reverse).reverse

/-- One round with a round constant and a word of the schedule. -/
def round (s : Chaining) (constant word : UInt32) : Chaining :=
  let t1 := s.h + (rotateRight s.e 6 ^^^ rotateRight s.e 11 ^^^ rotateRight s.e 25)
    + ((s.e &&& s.f) ^^^ (~~~s.e &&& s.g)) + constant + word
  let t2 := (rotateRight s.a 2 ^^^ rotateRight s.a 13 ^^^ rotateRight s.a 22)
    + ((s.a &&& s.b) ^^^ (s.a &&& s.c) ^^^ (s.b &&& s.c))
  ⟨t1 + t2, s.a, s.b, s.c, s.d + t1, s.e, s.f, s.g⟩

/-- All rounds of a block. -/
def rounds : Chaining → (constants words : List UInt32) → Chaining
  | s, constant :: constants, word :: words => rounds (round s constant word) constants words
  | s, _, _ => s

/-- Folds a block into the chaining words. -/
def compress (s : Chaining) (block : Bytes) : Chaining :=
  let t := rounds s roundConstants (schedule block)
  ⟨s.a + t.a, s.b + t.b, s.c + t.c, s.d + t.d, s.e + t.e, s.f + t.f, s.g + t.g, s.h + t.h⟩

/-- Folds a number of blocks. -/
def compressBlocks : (count : Nat) → Chaining → Bytes → Chaining
  | 0, s, _ => s
  | count + 1, s, message =>
    let (block, rest) := message.splitAt 64
    compressBlocks count (compress s block) rest

/-- A one bit, zeros up to eight bytes before a block's end, and the message's length in bits. -/
def padding (length : Nat) : Bytes :=
  0x80 :: (List.replicate ((119 - length % 64) % 64) 0 ++ Bytes.bigEndian 8 (8 * length))

/-- The 32 bytes of the chaining words. -/
def Chaining.toBytes (s : Chaining) : Bytes :=
  [s.a, s.b, s.c, s.d, s.e, s.f, s.g, s.h].flatMap fun word => Bytes.bigEndian 4 word.toNat

/-- The eight words of a chaining value make 32 bytes, which is the size of a digest. -/
theorem Chaining.length_toBytes (s : Chaining) : s.toBytes.length = 32 := by
  simp [Chaining.toBytes]

/-- The hash of a message. -/
def hash (message : Bytes) : Bytes :=
  let length := message.length
  let padded := message ++ padding length
  (compressBlocks (padded.length / 64) .start padded).toBytes

/-- A hash has 32 bytes, whatever was hashed. -/
@[simp] theorem length_hash (message : Bytes) : (hash message).length = 32 :=
  Chaining.length_toBytes _

end LedgerIntake.Sha256
