import LedgerIntake.Bytes

/-!
# UTF-8

A decoder reads one byte at a time and emits, for each complete scalar value, that character, and
for each maximal run of bytes that begins a character but cannot continue it, one gap. Strict
decoding accepts a byte string without gaps; lenient decoding writes the replacement character into
each.
-/

namespace LedgerIntake.Utf8

/-- A character whose later bytes are still due: the bits read so far, the number of bytes missing,
and the range in which the next of them has to lie. -/
structure Pending where
  value : Nat
  missing : Nat
  least : UInt8
  greatest : UInt8

/-- What a byte means where no character is pending. -/
inductive Lead where
  | scalar (char : Char)
  | opens (pending : Pending)
  | stray

/-- The first bytes of well-formed characters. The range of the second byte shuts out overlong
forms, surrogates and values above U+10FFFF. -/
def lead (byte : UInt8) : Lead :=
  if byte < 0x80 then .scalar (Char.ofNat byte.toNat)
  else if byte < 0xc2 then .stray
  else if byte < 0xe0 then .opens ⟨byte.toNat - 0xc0, 1, 0x80, 0xbf⟩
  else if byte < 0xf0 then
    .opens ⟨byte.toNat - 0xe0, 2, if byte = 0xe0 then 0xa0 else 0x80,
      if byte = 0xed then 0x9f else 0xbf⟩
  else if byte < 0xf5 then
    .opens ⟨byte.toNat - 0xf0, 3, if byte = 0xf0 then 0x90 else 0x80,
      if byte = 0xf4 then 0x8f else 0xbf⟩
  else .stray

/-- The pending character, if any, and what was emitted, newest first; `none` is a gap. -/
structure Decoder where
  pending : Option Pending
  emitted : List (Option Char)

namespace Decoder

/-- Nothing pending, nothing emitted. -/
def start : Decoder := ⟨none, []⟩

/-- Reads a byte at which a character has to begin. -/
def begin (emitted : List (Option Char)) (byte : UInt8) : Decoder :=
  match lead byte with
  | .scalar char => ⟨none, some char :: emitted⟩
  | .opens pending => ⟨some pending, emitted⟩
  | .stray => ⟨none, none :: emitted⟩

/-- Reads one byte. A byte that cannot continue the pending character leaves one gap for it and is
then read as a first byte. -/
def push (decoder : Decoder) (byte : UInt8) : Decoder :=
  match decoder.pending with
  | none => begin decoder.emitted byte
  | some pending =>
    if pending.least ≤ byte && byte ≤ pending.greatest then
      let value := pending.value * 64 + byte.toNat % 64
      if pending.missing ≤ 1 then ⟨none, some (Char.ofNat value) :: decoder.emitted⟩
      else ⟨some ⟨value, pending.missing - 1, 0x80, 0xbf⟩, decoder.emitted⟩
    else begin (none :: decoder.emitted) byte

/-- Everything emitted in reading order; a character cut short by the end is a gap. -/
def finish (decoder : Decoder) : List (Option Char) :=
  match decoder.pending with
  | none => decoder.emitted.reverse
  | some _ => (none :: decoder.emitted).reverse

end Decoder

/-- The characters and gaps of a byte string. -/
def scan (bytes : Bytes) : List (Option Char) := (bytes.foldl Decoder.push .start).finish

/-- The text of a well-formed byte string. -/
def decode? (bytes : Bytes) : Option String := ((scan bytes).mapM id).map String.ofList

/-- The text of any byte string, with U+FFFD for each gap. -/
def decodeLossy (bytes : Bytes) : String :=
  String.ofList ((scan bytes).map fun piece => piece.getD (Char.ofNat 0xfffd))

/-- The bytes of a text. -/
def encode (text : String) : Bytes := text.toList.flatMap String.utf8EncodeChar

end LedgerIntake.Utf8
