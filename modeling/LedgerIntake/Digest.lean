import LedgerIntake.Text.Utf8
import LedgerIntake.Digest.Sha256

/-!
# Digests

A digest is 32 bytes. Its text is 64 lowercase hexadecimal digits; reading accepts both cases and
nothing else, so equal digests have equal texts whatever text they were read from.
-/

namespace LedgerIntake

/-- A hash of 32 bytes. -/
structure Digest where
  bytes : Bytes
  length_bytes : bytes.length = 32
deriving DecidableEq

/-- A text that is no digest, with its length in characters. -/
structure InvalidDigest where
  value : String
  length : Nat
deriving DecidableEq

/-- The wording of the refusal. -/
def InvalidDigest.message (refusal : InvalidDigest) : String :=
  "expected 64 hex characters, got '" ++ refusal.value ++ "' (" ++ refusal.length.repr ++ " chars)"

namespace Digest

/-- The SHA-256 digest of a byte string. -/
def ofMessage (message : Bytes) : Digest := ⟨Sha256.hash message, Sha256.length_hash message⟩

/-- The digest of the empty byte string, which stands for a batch without records. -/
def ofNothing : Digest := ofMessage []

/-- The digest of 32 bytes. -/
def ofBytes? (bytes : Bytes) : Option Digest :=
  if length : bytes.length = 32 then some ⟨bytes, length⟩ else none

/-- The digest in lowercase hexadecimal digits. -/
def toText (digest : Digest) : String := Bytes.toHex digest.bytes

/-- Reads 64 ASCII hexadecimal digits. Blanks, line ends and other digits are refused. -/
def parse (value : String) : Except InvalidDigest Digest :=
  match (Bytes.ofHex? value.toList).bind ofBytes? with
  | some digest => .ok digest
  | none => .error ⟨value, value.length⟩

end Digest

end LedgerIntake
