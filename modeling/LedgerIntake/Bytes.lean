/-!
# Byte strings

Wire formats, digests and frames are lists of bytes. This module holds the numbers of fixed width
that stand in them, in both byte orders, and their hexadecimal text. Writing a number that fits its
width and reading it back gives the number; the text of a byte string reads back as that string.
-/

namespace LedgerIntake

/-- A byte string, first byte first. -/
abbrev Bytes := List UInt8

namespace Bytes

/-- The `width` low bytes of a number, least significant first; higher bytes are dropped. -/
def littleEndian : (width : Nat) → (value : Nat) → Bytes
  | 0, _ => []
  | width + 1, value => UInt8.ofNat value :: littleEndian width (value / 256)

/-- The number that bytes denote when the least significant stands first. -/
def ofLittleEndian (bytes : Bytes) : Nat :=
  bytes.foldr (fun byte higher => byte.toNat + 256 * higher) 0

/-- The `width` low bytes of a number, most significant first. -/
def bigEndian (width value : Nat) : Bytes := (littleEndian width value).reverse

/-- The number that bytes denote when the most significant stands first. -/
def ofBigEndian (bytes : Bytes) : Nat := ofLittleEndian bytes.reverse

/-- A number takes the bytes of its width, whatever its size. -/
@[simp] theorem length_littleEndian (width value : Nat) :
    (littleEndian width value).length = width := by
  induction width generalizing value with
  | zero => rfl
  | succ width ih => simp [littleEndian, ih]

/-- A number takes the bytes of its width in either order. -/
@[simp] theorem length_bigEndian (width value : Nat) : (bigEndian width value).length = width := by
  simp [bigEndian]

/-- A number that has no bit past its width survives the trip through its bytes. -/
theorem ofLittleEndian_littleEndian (width value : Nat) (fits : value < 1 <<< (8 * width)) :
    ofLittleEndian (littleEndian width value) = value := by
  induction width generalizing value with
  | zero => simp only [Nat.mul_zero, Nat.shiftLeft_zero, Nat.lt_one_iff] at fits; simp [fits]; rfl
  | succ width ih =>
    have wider : 1 <<< (8 * (width + 1)) = 1 <<< (8 * width) * 256 := by
      rw [Nat.mul_add, Nat.shiftLeft_add, Nat.shiftLeft_eq (1 <<< (8 * width))]
    have quotient : value / 256 < 1 <<< (8 * width) := by
      rw [Nat.div_lt_iff_lt_mul (by decide), ← wider]; exact fits
    have rest := ih (value / 256) quotient
    simp only [ofLittleEndian] at rest
    simp only [littleEndian, ofLittleEndian, List.foldr_cons, rest, UInt8.toNat_ofNat']
    omega

/-- A number that fits its width is read back. The other order has this already, and both
hold the same bytes reversed. -/
theorem ofBigEndian_bigEndian (width value : Nat) (fits : value < 1 <<< (8 * width)) :
    ofBigEndian (bigEndian width value) = value := by
  simp [ofBigEndian, bigEndian, ofLittleEndian_littleEndian width value fits]

/-- Bytes are the little-endian bytes of the number that they denote, if
it is written with as many. -/
theorem littleEndian_ofLittleEndian (bytes : Bytes) :
    littleEndian bytes.length (ofLittleEndian bytes) = bytes := by
  induction bytes with
  | nil => rfl
  | cons byte rest ih =>
    have bounded : byte.toNat < 256 := byte.toNat_lt_size
    have higher : ofLittleEndian (byte :: rest) / 256 = ofLittleEndian rest := by
      simp only [ofLittleEndian, List.foldr_cons]
      omega
    have low : UInt8.ofNat (ofLittleEndian (byte :: rest)) = byte := by
      apply UInt8.toNat_inj.mp
      simp only [ofLittleEndian, List.foldr_cons, UInt8.toNat_ofNat']
      omega
    rw [List.length_cons, littleEndian, higher, low, ih]

/-- Bytes that are read as a number are written again as they were, so no two byte strings of one
length denote the same number. -/
theorem bigEndian_ofBigEndian (bytes : Bytes) :
    bigEndian bytes.length (ofBigEndian bytes) = bytes := by
  have same := littleEndian_ofLittleEndian bytes.reverse
  rw [List.length_reverse] at same
  rw [bigEndian, ofBigEndian, same, List.reverse_reverse]

/-- Bytes denote no number that has a bit past their width, so a length field is below 2³². -/
theorem ofLittleEndian_lt (bytes : Bytes) : ofLittleEndian bytes < 1 <<< (8 * bytes.length) := by
  induction bytes with
  | nil => decide
  | cons byte rest ih =>
    have bounded : byte.toNat < 256 := byte.toNat_lt_size
    have wider : 1 <<< (8 * (rest.length + 1)) = 1 <<< (8 * rest.length) * 256 := by
      rw [Nat.mul_add, Nat.shiftLeft_add, Nat.shiftLeft_eq (1 <<< (8 * rest.length))]
    have split : ofLittleEndian (byte :: rest) = byte.toNat + 256 * ofLittleEndian rest := rfl
    rw [List.length_cons, wider, split]
    omega

/-- A number that is read from bytes with the most significant one
first fits their width as well. -/
theorem ofBigEndian_lt (bytes : Bytes) : ofBigEndian bytes < 1 <<< (8 * bytes.length) := by
  have bounded := ofLittleEndian_lt bytes.reverse
  rwa [List.length_reverse] at bounded

/-- The lowercase hexadecimal digit of a number below sixteen. -/
def hexDigit (value : Nat) : Char :=
  if value < 10 then Char.ofNat (48 + value) else Char.ofNat (87 + value)

/-- The value of an ASCII hexadecimal digit of either case. -/
def hexValue? (digit : Char) : Option Nat :=
  if '0' ≤ digit && digit ≤ '9' then some (digit.toNat - 48)
  else if 'a' ≤ digit && digit ≤ 'f' then some (digit.toNat - 87)
  else if 'A' ≤ digit && digit ≤ 'F' then some (digit.toNat - 55)
  else none

/-- Two lowercase digits for each byte. -/
def toHex (bytes : Bytes) : String :=
  String.ofList (bytes.flatMap fun byte => [hexDigit (byte.toNat / 16), hexDigit (byte.toNat % 16)])

/-- Reads pairs of hexadecimal digits; a lone digit or any other character is refused. -/
def ofHex? (text : List Char) : Option Bytes := go [] text
where
  /-- Bytes read so far stand in reverse. -/
  go (read : Bytes) : List Char → Option Bytes
    | [] => some read.reverse
    | [_] => none
    | high :: low :: rest =>
      match hexValue? high, hexValue? low with
      | some high, some low => go (UInt8.ofNat (16 * high + low) :: read) rest
      | _, _ => none

/-- Only digits of values below sixteen are written, so no other character
stands in the text of a digest. -/
theorem exists_hexDigit_of_mem {bytes : Bytes} {char : Char} (written : char ∈ bytes.toHex.toList) :
    ∃ value < 16, char = hexDigit value := by
  rw [toHex, String.toList_ofList, List.mem_flatMap] at written
  obtain ⟨byte, -, digit⟩ := written
  have bounded := byte.toNat_lt_size
  simp only [UInt8.size] at bounded
  rw [List.mem_cons, List.mem_singleton] at digit
  obtain high | low := digit
  · exact ⟨byte.toNat / 16, by omega, high⟩
  · exact ⟨byte.toNat % 16, by omega, low⟩

/-- Each byte has two digits, so the length of a text tells that of its bytes. -/
theorem length_toHex (bytes : Bytes) : bytes.toHex.toList.length = 2 * bytes.length := by
  rw [toHex, String.toList_ofList]
  induction bytes with
  | nil => rfl
  | cons byte rest ih =>
    simp only [List.flatMap_cons, List.length_append, List.length_cons, List.length_nil, ih]
    omega

/-- A written digit has the value that it was written for, which is checked for all sixteen. -/
theorem hexValue?_hexDigit {value : Nat} (small : value < 16) :
    hexValue? (hexDigit value) = some value := by
  have all : ∀ digit : Fin 16, hexValue? (hexDigit digit.val) = some digit.val := by decide
  exact all ⟨value, small⟩

/-- Reading digits goes on from the bytes that were read before, which are kept backwards.
The induction is on the bytes. -/
theorem go_hexDigits (read bytes : Bytes) :
    ofHex?.go read
        (bytes.flatMap fun byte => [hexDigit (byte.toNat / 16), hexDigit (byte.toNat % 16)])
      = some (read.reverse ++ bytes) := by
  induction bytes generalizing read with
  | nil => simp [ofHex?.go]
  | cons byte rest ih =>
    have bounded := byte.toNat_lt_size
    simp only [UInt8.size] at bounded
    have high : hexValue? (hexDigit (byte.toNat / 16)) = some (byte.toNat / 16) :=
      hexValue?_hexDigit (by omega)
    have low : hexValue? (hexDigit (byte.toNat % 16)) = some (byte.toNat % 16) :=
      hexValue?_hexDigit (by omega)
    have whole : UInt8.ofNat (16 * (byte.toNat / 16) + byte.toNat % 16) = byte := by
      rw [Nat.div_add_mod, UInt8.ofNat_toNat]
    simp only [List.flatMap_cons, List.cons_append, List.nil_append, ofHex?.go, high, low, whole,
      ih, List.reverse_cons, List.append_assoc]

/-- The text of a byte string reads back as that string, so texts tell byte strings apart. -/
theorem ofHex?_toHex (bytes : Bytes) : ofHex? bytes.toHex.toList = some bytes := by
  simp only [ofHex?, toHex, String.toList_ofList, go_hexDigits, List.reverse_nil, List.nil_append]

end Bytes

end LedgerIntake
