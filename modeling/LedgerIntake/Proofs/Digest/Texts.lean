import LedgerIntake.Proofs.Digest

/-!
# Texts and digests stand for each other

A text is a digest exactly if it is 64 ASCII digits of base sixteen, from its first character to its
last. The text of a digest is then the small letters of what was read, it decodes to the bytes of
the digest, and every 32 bytes are the bytes of one digest. So decoding the text of a digest never
fails, and two texts name one digest exactly if they decode to the same bytes.
-/

namespace LedgerIntake

namespace Bytes

/-- An ASCII digit of base sixteen, in either case. -/
def IsDigit (char : Char) : Prop :=
  ('0' ≤ char ∧ char ≤ '9') ∨ ('a' ≤ char ∧ char ≤ 'f') ∨ ('A' ≤ char ∧ char ≤ 'F')

/-- Digits are the characters that have a value, in either case and nothing beside them. -/
theorem exists_hexValue?_iff {char : Char} : (∃ value, hexValue? char = some value) ↔
    IsDigit char := by
  simp only [hexValue?, IsDigit, Bool.and_eq_true, decide_eq_true_eq]
  constructor
  · rintro ⟨value, read⟩
    split at read
    · next decimal => exact .inl decimal
    · split at read
      · next small => exact .inr (.inl small)
      · split at read
        · next capital => exact .inr (.inr capital)
        · cases read
  · intro digit
    split
    · exact ⟨_, rfl⟩
    · next decimal =>
      split
      · exact ⟨_, rfl⟩
      · next small =>
        have capital := (digit.resolve_left decimal).resolve_left small
        rw [if_pos capital]
        exact ⟨_, rfl⟩

/-- Pairs of digits are read to their end, whatever was read before. The
induction follows the reading. -/
theorem exists_go (read : Bytes) {text : List Char} (paired : text.length % 2 = 0)
    (digits : ∀ char ∈ text, IsDigit char) : ∃ bytes, ofHex?.go read text = some bytes := by
  fun_induction ofHex?.go read text with
  | case1 read => exact ⟨_, rfl⟩
  | case2 read single => cases paired
  | case3 read high low rest first second found found' inductionHypothesis =>
    rw [List.length_cons, List.length_cons] at paired
    exact inductionHypothesis (by omega) fun char member => digits char (.tail _ (.tail _ member))
  | case4 read high low rest missed =>
    obtain ⟨first, found⟩ := exists_hexValue?_iff.mpr (digits high (.head _))
    obtain ⟨second, found'⟩ := exists_hexValue?_iff.mpr (digits low (.tail _ (.head _)))
    exact absurd found' (missed first second found)

/-- A text is read as so many bytes exactly if it is twice as many digits. -/
theorem exists_ofHex?_iff {text : List Char} {count : Nat} :
    (∃ bytes, ofHex? text = some bytes ∧ bytes.length = count) ↔
      text.length = 2 * count ∧ ∀ char ∈ text, IsDigit char := by
  have length {bytes : Bytes} (read : ofHex? text = some bytes) :
      text.length = 2 * bytes.length := by
    rw [← length_toHex, ← ofHex?_eq_some_iff.mp read, List.length_map]
  constructor
  · rintro ⟨bytes, read, rfl⟩
    refine ⟨length read, fun char member => ?_⟩
    have written : char.toLower ∈ bytes.toHex.toList := by
      rw [← ofHex?_eq_some_iff.mp read]
      exact List.mem_map_of_mem member
    obtain ⟨value, small, digit⟩ := exists_hexDigit_of_mem written
    exact exists_hexValue?_iff.mp ⟨value, hexValue?_eq_some_iff.mpr ⟨small, digit⟩⟩
  · rintro ⟨twice, digits⟩
    obtain ⟨bytes, read⟩ := exists_go [] (show text.length % 2 = 0 by omega) digits
    have same := length read
    exact ⟨bytes, read, by omega⟩

end Bytes

namespace Digest

/-- What the pattern of a digest asks for: 64 digits and nothing around them. -/
def Spelled (text : String) : Prop := text.length = 64 ∧ ∀ char ∈ text.toList, Bytes.IsDigit char

/-- The 32 bytes that stand in a text digit by digit. -/
def decode? (text : String) : Option Bytes :=
  (Bytes.ofHex? text.toList).filter fun bytes => bytes.length = 32

variable {text : String} {digest : Digest} {bytes : Bytes}

/-- Text is decoded to bytes exactly if its digits are those of the
bytes and there are 32 of them. -/
theorem decode?_eq_some_iff :
    decode? text = some bytes ↔ Bytes.ofHex? text.toList = some bytes ∧ bytes.length = 32 := by
  rw [decode?, Option.filter_eq_some_iff, decide_eq_true_iff]

/-- Bytes make a digest exactly if they are its bytes, that is, if there are 32 of them. -/
theorem ofBytes?_eq_some_iff : ofBytes? bytes = some digest ↔ bytes = digest.bytes := by
  rw [ofBytes?]
  constructor
  · intro formed
    split at formed
    · cases formed
      rfl
    · cases formed
  · rintro rfl
    rw [dif_pos digest.length_bytes]

/-- Reading a digest is decoding its bytes, so all that follows is about decoding. -/
theorem parse_eq_ok_iff_decode? : parse text = .ok digest ↔ decode? text = some digest.bytes := by
  rw [parse_eq_ok_iff, decode?_eq_some_iff, toText, Bytes.ofHex?_eq_some_iff,
    and_iff_left digest.length_bytes]

/-- The text of a digest holds the bytes of the digest, in small letters. -/
theorem decode?_toText (digest : Digest) : decode? digest.toText = some digest.bytes :=
  decode?_eq_some_iff.mpr ⟨Bytes.ofHex?_toHex digest.bytes, digest.length_bytes⟩

/-- Bytes stand in a text exactly if the text is 64 digits. -/
theorem exists_decode?_iff : (∃ bytes, decode? text = some bytes) ↔ Spelled text := by
  simp only [decode?_eq_some_iff, Bytes.exists_ofHex?_iff, Spelled, String.length_toList]

/-- Whatever bytes stand in a text are those of a digest, as decoding asks for 32. -/
theorem exists_bytes_eq (decoded : decode? text = some bytes) :
    ∃ digest : Digest, digest.bytes = bytes :=
  ⟨⟨bytes, (decode?_eq_some_iff.mp decoded).2⟩, rfl⟩

/-- Text is parsed to some digest exactly if it is spelled like one, in letters of either case. -/
theorem exists_parse_iff : (∃ digest, parse text = .ok digest) ↔ Spelled text := by
  rw [← exists_decode?_iff]
  simp only [parse_eq_ok_iff_decode?]
  constructor
  · rintro ⟨digest, decoded⟩
    exact ⟨_, decoded⟩
  · rintro ⟨bytes, decoded⟩
    obtain ⟨digest, rfl⟩ := exists_bytes_eq decoded
    exact ⟨digest, decoded⟩

/-- The text of what was read is what was read, in small letters. So reading
forgets nothing but the case. -/
theorem toText_of_parse (read : parse text = .ok digest) : digest.toText = text.toLower := by
  have small : text.toLower.toList = text.toList.map Char.toLower := String.toList_map
  rw [← String.toList_inj, small]
  exact (parse_eq_ok_iff.mp read).symm

/-- A refusal tells the text and its length in characters, not in bytes. -/
theorem parse_of_not_spelled (other : ¬Spelled text) : parse text = .error ⟨text, text.length⟩ := by
  have unread := mt exists_parse_iff.mp other
  rw [parse] at unread ⊢
  split
  · next digest formed => exact absurd ⟨digest, by rw [formed]⟩ unread
  · rfl

/-- The text of a digest is parsed to that digest, so no digest is lost in its text. -/
theorem parse_toText (digest : Digest) : parse digest.toText = .ok digest :=
  parse_eq_ok_iff_decode?.mpr (decode?_toText digest)

/-- Two texts are one digest exactly if the same 32 bytes stand in
both, whatever letters they use. -/
theorem same_iff {other : String} :
    (∃ digest, parse text = .ok digest ∧ parse other = .ok digest) ↔
      ∃ bytes, decode? text = some bytes ∧ decode? other = some bytes := by
  simp only [parse_eq_ok_iff_decode?]
  constructor
  · rintro ⟨digest, both⟩
    exact ⟨_, both⟩
  · rintro ⟨bytes, decoded, decoded'⟩
    obtain ⟨digest, rfl⟩ := exists_bytes_eq decoded
    exact ⟨digest, decoded, decoded'⟩

/-- The texts that digests have are those that are read and have no capital letter. -/
theorem exists_toText_iff : (∃ digest : Digest, digest.toText = text) ↔
    Spelled text ∧ text.toLower = text := by
  constructor
  · rintro ⟨digest, rfl⟩
    exact ⟨exists_parse_iff.mp ⟨digest, parse_toText digest⟩,
      (toText_of_parse (parse_toText digest)).symm⟩
  · rintro ⟨spelled, small⟩
    obtain ⟨digest, read⟩ := exists_parse_iff.mpr spelled
    exact ⟨digest, (toText_of_parse read).trans small⟩

/-- Digests, the texts that are read as digests and strings of 32 bytes stand for each other. -/
structure Faithful : Prop where
  /-- A text is read exactly if it is 64 digits and nothing else. -/
  accepted (text : String) : (∃ digest, parse text = .ok digest) ↔ Spelled text
  /-- Any other text is refused, with the text and the number of its characters. -/
  refused (text : String) : ¬Spelled text → parse text = .error ⟨text, text.length⟩
  /-- A digest that is read has the text in small letters. -/
  lowered (text : String) (digest : Digest) : parse text = .ok digest → digest.toText = text.toLower
  /-- The texts of digests are the readable ones without capital letters. -/
  written (text : String) : (∃ digest : Digest, digest.toText = text) ↔
    Spelled text ∧ text.toLower = text
  /-- The text of a digest is read as the digest. -/
  reread (digest : Digest) : parse digest.toText = .ok digest
  /-- Any 32 bytes are those of a digest, and its text decodes to them. -/
  packed (bytes : Bytes) : bytes.length = 32 →
    ∃ digest, ofBytes? bytes = some digest ∧ decode? digest.toText = some bytes
  /-- The text of any digest decodes, and to bytes that are those of this digest. -/
  unpacked (digest : Digest) : ∃ bytes, decode? digest.toText = some bytes ∧
    ofBytes? bytes = some digest
  /-- Two texts are one digest exactly if they decode to the same 32 bytes. -/
  same (text other : String) :
    (∃ digest, parse text = .ok digest ∧ parse other = .ok digest) ↔
      ∃ bytes, decode? text = some bytes ∧ decode? other = some bytes

/-- Texts of digests are faithful. Every part comes down to the 32 bytes that a text decodes to, so
all of it rests on the reading of hexadecimal digits. -/
theorem texts_faithful : Faithful where
  accepted _ := exists_parse_iff
  refused _ := parse_of_not_spelled
  lowered _ _ := toText_of_parse
  written _ := exists_toText_iff
  reread := parse_toText
  packed bytes length :=
    ⟨⟨bytes, length⟩, ofBytes?_eq_some_iff.mpr rfl, decode?_toText ⟨bytes, length⟩⟩
  unpacked digest := ⟨digest.bytes, decode?_toText digest, ofBytes?_eq_some_iff.mpr rfl⟩
  same _ _ := same_iff

end Digest

end LedgerIntake
