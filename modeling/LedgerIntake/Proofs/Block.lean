import LedgerIntake.Block
import LedgerIntake.Proofs.Canonical
import LedgerIntake.Proofs.Text.Size

/-!
# Headers and the bytes that are hashed for them

The bytes of a header are read from the front: behind the tag each field stands after its length, so
where one text ends and the next begins is settled before the text is looked at. A length of four
bytes tells the size of a text only if the text is short enough, which every text of a header is.
Each text then tells its field, and that of the timestamp tells the rational number that it stands
for.

No other hashed byte string is one of a header. Canonical bytes are JSON text, and no JSON text
begins with the tag; the message of a node has 64 bytes, and a header has more.
-/

namespace LedgerIntake

open Json
open Json.Number (Literal)

section Sizes

/-- A spelled literal has a few characters beside its digits: two signs, a point and a mark. -/
theorem Json.Number.Literal.length_spelling_le (literal : Literal) (mark : Char) (plus : List Char)
    {powers : Nat}
    (few : ∀ negative digits, literal.exponent = some (negative, digits) → digits.length ≤ powers) :
    (literal.spelling mark plus).length ≤ literal.digits.length + powers + plus.length + 4 := by
  have sign : (if literal.negative then ['-'] else []).length ≤ 1 := by split <;> simp
  have fraction : (fractionSpelling literal.fraction).length
    ≤ (literal.fraction.getD []).length + 1 := by
    cases literal.fraction <;> simp [fractionSpelling]
  have exponent : (exponentSpelling mark plus literal.exponent).length
    ≤ powers + plus.length + 2 := by
    cases written : literal.exponent with
    | none => simp [exponentSpelling]
    | some power =>
      obtain ⟨negative, digits⟩ := power
      have bounded := few negative digits written
      rw [exponentSpelling, List.length_cons, List.length_append]
      cases negative <;> simp <;> omega
  rw [spelling, Literal.digits, List.length_append, List.length_append, List.length_append,
    List.length_append]
  omega

/-- Writing in full adds at most as many zeros as the power of ten of the first digit tells. -/
theorem Json.Number.Literal.length_digits_full_le (negative : Bool) (digits : List Char)
    (leading : Int) :
    (Literal.full negative digits leading).digits.length ≤ digits.length + leading.natAbs + 2 := by
  unfold Literal.full
  split
  · simp only [Literal.digits, Option.getD_some, List.length_append, List.length_replicate,
      List.length_singleton]
    omega
  · split
    · simp only [Literal.digits, Option.getD_some, List.length_append, List.length_replicate,
        List.length_singleton]
      omega
    · simp only [Literal.digits, Option.getD_some, List.take_append_drop]
      omega

/-- A finite binary64 has few digits, and the first one a moderate power of ten. -/
theorem Binary64.figures_bounds {x : Binary64} (finite : x.isFinite = true) :
    (x.figures .even).length ≤ 18 ∧ (x.leading .even).natAbs ≤ 1075 := by
  by_cases zero : x.magnitude = 0
  · rw [figures, leading, if_pos zero, if_pos zero]
    decide
  · obtain ⟨leading_eq, few, least, most⟩ :=
      Json.Number.leading_bounds .even finite (Nat.pos_of_ne_zero zero)
    have present : 0 < (x.shortest .even).digits.length := Nat.length_toDigits_pos
    rw [figures, leading, if_neg zero, if_neg zero]
    omega

/-- The literal of a number has few digits, and few in its exponent: powers of
two reach down to 2⁻¹⁰⁷⁴ only. -/
theorem Json.Number.literal_bounds (number : Number) :
    (number.literal layout).digits.length ≤ 1095 ∧
    ∀ negative digits, (number.literal layout).exponent = some (negative, digits) →
      digits.length ≤ 4 := by
  have integers {value : Nat} (bounded : value < 10 ^ 20) : (Nat.toDigits 10 value).length ≤ 20 :=
    (Nat.length_toDigits_le_iff (by decide) (by decide)).mpr bounded
  cases number with
  | natural value =>
    have few := integers (Nat.lt_trans value.toNat_lt (by decide))
    refine ⟨?_, fun negative digits none => by cases none⟩
    simp only [literal, Literal.digits, Option.getD_none, List.append_nil]
    omega
  | negative below =>
    have few : (Nat.toDigits 10 (below.val + 1)).length ≤ 20 :=
      integers (Nat.lt_of_le_of_lt below.isLt (by decide))
    refine ⟨?_, fun negative digits none => by cases none⟩
    simp only [literal, Literal.digits, Option.getD_none, List.append_nil]
    omega
  | float x finite =>
    obtain ⟨few, moderate⟩ := Binary64.figures_bounds finite
    rw [literal, Layout.literal]
    split
    · constructor
      · have written :=
          Literal.length_digits_full_le x.isNegative (x.figures .even) (x.leading .even)
        show (Literal.full _ (x.figures .even) (x.leading .even)).digits.length ≤ 1095
        omega
      · intro negative digits some
        rw [Binary64.figures_eq, Decimal.digits, exponent_full] at some
        cases some
    · constructor
      · rw [Literal.digits_scientific]
        exact Nat.le_trans few (by decide)
      · intro negative digits some
        cases some
        exact (Nat.length_toDigits_le_iff (by decide) (by decide)).mpr
          (Nat.lt_of_le_of_lt moderate (by decide))

/-- The plain text of a number is short, as each of its characters is of ASCII. -/
theorem Json.Number.utf8ByteSize_text_le (number : Number) : number.text.utf8ByteSize ≤ 4416 := by
  obtain ⟨-, spelled⟩ := plain_writes.numeral number
  obtain ⟨digits, exponent⟩ := number.literal_bounds
  have written :
      number.text = String.ofList ((number.literal Number.layout).spelling 'e' ['+']) := by
    rw [← spelled, String.ofList_toList]
    rfl
  have length := (number.literal Number.layout).length_spelling_le 'e' ['+'] exponent
  have size := Text.utf8ByteSize_ofList_le ((number.literal Number.layout).spelling 'e' ['+'])
  rw [← written] at size
  rw [List.length_singleton] at length
  omega

end Sizes

namespace BlockHeader

section Fields

/-- A field in front tells its text and where it ends, if the text is
not too long for its length. -/
theorem hashedField_append_inj {text other : String} {rest rest' : Bytes}
    (fits : text.utf8ByteSize < 1 <<< 32)
    (fits' : other.utf8ByteSize < 1 <<< 32)
    (same : hashedField text ++ rest = hashedField other ++ rest') :
    text = other ∧ rest = rest' := by
  rw [hashedField, hashedField, List.append_assoc, List.append_assoc] at same
  obtain ⟨lengths, behind⟩ :=
    List.append_inj same (by rw [Bytes.length_bigEndian, Bytes.length_bigEndian])
  have sizes := congrArg Bytes.ofBigEndian lengths
  rw [Bytes.ofBigEndian_bigEndian 4 _ fits, Bytes.ofBigEndian_bigEndian 4 _ fits'] at sizes
  rw [← Utf8.length_encode, ← Utf8.length_encode] at sizes
  obtain ⟨texts, rests⟩ := List.append_inj behind sizes
  exact ⟨Utf8.encode_injective texts, rests⟩

/-- The digits of a number of 64 bits tell it, so equal texts of an index are equal indices. -/
theorem repr_injective {value other : UInt64} (same : value.toNat.repr = other.toNat.repr) :
    value = other := by
  rw [Nat.repr_eq_ofList_toDigits, Nat.repr_eq_ofList_toDigits] at same
  exact UInt64.toNat_inj.mp (toDigits_injective (String.ofList_injective same))

/-- The text of a digest tells it, since its bytes are read back from the digits. -/
theorem toText_injective {digest other : Digest} (same : digest.toText = other.toText) :
    digest = other := by
  have read := congrArg (fun text : String => Bytes.ofHex? text.toList) same
  rw [Digest.toText, Digest.toText, Bytes.ofHex?_toHex, Bytes.ofHex?_toHex] at read
  cases digest
  cases other
  cases Option.some.inj read
  rfl

/-- The text that is hashed for a number tells the rational number that it
stands for, and nothing else. -/
theorem plainNumberText_eq_iff (number other : Number) :
    Canonical.plainNumberText number = Canonical.plainNumberText other ↔
      number.exact = other.exact := by
  rw [← Canonical.settle_eq_settle_iff]
  constructor
  · exact Number.text_injective
  · exact congrArg Number.text

/-- Texts of numbers and digests are short enough for their length to be written. -/
theorem repr_fits (value : UInt64) : value.toNat.repr.utf8ByteSize < 1 <<< 32 :=
  Nat.lt_of_le_of_lt (Text.utf8ByteSize_repr_le _ value.toNat_lt) (by decide)

/-- The text of a number is far shorter than its length prefix could tell. -/
theorem plainNumberText_fits (number : Number) :
    (Canonical.plainNumberText number).utf8ByteSize < 1 <<< 32 :=
  Nat.lt_of_le_of_lt (Number.utf8ByteSize_text_le _) (by decide)

/-- A digest has 64 digits, two for each of its bytes. -/
theorem utf8ByteSize_toText (digest : Digest) : digest.toText.utf8ByteSize = 64 := by
  rw [Digest.toText, Text.utf8ByteSize_toHex, digest.length_bytes]

/-- The text of a digest is far shorter than its length prefix could tell. -/
theorem toText_fits (digest : Digest) : digest.toText.utf8ByteSize < 1 <<< 32 := by
  rw [utf8ByteSize_toText]
  decide

end Fields

section Headers

variable {header other : BlockHeader}

/-- The bytes of a header tell the text of each of its fields, one behind the other:
each has its length in front. -/
theorem texts_eq_of_hashedBytes (same : header.hashedBytes = other.hashedBytes) :
    header.index.toNat.repr = other.index.toNat.repr ∧
      Canonical.plainNumberText header.timestamp = Canonical.plainNumberText other.timestamp ∧
      header.previousHash.toText = other.previousHash.toText ∧
      header.merkleRoot.toText = other.merkleRoot.toText ∧
        header.nonce.toNat.repr = other.nonce.toNat.repr := by
  simp only [hashedBytes, List.append_assoc] at same
  have fields := List.append_cancel_left same
  obtain ⟨index, fields⟩ := hashedField_append_inj (repr_fits _) (repr_fits _) fields
  obtain ⟨timestamp, fields⟩ :=
    hashedField_append_inj (plainNumberText_fits _) (plainNumberText_fits _) fields
  obtain ⟨previous, fields⟩ := hashedField_append_inj (toText_fits _) (toText_fits _) fields
  obtain ⟨root, fields⟩ := hashedField_append_inj (toText_fits _) (toText_fits _) fields
  rw [← List.append_nil (hashedField _),
    ← List.append_nil (hashedField other.nonce.toNat.repr)] at fields
  obtain ⟨nonce, -⟩ := hashedField_append_inj (repr_fits _) (repr_fits _) fields
  exact ⟨index, timestamp, previous, root, nonce⟩

/-- Two headers have the same bytes exactly if they agree in each field, in the
timestamp as rational numbers. -/
theorem hashedBytes_eq_iff : header.hashedBytes = other.hashedBytes ↔
    header.index = other.index ∧ header.nonce = other.nonce ∧
      header.previousHash = other.previousHash ∧
      header.merkleRoot = other.merkleRoot ∧ header.timestamp.exact = other.timestamp.exact := by
  constructor
  · intro same
    obtain ⟨index, timestamp, previous, root, nonce⟩ := texts_eq_of_hashedBytes same
    exact ⟨repr_injective index, repr_injective nonce, toText_injective previous,
      toText_injective root,
      (plainNumberText_eq_iff _ _).mp timestamp⟩
  · rintro ⟨index, nonce, previous, root, timestamp⟩
    rw [hashedBytes, hashedBytes, index, nonce, previous, root,
      (plainNumberText_eq_iff _ _).mpr timestamp]

/-- No JSON text begins with the tag of headers, as no word of JSON begins
with its first two letters. -/
theorem read?_domain (rest : Bytes) : Source.read? (domain ++ rest) = none := by
  obtain ⟨behind, written⟩ : ∃ behind, domain ++ rest = 116 :: 101 :: behind := ⟨_, rfl⟩
  have first : Lexeme.next? (116 :: 101 :: behind) = none := rfl
  have nothing : Lexeme.scanFrom [] (116 :: 101 :: behind) = none := by
    rw [Lexeme.scanFrom, if_neg (by decide)]
    split
    · rfl
    · next found =>
      rw [first] at found
      cases found
  rw [Source.read?, written, Lexeme.scan, nothing]
  rfl

/-- The bytes of a header are more than those of two digests: the texts of its
digests alone are twice as long. -/
theorem length_hashedBytes (header : BlockHeader) : 64 < header.hashedBytes.length := by
  simp only [hashedBytes, hashedField, List.length_append, Bytes.length_bigEndian,
    Utf8.length_encode, utf8ByteSize_toText]
  omega

/-- The bytes of a header are those of no header that differs in a field, of no canonical text and
of no node. Every field is cut off by its length, the first bytes of all headers begin no JSON text,
and two digests are too short. -/
theorem hashedBytes_identify (header : BlockHeader) :
    (∀ other : BlockHeader, header.hashedBytes = other.hashedBytes ↔
        header.index = other.index ∧ header.nonce = other.nonce ∧
          header.previousHash = other.previousHash ∧
          header.merkleRoot = other.merkleRoot ∧ header.timestamp.exact = other.timestamp.exact) ∧
      (∀ value : Value, header.hashedBytes ≠ Canonical.bytes value) ∧
      ∀ left right : Digest, header.hashedBytes ≠ left.bytes ++ right.bytes := by
  refine ⟨fun other => hashedBytes_eq_iff, ?_, ?_⟩
  · intro value same
    have read := Canonical.read?_bytes value
    rw [← same] at read
    simp only [hashedBytes, List.append_assoc, read?_domain] at read
    cases read
  · intro left right same
    have long := length_hashedBytes header
    rw [same, List.length_append, left.length_bytes, right.length_bytes] at long
    exact Nat.lt_irrefl 64 long

end Headers

end BlockHeader

end LedgerIntake
