import LedgerIntake.Proofs.Block
import LedgerIntake.Proofs.Digest
import LedgerIntake.Proofs.Outcome

/-!
# Spellings of headers

The numbers of a header may be spelled as integers, as binary numbers or as text, and the letters of
its digests in either case. An object describes a header if each field is spelled in one of these
ways; keys that are no fields do not matter. What is read of such an object is the header up to the
form of its timestamp, so every spelling of a header has the hash of the header. Nothing is rounded
on the way from a number to an index or a nonce: the number is taken in exactly if it is a natural
number below 2⁶⁴, and as that natural number.
-/

namespace LedgerIntake.BlockHeader

open Json

/-- A value spells a rational number: it is a number that equals it, or text that is
such a number between blanks. -/
inductive Spells : Value → ℚ → Prop where
  | number (number : Number) : Spells (.number number) number.exact
  | text (text : String) (number : Number)
    (read : Number.read? (Text.trim text.toList) = some number) :
    Spells (.text text) number.exact

/-- A value spells a digest: it is the digest's text, with its letters in either case. -/
def SpellsDigest (value : Value) (digest : Digest) : Prop :=
  ∃ text : String, value = .text text ∧ text.toList.map Char.toLower = digest.toText.toList

/-- The members of an object spell a header, field by field. -/
structure Describes (members : Members) (header : BlockHeader) : Prop where
  index : ∃ value, members.get? Field.index.name = some value ∧ Spells value header.index.toNat
  timestamp : ∃ value, members.get? Field.timestamp.name = some value ∧
    Spells value header.timestamp.exact
  previousHash : ∃ value, members.get? Field.previousHash.name = some value ∧
    SpellsDigest value header.previousHash
  merkleRoot : ∃ value, members.get? Field.merkleRoot.name = some value ∧
    SpellsDigest value header.merkleRoot
  nonce : ∃ value, members.get? Field.nonce.name = some value ∧ Spells value header.nonce.toNat

section Values

variable {value : Value}

/-- A number is taken in as a natural number exactly if it stands for that natural number,
be it an integer or a float. -/
theorem natural?_eq_some_iff {number : Number} {natural : UInt64} :
    natural? number = some natural ↔ number.exact = natural.toNat := by
  cases number with
  | natural value =>
    rw [natural?, Number.exact, Option.some.injEq, Nat.cast_inj, UInt64.toNat_inj]
  | negative below =>
    refine iff_of_false (fun taken => by cases taken) fun equal => ?_
    have positive : (0 : ℚ) ≤ natural.toNat := Nat.cast_nonneg _
    have negative : (0 : ℚ) ≤ below.val := Nat.cast_nonneg _
    rw [Number.exact] at equal
    linarith
  | float x finite =>
    have known : x.toInt? = some (natural.toNat : Int) ↔
      (Number.float x finite).exact = natural.toNat := by
      rw [← x.exact_eq_intCast_iff, Int.cast_natCast]
      rfl
    rw [← known, natural?]
    split
    · next integer equal =>
      have bounded := natural.toNat_lt_size
      rw [equal, Option.some.injEq]
      constructor
      · intro taken
        split at taken
        · next range =>
          have back : (UInt64.ofNat integer.toNat).toNat = integer.toNat := by
            rw [UInt64.toNat_ofNat']
            exact Nat.mod_eq_of_lt ((Int.toNat_lt range.1).mpr range.2)
          rw [← Option.some.inj taken, back, Int.toNat_of_nonneg range.1]
        · cases taken
      · rintro rfl
        rw [if_pos ⟨Int.natCast_nonneg _, Int.ofNat_lt.mpr bounded⟩, Int.toNat_natCast,
          UInt64.ofNat_toNat]
    · next missed =>
      rw [missed]
      exact iff_of_false (fun taken => by cases taken) fun taken => by cases taken

/-- A value spells the number that is read of it: a number stands for itself,
and a text for what it writes. -/
theorem spells_iff {exact : ℚ} :
    Spells value exact ↔ ∃ number, readNumber value = .ok number ∧ number.exact = exact := by
  constructor
  · rintro (number | ⟨text, number, read⟩)
    · exact ⟨number, rfl, rfl⟩
    · refine ⟨number, ?_, rfl⟩
      rw [readNumber, read]
  · rintro ⟨number, read, rfl⟩
    cases value with
    | number value =>
      cases read
      exact .number number
    | text value =>
      rw [readNumber] at read
      split at read
      · next found =>
        cases read
        exact .text value number found
      · cases read
    | _ => cases read

/-- A natural number is read of a value exactly if the value spells it, whether it is
written as an integer or not. -/
theorem readNatural_eq_ok_iff {natural : UInt64} :
    readNatural value = .ok natural ↔ Spells value natural.toNat := by
  rw [readNatural, bind_eq_ok_iff, spells_iff]
  refine exists_congr fun number => and_congr_right fun _ => ?_
  rw [← natural?_eq_some_iff]
  split
  · next taken =>
    rw [taken]
    exact ⟨fun same => congrArg some (Except.ok.inj same), fun same =>
      congrArg Except.ok (Option.some.inj same)⟩
  · next refused =>
    rw [refused]
    exact iff_of_false (fun taken => by cases taken) fun taken => by cases taken

/-- A digest is read of a value exactly if the value spells it, in letters of either case. -/
theorem readDigest_eq_ok_iff {digest : Digest} :
    readDigest value = .ok digest ↔ SpellsDigest value digest := by
  cases value with
  | text value =>
    have known : Digest.parse value = .ok digest ↔ _ := Digest.parse_eq_ok_iff
    rw [readDigest]
    constructor
    · intro read
      split at read
      · next parsed =>
        cases read
        exact ⟨value, rfl, known.mp parsed⟩
      · cases read
    · rintro ⟨_, equal, same⟩
      cases equal
      rw [known.mpr same]
  | _ => exact iff_of_false (fun read => by cases read) fun ⟨_, same, _⟩ => by cases same

end Values

section Objects

variable {members : Members} {header : BlockHeader}

/-- A field is read exactly if its key has a value that is. A missing key is told only after the
value of every other field was read. -/
theorem require_readMember_iff {α : Type} {field : Field} {read : Value → Except Refusal α}
    {result : α} :
    (∃ found, readMember members field read = .ok found ∧ require field found = .ok result) ↔
      ∃ value, members.get? field.name = some value ∧ read value = .ok result := by
  rw [readMember]
  cases present : members.get? field.name with
  | none =>
    refine iff_of_false ?_ fun ⟨_, nothing, _⟩ => by cases nothing
    rintro ⟨found, same, required⟩
    cases same
    cases required
  | some value =>
    constructor
    · rintro ⟨found, same, required⟩
      refine ⟨value, rfl, ?_⟩
      dsimp only at same
      cases taken : read value with
      | error cause =>
        rw [taken] at same
        cases same
      | ok other =>
        rw [taken] at same
        cases same
        cases required
        rfl
    · rintro ⟨_, same, taken⟩
      cases same
      dsimp only
      rw [taken]
      exact ⟨some result, rfl, rfl⟩

/-- A header is read of an object exactly if each of its fields is. Other keys play no part. -/
theorem ofMembers_eq_ok_iff : ofMembers members = .ok header ↔
    (∃ value, members.get? Field.index.name = some value ∧ readNatural value = .ok header.index) ∧
    (∃ value, members.get? Field.timestamp.name = some value ∧
      readNumber value = .ok header.timestamp) ∧
    (∃ value, members.get? Field.previousHash.name = some value ∧
      readDigest value = .ok header.previousHash) ∧
    (∃ value, members.get? Field.merkleRoot.name = some value ∧
      readDigest value = .ok header.merkleRoot) ∧
    ∃ value, members.get? Field.nonce.name = some value ∧ readNatural value = .ok header.nonce := by
  simp only [← require_readMember_iff]
  simp only [ofMembers, bind_eq_ok_iff]
  constructor
  · rintro ⟨index, first, root, second, nonce, third, previous,
      fourth, timestamp, fifth, _, first', _, fifth',
      _, fourth', _, second', _, third', same⟩
    cases same
    exact ⟨⟨_, first, first'⟩, ⟨_, fifth, fifth'⟩, ⟨_, fourth, fourth'⟩,
      ⟨_, second, second'⟩, ⟨_, third, third'⟩⟩
  · rintro ⟨⟨_, first, first'⟩, ⟨_, fifth, fifth'⟩, ⟨_, fourth, fourth'⟩,
      ⟨_, second, second'⟩, ⟨_, third, third'⟩⟩
    exact ⟨_, first, _, second, _, third, _, fourth, _, fifth,
      _, first', _, fifth', _, fourth', _, second', _, third',
      rfl⟩

/-- An object describes a header exactly if what is read of it is the header up
to the form of the timestamp. -/
theorem describes_iff : Describes members header ↔
    ∃ timestamp : Number, timestamp.exact = header.timestamp.exact ∧
      ofJson (.object members) = .ok { header with timestamp := timestamp } := by
  simp only [ofJson, ofMembers_eq_ok_iff, readNatural_eq_ok_iff, readDigest_eq_ok_iff]
  constructor
  · rintro ⟨index, ⟨value, found, spelled⟩, previous, root, nonce⟩
    obtain ⟨timestamp, read, same⟩ := spells_iff.mp spelled
    exact ⟨timestamp, same, index, ⟨value, found, read⟩, previous, root, nonce⟩
  · rintro ⟨timestamp, same, index, ⟨value, found, read⟩, previous, root, nonce⟩
    exact ⟨index, ⟨value, found, spells_iff.mpr ⟨timestamp, read, same⟩⟩, previous, root, nonce⟩

/-- Headers with one timestamp in different forms have one hash, so a header
need not remember the form. -/
theorem hash_timestamp {timestamp : Number} (same : timestamp.exact = header.timestamp.exact) :
    hash { header with timestamp := timestamp } = header.hash :=
  congrArg Digest.ofMessage (hashedBytes_eq_iff.mpr ⟨rfl, rfl, rfl, rfl, same⟩)

/-- Every object that describes a header has the hash of the header, and every object that has a
header describes it. A number is taken in for an index or a nonce exactly if it stands for a natural
number below 2⁶⁴, and as that one. Fields are read one by one under their keys, and a time enters
the hash by its exact value alone. -/
theorem hashOf_describes (members : Members) (header : BlockHeader) :
    (Describes members header → hashOf (.object members) = .ok header.hash) ∧
      (ofJson (.object members) = .ok header → Describes members header) ∧
      ∀ value number, readNumber value = .ok number → ∀ natural : UInt64,
        readNatural value = .ok natural ↔ number.exact = natural.toNat := by
  refine ⟨fun describes => ?_, fun read => ?_, fun value number read natural => ?_⟩
  · obtain ⟨timestamp, same, read⟩ := describes_iff.mp describes
    rw [hashOf, read, ← hash_timestamp same]
    rfl
  · exact describes_iff.mpr ⟨header.timestamp, rfl, read⟩
  · rw [readNatural_eq_ok_iff, spells_iff, read]
    constructor
    · rintro ⟨_, same, equal⟩
      cases same
      exact equal
    · exact fun equal => ⟨number, rfl, equal⟩

/-- An index as text between blanks, a nonce and a time as binary numbers, digests with letters of
both cases, and a key that is no field. -/
theorem hashOf_describes_mixed :
    let digest (byte : UInt8) : Digest := ⟨List.replicate 32 byte, List.length_replicate⟩
    let pairs (pair : String) : String := String.ofList (List.replicate 32 pair.toList).flatten
    let header : BlockHeader := ⟨7, .natural 1700000000, digest 0xab, digest 0xcd, 3⟩
    let members : Members :=
      [("height", .null), ("index", .text "\u00a07\n"), ("merkle_root", .text (pairs "Cd")),
        ("nonce", .number (.float ⟨0x4008000000000000⟩ (by decide))),
        ("previous_hash", .text (pairs "aB")),
        ("timestamp", .number (.float ⟨0x41d954fc40000000⟩ (by decide)))]
    Describes members header ∧ hashOf (.object members) = .ok header.hash := by
  intro digest pairs header members
  have integral (bits : UInt64) (finite : Binary64.isFinite ⟨bits⟩ = true) (natural : Nat)
      (equal : Binary64.toInt? ⟨bits⟩ = some (natural : Int)) :
      Spells (.number (.float ⟨bits⟩ finite)) natural := by
    have exact := (Binary64.exact_eq_intCast_iff _ _).mpr equal
    rw [Int.cast_natCast] at exact
    rw [← exact]
    exact .number (.float ⟨bits⟩ finite)
  have describes : Describes members header :=
    { index := ⟨_, rfl, .text _ (.natural 7) (by decide)⟩
      timestamp := ⟨_, rfl, integral _ (by decide) 1700000000 (by decide)⟩
      previousHash := ⟨_, rfl, pairs "aB", rfl, by decide⟩
      merkleRoot := ⟨_, rfl, pairs "Cd", rfl, by decide⟩
      nonce := ⟨_, rfl, integral _ (by decide) 3 (by decide)⟩ }
  exact ⟨describes, (hashOf_describes members header).1 describes⟩

end Objects

end LedgerIntake.BlockHeader
