import Mathlib.Tactic.Ring
import LedgerIntake.Proofs.Text.Utf8

/-!
# Only the bytes of a text decode

Strict decoding accepts the bytes of a text and no others. The decoder is followed byte by byte: as
long as it has emitted no gap, the bytes read so far are those of the characters that it emitted and
the front of a pending one. What is known of a pending character is stated of its continuations:
whatever bits are due, as long as the next six lie in their range, some character has them, and its
bytes begin with those that were read. The range of the second byte is what makes this true, because
it shuts out surrogates and forms that are too long.
-/

namespace LedgerIntake.Utf8

section Characters

/-- A number that is not a surrogate and not too great is that of a character. -/
theorem exists_char (value : Nat) (scalar : value < 0xd800 ∨ 0xdfff < value ∧ value < 0x110000) :
    ∃ char : Char, char.toNat = value :=
  ⟨Char.ofNatAux value scalar, rfl⟩

/-- A byte that is a character on its own is the encoding of that character. -/
theorem utf8EncodeChar_of_lead {byte : UInt8} {char : Char} (led : lead byte = .scalar char) :
    String.utf8EncodeChar char = [byte] := by
  unfold lead at led
  split at led
  · next ascii =>
    cases led
    simp only [UInt8.lt_iff_toNat_lt, UInt8.reduceToNat] at ascii
    obtain ⟨char, scalar⟩ := exists_char byte.toNat (by omega)
    rw [← scalar, Char.ofNat_toNat]
    unfold String.utf8EncodeChar
    dsimp only
    rw [Char.toNat_val, scalar, if_pos (by omega), UInt8.ofNat_toNat]
  · repeat' split at led
    all_goals cases led

/-- A character of eleven bits takes two bytes, the last of which carries six bits. -/
theorem utf8EncodeChar_two {char : Char} {high low : Nat} (value : char.toNat = high * 64 + low)
    (least : 2 ≤ high) (greatest : high < 32) (small : low < 64) :
    String.utf8EncodeChar char = [UInt8.ofNat (high + 0xc0), UInt8.ofNat (low + 0x80)] := by
  unfold String.utf8EncodeChar
  dsimp only
  rw [Char.toNat_val, value, if_neg (by omega), if_pos (by omega)]
  have upper : (high * 64 + low) / 64 % 32 = high := by omega
  have lower : (high * 64 + low) % 64 = low := by omega
  rw [upper, lower]

/-- A character of sixteen bits takes three bytes, all but the first of which carry six bits. -/
theorem utf8EncodeChar_three {char : Char} {high middle low : Nat}
    (value : char.toNat = (high * 64 + middle) * 64 + low) (least : 32 ≤ high * 64 + middle)
    (greatest : high < 16)
    (inner : middle < 64) (small : low < 64) :
    String.utf8EncodeChar char
      = [UInt8.ofNat (high + 0xe0), UInt8.ofNat (middle + 0x80), UInt8.ofNat (low + 0x80)] := by
  unfold String.utf8EncodeChar
  dsimp only
  rw [Char.toNat_val, value, if_neg (by omega), if_neg (by omega), if_pos (by omega)]
  have upper : ((high * 64 + middle) * 64 + low) / 4096 % 16 = high := by omega
  have inside : ((high * 64 + middle) * 64 + low) / 64 % 64 = middle := by omega
  have lower : ((high * 64 + middle) * 64 + low) % 64 = low := by omega
  rw [upper, inside, lower]

/-- A character of more bits takes four bytes, all but the first of which carry six bits. -/
theorem utf8EncodeChar_four {char : Char} {high upper lower low : Nat}
    (value : char.toNat = ((high * 64 + upper) * 64 + lower) * 64 + low)
    (least : 16 ≤ high * 64 + upper)
    (greatest : high < 8) (inner : upper < 64) (inner' : lower < 64) (small : low < 64) :
    String.utf8EncodeChar char =
      [UInt8.ofNat (high + 0xf0), UInt8.ofNat (upper + 0x80), UInt8.ofNat (lower + 0x80),
        UInt8.ofNat (low + 0x80)] := by
  unfold String.utf8EncodeChar
  dsimp only
  rw [Char.toNat_val, value, if_neg (by omega), if_neg (by omega), if_neg (by omega)]
  have first : (((high * 64 + upper) * 64 + lower) * 64 + low) / 262144 % 8 = high := by omega
  have second : (((high * 64 + upper) * 64 + lower) * 64 + low) / 4096 % 64 = upper := by omega
  have third : (((high * 64 + upper) * 64 + lower) * 64 + low) / 64 % 64 = lower := by omega
  have fourth : (((high * 64 + upper) * 64 + lower) * 64 + low) % 64 = low := by omega
  rw [first, second, third, fourth]

end Characters

section Pending

/-- The bytes that carry the lower bits of a character, six bits each. -/
def carriers : (due bits : Nat) → Bytes
  | 0, _ => []
  | due + 1, bits => UInt8.ofNat (bits / 64 ^ due + 0x80) :: carriers due (bits % 64 ^ due)

/-- What was read of a character: whatever the bits that are due, some character has the
bits read so far in front of them, and its bytes are those read and those due. The next
byte has to lie in its range. -/
structure Pending.Begun (pending : Pending) (front : Bytes) (due : Nat) : Prop where
  missing : pending.missing = due + 1
  least : 0x80 ≤ pending.least.toNat
  greatest : pending.greatest.toNat ≤ 0xbf
  completes : ∀ next bits, pending.least.toNat ≤ next + 0x80 →
    next + 0x80 ≤ pending.greatest.toNat →
    bits < 64 ^ due → ∃ char : Char, char.toNat = (pending.value * 64 + next) * 64 ^ due + bits ∧
      String.utf8EncodeChar char = front ++ UInt8.ofNat (next + 0x80) :: carriers due bits

/-- The first of two bytes begins a character of eleven bits, whatever
the byte that is due carries. -/
theorem begun_two {high : Nat} (least : 2 ≤ high) (greatest : high < 32) :
    Pending.Begun ⟨high, 1, 0x80, 0xbf⟩ [UInt8.ofNat (high + 0xc0)] 0 := by
  refine ⟨rfl, Nat.le_refl _, Nat.le_refl _, ?_⟩
  intro next bits above below none
  simp only [UInt8.reduceToNat, Nat.pow_zero, Nat.lt_one_iff] at above below none
  subst none
  obtain ⟨char, scalar⟩ := exists_char (high * 64 + next) (by omega)
  refine ⟨char, by rw [scalar, Nat.pow_zero, Nat.mul_one]; rfl, ?_⟩
  exact utf8EncodeChar_two scalar least greatest (by omega)

/-- The first of three bytes begins a character of sixteen bits, and the range of the second one
shuts out shorter characters and surrogates. -/
theorem begun_three {high : Nat} (greatest : high < 16) :
    Pending.Begun ⟨high, 2, if high = 0 then 0xa0 else 0x80, if high = 13 then 0x9f else 0xbf⟩
      [UInt8.ofNat (high + 0xe0)] 1 := by
  refine ⟨rfl, by dsimp only; split <;> decide, by dsimp only; split <;> decide, ?_⟩
  intro next bits above below few
  dsimp only at above below
  have long : high = 0 → 32 ≤ next := by
    intro zero
    simp only [zero, if_true, UInt8.reduceToNat] at above
    omega
  have within : next < 64 ∧ (high = 13 → next < 32) := by
    by_cases surrogate : high = 13
    · simp only [surrogate, if_true, UInt8.reduceToNat] at below
      omega
    · simp only [surrogate, if_false, UInt8.reduceToNat] at below
      omega
  rw [Nat.pow_one] at few ⊢
  obtain ⟨char, scalar⟩ := exists_char ((high * 64 + next) * 64 + bits) (by omega)
  refine ⟨char, scalar, ?_⟩
  rw [utf8EncodeChar_three scalar (by omega) greatest within.1 few, carriers, Nat.pow_zero,
    Nat.div_one]
  rfl

/-- The first of four bytes begins any other character, and the range of the second one shuts out
shorter characters and values that are too great. -/
theorem begun_four {high : Nat} (greatest : high < 5) :
    Pending.Begun ⟨high, 3, if high = 0 then 0x90 else 0x80, if high = 4 then 0x8f else 0xbf⟩
      [UInt8.ofNat (high + 0xf0)] 2 := by
  refine ⟨rfl, by dsimp only; split <;> decide, by dsimp only; split <;> decide, ?_⟩
  intro next bits above below few
  dsimp only at above below
  have long : high = 0 → 16 ≤ next := by
    intro zero
    simp only [zero, if_true, UInt8.reduceToNat] at above
    omega
  have within : next < 64 ∧ (high = 4 → next < 16) := by
    by_cases last : high = 4
    · simp only [last, if_true, UInt8.reduceToNat] at below
      omega
    · simp only [last, if_false, UInt8.reduceToNat] at below
      omega
  obtain ⟨char, scalar⟩ :=
    exists_char (((high * 64 + next) * 64 + bits / 64) * 64 + bits % 64) (by omega)
  refine ⟨char, by rw [scalar]; dsimp only; omega, ?_⟩
  rw [utf8EncodeChar_four scalar (by omega) (by omega) within.1 (by omega) (by omega), carriers,
    carriers, Nat.pow_one, Nat.pow_zero, Nat.div_one]
  rfl

/-- The first byte of a longer character begins it, by the three lengths that
a longer character may have. -/
theorem begun_of_lead {byte : UInt8} {pending : Pending} (opened : lead byte = .opens pending) :
    ∃ due, pending.Begun [byte] due := by
  obtain ⟨value, rfl, bounded⟩ : ∃ value, byte = UInt8.ofNat value ∧ value < 256 :=
    ⟨byte.toNat, UInt8.ofNat_toNat.symm, byte.toNat_lt_size⟩
  have back : (UInt8.ofNat value).toNat = value := by
    rw [UInt8.toNat_ofNat']
    exact Nat.mod_eq_of_lt bounded
  by_cases short : value < 0xc2
  · simp only [lead, UInt8.lt_iff_toNat_lt, back, UInt8.reduceToNat, short, if_true] at opened
    split at opened <;> cases opened
  by_cases two : value < 0xe0
  · obtain ⟨high, rfl⟩ := Nat.exists_eq_add_of_le' (show 0xc0 ≤ value by omega)
    rw [lead_two high (by omega) (by omega)] at opened
    cases opened
    exact ⟨0, begun_two (by omega) (by omega)⟩
  by_cases three : value < 0xf0
  · obtain ⟨high, rfl⟩ := Nat.exists_eq_add_of_le' (show 0xe0 ≤ value by omega)
    rw [lead_three high (by omega)] at opened
    cases opened
    exact ⟨1, begun_three (by omega)⟩
  by_cases four : value < 0xf5
  · obtain ⟨high, rfl⟩ := Nat.exists_eq_add_of_le' (show 0xf0 ≤ value by omega)
    rw [lead_four high (by omega)] at opened
    cases opened
    exact ⟨2, begun_four (by omega)⟩
  · simp only [lead, UInt8.lt_iff_toNat_lt, back, UInt8.reduceToNat] at opened
    rw [if_neg (by omega), if_neg short, if_neg two, if_neg three, if_neg four] at opened
    cases opened

/-- A byte in range continues a character of which more bytes are due than that one. -/
theorem Pending.Begun.more {pending : Pending} {front : Bytes} {due : Nat} {byte : UInt8}
    (begun : pending.Begun front (due + 1)) (least : pending.least ≤ byte)
    (greatest : byte ≤ pending.greatest) :
    Pending.Begun ⟨pending.value * 64 + byte.toNat % 64, pending.missing - 1, 0x80, 0xbf⟩
    (front ++ [byte]) due := by
  rw [UInt8.le_iff_toNat_le] at least greatest
  have low := begun.least
  have high := begun.greatest
  have written : byte = UInt8.ofNat (byte.toNat % 64 + 0x80) := by
    have value : byte.toNat % 64 + 0x80 = byte.toNat := by omega
    rw [value, UInt8.ofNat_toNat]
  have carried : byte.toNat % 64 + 0x80 = byte.toNat := by omega
  refine ⟨by rw [begun.missing]; rfl, Nat.le_refl _, Nat.le_refl _, ?_⟩
  intro next bits least' greatest' few
  simp only [UInt8.reduceToNat] at least' greatest'
  have within : next * 64 ^ due + bits < 64 ^ (due + 1) := by
    have inside : next < 64 := by omega
    calc next * 64 ^ due + bits < next * 64 ^ due + 64 ^ due := Nat.add_lt_add_left few _
      _ = (next + 1) * 64 ^ due := by ring
      _ ≤ 64 * 64 ^ due := Nat.mul_le_mul_right _ inside
      _ = 64 ^ (due + 1) := by ring
  obtain ⟨char, scalar, bytes⟩ :=
    begun.completes (byte.toNat % 64) (next * 64 ^ due + bits) (by omega) (by omega) within
  have positive : 0 < 64 ^ due := Nat.pow_pos (by decide)
  have quotient : (next * 64 ^ due + bits) / 64 ^ due = next := by
    rw [Nat.mul_comm, Nat.mul_add_div positive, Nat.div_eq_of_lt few, Nat.add_zero]
  have remainder : (next * 64 ^ due + bits) % 64 ^ due = bits := by
    rw [Nat.mul_comm, Nat.mul_add_mod, Nat.mod_eq_of_lt few]
  refine ⟨char, ?_, ?_⟩
  · rw [scalar]
    dsimp only
    ring
  · rw [bytes, carriers, quotient, remainder, carried, UInt8.ofNat_toNat, List.append_assoc,
      List.singleton_append]

/-- The last byte of a character completes it: with no bits due, the one character in question is
that of the collected value. -/
theorem Pending.Begun.last {pending : Pending} {front : Bytes} {byte : UInt8}
    (begun : pending.Begun front 0)
    (least : pending.least ≤ byte) (greatest : byte ≤ pending.greatest) :
    String.utf8EncodeChar (Char.ofNat (pending.value * 64 + byte.toNat % 64))
      = front ++ [byte] := by
  rw [UInt8.le_iff_toNat_le] at least greatest
  have low := begun.least
  have high := begun.greatest
  have carried : byte.toNat % 64 + 0x80 = byte.toNat := by omega
  obtain ⟨char, scalar, bytes⟩ :=
    begun.completes (byte.toNat % 64) 0 (by omega) (by omega) Nat.one_pos
  rw [Nat.pow_zero, Nat.mul_one, Nat.add_zero] at scalar
  rw [← scalar, Char.ofNat_toNat, bytes, carried, UInt8.ofNat_toNat, carriers]

end Pending

section Reading

/-- A decoder without a gap has read the bytes of the characters that it
emitted, and what is pending. -/
def Decoder.Consumed (decoder : Decoder) (bytes : Bytes) : Prop :=
  ∀ chars : List Char, decoder.emitted = chars.reverse.map some →
    match decoder.pending with
    | none => bytes = chars.flatMap String.utf8EncodeChar
    | some pending =>
      ∃ front due, bytes = chars.flatMap String.utf8EncodeChar ++ front ∧ pending.Begun front due

/-- After a gap nothing is claimed of a decoder, as what it emitted is
not made of characters alone. -/
theorem Decoder.consumed_of_gap (byte : UInt8) (emitted : List (Option Char)) (bytes : Bytes) :
    (begin (none :: emitted) byte).Consumed bytes := by
  intro chars written
  have gap : none ∈ (begin (none :: emitted) byte).emitted := by
    unfold begin
    cases lead byte <;> simp
  rw [written] at gap
  simp at gap

/-- Characters that end in one that was just emitted are the earlier ones and that one. -/
theorem exists_concat {char : Char} {emitted : List (Option Char)} {chars : List Char}
    (written : some char :: emitted = chars.reverse.map some) :
    ∃ earlier, chars = earlier ++ [char] ∧ emitted = earlier.reverse.map some := by
  rcases List.eq_nil_or_concat chars with rfl | ⟨earlier, last, rfl⟩
  · cases written
  · rw [List.concat_eq_append] at written ⊢
    rw [List.reverse_append, List.reverse_singleton, List.singleton_append,
      List.map_cons] at written
    obtain ⟨same, others⟩ := List.cons.inj written
    exact ⟨earlier, by rw [Option.some.inj same], others⟩

/-- A byte at which a character begins is consumed: it is a character, it is
pending, or it is no character. -/
theorem Decoder.Consumed.begin {emitted : List (Option Char)} {bytes : Bytes}
    (consumed : Consumed ⟨none, emitted⟩ bytes) (byte : UInt8) :
    (Decoder.begin emitted byte).Consumed (bytes ++ [byte]) := by
  intro chars written
  unfold Decoder.begin at written ⊢
  cases led : lead byte with
  | scalar char =>
    rw [led] at written
    obtain ⟨earlier, rfl, others⟩ := exists_concat written
    dsimp only
    rw [List.flatMap_append, List.flatMap_singleton, utf8EncodeChar_of_lead led,
      consumed earlier others]
  | opens pending =>
    rw [led] at written
    obtain ⟨due, begun⟩ := begun_of_lead led
    exact ⟨[byte], due, by rw [consumed chars written], begun⟩
  | stray =>
    rw [led] at written
    have gap : none ∈ chars.reverse.map some := written ▸ List.mem_cons_self
    simp at gap

/-- Reading a byte keeps what was read: a byte in range carries the pending character on, and
any other byte leaves a gap. -/
theorem Decoder.Consumed.push {decoder : Decoder} {bytes : Bytes}
    (consumed : decoder.Consumed bytes) (byte : UInt8) :
    (decoder.push byte).Consumed (bytes ++ [byte]) := by
  obtain ⟨pending, emitted⟩ := decoder
  cases pending with
  | none => exact consumed.begin byte
  | some pending =>
    unfold Decoder.push
    dsimp only
    split
    · next inside =>
      rw [Bool.and_eq_true, decide_eq_true_eq, decide_eq_true_eq] at inside
      by_cases done : pending.missing ≤ 1
      · rw [if_pos done]
        intro chars written
        obtain ⟨earlier, rfl, others⟩ := exists_concat written
        obtain ⟨front, due, read, begun⟩ := consumed earlier others
        have none : due = 0 := by
          have missing := begun.missing
          omega
        subst none
        dsimp only
        rw [read, List.flatMap_append, List.flatMap_singleton, begun.last inside.1 inside.2,
          List.append_assoc]
      · rw [if_neg done]
        intro chars written
        obtain ⟨front, due, read, begun⟩ := consumed chars written
        have missing := begun.missing
        obtain ⟨less, rfl⟩ : ∃ less, due = less + 1 := ⟨due - 1, by omega⟩
        refine ⟨front ++ [byte], less, by rw [read, List.append_assoc],
          begun.more inside.1 inside.2⟩
    · exact consumed_of_gap byte emitted _

/-- A decoder that has read some bytes has read all later ones too, one after another. -/
theorem Decoder.Consumed.foldl {decoder : Decoder} {bytes : Bytes}
    (consumed : decoder.Consumed bytes)
    (later : Bytes) : (later.foldl Decoder.push decoder).Consumed (bytes ++ later) := by
  induction later generalizing decoder bytes with
  | nil =>
    rw [List.append_nil]
    exact consumed
  | cons byte rest inductionHypothesis =>
    have read := inductionHypothesis (consumed.push byte)
    rwa [List.append_assoc, List.singleton_append] at read

/-- Bytes without a gap are those of their characters, by the run of a decoder from its start. A
character that is still pending would be a gap. -/
theorem eq_encode_of_scan {bytes : Bytes} {chars : List Char}
    (scanned : scan bytes = chars.map some) :
    bytes = chars.flatMap String.utf8EncodeChar := by
  have start : Decoder.start.Consumed [] := by
    intro chars written
    have empty : chars = [] := by simpa using (List.map_eq_nil_iff.mp written.symm)
    rw [empty]
    rfl
  have read := start.foldl bytes
  rw [List.nil_append] at read
  rw [scan] at scanned
  generalize bytes.foldl Decoder.push .start = decoder at read scanned
  obtain ⟨pending, emitted⟩ := decoder
  cases pending with
  | none =>
    apply read chars
    rw [List.map_reverse, ← scanned]
    exact (List.reverse_reverse emitted).symm
  | some pending =>
    have gap : none ∈ chars.map some := by
      rw [← scanned, Decoder.finish, List.mem_reverse]
      exact List.mem_cons_self
    simp at gap

/-- Items that are all present are those that are found, in their order. -/
theorem eq_map_some_of_mapM {pieces : List (Option Char)} {chars : List Char}
    (complete : pieces.mapM id = some chars) :
    pieces = chars.map some := by
  induction pieces generalizing chars with
  | nil =>
    cases complete
    rfl
  | cons piece rest inductionHypothesis =>
    rw [List.mapM_cons] at complete
    cases piece with
    | none => cases complete
    | some char =>
      cases later : rest.mapM id with
      | none =>
        rw [later] at complete
        cases complete
      | some others =>
        rw [later] at complete
        cases complete
        rw [inductionHypothesis later, List.map_cons]

/-- Only the bytes of a text decode to it. So decoding is exact: it gives a text for its
encoding and for nothing else. -/
theorem decode?_eq_some_iff (bytes : Bytes) (text : String) :
    decode? bytes = some text ↔ bytes = encode text := by
  constructor
  · intro decoded
    obtain ⟨chars, complete, rfl⟩ := Option.map_eq_some_iff.mp decoded
    rw [encode_ofList]
    exact eq_encode_of_scan (eq_map_some_of_mapM complete)
  · rintro rfl
    exact decode?_encode text

end Reading

end LedgerIntake.Utf8
