import LedgerIntake.Text.Utf8

/-!
# Decoding what was encoded

The decoder emits exactly the characters of a text when it reads the text's bytes, and it is between
two characters after each of them. So strict decoding undoes encoding. The bytes of a text are
composed like the text itself, which gives its size as well.
-/

namespace LedgerIntake.Utf8

/-- Joined texts are encoded one after the other. -/
@[simp] theorem encode_append (front back : String) :
    encode (front ++ back) = encode front ++ encode back := by
  simp only [encode, String.toList_append, List.flatMap_append]

/-- A text is encoded character by character, so encoding distributes over joined texts. -/
theorem encode_ofList (chars : List Char) :
    encode (String.ofList chars) = chars.flatMap String.utf8EncodeChar := by
  rw [encode, String.toList_ofList]

/-- A text has as many bytes as its size tells. -/
@[simp] theorem length_encode (text : String) : (encode text).length = text.utf8ByteSize := by
  rw [← String.size_toByteArray, ← String.utf8Encode_toList, List.utf8Encode, List.size_toByteArray,
    encode]

/-- The first byte of a character of two bytes opens one that misses a single byte of any value. -/
theorem lead_two (high : Nat) (least : 2 ≤ high) (greatest : high < 32) :
    lead (UInt8.ofNat (high + 0xc0)) = .opens ⟨high, 1, 0x80, 0xbf⟩ := by
  have value : (UInt8.ofNat (high + 0xc0)).toNat = high + 0xc0 := by
    rw [UInt8.toNat_ofNat']
    omega
  simp only [lead, UInt8.lt_iff_toNat_lt, value, UInt8.reduceToNat, Nat.add_sub_cancel]
  rw [if_neg (by omega), if_neg (by omega), if_pos (by omega)]

/-- The first byte of a character of three bytes, which limits the
second at both ends of its range. -/
theorem lead_three (high : Nat) (greatest : high < 16) :
    lead (UInt8.ofNat (high + 0xe0)) =
      .opens ⟨high, 2, if high = 0 then 0xa0 else 0x80, if high = 13 then 0x9f else 0xbf⟩ := by
  have value : (UInt8.ofNat (high + 0xe0)).toNat = high + 0xe0 := by
    rw [UInt8.toNat_ofNat']
    omega
  have first : UInt8.ofNat (high + 0xe0) = 0xe0 ↔ high = 0 := by
    rw [← UInt8.toNat_inj, value]
    simp
  have surrogate : UInt8.ofNat (high + 0xe0) = 0xed ↔ high = 13 := by
    rw [← UInt8.toNat_inj, value]
    simp
  simp only [lead, UInt8.lt_iff_toNat_lt, value, first, surrogate, UInt8.reduceToNat,
    Nat.add_sub_cancel]
  rw [if_neg (by omega), if_neg (by omega), if_neg (by omega), if_pos (by omega)]

/-- The first byte of a character of four bytes opens one that misses three. The range of the second
is narrower at both ends of what can be encoded. -/
theorem lead_four (high : Nat) (greatest : high < 5) :
    lead (UInt8.ofNat (high + 0xf0)) =
      .opens ⟨high, 3, if high = 0 then 0x90 else 0x80, if high = 4 then 0x8f else 0xbf⟩ := by
  have value : (UInt8.ofNat (high + 0xf0)).toNat = high + 0xf0 := by
    rw [UInt8.toNat_ofNat']
    omega
  have first : UInt8.ofNat (high + 0xf0) = 0xf0 ↔ high = 0 := by
    rw [← UInt8.toNat_inj, value]
    simp
  have last : UInt8.ofNat (high + 0xf0) = 0xf4 ↔ high = 4 := by
    rw [← UInt8.toNat_inj, value]
    simp
  simp only [lead, UInt8.lt_iff_toNat_lt, value, first, last, UInt8.reduceToNat, Nat.add_sub_cancel]
  rw [if_neg (by omega), if_neg (by omega), if_neg (by omega), if_neg (by omega), if_pos (by omega)]

namespace Decoder

/-- Between two characters, the first byte of a longer one makes it pending. -/
theorem push_first (byte : UInt8) (pending : Pending) (emitted : List (Option Char))
    (opened : lead byte = .opens pending) :
    push ⟨none, emitted⟩ byte = ⟨some pending, emitted⟩ := by
  simp only [push, begin, opened]

/-- A later byte carries six bits. It completes a character of which no further byte is due. -/
theorem push_last (value low : Nat) (least greatest : UInt8) (emitted : List (Option Char))
    (small : low < 64) (above : least.toNat ≤ low + 0x80) (below : low + 0x80 ≤ greatest.toNat) :
    push ⟨some ⟨value, 1, least, greatest⟩, emitted⟩ (UInt8.ofNat (low + 0x80))
      = ⟨none, some (Char.ofNat (value * 64 + low)) :: emitted⟩ := by
  have carried : (UInt8.ofNat (low + 0x80)).toNat = low + 0x80 := by
    rw [UInt8.toNat_ofNat']
    omega
  have bits : (low + 0x80) % 64 = low := by omega
  have inside : (least ≤ UInt8.ofNat (low + 0x80) && UInt8.ofNat (low + 0x80) ≤ greatest)
    = true := by
    simp only [UInt8.le_iff_toNat_le, carried, above, below, decide_true, Bool.and_true]
  simp only [push, inside, carried, bits, if_true, Nat.le_refl]

/-- A later byte leaves a character pending of which further bytes are due. -/
theorem push_more (value missing low : Nat) (least greatest : UInt8) (emitted : List (Option Char))
    (small : low < 64) (above : least.toNat ≤ low + 0x80) (below : low + 0x80 ≤ greatest.toNat) :
    push ⟨some ⟨value, missing + 2, least, greatest⟩, emitted⟩ (UInt8.ofNat (low + 0x80))
      = ⟨some ⟨value * 64 + low, missing + 1, 0x80, 0xbf⟩, emitted⟩ := by
  have carried : (UInt8.ofNat (low + 0x80)).toNat = low + 0x80 := by
    rw [UInt8.toNat_ofNat']
    omega
  have bits : (low + 0x80) % 64 = low := by omega
  have inside : (least ≤ UInt8.ofNat (low + 0x80) && UInt8.ofNat (low + 0x80) ≤ greatest)
    = true := by
    simp only [UInt8.le_iff_toNat_le, carried, above, below, decide_true, Bool.and_true]
  have due : ¬missing + 2 ≤ 1 := by omega
  simp only [push, inside, carried, bits, due, if_true, if_false,
    show missing + 2 - 1 = missing + 1 from rfl]

/-- Between two characters, the bytes of a character make the decoder emit it and nothing
else. The four lengths differ in the ranges of their first two bytes, which shut out
surrogates and overlong forms. -/
theorem foldl_push_char (char : Char) (emitted : List (Option Char)) :
    (String.utf8EncodeChar char).foldl push ⟨none, emitted⟩ = ⟨none, some char :: emitted⟩ := by
  have scalar : char.toNat < 0xd800 ∨ 0xdfff < char.toNat ∧ char.toNat < 0x110000 := char.valid
  have whole : Char.ofNat char.toNat = char := Char.ofNat_toNat char
  unfold String.utf8EncodeChar
  dsimp only
  rw [show char.val.toNat = char.toNat from rfl]
  by_cases one : char.toNat ≤ 0x7f
  · have back : (UInt8.ofNat char.toNat).toNat = char.toNat := by
      rw [UInt8.toNat_ofNat']
      omega
    have low : UInt8.ofNat char.toNat < 0x80 := by
      rw [UInt8.lt_iff_toNat_lt, back]
      exact Nat.lt_succ_of_le one
    simp only [one, if_true, List.foldl_cons, List.foldl_nil, push, begin, lead, low, back, whole]
  · rw [if_neg one]
    by_cases two : char.toNat ≤ 0x7ff
    · have first := lead_two (char.toNat / 64 % 0x20) (by omega) (by omega)
      rw [if_pos two, List.foldl_cons, List.foldl_cons, List.foldl_nil, push_first _ _ _ first,
        push_last _ _ _ _ _ (by omega) (by simp) (by simp; omega)]
      have joined : char.toNat / 64 % 0x20 * 64 + char.toNat % 0x40 = char.toNat := by omega
      rw [joined, whole]
    · rw [if_neg two]
      by_cases three : char.toNat ≤ 0xffff
      · have first := lead_three (char.toNat / 4096 % 0x10) (by omega)
        rw [if_pos three, List.foldl_cons, List.foldl_cons, List.foldl_cons, List.foldl_nil,
          push_first _ _ _ first,
          push_more _ 0 _ _ _ _ (by omega) (by split <;> simp; omega) (by split <;> simp <;> omega),
          push_last _ _ _ _ _ (by omega) (by simp) (by simp; omega)]
        have joined : (char.toNat / 4096 % 0x10 * 64 + char.toNat / 64 % 0x40) * 64
            + char.toNat % 0x40 = char.toNat := by omega
        rw [joined, whole]
      · have first := lead_four (char.toNat / 262144 % 0x08) (by omega)
        rw [if_neg three, List.foldl_cons, List.foldl_cons, List.foldl_cons, List.foldl_cons,
          List.foldl_nil, push_first _ _ _ first,
          push_more _ 1 _ _ _ _ (by omega) (by split <;> simp; omega) (by split <;> simp <;> omega),
          push_more _ 0 _ _ _ _ (by omega) (by simp) (by simp; omega),
          push_last _ _ _ _ _ (by omega) (by simp) (by simp; omega)]
        have joined : ((char.toNat / 262144 % 0x08 * 64 + char.toNat / 4096 % 0x40) * 64
            + char.toNat / 64 % 0x40) * 64 + char.toNat % 0x40 = char.toNat := by omega
        rw [joined, whole]

/-- The bytes of characters make the decoder emit these characters in order. -/
theorem foldl_push_chars (chars : List Char) (emitted : List (Option Char)) :
    (chars.flatMap String.utf8EncodeChar).foldl push ⟨none, emitted⟩
      = ⟨none, (chars.map some).reverse ++ emitted⟩ := by
  induction chars generalizing emitted with
  | nil => rfl
  | cons char rest inductionHypothesis =>
    rw [List.flatMap_cons, List.foldl_append, foldl_push_char, inductionHypothesis, List.map_cons,
      List.reverse_cons, List.append_assoc, List.singleton_append]

end Decoder

/-- The bytes of a text hold its characters and no gap, as each character leaves the
decoder with nothing pending. -/
theorem scan_encode (text : String) : scan (encode text) = text.toList.map some := by
  rw [scan, encode, Decoder.start, Decoder.foldl_push_chars, List.append_nil, Decoder.finish,
    List.reverse_reverse]

/-- The bytes of a text decode to that text, so decoding undoes encoding for every text. -/
theorem decode?_encode (text : String) : decode? (encode text) = some text := by
  have complete : (text.toList.map some).mapM id = some text.toList := by
    induction text.toList with
    | nil => rfl
    | cons char rest inductionHypothesis =>
      rw [List.map_cons, List.mapM_cons, inductionHypothesis]
      rfl
  rw [decode?, scan_encode, complete, Option.map_some, String.ofList_toList]

/-- Texts with the same bytes are the same, because both are decoded from them. -/
theorem encode_injective {text other : String} (same : encode text = encode other) :
    text = other := by
  have decoded := decode?_encode text
  rw [same, decode?_encode] at decoded
  exact (Option.some.inj decoded).symm

end LedgerIntake.Utf8
