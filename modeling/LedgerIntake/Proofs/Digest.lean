import LedgerIntake.Digest

/-!
# Digests and their texts

A digest is read from its own text and from that text with any of its letters in the other case, and
from nothing else. So what a text is read as does not hang on its case, and reading gives back what
was written.
-/

namespace LedgerIntake

namespace Bytes

/-- The values of digits by their codes, so that comparing characters becomes arithmetic. -/
theorem hexValue?_eq (digit : Char) :
    hexValue? digit =
      if 48 ≤ digit.toNat ∧ digit.toNat ≤ 57 then some (digit.toNat - 48)
      else if 97 ≤ digit.toNat ∧ digit.toNat ≤ 102 then some (digit.toNat - 87)
      else if 65 ≤ digit.toNat ∧ digit.toNat ≤ 70 then some (digit.toNat - 55)
      else none := by
  have ordered (first second : Char) : first ≤ second ↔ first.toNat ≤ second.toNat := Iff.rfl
  simp only [hexValue?, Bool.and_eq_true, decide_eq_true_eq, ordered]
  rfl

/-- A small letter stands 32 codes behind the capital one, and other characters stay. -/
theorem toNat_toLower (char : Char) :
    char.toLower.toNat =
      if 65 ≤ char.toNat ∧ char.toNat ≤ 90 then char.toNat + 32 else char.toNat := by
  have capital : (char.val ≥ 'A'.val ∧ char.val ≤ 'Z'.val) ↔
      65 ≤ char.toNat ∧ char.toNat ≤ 90 := Iff.rfl
  unfold Char.toLower
  split
  · next inside =>
    have small : char.val.toNat ≤ 90 := inside.2
    rw [if_pos (capital.mp inside)]
    show (char.val.toNat + 32) % 2 ^ 32 = char.val.toNat + 32
    omega
  · next outside => rw [if_neg (mt capital.mpr outside)]

/-- A letter of either case has the value of the small one. -/
theorem hexValue?_toLower (digit : Char) : hexValue? digit.toLower = hexValue? digit := by
  rw [hexValue?_eq, hexValue?_eq, toNat_toLower]
  split
  · next capital =>
    rw [if_neg (by omega), if_neg (show ¬(48 ≤ digit.toNat ∧ digit.toNat ≤ 57) by omega),
      if_neg (show ¬(97 ≤ digit.toNat ∧ digit.toNat ≤ 102) by omega)]
    by_cases hexadecimal : digit.toNat ≤ 70
    · rw [if_pos (by omega), if_pos (by omega)]
      congr 1
    · rw [if_neg (by omega), if_neg (by omega), if_neg (by omega)]
  · rfl

/-- The digit of a value in either case has the value, and no other character does. -/
theorem hexValue?_eq_some_iff {digit : Char} {value : Nat} :
    hexValue? digit = some value ↔ value < 16 ∧ digit.toLower = hexDigit value := by
  have code : ∀ value : Fin 16, (hexDigit value).toNat = if value.val < 10 then 48 + value.val
    else 87 + value.val := by
    decide
  constructor
  · intro read
    rw [hexValue?_eq] at read
    have bounds : value < 16 ∧ digit.toLower.toNat = if value < 10 then 48 + value
      else 87 + value := by
      rw [toNat_toLower]
      split at read
      · cases read
        rw [if_neg (by omega), if_pos (by omega)]
        omega
      · split at read
        · cases read
          rw [if_neg (by omega), if_neg (by omega)]
          omega
        · split at read
          · cases read
            rw [if_pos (by omega), if_neg (by omega)]
            omega
          · cases read
    exact ⟨bounds.1, Char.toNat_inj.mp (bounds.2.trans (code ⟨value, bounds.1⟩).symm)⟩
  · rintro ⟨small, same⟩
    rw [← hexValue?_toLower, same, hexValue?_hexDigit small]

/-- The case of digits does not matter to what is read. The induction follows the
reading, two characters at a time. -/
theorem go_toLower (read : Bytes) (text : List Char) :
    ofHex?.go read (text.map Char.toLower) = ofHex?.go read text := by
  fun_induction ofHex?.go read text with
  | case1 read => rfl
  | case2 read single => rfl
  | case3 read high low rest first second found found' inductionHypothesis =>
    rw [List.map_cons, List.map_cons, ofHex?.go, hexValue?_toLower, hexValue?_toLower, found,
      found']
    exact inductionHypothesis
  | case4 read high low rest missed =>
    rw [List.map_cons, List.map_cons, ofHex?.go, hexValue?_toLower, hexValue?_toLower]
    split
    · next first second found found' => exact absurd found' (missed first second found)
    · rfl

/-- What is read are bytes whose digits stand in the text, in either case. -/
theorem digits_of_go {read bytes : Bytes} {text : List Char}
    (found : ofHex?.go read text = some bytes) :
    ∃ more, bytes = read.reverse ++ more ∧ text.map Char.toLower
      = more.flatMap fun byte => [hexDigit (byte.toNat / 16), hexDigit (byte.toNat % 16)] := by
  fun_induction ofHex?.go read text with
  | case1 read =>
    cases found
    exact ⟨[], (List.append_nil _).symm, rfl⟩
  | case2 read single => cases found
  | case3 read high low rest first second second' first' inductionHypothesis =>
    obtain ⟨more, rfl, rests⟩ := inductionHypothesis found
    obtain ⟨small, digit⟩ := hexValue?_eq_some_iff.mp first'
    obtain ⟨small', digit'⟩ := hexValue?_eq_some_iff.mp second'
    have byte : (UInt8.ofNat (16 * first + second)).toNat = 16 * first + second := by
      rw [UInt8.toNat_ofNat']
      omega
    refine ⟨UInt8.ofNat (16 * first + second) :: more, ?_, ?_⟩
    · rw [List.reverse_cons, List.append_assoc, List.singleton_append]
    · rw [List.map_cons, List.map_cons, rests, digit, digit', List.flatMap_cons, byte,
        show (16 * first + second) / 16 = first by omega,
          show (16 * first + second) % 16 = second by omega,
        List.cons_append, List.singleton_append]
  | case4 read high low rest missed => cases found

/-- A text is read as bytes exactly if it is their text up to the case of its letters. -/
theorem ofHex?_eq_some_iff {text : List Char} {bytes : Bytes} :
    ofHex? text = some bytes ↔ text.map Char.toLower = bytes.toHex.toList := by
  constructor
  · intro found
    obtain ⟨more, rfl, digits⟩ := digits_of_go found
    rw [digits, toHex, String.toList_ofList]
  · intro same
    rw [ofHex?, ← go_toLower, same]
    exact ofHex?_toHex bytes

end Bytes

/-- A text is read as a digest exactly if it is the digest's text up to the case of its letters. -/
theorem Digest.parse_eq_ok_iff {text : String} {digest : Digest} :
    Digest.parse text = .ok digest ↔ text.toList.map Char.toLower = digest.toText.toList := by
  rw [Digest.toText, ← Bytes.ofHex?_eq_some_iff, Digest.parse]
  constructor
  · intro read
    split at read
    · next digest' found =>
      cases read
      obtain ⟨bytes, hex, formed⟩ := Option.bind_eq_some_iff.mp found
      rw [Digest.ofBytes?] at formed
      split at formed
      · cases formed
        exact hex
      · cases formed
    · cases read
  · intro hex
    rw [hex, Option.bind_some, Digest.ofBytes?, dif_pos digest.length_bytes]

end LedgerIntake
