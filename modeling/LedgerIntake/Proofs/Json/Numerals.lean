import LedgerIntake.Json.Number
import LedgerIntake.Proofs.Json.Spelling

/-!
# Numerals

A literal is spelled by its sign, its digits, a point and an exponent, and reads back from that
spelling if its parts are such as a numeral can have. The mark of the exponent and the sign of a
power that is not negative may be chosen; everything else is settled by the literal.
-/

namespace LedgerIntake.Json

namespace Number.Literal

/-- A list of at least one digit. -/
def Digits (digits : List Char) : Prop := digits ≠ [] ∧ ∀ digit ∈ digits, digit.isDigit = true

/-- The parts of a literal are such as a numeral can have. -/
structure WellFormed (literal : Literal) : Prop where
  whole : Digits literal.whole
  /-- No digit follows a first zero. -/
  leading : literal.whole.head? = some '0' → literal.whole.length ≤ 1
  fraction : ∀ digits, literal.fraction = some digits → Digits digits
  exponent : ∀ negative digits, literal.exponent = some (negative, digits) → Digits digits

/-- A point and digits, or nothing. -/
def fractionSpelling : Option (List Char) → List Char
  | none => []
  | some digits => '.' :: digits

/-- A mark, a sign and digits, or nothing. -/
def exponentSpelling (mark : Char) (plus : List Char) : Option (Bool × List Char) → List Char
  | none => []
  | some (negative, digits) => mark :: ((if negative then ['-'] else plus) ++ digits)

/-- A literal as it is written, with a mark for the exponent and a sign for
powers that are not negative. -/
def spelling (literal : Literal) (mark : Char) (plus : List Char) : List Char :=
  (if literal.negative then ['-'] else [])
    ++ (literal.whole
      ++ (fractionSpelling literal.fraction ++ exponentSpelling mark plus literal.exponent))

/-- Nothing, or something other than a digit. -/
def Undigited (text : List Char) : Prop := ∀ char rest, text = char :: rest → char.isDigit = false

/-- Digits in front of something else are all digits that are found, and what follows is left. -/
theorem digits?_append {digits rest : List Char} (proper : Digits digits)
    (behind : Undigited rest) :
    digits? (digits ++ rest) = some (digits, rest) := by
  have taken : (digits ++ rest).takeWhile Char.isDigit = digits := by
    rw [List.takeWhile_append_of_pos proper.2]
    cases rest with
    | nil => exact List.append_nil digits
    | cons char rest =>
      rw [List.takeWhile_cons_of_neg (by simp [behind char rest rfl]), List.append_nil]
  have left : (digits ++ rest).dropWhile Char.isDigit = rest := by
    rw [List.dropWhile_append_of_pos proper.2]
    cases rest with
    | nil => rfl
    | cons char rest => rw [List.dropWhile_cons_of_neg (by simp [behind char rest rfl])]
  rw [digits?, taken, left]
  cases digits with
  | nil => exact absurd rfl proper.1
  | cons digit others => rfl

section Spelling

variable {mark : Char} {plus : List Char} (marked : mark = 'e' ∨ mark = 'E')
    (sign : plus = [] ∨ plus = ['+'])

include marked

/-- No digit stands where an exponent begins. -/
theorem undigited_exponent (exponent : Option (Bool × List Char)) :
    Undigited (exponentSpelling mark plus exponent) := by
  intro char rest same
  cases exponent with
  | none => cases same
  | some power =>
    cases same
    rcases marked with rfl | rfl <;> rfl

/-- No digit stands where a fraction or an exponent begins, so the
digits in front of it end there. -/
theorem undigited_fraction (fraction : Option (List Char)) (exponent : Option (Bool × List Char)) :
    Undigited (fractionSpelling fraction ++ exponentSpelling mark plus exponent) := by
  cases fraction with
  | none => exact undigited_exponent marked exponent
  | some digits =>
    intro char rest same
    cases same
    rfl

/-- A fraction is found where one is spelled. A mark of an exponent is no point,
so none is found before it. -/
theorem scanFraction_spelling (fraction : Option (List Char)) (exponent : Option (Bool × List Char))
    (proper : ∀ digits, fraction = some digits → Digits digits) :
    scanFraction (fractionSpelling fraction ++ exponentSpelling mark plus exponent)
      = some (fraction, exponentSpelling mark plus exponent) := by
  cases fraction with
  | none =>
    cases exponent with
    | none => rfl
    | some power => rcases marked with rfl | rfl <;> rfl
  | some digits =>
    have found := digits?_append (proper digits rfl)
      (undigited_exponent marked exponent : Undigited (exponentSpelling mark plus exponent))
    show (digits? (digits ++ exponentSpelling mark plus exponent)).map _ = _
    rw [found]
    rfl

include sign

/-- An exponent is found where one is spelled, to the end of the text. No sign of a power is a
digit, so signs are told from digits. -/
theorem scanExponent_spelling (exponent : Option (Bool × List Char))
    (proper : ∀ negative digits, exponent = some (negative, digits) → Digits digits) :
    scanExponent (exponentSpelling mark plus exponent) = some (exponent, []) := by
  cases exponent with
  | none => rfl
  | some power =>
    obtain ⟨negative, digits⟩ := power
    have nothing : Undigited [] := by
      intro char rest same
      cases same
    have alone : digits? digits = some (digits, []) := by
      have found := digits?_append (proper negative digits rfl) nothing
      rwa [List.append_nil] at found
    have mine : mark = 'e' ∨ mark = 'E' := marked
    cases negative with
    | true =>
      show scanExponent (mark :: '-' :: digits) = _
      simp only [scanExponent, mine, if_true, alone, Option.map_some]
    | false =>
      rcases sign with rfl | rfl
      · obtain ⟨present, decimal⟩ := proper false digits rfl
        show scanExponent (mark :: digits) = _
        cases digits with
        | nil => exact absurd rfl present
        | cons digit others =>
          have first : digit.isDigit = true := decimal digit List.mem_cons_self
          have notMinus : digit ≠ '-' := by
            rintro rfl
            contradiction
          have notPlus : digit ≠ '+' := by
            rintro rfl
            contradiction
          simp only [scanExponent, mine, if_true]
          split
          · next same =>
            cases same
            contradiction
          · next same =>
            cases same
            contradiction
          · rw [alone]
            rfl
      · show scanExponent (mark :: '+' :: digits) = _
        simp only [scanExponent, mine, if_true, alone, Option.map_some]

/-- A literal whose parts are proper is read from its spelling. Each part ends where the next one
begins, as none begins with a digit. -/
theorem read?_spelling (literal : Literal) (proper : literal.WellFormed) :
    read? (literal.spelling mark plus) = some literal := by
  obtain ⟨negative, whole, fraction, exponent⟩ := literal
  obtain ⟨digits, leading, fractional, powered⟩ := proper
  dsimp only at digits leading fractional powered
  have found := digits?_append digits
    (undigited_fraction marked fraction exponent
      : Undigited (fractionSpelling fraction ++ exponentSpelling mark plus exponent))
  have unsigned : scanUnsigned negative
      (whole ++ (fractionSpelling fraction ++ exponentSpelling mark plus exponent))
        = some (⟨negative, whole, fraction, exponent⟩, []) := by
    have noZero : ¬(whole.head? = some '0' ∧ 1 < whole.length) := by
      rintro ⟨zero, long⟩
      exact Nat.not_lt.mpr (leading zero) long
    rw [scanUnsigned, found]
    dsimp only
    rw [if_neg noZero, scanFraction_spelling marked fraction exponent fractional]
    dsimp only
    rw [scanExponent_spelling marked sign exponent powered]
    rfl
  have scanned : scan? (spelling ⟨negative, whole, fraction, exponent⟩ mark plus)
      = some (⟨negative, whole, fraction, exponent⟩, []) := by
    cases negative with
    | true => exact unsigned
    | false =>
      rw [← unsigned]
      obtain ⟨present, decimal⟩ := digits
      cases whole with
      | nil => exact absurd rfl present
      | cons digit others =>
        have first : digit.isDigit = true := decimal digit List.mem_cons_self
        show scan?
          (digit :: (others ++ (fractionSpelling fraction ++ exponentSpelling mark plus exponent)))
            = _
        rw [scan?.eq_def]
        split
        · next same =>
          cases same
          contradiction
        · rfl
  rw [read?, scanned]

end Spelling

end Number.Literal

namespace Lexeme

/-- A byte of which numbers are made is no blank and begins no other lexeme. -/
theorem visible_of_isNumeric (byte : UInt8) (numeric : isNumeric byte = true) :
    isBlank byte = false := by
  apply Bool.eq_false_iff.mpr
  intro blank
  simp only [isBlank, Bool.or_eq_true, decide_eq_true_eq] at blank
  rcases blank with ((rfl | rfl) | rfl) | rfl <;> contradiction

/-- At a byte that may begin a number a number is scanned, since no other lexeme begins with one. -/
theorem next?_of_isNumeric (byte : UInt8) (rest : Bytes) (numeric : isNumeric byte = true) :
    next? (byte :: rest) = scanNumber (byte :: rest) := by
  have other (mark : UInt8) (plain : isNumeric mark = false) : byte ≠ mark := by
    rintro rfl
    rw [plain] at numeric
    contradiction
  rw [next?, if_neg (other 91 (by decide)), if_neg (other 93 (by decide)),
    if_neg (other 123 (by decide)), if_neg (other 125 (by decide)), if_neg (other 44 (by decide)),
    if_neg (other 58 (by decide)), if_neg (other 34 (by decide)), if_neg (other 110 (by decide)),
    if_neg (other 116 (by decide)), if_neg (other 102 (by decide))]

end Lexeme

/-- A character of which numbers are made takes one byte. -/
def Numeric (char : Char) : Prop :=
  char.toNat < 128 ∧ Lexeme.isNumeric (UInt8.ofNat char.toNat) = true

/-- A decimal digit is a numeric character. -/
theorem numeric_of_isDigit (char : Char) (digit : char.isDigit = true) : Numeric char := by
  simp only [Char.isDigit, Bool.and_eq_true, decide_eq_true_eq] at digit
  have least : 48 ≤ char.toNat := digit.1
  have greatest : char.toNat ≤ 57 := digit.2
  have back : (UInt8.ofNat char.toNat).toNat = char.toNat := by
    rw [UInt8.toNat_ofNat']
    omega
  refine ⟨by omega, ?_⟩
  have range : (decide (48 ≤ UInt8.ofNat char.toNat) && decide (UInt8.ofNat char.toNat ≤ 57))
    = true := by
    simp only [Bool.and_eq_true, decide_eq_true_eq, UInt8.le_iff_toNat_le, back]
    exact ⟨least, greatest⟩
  rw [Lexeme.isNumeric, range]
  rfl

/-- The spelling of a literal is made of numeric characters alone, so no
blank or mark ends it early. -/
theorem Number.Literal.numeric_spelling (literal : Literal) (proper : literal.WellFormed)
    (mark : Char)
    (plus : List Char) (marked : mark = 'e' ∨ mark = 'E') (sign : plus = [] ∨ plus = ['+']) :
    ∀ char ∈ literal.spelling mark plus, Numeric char := by
  have minus : Numeric '-' := ⟨by decide, by decide⟩
  have point : Numeric '.' := ⟨by decide, by decide⟩
  have plusSign : ∀ char ∈ plus, Numeric char := by
    rcases sign with rfl | rfl
    · simp
    · simp only [List.mem_singleton, forall_eq]
      exact ⟨by decide, by decide⟩
  have markSign : Numeric mark := by
    rcases marked with rfl | rfl <;> exact ⟨by decide, by decide⟩
  have digits (list : List Char) (decimal : Digits list) : ∀ char ∈ list, Numeric char :=
    fun char member => numeric_of_isDigit char (decimal.2 char member)
  have fraction : ∀ char ∈ fractionSpelling literal.fraction, Numeric char := by
    cases written : literal.fraction with
    | none => simp [fractionSpelling]
    | some list =>
      rw [fractionSpelling, List.forall_mem_cons]
      exact ⟨point, digits list (proper.fraction list written)⟩
  have exponent : ∀ char ∈ exponentSpelling mark plus literal.exponent, Numeric char := by
    cases written : literal.exponent with
    | none => simp [exponentSpelling]
    | some power =>
      obtain ⟨negative, list⟩ := power
      rw [exponentSpelling, List.forall_mem_cons, List.forall_mem_append]
      refine ⟨markSign, ?_, digits list (proper.exponent negative list written)⟩
      cases negative with
      | true => simpa using minus
      | false => simpa using plusSign
  rw [spelling, List.forall_mem_append, List.forall_mem_append, List.forall_mem_append]
  refine ⟨?_, digits _ proper.whole, fraction, exponent⟩
  cases literal.negative with
  | true => simpa using minus
  | false => simp

/-- The bytes of characters of numbers are their codes, one for each. -/
theorem encode_of_numeric {text : String} (numeric : ∀ char ∈ text.toList, Numeric char) :
    Utf8.encode text = text.toList.map fun char => UInt8.ofNat char.toNat := by
  have single : ∀ char ∈ text.toList, String.utf8EncodeChar char = [UInt8.ofNat char.toNat] := by
    intro char member
    have small : char.val.toNat ≤ 0x7f := Nat.le_of_lt_succ (numeric char member).1
    unfold String.utf8EncodeChar
    dsimp only
    rw [if_pos small]
    rfl
  rw [Utf8.encode, List.flatMap_def, List.map_congr_left single, ← List.flatMap_def,
    ← List.map_eq_flatMap]

/-- The codes of characters of numbers stand for these characters. -/
theorem ofNat_codes {chars : List Char} (numeric : ∀ char ∈ chars, Numeric char) :
    ((chars.map fun char => UInt8.ofNat char.toNat).map fun byte => Char.ofNat byte.toNat)
      = chars := by
  have same : ∀ char ∈ chars, Char.ofNat (UInt8.ofNat char.toNat).toNat = char := by
    intro char member
    have small : char.toNat < 128 := (numeric char member).1
    rw [UInt8.toNat_ofNat', Nat.mod_eq_of_lt (by omega), Char.ofNat_toNat]
  rw [List.map_map]
  exact (List.map_congr_left same).trans (List.map_id _)

/-- Bytes of a number are scanned up to whatever does not continue them. -/
theorem scanNumber_append {bytes after : Bytes} {literal : Number.Literal} (present : bytes ≠ [])
    (all : ∀ byte ∈ bytes, Lexeme.isNumeric byte = true) (closed : Closed after)
    (read : Number.Literal.read? (bytes.map fun byte => Char.ofNat byte.toNat) = some literal) :
    Lexeme.scanNumber (bytes ++ after) = some (.number literal, after) := by
  have taken : (bytes ++ after).takeWhile Lexeme.isNumeric = bytes := by
    rw [List.takeWhile_append_of_pos all]
    cases after with
    | nil => exact List.append_nil bytes
    | cons byte rest =>
      rw [List.takeWhile_cons_of_neg (by simp [closed byte rest rfl]), List.append_nil]
  have left : (bytes ++ after).dropWhile Lexeme.isNumeric = after := by
    rw [List.dropWhile_append_of_pos all]
    cases after with
    | nil => rfl
    | cons byte rest => rw [List.dropWhile_cons_of_neg (by simp [closed byte rest rfl])]
  have filled : bytes.isEmpty = false := List.isEmpty_eq_false_iff.mpr present
  rw [Lexeme.scanNumber, taken, left, filled, if_neg (by decide), read]
  rfl

/-- A text that is the numeral of a literal spells the number with that literal. -/
theorem spells_number (text : String) (literal : Number.Literal)
    (read : Number.Literal.read? text.toList = some literal)
    (numeric : ∀ char ∈ text.toList, Numeric char) :
    Spells text (.number literal) := by
  have all : ∀ byte ∈ Utf8.encode text, Lexeme.isNumeric byte = true := by
    rw [encode_of_numeric numeric]
    intro byte member
    obtain ⟨char, among, rfl⟩ := List.mem_map.mp member
    exact (numeric char among).2
  have back : (Utf8.encode text).map (fun byte => Char.ofNat byte.toNat) = text.toList := by
    rw [encode_of_numeric numeric, ofNat_codes numeric]
  rw [← back] at read
  refine ⟨[.number literal], ?_, fun _ => rfl, _, _, rfl, by simp⟩
  intro cut after closed
  cases written : Utf8.encode text with
  | nil =>
    rw [written] at read
    cases read
  | cons byte rest =>
    rw [written] at all read
    have scanned := scanNumber_append (List.cons_ne_nil byte rest) all closed read
    have first : Lexeme.isNumeric byte = true := all byte List.mem_cons_self
    have found : Lexeme.next? (byte :: (rest ++ after)) = some (.number literal, after) := by
      rw [Lexeme.next?_of_isNumeric byte (rest ++ after) first]
      exact scanned
    rw [List.cons_append,
      Lexeme.scanFrom_of_next cut (Lexeme.visible_of_isNumeric byte first) found]
    rfl

end LedgerIntake.Json
