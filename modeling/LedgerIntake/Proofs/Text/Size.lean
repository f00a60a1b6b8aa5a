import Mathlib.Algebra.BigOperators.Ring.List
import Mathlib.Algebra.Order.BigOperators.Group.List
import Mathlib.Algebra.Order.Ring.Nat
import LedgerIntake.Json.Writer
import LedgerIntake.Proofs.Text.Utf8

/-!
# Sizes of texts

The bytes that written texts take, and bounds on them. A character in quotes takes at least its own
bytes and at most six times as many, a number of 64 bits at most twenty digits, and an array or an
object the bytes of its parts and little more.
-/

namespace LedgerIntake

namespace Text

/-- The first character of a text adds its own bytes to those of the rest. -/
theorem utf8ByteSize_ofList_cons (char : Char) (rest : List Char) :
    (String.ofList (char :: rest)).utf8ByteSize = char.utf8Size +
      (String.ofList rest).utf8ByteSize := by
  rw [← Utf8.length_encode, ← Utf8.length_encode, Utf8.encode_ofList, Utf8.encode_ofList,
    List.flatMap_cons, List.length_append, String.length_utf8EncodeChar]

/-- A text takes the bytes of its characters, whatever characters they are. The
induction is on the characters. -/
theorem utf8ByteSize_ofList (chars : List Char) :
    (String.ofList chars).utf8ByteSize = (chars.map Char.utf8Size).sum := by
  induction chars with
  | nil => rfl
  | cons char rest inductionHypothesis =>
    rw [utf8ByteSize_ofList_cons, inductionHypothesis, List.map_cons, List.sum_cons]

/-- A text takes the bytes of its characters, counted one by one, so
sizes are sums over characters. -/
theorem utf8ByteSize_eq_sum (text : String) :
    text.utf8ByteSize = (text.toList.map Char.utf8Size).sum := by
  rw [← utf8ByteSize_ofList, String.ofList_toList]

/-- Characters take as many bytes in any order, in particular backwards,
as a decoder collects them. -/
theorem utf8ByteSize_reverse (chars : List Char) :
    (String.ofList chars.reverse).utf8ByteSize = (String.ofList chars).utf8ByteSize := by
  rw [utf8ByteSize_ofList, utf8ByteSize_ofList, List.map_reverse, List.sum_reverse]

/-- Characters of one byte take as many bytes as there are of them,
which covers digits and escapes. -/
theorem utf8ByteSize_ofList_of_ones (chars : List Char) (ones : ∀ char ∈ chars, char.utf8Size = 1) :
    (String.ofList chars).utf8ByteSize = chars.length := by
  rw [utf8ByteSize_ofList, List.map_eq_replicate_iff.mpr ones, List.sum_replicate, Nat.nsmul_eq_mul,
    Nat.mul_one]

/-- A character of one byte that is repeated takes one byte for each time that it is written. -/
theorem utf8ByteSize_replicate (count : Nat) (char : Char) (one : char.utf8Size = 1) :
    (String.ofList (List.replicate count char)).utf8ByteSize = count := by
  rw [utf8ByteSize_ofList_of_ones _ fun other among => List.eq_of_mem_replicate among ▸ one,
    List.length_replicate]

/-- Bounds of two texts add up to one of the joined text. The bounds of messages are put
together with it part by part. -/
theorem utf8ByteSize_append_le {left right : String} {first second : Nat}
    (before : left.utf8ByteSize ≤ first) (behind : right.utf8ByteSize ≤ second) :
    (left ++ right).utf8ByteSize ≤ first + second := by
  rw [String.utf8ByteSize_append]
  exact Nat.add_le_add before behind

/-- Parts with a separator between them take no more than if each had a separator of its own. -/
theorem utf8ByteSize_intercalate_le (separator : String) (parts : List String) (bound : Nat)
    (bounded : ∀ part ∈ parts, part.utf8ByteSize ≤ bound) :
    (String.intercalate separator parts).utf8ByteSize
      ≤ parts.length * (bound + separator.utf8ByteSize) := by
  induction parts with
  | nil => simp
  | cons part rest inductionHypothesis =>
    have first : part.utf8ByteSize ≤ bound := bounded part List.mem_cons_self
    have others := inductionHypothesis fun other member =>
      bounded other (List.mem_cons_of_mem _ member)
    rw [List.length_cons, Nat.succ_mul]
    by_cases last : rest = []
    · subst last
      rw [String.intercalate_singleton]
      omega
    · rw [String.intercalate_cons_of_ne_nil last, String.utf8ByteSize_append,
        String.utf8ByteSize_append]
      omega

/-- Parts behind a first one have a separator each, so a joined text is the first
part and a sum over the rest. -/
theorem utf8ByteSize_intercalate_cons (separator first : String) (rest : List String) :
    (String.intercalate separator (first :: rest)).utf8ByteSize
      = first.utf8ByteSize +
        (rest.map fun part => separator.utf8ByteSize + part.utf8ByteSize).sum := by
  induction rest generalizing first with
  | nil => rw [String.intercalate_singleton, List.map_nil, List.sum_nil, Nat.add_zero]
  | cons second rest inductionHypothesis =>
    rw [String.intercalate_cons_cons, String.utf8ByteSize_append, String.utf8ByteSize_append,
      inductionHypothesis, List.map_cons, List.sum_cons]
    omega

/-- Characters take at most four bytes each, so a text is bounded by
the number of its characters. -/
theorem utf8ByteSize_ofList_le (chars : List Char) :
    (String.ofList chars).utf8ByteSize ≤ 4 * chars.length := by
  induction chars with
  | nil => simp
  | cons char rest inductionHypothesis =>
    have few : char.utf8Size ≤ 4 := Char.utf8Size_le_four char
    rw [utf8ByteSize_ofList_cons, List.length_cons]
    omega

/-- A first byte adds one character or gap, or one that is pending and
told when the decoder finishes. -/
theorem length_finish_begin (emitted : List (Option Char)) (byte : UInt8) :
    (Utf8.Decoder.begin emitted byte).finish.length = emitted.length + 1 := by
  unfold Utf8.Decoder.begin
  cases Utf8.lead byte <;> simp [Utf8.Decoder.finish]

/-- What is emitted or pending grows by at most one with a byte, even where the byte ends one
character and begins another. -/
theorem length_finish_push_le (decoder : Utf8.Decoder) (byte : UInt8) :
    (decoder.push byte).finish.length ≤ decoder.finish.length + 1 := by
  obtain ⟨pending, emitted⟩ := decoder
  cases pending with
  | none =>
    have added := length_finish_begin emitted byte
    simp only [Utf8.Decoder.push, Utf8.Decoder.finish, List.length_reverse] at added ⊢
    omega
  | some pending =>
    have held : (Utf8.Decoder.finish ⟨some pending, emitted⟩).length = emitted.length + 1 := by
      simp [Utf8.Decoder.finish]
    rw [held]
    unfold Utf8.Decoder.push
    dsimp only
    split
    · split
      · simp [Utf8.Decoder.finish]
      · simp [Utf8.Decoder.finish]
    · exact Nat.le_of_eq (length_finish_begin (none :: emitted) byte)

/-- A decoder emits no more than one character for each byte it reads, by one step for each. -/
theorem length_finish_foldl_push_le (bytes : Bytes) (decoder : Utf8.Decoder) :
    (bytes.foldl Utf8.Decoder.push decoder).finish.length
      ≤ decoder.finish.length + bytes.length := by
  induction bytes generalizing decoder with
  | nil => simp
  | cons byte rest inductionHypothesis =>
    have first := length_finish_push_le decoder byte
    have others := inductionHypothesis (decoder.push byte)
    rw [List.foldl_cons, List.length_cons]
    omega

/-- A byte string has at most as many characters and gaps as bytes, since
a decoder starts with none. -/
theorem length_scan_le (bytes : Bytes) : (Utf8.scan bytes).length ≤ bytes.length := by
  have bounded := length_finish_foldl_push_le bytes .start
  have none : Utf8.Decoder.start.finish.length = 0 := rfl
  rw [Utf8.scan]
  omega

/-- Bytes are decoded to no more than four times as many, with a replacement
of three bytes for each gap. -/
theorem utf8ByteSize_decodeLossy_le (bytes : Bytes) :
    (Utf8.decodeLossy bytes).utf8ByteSize ≤ 4 * bytes.length := by
  have pieces := length_scan_le bytes
  have bounded := utf8ByteSize_ofList_le
    ((Utf8.scan bytes).map fun piece => piece.getD (Char.ofNat 0xfffd))
  rw [List.length_map] at bounded
  rw [Utf8.decodeLossy]
  omega

/-- Values that are all present are as many as there were places for them. -/
theorem length_of_mapM {places : List (Option Char)} {chars : List Char}
    (complete : places.mapM id = some chars) : chars.length = places.length := by
  induction places generalizing chars with
  | nil =>
    cases complete
    rfl
  | cons place rest inductionHypothesis =>
    rw [List.mapM_cons, Option.bind_eq_bind, Option.bind_eq_some_iff] at complete
    obtain ⟨first, _, complete⟩ := complete
    rw [Option.bind_eq_bind, Option.bind_eq_some_iff] at complete
    obtain ⟨others, collected, returned⟩ := complete
    cases returned
    rw [List.length_cons, List.length_cons, inductionHypothesis collected]

/-- Text that was decoded is bounded by four times the bytes that it was decoded from. -/
theorem utf8ByteSize_of_decode (bytes : Bytes) (text : String)
    (decoded : Utf8.decode? bytes = some text) :
    text.utf8ByteSize ≤ 4 * bytes.length := by
  obtain ⟨chars, complete, rfl⟩ := Option.map_eq_some_iff.mp decoded
  have pieces := length_scan_le bytes
  have same : chars.length = (Utf8.scan bytes).length := length_of_mapM complete
  have bounded := utf8ByteSize_ofList_le chars
  omega

/-- A decimal digit takes one byte, as digits lie in the range of ASCII. -/
theorem utf8Size_of_isDigit (digit : Char) (decimal : digit.isDigit = true) :
    digit.utf8Size = 1 := by
  simp only [Char.isDigit, Bool.and_eq_true, decide_eq_true_eq] at decimal
  have small : digit.val ≤ 0x7f := UInt32.le_trans decimal.2 (by decide)
  simp only [Char.utf8Size]
  exact if_pos small

/-- A written number takes one byte for each of its digits, and has no other characters. -/
theorem utf8ByteSize_repr (value : Nat) : value.repr.utf8ByteSize =
    (Nat.toDigits 10 value).length := by
  have ones : ∀ digit ∈ Nat.toDigits 10 value, digit.utf8Size = 1 := by
    intro digit member
    exact utf8Size_of_isDigit digit (Nat.isDigit_of_mem_toDigits (by decide) (by decide) member)
  rw [Nat.repr_eq_ofList_toDigits, utf8ByteSize_ofList_of_ones _ ones]

/-- A number of 64 bits has at most twenty digits, so no more bytes than that when it is written. -/
theorem utf8ByteSize_repr_le (value : Nat) (bounded : value < UInt64.size) :
    value.repr.utf8ByteSize ≤ 20 := by
  rw [utf8ByteSize_repr]
  exact (Nat.length_toDigits_le_iff (by decide) (by decide)).mpr (Nat.lt_trans bounded (by decide))

/-- A hexadecimal digit takes one byte, which is checked for all sixteen. -/
theorem utf8Size_hexDigit (value : Nat) (small : value < 16) :
    (Bytes.hexDigit value).utf8Size = 1 := by
  have all : ∀ digit : Fin 16, (Bytes.hexDigit digit.val).utf8Size = 1 := by decide
  exact all ⟨value, small⟩

/-- Bytes in hexadecimal take twice as many bytes, two digits for each. -/
theorem utf8ByteSize_toHex (bytes : Bytes) : bytes.toHex.utf8ByteSize = 2 * bytes.length := by
  have ones : ∀ digit ∈ bytes.toHex.toList, digit.utf8Size = 1 := by
    intro digit written
    obtain ⟨value, small, rfl⟩ := Bytes.exists_hexDigit_of_mem written
    exact utf8Size_hexDigit value small
  have size := utf8ByteSize_ofList_of_ones _ ones
  rwa [String.ofList_toList, Bytes.length_toHex] at size

end Text

namespace Json

open Text

/-- The escape of a unit takes six bytes, a mark of two characters and four digits. -/
theorem utf8ByteSize_escapeUnit (unit : Nat) : (escapeUnit unit).utf8ByteSize = 6 := by
  rw [escapeUnit, String.utf8ByteSize_append, utf8ByteSize_toHex, Bytes.length_bigEndian]
  decide

/-- An escape takes at most six bytes, be it from the table of short ones or by its unit. -/
theorem utf8ByteSize_of_escape (char : Char) (written : String)
    (escaped : escape? char = some written) :
    written.utf8ByteSize ≤ 6 := by
  have short : ∀ pair ∈ shortEscapes, pair.2.utf8ByteSize ≤ 6 := by decide
  rcases escape?_eq_some escaped with among | ⟨-, rfl⟩
  · exact short _ among
  · exact (utf8ByteSize_escapeUnit char.toNat).le

/-- Characters that are escaped take one byte each, and their escapes more. -/
theorem utf8Size_lt_of_escape (char : Char) (written : String)
    (escaped : escape? char = some written) :
    char.utf8Size < written.utf8ByteSize := by
  have short : ∀ pair ∈ shortEscapes, pair.1.utf8Size < pair.2.utf8ByteSize := by decide
  rcases escape?_eq_some escaped with among | ⟨control, rfl⟩
  · exact short _ among
  · have ascii : char.val ≤ 0x7f := Nat.le_of_lt (Nat.lt_trans control (by decide))
    have one : char.utf8Size = 1 := by
      simp only [Char.utf8Size]
      exact if_pos ascii
    rw [utf8ByteSize_escapeUnit, one]
    decide

/-- A character in quotes takes at most six times its own bytes, as an escape takes six at most
and a character one at least. -/
theorem utf8ByteSize_plain_char_le (char : Char) :
    (Style.plain.char char).utf8ByteSize ≤ 6 * char.utf8Size := by
  have positive : 0 < char.utf8Size := Char.utf8Size_pos char
  cases escaped : escape? char with
  | none =>
    have raw : (Style.plain.char char).utf8ByteSize = char.utf8Size := by
      simp only [Style.plain, escaped, Option.getD_none, Char.toString_eq_singleton,
        String.utf8ByteSize_singleton]
    omega
  | some written =>
    have spelled : Style.plain.char char = written := by
      simp only [Style.plain, escaped, Option.getD_some]
    have bounded := utf8ByteSize_of_escape char written escaped
    rw [spelled]
    omega

/-- A text in quotes takes what is written for its characters, and the quotes. -/
theorem utf8ByteSize_quoted (text : String) : (quoted text).utf8ByteSize
    = (text.toList.map fun char => (Style.plain.char char).utf8ByteSize).sum + 2 := by
  have parts : ∀ list : List Char, (String.join (list.map Style.plain.char)).utf8ByteSize
      = (list.map fun char => (Style.plain.char char).utf8ByteSize).sum := by
    intro list
    induction list with
    | nil => rfl
    | cons char rest inductionHypothesis =>
      rw [List.map_cons, String.join_cons, String.utf8ByteSize_append, inductionHypothesis,
        List.map_cons, List.sum_cons]
  have quotes : "\"".utf8ByteSize = 1 := by decide
  rw [quoted, Style.quote, String.utf8ByteSize_append, String.utf8ByteSize_append, quotes, parts]
  omega

/-- A character that is repeated in quotes takes as many bytes each
time, and the quotes take two. -/
theorem utf8ByteSize_quoted_replicate (count : Nat) (char : Char) :
    (quoted (String.ofList (List.replicate count char))).utf8ByteSize
      = count * (Style.plain.char char).utf8ByteSize + 2 := by
  rw [utf8ByteSize_quoted, String.toList_ofList, List.map_replicate, List.sum_replicate_nat]

/-- A text in quotes takes at most six times its own bytes, and the quotes. -/
theorem utf8ByteSize_quoted_le (text : String) :
    (quoted text).utf8ByteSize ≤ 6 * text.utf8ByteSize + 2 := by
  rw [utf8ByteSize_quoted, utf8ByteSize_eq_sum, ← List.sum_map_mul_left]
  exact Nat.add_le_add_right (List.sum_le_sum fun char _ => utf8ByteSize_plain_char_le char) 2

/-- A character in quotes takes no fewer bytes than its own, as no escape is
shorter than what it stands for. -/
theorem utf8Size_le_plain_char (char : Char) :
    char.utf8Size ≤ (Style.plain.char char).utf8ByteSize := by
  cases escaped : escape? char with
  | none =>
    simp only [Style.plain, escaped, Option.getD_none, Char.toString_eq_singleton,
      String.utf8ByteSize_singleton, Nat.le_refl]
  | some written =>
    have spelled : Style.plain.char char = written := by
      simp only [Style.plain, escaped, Option.getD_some]
    rw [spelled]
    exact Nat.le_of_lt (utf8Size_lt_of_escape char written escaped)

/-- A text in quotes is longer than the text by the two quotes at least. -/
theorem le_utf8ByteSize_quoted (text : String) :
    text.utf8ByteSize + 2 ≤ (quoted text).utf8ByteSize := by
  rw [utf8ByteSize_quoted, utf8ByteSize_eq_sum]
  exact Nat.add_le_add_right (List.sum_le_sum fun char _ => utf8Size_le_plain_char char) 2

/-- An array that holds something takes the bytes of its items, a comma or bracket
behind each, and one in front. -/
theorem utf8ByteSize_brackets {items : List String} (holds : items ≠ []) :
    (brackets items).utf8ByteSize = 1 + (items.map fun item => item.utf8ByteSize + 1).sum := by
  obtain ⟨first, rest, rfl⟩ := List.exists_cons_of_ne_nil holds
  have comma : ",".utf8ByteSize = 1 := by decide
  have opening : "[".utf8ByteSize = 1 := by decide
  have closing : "]".utf8ByteSize = 1 := by decide
  rw [brackets, String.utf8ByteSize_append, String.utf8ByteSize_append,
    utf8ByteSize_intercalate_cons, comma, opening, closing, List.map_cons, List.sum_cons]
  simp only [Nat.add_comm 1]
  omega

/-- A written object takes one byte more than its members, where each member has a
colon and a comma or a brace. -/
theorem utf8ByteSize_object {members : List (String × String)} (holds : members ≠ []) :
    (object members).utf8ByteSize
      = 1 + (members.map fun member =>
          (quoted member.1).utf8ByteSize + member.2.utf8ByteSize + 2).sum := by
  obtain ⟨first, rest, rfl⟩ := List.exists_cons_of_ne_nil holds
  have colon : ":".utf8ByteSize = 1 := by decide
  have comma : ",".utf8ByteSize = 1 := by decide
  have opening : "\x7b".utf8ByteSize = 1 := by decide
  have closing : "\x7d".utf8ByteSize = 1 := by decide
  have member (key value : String) : (Style.plain.quote key ++ ":" ++ value).utf8ByteSize
      = (quoted key).utf8ByteSize + value.utf8ByteSize + 1 := by
    rw [String.utf8ByteSize_append, String.utf8ByteSize_append, colon, quoted]
    omega
  rw [object, Style.braces, String.utf8ByteSize_append, String.utf8ByteSize_append, List.map_cons,
    utf8ByteSize_intercalate_cons, List.map_map, opening, closing, List.map_cons, List.sum_cons,
    comma]
  simp only [Function.comp_def, member]
  have behind :
      (rest.map fun other => 1 + ((quoted other.1).utf8ByteSize + other.2.utf8ByteSize + 1))
      = rest.map fun other => (quoted other.1).utf8ByteSize + other.2.utf8ByteSize + 2 :=
    List.map_congr_left fun other _ => by omega
  rw [behind]
  omega

/-- An array takes at most as many bytes as the bound of its items, a comma
for each, and the brackets. -/
theorem utf8ByteSize_brackets_le (items : List String) (bound : Nat)
    (bounded : ∀ item ∈ items, item.utf8ByteSize ≤ bound) :
    (brackets items).utf8ByteSize ≤ items.length * (bound + 1) + 2 := by
  have inner := utf8ByteSize_intercalate_le "," items bound bounded
  have comma : ",".utf8ByteSize = 1 := by decide
  have opening : "[".utf8ByteSize = 1 := by decide
  have closing : "]".utf8ByteSize = 1 := by decide
  rw [comma] at inner
  rw [brackets, String.utf8ByteSize_append, String.utf8ByteSize_append, opening, closing]
  omega

/-- It takes at least that many, without a bracket, where the bound is one from below. -/
theorem le_utf8ByteSize_brackets (items : List String) (bound : Nat)
    (bounded : ∀ item ∈ items, bound ≤ item.utf8ByteSize) :
    items.length * (bound + 1) ≤ (brackets items).utf8ByteSize := by
  by_cases holds : items = []
  · subst holds
    simp
  · have parts :=
      List.card_nsmul_le_sum (items.map fun item => item.utf8ByteSize + 1) (bound + 1) (by
        simpa using bounded)
    rw [List.length_map, Nat.nsmul_eq_mul] at parts
    rw [utf8ByteSize_brackets holds]
    omega

end Json

end LedgerIntake
