import LedgerIntake.CallerBuffer
import LedgerIntake.Proofs.Hashing
import LedgerIntake.Proofs.Json.Values
import LedgerIntake.Proofs.Text.Utf8Decoding

/-!
# What calls through buffers leave behind

A call is what the library gives for the value in the caller's memory, followed by a copy that is
either whole or not made. `Served` tells its status and the buffer after it in the order in which a
caller can tell the reasons apart: the memory first, and the buffer only where there is a text for
it. The text has no zero byte of its own, so that reading it back stops at the one behind it and
nowhere else.
-/

namespace LedgerIntake

open Json

section ZeroBytes

/-- Hexadecimal digits are written without a zero byte, so digests can
be handed over as they are. -/
theorem zero_notMem_toHex (bytes : Bytes) : 0 ∉ Utf8.encode bytes.toHex := by
  have digits : ∀ digit : Fin 16, 0 ∉ String.utf8EncodeChar (Bytes.hexDigit digit.val) := by decide
  rw [← String.ofList_toList (s := bytes.toHex), Utf8.encode_ofList]
  intro member
  obtain ⟨digit, written, inside⟩ := List.mem_flatMap.mp member
  obtain ⟨value, small, rfl⟩ := Bytes.exists_hexDigit_of_mem written
  exact digits ⟨value, small⟩ inside

/-- Every escape is written without a zero byte, that of the zero character included. -/
theorem zero_notMem_escape {char : Char} {written : String}
    (escaped : escape? char = some written) :
    0 ∉ Utf8.encode written := by
  have short : ∀ pair ∈ shortEscapes, 0 ∉ Utf8.encode pair.2 := by decide
  have letters : 0 ∉ Utf8.encode "\\u" := by decide
  rcases escape?_eq_some escaped with among | ⟨-, rfl⟩
  · exact short _ among
  · rw [escapeUnit, Utf8.encode_append, List.mem_append, not_or]
    exact ⟨letters, zero_notMem_toHex _⟩

/-- A character that is written raw is no control, so that no character of a
plain text has a zero byte. -/
theorem zero_notMem_plain_char (char : Char) : 0 ∉ Utf8.encode (Style.plain.char char) := by
  cases escaped : escape? char with
  | none =>
    obtain ⟨quote, backslash, visible⟩ := plain_of_escape char escaped
    have raw : Utf8.encode (Style.plain.char char) = String.utf8EncodeChar char := by
      simp only [Style.plain, escaped, Option.getD_none, Char.toString_eq_singleton, Utf8.encode,
        String.toList_singleton, List.flatMap_singleton]
    rw [raw]
    intro member
    exact absurd (plain_utf8EncodeChar char quote backslash visible 0 member).2.2 (by decide)
  | some written =>
    have spelled : Style.plain.char char = written := by
      simp only [Style.plain, escaped, Option.getD_some]
    exact spelled ▸ zero_notMem_escape escaped

/-- Quoted text holds no zero byte: a zero character is escaped, and every other one has bytes above
zero. So a caller finds the end of a text where its zero byte stands. -/
theorem zero_notMem_quoted (text : String) : 0 ∉ Utf8.encode (quoted text) := by
  have quote : 0 ∉ Utf8.encode "\"" := by decide
  have inside : 0 ∉ Utf8.encode (String.join (text.toList.map Style.plain.char)) := by
    induction text.toList with
    | nil => decide
    | cons char rest inductionHypothesis =>
      rw [List.map_cons, String.join_cons, Utf8.encode_append, List.mem_append, not_or]
      exact ⟨zero_notMem_plain_char char, inductionHypothesis⟩
  rw [quoted, Style.quote, Utf8.encode_append, Utf8.encode_append, List.mem_append, List.mem_append,
    not_or, not_or]
  exact ⟨⟨quote, inside⟩, quote⟩

/-- Brackets and commas add no zero byte to the texts between them. -/
theorem zero_notMem_brackets {items : List String} (free : ∀ item ∈ items, 0 ∉ Utf8.encode item) :
    0 ∉ Utf8.encode (brackets items) := by
  have opening : 0 ∉ Utf8.encode "[" := by decide
  have closing : 0 ∉ Utf8.encode "]" := by decide
  have inside : 0 ∉ Utf8.encode (String.intercalate "," items) := by
    cases items with
    | nil => decide
    | cons first rest =>
      obtain ⟨head, others⟩ := List.forall_mem_cons.mp free
      rw [encode_intercalate, List.mem_append, not_or]
      refine ⟨head, ?_⟩
      intro member
      obtain ⟨item, among, within⟩ := List.mem_flatMap.mp member
      exact others item among ((List.mem_cons.mp within).resolve_left (by decide))
  rw [brackets, Utf8.encode_append, Utf8.encode_append, List.mem_append, List.mem_append, not_or,
    not_or]
  exact ⟨⟨opening, inside⟩, closing⟩

end ZeroBytes

namespace CallerBuffer

/-- What the library gives for a request on a value, if the value has
the shape that is asked for. -/
def Request.text? : Request → Value → Option String
  | .merkleRoot, .array records => some (Merkle.rootOf records).toText
  | .blockHash, value => (BlockHeader.ofJson value).toOption.map fun header => header.hash.toText
  | .batchHashes, .array records =>
    some (Value.array ((Merkle.hashes records).map fun digest => .text digest.toText)).toText
  | _, _ => none

/-- No text that the library gives has a zero byte, so what is copied ends
where its own zero byte stands. -/
theorem Request.zero_notMem_text {request : Request} {value : Value} {text : String}
    (gives : request.text? value = some text) : 0 ∉ Utf8.encode text := by
  unfold text? at gives
  split at gives
  · cases gives
    exact zero_notMem_toHex _
  · obtain ⟨header, -, rfl⟩ := Option.map_eq_some_iff.mp gives
    exact zero_notMem_toHex _
  · cases gives
    rw [Value.toText, Value.write, writeItems_eq]
    apply zero_notMem_brackets
    intro item member
    obtain ⟨value, among, rfl⟩ := List.mem_map.mp member
    obtain ⟨digest, -, rfl⟩ := List.mem_map.mp among
    exact zero_notMem_quoted digest.toText
  · cases gives

/-- A value stands in a caller's memory, as JSON text in front of the first zero byte. -/
def Holds (memory : Option Bytes) (value : Value) : Prop :=
  ∃ bytes source, memory = some bytes ∧
    bytes.takeWhile (fun byte => byte ≠ 0) = Utf8.encode source ∧
    read? source = some value

/-- Memory that holds no value of a shape, and the status that tells why. -/
inductive Refused (shape : Value → Prop) : (memory : Option Bytes) → (status : Int) → Prop
  | absent : Refused shape none (-1)
  | notUtf8 (bytes : Bytes)
    (stray : ∀ source, bytes.takeWhile (fun byte => byte ≠ 0) ≠ Utf8.encode source) :
      Refused shape (some bytes) (-2)
  | wrongShape (bytes : Bytes) (source : String)
      (content : bytes.takeWhile (fun byte => byte ≠ 0) = Utf8.encode source)
      (misshapen : ∀ value, read? source = some value → ¬shape value) :
      Refused shape (some bytes) (-3)

/-- What a call gives, and what it leaves in the caller's buffer. -/
inductive Served (request : Request) (memory : Option Bytes) :
    (buffer : Option Bytes) → Outcome → Prop
  /-- The memory is refused before the buffer is looked at. -/
  | refused (buffer : Option Bytes) (status : Int)
      (refused : Refused (fun value => (request.text? value).isSome) memory status) :
      Served request memory buffer ⟨status, buffer⟩
  | noBuffer (value : Value) (text : String) (holds : Holds memory value)
    (gives : request.text? value = some text) :
      Served request memory none ⟨-1, none⟩
  /-- The text and its zero byte do not fit. -/
  | tooSmall (value : Value) (text : String) (holds : Holds memory value)
    (gives : request.text? value = some text)
      (old : Bytes) (short : old.length < text.utf8ByteSize + 1) :
      Served request memory (some old) ⟨-4, some old⟩
  | copied (value : Value) (text : String) (holds : Holds memory value)
    (gives : request.text? value = some text)
      (old : Bytes) (room : text.utf8ByteSize + 1 ≤ old.length) :
      Served request memory (some old)
        ⟨0, some (Utf8.encode text ++ 0 :: old.drop (text.utf8ByteSize + 1))⟩

/-- What the check of an array of records gives. -/
inductive Validated (memory : Option Bytes) : (status : Int) → Prop
  | refused (status : Int)
      (refused : Refused (fun value => ∃ records, value = .array records) memory status) :
      Validated memory status
  | complete (records : List Value) (holds : Holds memory (.array records))
    (present : Record.allPresent records = true) :
      Validated memory 1
  | incomplete (records : List Value) (holds : Holds memory (.array records))
      (absent : Record.allPresent records = false) : Validated memory 0

variable {memory : Option Bytes} {shape : Value → Prop} {status : Int}

/-- Memory holds a value of a shape, or there is a status that tells why not. -/
theorem exists_refused_or_holds (shape : Value → Prop) (memory : Option Bytes) :
    (∃ status, Refused shape memory status) ∨ ∃ value, Holds memory value ∧ shape value := by
  cases memory with
  | none => exact .inl ⟨_, .absent⟩
  | some bytes =>
    by_cases legible : ∃ source, bytes.takeWhile (fun byte => byte ≠ 0) = Utf8.encode source
    · obtain ⟨source, content⟩ := legible
      by_cases shaped : ∃ value, read? source = some value ∧ shape value
      · obtain ⟨value, read, shaped⟩ := shaped
        exact .inr ⟨value, ⟨bytes, source, rfl, content, read⟩, shaped⟩
      · exact .inl ⟨_, .wrongShape bytes source content fun value read found =>
          shaped ⟨value, read, found⟩⟩
    · exact .inl ⟨_, .notUtf8 bytes fun source content => legible ⟨source, content⟩⟩

/-- What of a value is asked for, where its shape has it. -/
def require {α : Type} (part? : Value → Option α) (value : Value) : Except Failure α :=
  (part? value).elim (.error .wrongShape) .ok

/-- An array is read by reading a value and then asking for its items. So one lemma about refused
memory serves requests for any shape. -/
theorem readArray_eq (memory : Option Bytes) :
    readArray memory = readValue memory >>= require Value.array? := by
  rw [readArray]
  cases readValue memory with
  | error failure => rfl
  | ok value => cases value <;> rfl

/-- An answer is the text that the library gives for the value in the memory. Hashing does not fail,
so that every failure is one of the memory or of the shape of its value. -/
theorem answer_eq (request : Request) (memory : Option Bytes) :
    answer request memory = readValue memory >>= require request.text? := by
  cases request with
  | merkleRoot =>
    simp only [answer, readArray_eq, Hashing.merkleRoot_eq]
    cases readValue memory with
    | error failure => rfl
    | ok value => cases value <;> rfl
  | blockHash =>
    simp only [answer, Hashing.blockHashOf_eq]
    cases readValue memory with
    | error failure => rfl
    | ok value =>
      have text : require Request.blockHash.text? value
          = ((BlockHeader.ofJson value).toOption.map fun header => header.hash.toText).elim
            (.error .wrongShape) .ok := rfl
      dsimp only [bind, Except.bind]
      rw [text, BlockHeader.hashOf]
      cases BlockHeader.ofJson value <;> rfl
  | batchHashes =>
    simp only [answer, readArray_eq, Hashing.batchHashes_eq]
    cases readValue memory with
    | error failure => rfl
    | ok value => cases value <;> rfl

/-- Memory is read as text up to its first zero byte; what stands behind it plays no part. -/
theorem readText_of_content {bytes : Bytes} {source : String}
    (content : bytes.takeWhile (fun byte => byte ≠ 0) = Utf8.encode source) :
    readText (some bytes) = .ok source := by
  simp only [readText, content, Utf8.decode?_encode]

/-- Memory is read as the value that its text denotes, and refused for its
shape if the text denotes none. -/
theorem readValue_of_content {bytes : Bytes} {source : String}
    (content : bytes.takeWhile (fun byte => byte ≠ 0) = Utf8.encode source) :
    readValue (some bytes) = (read? source).elim (.error .wrongShape) .ok := by
  rw [readValue, readText_of_content content]
  dsimp only [bind, Except.bind]
  cases read? source <;> rfl

/-- A value that memory holds is read, whatever stands behind its zero byte. -/
theorem readValue_of_holds {value : Value} (holds : Holds memory value) :
    readValue memory = .ok value := by
  obtain ⟨bytes, source, rfl, content, read⟩ := holds
  rw [readValue_of_content content, read]
  rfl

/-- Where memory holds no value of a shape, nothing is taken from it that asks for the shape. -/
theorem require_of_refused {α : Type} (part? : Value → Option α)
    (refused : Refused shape memory status)
    (shaped : ∀ value, (part? value).isSome → shape value) :
    ∃ failure : Failure, failure.status = status ∧
      readValue memory >>= require part? = .error failure := by
  cases refused with
  | absent => exact ⟨.noBuffer, rfl, rfl⟩
  | notUtf8 bytes stray =>
    have undecoded : Utf8.decode? (bytes.takeWhile fun byte => byte ≠ 0) = none := by
      rw [Option.eq_none_iff_forall_ne_some]
      intro source decoded
      exact stray source ((Utf8.decode?_eq_some_iff _ _).mp decoded)
    have unread : readText (some bytes) = .error .notUtf8 := by simp only [readText, undecoded]
    exact ⟨.notUtf8, rfl, by rw [readValue, unread]; rfl⟩
  | wrongShape bytes source content misshapen =>
    refine ⟨.wrongShape, rfl, ?_⟩
    rw [readValue_of_content content]
    cases read : read? source with
    | none => rfl
    | some value =>
      have lacking : part? value = none :=
        Option.not_isSome_iff_eq_none.mp fun found => misshapen value read (shaped value found)
      show require part? value = .error .wrongShape
      rw [require, lacking]
      rfl

/-- Of a value of the shape the part is taken that is asked for. -/
theorem require_of_holds {α : Type} (part? : Value → Option α) {value : Value} {part : α}
    (holds : Holds memory value)
    (found : part? value = some part) : readValue memory >>= require part? = .ok part := by
  rw [readValue_of_holds holds]
  show require part? value = .ok part
  rw [require, found]
  rfl

variable {request : Request} {buffer : Option Bytes}

/-- A call gives what is told of it, by one case for each of the ways in which it may end. -/
theorem call_of_served {outcome : Outcome} (served : Served request memory buffer outcome) :
    call request memory buffer = outcome := by
  rw [call]
  cases served with
  | refused buffer status refused =>
    obtain ⟨failure, rfl, failed⟩ := require_of_refused request.text? refused fun _ => id
    rw [answer_eq, failed]
    rfl
  | noBuffer value text holds gives =>
    rw [answer_eq, require_of_holds request.text? holds gives]
    rfl
  | tooSmall value text holds gives old short =>
    have full : old.length ≤ text.utf8ByteSize := Nat.le_of_lt_succ short
    rw [answer_eq, require_of_holds request.text? holds gives]
    simp only [deliver, Except.bind, writeText, Utf8.length_encode, full, if_true]
    rfl
  | copied value text holds gives old room =>
    have spare : ¬old.length ≤ text.utf8ByteSize := Nat.not_le.mpr room
    rw [answer_eq, require_of_holds request.text? holds gives]
    simp only [deliver, Except.bind, writeText, Utf8.length_encode, spare, if_false]

/-- Something is told of every call: either the memory is refused, or the buffer
decides between three ends. -/
theorem exists_served (request : Request) (memory buffer : Option Bytes) :
    ∃ outcome, Served request memory buffer outcome := by
  obtain ⟨status, refused⟩ | ⟨value, holds, gives⟩ :=
    exists_refused_or_holds (fun value => (request.text? value).isSome) memory
  · exact ⟨_, .refused buffer status refused⟩
  · obtain ⟨text, gives⟩ := Option.isSome_iff_exists.mp gives
    cases buffer with
    | none => exact ⟨_, .noBuffer value text holds gives⟩
    | some old =>
      by_cases short : old.length < text.utf8ByteSize + 1
      · exact ⟨_, .tooSmall value text holds gives old short⟩
      · exact ⟨_, .copied value text holds gives old (Nat.le_of_not_lt short)⟩

/-- The description of a call has exactly one outcome, the one that the call computes. Something is
told of every call, and what is told is what it gives; so nothing else can be told. -/
theorem served_iff {outcome : Outcome} :
    Served request memory buffer outcome ↔ call request memory buffer = outcome := by
  constructor
  · exact call_of_served
  · rintro rfl
    obtain ⟨outcome, served⟩ := exists_served request memory buffer
    exact call_of_served served ▸ served

/-- The check of records gives what is told of it, a verdict or the status of the refusal. -/
theorem validate_of_validated (validated : Validated memory status) : validate memory = status := by
  rw [validate, readArray_eq]
  cases validated with
  | refused status refused =>
    obtain ⟨failure, rfl, failed⟩ := require_of_refused Value.array? refused (by
      intro value found
      cases value with
      | array records => exact ⟨records, rfl⟩
      | null | bool | number | text | object => cases found)
    rw [failed]
  | complete records holds present =>
    rw [require_of_holds Value.array? holds rfl]
    exact if_pos present
  | incomplete records holds absent =>
    rw [require_of_holds Value.array? holds rfl]
    exact if_neg (Bool.eq_false_iff.mp absent)

/-- Every memory is validated with some status: it is refused, or its records have a verdict. -/
theorem exists_validated (memory : Option Bytes) : ∃ status, Validated memory status := by
  obtain ⟨status, refused⟩ | ⟨value, holds, records, rfl⟩ :=
    exists_refused_or_holds (fun value => ∃ records, value = .array records) memory
  · exact ⟨status, .refused status refused⟩
  · cases verdict : Record.allPresent records with
    | true => exact ⟨1, .complete records holds verdict⟩
    | false => exact ⟨0, .incomplete records holds verdict⟩

/-- A text that was copied is read back up to its zero byte, because it holds none itself. -/
theorem readText_copied {text : String} (free : 0 ∉ Utf8.encode text) (behind : Bytes) :
    readText (some (Utf8.encode text ++ 0 :: behind)) = .ok text := by
  apply readText_of_content
  have nonzero : ∀ byte ∈ Utf8.encode text, decide (byte ≠ 0) = true := by
    intro byte member
    exact decide_eq_true fun zero => free (zero ▸ member)
  rw [List.takeWhile_append_of_pos nonzero, List.takeWhile_cons_of_neg (by decide), List.append_nil]

/-- A call is what the library gives and a safe copy of it. Of every memory and every buffer the
status and the buffer afterwards are those that are told; a call that fails leaves the buffer as it
was, and one that succeeds leaves as many bytes, of which the text is read back. No other status
comes up, so the one for faults inside the library is never reached: a value that was read from text
can always be hashed and written. The check of an array of records refuses the same memory for the
same reasons, and gives its verdict otherwise. -/
theorem call_copies (request : Request) (memory buffer : Option Bytes) :
    (∀ outcome, Served request memory buffer outcome ↔ call request memory buffer = outcome) ∧
    ((call request memory buffer).status ≠ 0 → (call request memory buffer).buffer = buffer) ∧
    ((call request memory buffer).status = 0 →
      ∃ value text old written, Holds memory value ∧ request.text? value = some text ∧
        buffer = some old ∧
        (call request memory buffer).buffer = some written ∧ written.length = old.length ∧
        written = Utf8.encode text ++ 0 :: old.drop (text.utf8ByteSize + 1) ∧
        0 ∉ Utf8.encode text ∧ readText (some written) = .ok text) ∧
    (call request memory buffer).status ∈ ([0, -1, -2, -3, -4] : List Int) ∧
    ∀ status, Validated memory status ↔ validate memory = status := by
  have validated (status : Int) : Validated memory status ↔ validate memory = status := by
    constructor
    · exact validate_of_validated
    · rintro rfl
      obtain ⟨status, validated⟩ := exists_validated memory
      exact validate_of_validated validated ▸ validated
  refine ⟨fun outcome => served_iff, ?_⟩
  obtain ⟨outcome, served⟩ := exists_served request memory buffer
  rw [call_of_served served]
  cases served with
  | refused buffer status refused =>
    cases refused <;> exact ⟨fun _ => rfl, fun zero => absurd zero (by simp), by simp, validated⟩
  | noBuffer => exact ⟨fun _ => rfl, fun zero => absurd zero (by simp), by simp, validated⟩
  | tooSmall => exact ⟨fun _ => rfl, fun zero => absurd zero (by simp), by simp, validated⟩
  | copied value text holds gives old room =>
    have free := Request.zero_notMem_text gives
    refine ⟨fun failed => absurd rfl failed, fun _ => ?_, by simp, validated⟩
    refine ⟨value, text, old, _, holds, gives, rfl, rfl, ?_, rfl, free, readText_copied free _⟩
    rw [List.length_append, Utf8.length_encode, List.length_cons, List.length_drop]
    omega

/-- The text `[]` fits into three bytes and not into two. -/
example : call .batchHashes (some [91, 93, 0, 9]) (some [7, 7, 7, 7]) = ⟨0, some [91, 93, 0, 7]⟩ ∧
    call .batchHashes (some [91, 93, 0, 9]) (some [7, 7]) = ⟨-4, some [7, 7]⟩ := ⟨by cbv, by cbv⟩

end CallerBuffer

end LedgerIntake
