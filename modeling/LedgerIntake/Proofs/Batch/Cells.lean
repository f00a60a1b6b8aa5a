import Mathlib.Data.List.Forall2
import LedgerIntake.Batch.Reader
import LedgerIntake.Batch.Writer
import LedgerIntake.Proofs.Batch.Inference
import LedgerIntake.Proofs.Json.NumberReading

/-!
# Cells read back

A cursor that stands in front of what was written takes it and stands behind it. Presence bits and
cells are read back one by one; what a cell becomes depends on the type of its column alone.
-/

namespace LedgerIntake.Batch

open Json

namespace Cursor

/-- Bytes in front of others are taken as they are, and the cursor stands behind them. -/
theorem take_append (offset : Nat) (front rest : Bytes) (needed : Nat)
    (length : front.length = needed) :
    take ⟨offset, front ++ rest⟩ needed = .ok (front, ⟨offset + needed, rest⟩) := by
  subst length
  rw [take, List.splitAt_eq]
  dsimp only
  rw [List.take_left, List.drop_left, if_pos rfl]

/-- A number that fits its width is read as it was written, whatever follows. -/
theorem number_littleEndian (offset width value : Nat) (rest : Bytes)
    (fits : value < 1 <<< (8 * width)) :
    number ⟨offset, Bytes.littleEndian width value ++ rest⟩ width =
      .ok (value, ⟨offset + width, rest⟩) := by
  rw [number, take_append offset _ rest width (Bytes.length_littleEndian width value)]
  dsimp only [bind, Except.bind, pure, Except.pure]
  rw [Bytes.ofLittleEndian_littleEndian width value fits]

/-- Bytes behind their length are read as they were written. That they were written says that
the length fits four bytes. -/
theorem sized_writeSized (offset : Nat) (column : String) (content bytes rest : Bytes)
    (written : writeSized column content = .ok bytes) :
    sized ⟨offset, bytes ++ rest⟩ = .ok (content, ⟨offset + bytes.length, rest⟩) := by
  unfold writeSized at written
  dsimp only at written
  split at written
  · next small =>
    cases written
    rw [sized, List.append_assoc, number_littleEndian offset 4 _ _ small]
    dsimp only [bind, Except.bind]
    rw [take_append _ content rest _ rfl, List.length_append, Bytes.length_littleEndian,
      Nat.add_assoc]
  · cases written

end Cursor

/-- What a cell is after it has been written to a column of some type and read back. -/
inductive ColumnType.Carries : ColumnType → Value → Value → Prop
  /-- A cell without a value has none in a column of any type. -/
  | null (type : ColumnType) : Carries type .null .null
  | bool (value : Bool) : Carries .bool (.bool value) (.bool value)
  | int64 (number : Number) (integer : Int) (known : number.integer? = some integer) :
      Carries .int64 (.number number) (.number number)
  /-- A binary64 keeps its pattern. -/
  | float (value : Binary64) (finite : value.isFinite = true) :
      Carries .float64 (.number (.float value finite)) (.number (.float value finite))
  /-- An integer among binary64 becomes the one that equals it. -/
  | widened (number : Number) (integer : Int) (value : Binary64) (finite : value.isFinite = true)
      (known : number.integer? = some integer) (equal : value.toInt? = some integer) :
      Carries .float64 (.number number) (.number (.float value finite))
  | utf8 (value : String) : Carries .utf8 (.text value) (.text value)
  /-- Any value of a column of JSON text is what its text is read as. -/
  | json (value decoded : Value) (present : value.isNull = false)
    (reads : read? value.toText = some decoded) :
      Carries .json value decoded

section Numbers

/-- The pattern of a 64-bit integer is read as that integer. A negative integer is written as its
complement to 2⁶⁴, and reading undoes this at 2⁶³. -/
theorem signed_int64Pattern {number : Number} {integer : Int}
    (known : number.integer? = some integer)
    (range : Signed64 integer) :
    ∃ pattern, int64Pattern? number = some pattern ∧ pattern < UInt64.size ∧
      signed pattern = number := by
  obtain ⟨least, greatest⟩ := range
  refine ⟨if integer < 0 then (integer + UInt64.size).toNat else integer.toNat, ?_, ?_, ?_⟩
  · rw [int64Pattern?, known]
    exact if_pos ⟨least, greatest⟩
  · simp only [UInt64.size]
    split <;> omega
  · have back :
        (if (if integer < 0 then (integer + UInt64.size).toNat else integer.toNat)
          < 0x8000000000000000
        then (((if integer < 0 then (integer + UInt64.size).toNat else integer.toNat) : Nat) : Int)
        else ((if integer < 0 then (integer + UInt64.size).toNat else integer.toNat) : Nat)
          - UInt64.size)
          = integer := by
      simp only [UInt64.size]
      by_cases negative : integer < 0
      · rw [if_pos negative, if_neg (by omega)]
        omega
      · rw [if_neg negative, if_pos (by omega)]
        omega
    rw [signed, back, Number.ofInt?_integer known, Option.getD_some]

/-- The pattern of a binary64 is read as that binary64: patterns are not changed on the way. -/
theorem ofBits_toNat (value : Binary64) : Binary64.ofBits value.toNat = value := by
  rw [Binary64.ofBits, Binary64.toNat, UInt64.ofNat_toNat]

/-- A finite pattern is a number. Infinities and what is no number have no place in a column. -/
theorem ofBinary64?_of_isFinite (value : Binary64) (finite : value.isFinite = true) :
    Number.ofBinary64? value = some (.float value finite) := dif_pos finite

/-- An integer that is written as a binary64 is exactly that binary64, as
up to 2⁵³ nothing is rounded. -/
theorem float64Pattern_integer {number : Number} {integer : Int}
    (known : number.integer? = some integer)
    (exact : integer.natAbs ≤ exactIntegerLimit) :
    ∃ value : Binary64, float64Pattern number = value.toNat ∧ value.isFinite = true ∧
      value.toInt? = some integer := by
  obtain ⟨finite, equal⟩ := Binary64.toInt?_ofInt integer exact
  refine ⟨Binary64.ofInt integer, ?_, finite, equal⟩
  cases number with
  | natural value =>
    cases known
    have positive : decide ((value.toNat : Int) < 0) = false := decide_eq_false (by omega)
    rw [float64Pattern, Binary64.ofInt, positive, Int.natAbs_natCast]
    rfl
  | negative below =>
    cases known
    rfl
  | float value finite => cases known

end Numbers

section Cells

variable {column : String} (offset : Nat) (rest : Bytes)

/-- A byte that is one or zero is read as the truth value it stands for; other bytes are refused. -/
theorem readCell_bool (value : Bool) :
    readCell column .bool ⟨offset, Bytes.littleEndian 1 value.toNat ++ rest⟩
      = .ok (.bool value, ⟨offset + 1, rest⟩) := by
  have fits : value.toNat < 1 <<< (8 * 1) := Nat.lt_of_lt_of_le (Bool.toNat_lt value) (by decide)
  rw [readCell, Cursor.number_littleEndian offset 1 _ rest fits]
  cases value <;> rfl

/-- A binary64 of eight bytes is read as it was written, bit by bit. -/
theorem readCell_float64 (value : Binary64) (finite : value.isFinite = true) :
    readCell column .float64 ⟨offset, Bytes.littleEndian 8 value.toNat ++ rest⟩
      = .ok (.number (.float value finite), ⟨offset + 8, rest⟩) := by
  have fits : value.toNat < 1 <<< (8 * 8) := value.bits.toNat_lt_size
  rw [readCell, Cursor.number_littleEndian offset 8 _ rest fits]
  dsimp only [bind, Except.bind]
  rw [ofBits_toNat, ofBinary64?_of_isFinite value finite]
  rfl

/-- A column of JSON text holds the text of its cells behind its length. -/
theorem writeCell_json (column : String) {cell : Value} (present : cell.isNull = false) :
    writeCell column .json cell = writeSized column (Utf8.encode cell.toText) := by
  rw [writeCell.eq_def, if_neg (by rw [present]; decide)]

/-- The cell that a column holds is read back from its bytes, and the cursor stands
behind them. There is one case for each way to hold a cell; widened integers come back
as floats of the same value. -/
theorem readCell_writeCell {type : ColumnType} {cell : Value} {bytes : Bytes}
    (holds : type.Holds cell)
    (present : cell.isNull = false) (shallow : cell.depth ≤ greatestDepth)
    (written : writeCell column type cell = .ok bytes) :
    ∃ decoded, readCell column type ⟨offset, bytes ++ rest⟩ =
      .ok (decoded, ⟨offset + bytes.length, rest⟩) ∧
      type.Carries cell decoded := by
  have whole := written
  rw [writeCell.eq_def, if_neg (by rw [present]; decide)] at written
  cases holds with
  | null => cases present
  | bool value =>
    cases value with
    | true =>
      cases written
      exact ⟨.bool true, readCell_bool offset rest true, .bool true⟩
    | false =>
      cases written
      exact ⟨.bool false, readCell_bool offset rest false, .bool false⟩
  | int64 number integer known range =>
    obtain ⟨pattern, found, fits, back⟩ := signed_int64Pattern known range
    dsimp only at written
    rw [found] at written
    cases written
    refine ⟨.number number, ?_, .int64 number integer known⟩
    rw [readCell, Cursor.number_littleEndian offset 8 _ rest fits]
    dsimp only [bind, Except.bind, pure, Except.pure]
    rw [back, Bytes.length_littleEndian]
  | float value finite =>
    cases written
    refine ⟨_, ?_, .float value finite⟩
    rw [Bytes.length_littleEndian]
    exact readCell_float64 offset rest value finite
  | widened number integer known exact =>
    obtain ⟨value, pattern, finite, equal⟩ := float64Pattern_integer known exact
    dsimp only at written
    rw [pattern] at written
    cases written
    refine ⟨_, ?_, .widened number integer value finite known equal⟩
    rw [Bytes.length_littleEndian]
    exact readCell_float64 offset rest value finite
  | utf8 value =>
    refine ⟨.text value, ?_, .utf8 value⟩
    rw [readCell, Cursor.sized_writeSized offset column _ bytes rest written]
    dsimp only [bind, Except.bind]
    rw [Utf8.decode?_encode]
    rfl
  | json cell =>
    have reads := readBytes?_toText cell shallow
    rw [writeCell_json column present] at whole
    refine ⟨_, ?_, .json cell _ present reads⟩
    rw [readCell, Cursor.sized_writeSized offset column _ bytes rest whole]
    dsimp only [bind, Except.bind]
    rw [reads]
    rfl

end Cells

section Bitmap

/-- The bits of a byte, the lowest first. -/
def unpackBits (byte : UInt8) : List Bool := (List.range 8).map byte.toNat.testBit

/-- The number whose binary digits are some bits. -/
def bitsValue (bits : List Bool) : Nat := bits.foldr (fun bit higher => bit.toNat + 2 * higher) 0

/-- The bits of the value of some bits are those bits, and zeros behind them. The induction is on
the bits, each of which doubles the value of the rest. -/
theorem testBit_bitsValue (bits : List Bool) (index : Nat) :
    (bitsValue bits).testBit index = bits.getD index false := by
  induction bits generalizing index with
  | nil => exact Nat.zero_testBit index
  | cons bit rest inductionHypothesis =>
    have small := Bool.toNat_le bit
    show (bit.toNat + 2 * bitsValue rest).testBit index = _
    cases index with
    | zero =>
      rw [Nat.testBit_zero, Nat.add_mul_mod_self_left]
      cases bit <;> rfl
    | succ index =>
      have half : (bit.toNat + 2 * bitsValue rest) / 2 = bitsValue rest := by omega
      rw [Nat.testBit_succ, half]
      exact inductionHypothesis index

/-- At most eight bits are unpacked from the byte that they were packed into, and
what follows them is clear. -/
theorem unpackBits_packBits (bits : List Bool) (few : bits.length ≤ 8) :
    unpackBits (packBits bits) = bits ++ List.replicate (8 - bits.length) false := by
  apply List.ext_getElem
  · simp only [unpackBits, List.length_map, List.length_range, List.length_append,
      List.length_replicate]
    omega
  · intro index inside _
    have byte : index < 8 := by simpa [unpackBits] using inside
    have bit : (packBits bits).toNat.testBit index = bits.getD index false := by
      have value : (packBits bits).toNat = bitsValue bits % 2 ^ 8 := UInt8.toNat_ofNat'
      rw [value, Nat.testBit_mod_two_pow, decide_eq_true byte, Bool.true_and, testBit_bitsValue]
    simp only [unpackBits, List.getElem_map, List.getElem_range, bit]
    rw [List.getElem_append]
    split
    · next within =>
        rw [List.getD_eq_getElem?_getD, List.getElem?_eq_getElem within, Option.getD_some]
    · next beyond =>
      rw [List.getElem_replicate, List.getD_eq_getElem?_getD,
        List.getElem?_eq_none (Nat.le_of_not_lt beyond), Option.getD_none]

/-- Unpacking a bitmap gives the bits that were packed, and perhaps more behind them. -/
theorem flatMap_packBitmap (written : Bytes) (bits : List Bool) :
    ∃ padding, (packBitmap written bits).flatMap unpackBits
      = written.reverse.flatMap unpackBits ++ (bits ++ padding) := by
  fun_induction packBitmap written bits with
  | case1 written bits empty =>
    rw [List.isEmpty_iff.mp empty]
    exact ⟨[], by rw [List.append_nil, List.append_nil]⟩
  | case2 written bits present inductionHypothesis =>
    obtain ⟨padding, unpacked⟩ := inductionHypothesis
    have few : (bits.take 8).length ≤ 8 := List.length_take_le 8 bits
    rw [unpacked, List.reverse_cons, List.flatMap_append, List.flatMap_singleton,
      unpackBits_packBits _ few]
    by_cases full : 8 ≤ bits.length
    · have whole : (bits.take 8).length = 8 := List.length_take_of_le full
      refine ⟨padding, ?_⟩
      rw [whole, Nat.sub_self, List.replicate_zero, List.append_nil, List.append_assoc,
        ← List.append_assoc (bits.take 8), List.take_append_drop]
    · have short : bits.length ≤ 8 := by omega
      rw [List.take_of_length_le short, List.drop_of_length_le short, List.nil_append]
      exact ⟨_, by rw [List.append_assoc, List.append_assoc]⟩

/-- The presence bits that were packed are read from their bitmap; the bits that
fill the last byte are cut off. -/
theorem presence_packBitmap (bits : List Bool) :
    presence (packBitmap [] bits) bits.length = bits := by
  obtain ⟨padding, unpacked⟩ := flatMap_packBitmap [] bits
  show ((packBitmap [] bits).flatMap unpackBits).take bits.length = bits
  rw [unpacked, List.reverse_nil, List.flatMap_nil, List.nil_append, List.take_left]

/-- A packed bitmap has a byte for every eight bits that are begun. The induction takes eight bits
at a time, as packing does. -/
theorem length_packBitmap (written : Bytes) (bits : List Bool) :
    (packBitmap written bits).length = written.length + bitmapLength bits.length := by
  fun_induction packBitmap written bits with
  | case1 written bits empty =>
    rw [List.isEmpty_iff.mp empty, List.length_reverse]
    rfl
  | case2 written bits present inductionHypothesis =>
    have some : 0 < bits.length := by
      cases bits with
      | nil => exact absurd rfl present
      | cons bit rest => exact Nat.succ_pos _
    rw [inductionHypothesis, List.length_cons, List.length_drop]
    simp only [bitmapLength]
    omega

/-- The bitmap of the most rows is no body that is too large, so null columns are always written. -/
theorem bitmapLength_lt_sizeLimit {rows : Nat} (few : rows ≤ rowLimit) :
    bitmapLength rows < sizeLimit := by
  have large : 0x20000 < sizeLimit := by decide
  rw [rowLimit] at few
  rw [bitmapLength]
  omega

end Bitmap

section Bodies

variable {column : String} {type : ColumnType}

/-- A list whose items are all computed is computed item by item, so results can be
compared with items in pairs. -/
theorem forall₂_of_mapM {ε α β : Type} {compute : α → Except ε β} {items : List α}
    {results : List β}
    (computed : items.mapM compute = .ok results) :
    List.Forall₂ (fun item result => compute item = .ok result) items results := by
  induction items generalizing results with
  | nil =>
    cases computed
    exact .nil
  | cons item rest inductionHypothesis =>
    rw [List.mapM_cons] at computed
    cases first : compute item with
    | error refusal =>
      rw [first] at computed
      cases computed
    | ok result =>
      cases others : rest.mapM compute with
      | error refusal =>
        rw [first, others] at computed
        cases computed
      | ok more =>
        rw [first, others] at computed
        cases computed
        exact .cons first (inductionHypothesis others)

/-- A list is computed if each of its items is, since nothing stops it before the end. -/
theorem exists_mapM {ε α β : Type} {compute : α → Except ε β} {items : List α}
    (each : ∀ item ∈ items, ∃ result, compute item = .ok result) :
    ∃ results, items.mapM compute = .ok results := by
  induction items with
  | nil => exact ⟨[], rfl⟩
  | cons item rest inductionHypothesis =>
    obtain ⟨first, computed⟩ := each item List.mem_cons_self
    obtain ⟨others, computed'⟩ := inductionHypothesis fun other member =>
      each other (List.mem_cons_of_mem _ member)
    refine ⟨first :: others, ?_⟩
    rw [List.mapM_cons, computed, computed']
    rfl

/-- A list that is not computed has an item that is not, and fails for the reason of that item. -/
theorem exists_of_mapM_error {ε α β : Type} {compute : α → Except ε β} {items : List α} {fault : ε}
    (failed : items.mapM compute = .error fault) : ∃ item ∈ items, compute item = .error fault := by
  induction items with
  | nil => cases failed
  | cons item rest inductionHypothesis =>
    rw [List.mapM_cons] at failed
    cases first : compute item with
    | error other =>
      rw [first] at failed
      cases failed
      exact ⟨item, List.mem_cons_self, first⟩
    | ok result =>
      cases others : rest.mapM compute with
      | error other =>
        rw [first, others] at failed
        cases failed
        obtain ⟨later, member, known⟩ := inductionHypothesis others
        exact ⟨later, List.mem_cons_of_mem _ member, known⟩
      | ok results =>
        rw [first, others] at failed
        cases failed

/-- Cells are read back one by one: a clear presence bit stands for null, and a set one for a cell.
The induction is on the cells together with their bytes. -/
theorem readCells_written {cells : List Value} {values : List Bytes}
    (holds : ∀ cell ∈ cells, type.Holds cell)
    (shallow : ∀ cell ∈ cells, cell.depth ≤ greatestDepth)
    (written : List.Forall₂ (fun cell bytes => writeCell column type cell = .ok bytes) cells values)
    (offset : Nat) (rest : Bytes) (read : List Value) :
    ∃ decoded, readCells column type ⟨offset, values.flatten ++ rest⟩ read
    (cells.map fun cell => !cell.isNull)
        = .ok (read.reverse ++ decoded, ⟨offset + values.flatten.length, rest⟩) ∧
      List.Forall₂ type.Carries cells decoded := by
  induction written generalizing offset read with
  | nil => exact ⟨[], by rw [List.append_nil]; rfl, .nil⟩
  | @cons cell bytes cells values first others inductionHypothesis =>
    have later :=
      inductionHypothesis (fun other member => holds other (List.mem_cons_of_mem _ member))
        (fun other member => shallow other (List.mem_cons_of_mem _ member))
    rw [List.flatten_cons, List.length_append, List.append_assoc, ← Nat.add_assoc, List.map_cons]
    cases absent : cell.isNull with
    | true =>
      have empty : bytes = [] := by
        rw [writeCell.eq_def, if_pos absent] at first
        cases first
        rfl
      have null : cell = .null := by
        cases cell with
        | null => rfl
        | _ => cases absent
      obtain ⟨decoded, found, carried⟩ := later offset (.null :: read)
      refine ⟨.null :: decoded, ?_, .cons (null ▸ .null type) carried⟩
      rw [empty, Bool.not_true, readCells]
      rw [List.reverse_cons, List.append_assoc, List.singleton_append] at found
      exact found
    | false =>
      obtain ⟨value, cellRead, carries⟩ := readCell_writeCell offset (values.flatten ++ rest)
        (holds cell List.mem_cons_self) absent (shallow cell List.mem_cons_self) first
      obtain ⟨decoded, found, carried⟩ := later (offset + bytes.length) (value :: read)
      refine ⟨value :: decoded, ?_, .cons carries carried⟩
      rw [Bool.not_false, readCells, cellRead]
      rw [List.reverse_cons, List.append_assoc, List.singleton_append] at found
      exact found

/-- The parts of a body that was written: the presence bits, and the cells one behind the other. -/
theorem writeBody_parts {cells : List Value} {body : Bytes}
    (written : writeBody column type cells = .ok body) :
    ∃ values, List.Forall₂ (fun cell bytes => writeCell column type cell = .ok bytes) cells values ∧
      body = packBitmap [] (cells.map fun cell => !cell.isNull) ++ values.flatten := by
  rw [writeBody] at written
  cases computed : cells.mapM (writeCell column type) with
  | error fault =>
    rw [computed] at written
    cases written
  | ok values =>
    rw [computed] at written
    cases written
    exact ⟨values, forall₂_of_mapM computed, rfl⟩

/-- Reading a body behind its presence bits comes down to reading its cells. What is left
behind them is told as unused. -/
theorem readBody_parts (cells : List Value) (values : Bytes) (offset : Nat) :
    readBody column type cells.length
      ⟨offset, packBitmap [] (cells.map fun cell => !cell.isNull) ++ values⟩
      = readCells column type ⟨offset + bitmapLength cells.length, values⟩ []
      (cells.map fun cell => !cell.isNull)
        >>= fun (decoded, last) =>
          if last.rest.isEmpty then .ok decoded else refuse column
          (.unusedBytes last.rest.length) := by
  have width : (packBitmap [] (cells.map fun cell => !cell.isNull)).length
    = bitmapLength cells.length := by
    rw [length_packBitmap, List.length_nil, Nat.zero_add, List.length_map]
  have present := presence_packBitmap (cells.map fun cell => !cell.isNull)
  rw [List.length_map] at present
  rw [readBody, Cursor.take_append offset _ _ _ width]
  dsimp only [bind, Except.bind]
  rw [present]
  rfl

/-- The body of a column is read back, and its cells fill it: no byte is left behind the last. -/
theorem readBody_writeBody {cells : List Value} {body : Bytes}
    (holds : ∀ cell ∈ cells, type.Holds cell)
    (shallow : ∀ cell ∈ cells, cell.depth ≤ greatestDepth)
    (written : writeBody column type cells = .ok body)
    (offset : Nat) :
    ∃ decoded, readBody column type cells.length ⟨offset, body⟩ = .ok decoded ∧
      List.Forall₂ type.Carries cells decoded := by
  obtain ⟨values, each, rfl⟩ := writeBody_parts written
  obtain ⟨decoded, found, carried⟩ :=
    readCells_written holds shallow each (offset + bitmapLength cells.length) [] []
  rw [List.append_nil, List.reverse_nil, List.nil_append] at found
  refine ⟨decoded, ?_, carried⟩
  rw [readBody_parts, found]
  rfl

end Bodies

end LedgerIntake.Batch
