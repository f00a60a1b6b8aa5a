import LedgerIntake.Proofs.Batch.Faults

/-!
# Reading by index

The readers of a batch hand out bytes and keep those behind them. Read by index, a payload stays
where it is: a reader is a position in it, numbers and flags are put together from single bytes, and
the body of a column is read by a reader of its own that counts from zero, whose refusals are moved
by the position of the body. Each access by index is checked here, and one that falls outside has an
outcome of its own, different from every refusal. No access does, and both ways of reading do the
same.
-/

namespace LedgerIntake.Batch

open Json

/-- What reading by index does: nothing, where an access falls outside. -/
abbrev Indexed := ExceptT BatchError Option

namespace Indexed

section Definitions

/-- An access that falls outside. -/
def outside {α : Type} : Indexed α := ExceptT.mk none

/-- The byte at an index. -/
def byteAt (bytes : Bytes) (index : Nat) : Indexed UInt8 :=
  match bytes[index]? with
  | some byte => pure byte
  | none => outside

/-- The bytes from an index up to another one. -/
def slice (bytes : Bytes) (start stop : Nat) : Indexed Bytes :=
  if start ≤ stop ∧ stop ≤ bytes.length then pure ((bytes.drop start).take (stop - start))
    else outside

/-- Some bytes from an index on, each taken by its own index. -/
def bytesAt (bytes : Bytes) (start width : Nat) : Indexed Bytes :=
  (List.range' start width).mapM (byteAt bytes)

/-- The little-endian number of some bytes, each taken by its own index. -/
def numberAt (bytes : Bytes) (start width : Nat) : Indexed Nat := do
  return Bytes.ofLittleEndian (← bytesAt bytes start width)

/-- A position in a byte string. -/
structure Reader where
  bytes : Bytes
  position : Nat

/-- How many bytes are left from a position on. There is no such number for a position outside. -/
def Reader.remaining (reader : Reader) : Indexed Nat :=
  if reader.position ≤ reader.bytes.length then pure (reader.bytes.length - reader.position)
    else outside

/-- The next bytes, and the reader behind them. -/
def Reader.take (reader : Reader) (needed : Nat) : Indexed (Bytes × Reader) := do
  let remaining ← reader.remaining
  if remaining < needed then throw (.truncated reader.position needed remaining)
  else
    let taken ← slice reader.bytes reader.position (reader.position + needed)
    return (taken, { reader with position := reader.position + needed })

/-- A little-endian number of some bytes. -/
def Reader.number (reader : Reader) (width : Nat) : Indexed (Nat × Reader) := do
  let (taken, reader) ← reader.take width
  return (← numberAt taken 0 width, reader)

/-- A refusal by a reader that counts from zero, where its bytes begin at some position. -/
def moved (base : Nat) : BatchError → BatchError
  | .truncated offset needed available => .truncated (base + offset) needed available
  | refusal => refusal

/-- What a reader does that counts from zero, with its refusals moved. -/
def rebase {α : Type} (base : Nat) (indexed : Indexed α) : Indexed α := indexed.adapt (moved base)

/-- Bytes behind their length of four bytes, in the body of a column. -/
def sized (base : Nat) (reader : Reader) : Indexed (Bytes × Reader) := do
  let (length, reader) ← rebase base (reader.number 4)
  rebase base (reader.take length)

/-- A refusal of a column. -/
def refuse {α : Type} (column : String) (fault : ColumnFault) :
    Indexed α := throw (.column column fault)

/-- Reads the value of a present cell in the body of a column. -/
def readCell (column : String) (type : ColumnType) (base : Nat) (reader : Reader) :
    Indexed (Value × Reader) :=
  match type with
  | .null => refuse column .presentNull
  | .bool => do
    let (code, reader) ← rebase base (reader.number 1)
    if code = 0 then return (.bool false, reader)
    else if code = 1 then return (.bool true, reader)
    else refuse column (.boolByte (UInt8.ofNat code))
  | .int64 => do
    let (pattern, reader) ← rebase base (reader.number 8)
    return (.number (signed pattern), reader)
  | .float64 => do
    let (pattern, reader) ← rebase base (reader.number 8)
    let value := Binary64.ofBits pattern
    match Number.ofBinary64? value with
    | some number => return (.number number, reader)
    | none => refuse column (.notFinite value)
  | .utf8 => do
    let (bytes, reader) ← sized base reader
    match Utf8.decode? bytes with
    | some text => return (.text text, reader)
    | none => refuse column .textNotUtf8
  | .json => do
    let (bytes, reader) ← sized base reader
    match readBytes? bytes with
    | some value => return (value, reader)
    | none => refuse column (.unreadableJson bytes)

/-- Reads the cells of some rows, each by its bit; cells read so far stand in reverse. -/
def readCells (column : String) (type : ColumnType) (base : Nat) (bitmap : Bytes) :
    (rows : List Nat) → List Value → Reader → Indexed (List Value × Reader)
  | [], read, reader => pure (read.reverse, reader)
  | row :: rows, read, reader => do
    let byte ← byteAt bitmap (row / 8)
    if byte.toNat.testBit (row % 8) then
      let (value, reader) ← readCell column type base reader
      readCells column type base bitmap rows (value :: read) reader
    else readCells column type base bitmap rows (.null :: read) reader

/-- Reads the cells of a column's body, which begins at some position and is read from zero. -/
def readBody (column : String) (type : ColumnType) (rows base : Nat) (body : Bytes) :
    Indexed (List Value) := do
  let (bitmap, reader) ← rebase base (Reader.take ⟨body, 0⟩ (bitmapLength rows))
  let (cells, reader) ← readCells column type base bitmap (List.range rows) [] reader
  let unused ← reader.remaining
  if unused = 0 then return cells else refuse column (.unusedBytes unused)

/-- Reads a column. -/
def readColumn (rows : Nat) (reader : Reader) : Indexed (Column × Reader) := do
  let (nameLength, reader) ← reader.number 2
  let (nameBytes, reader) ← reader.take nameLength
  match Utf8.decode? nameBytes with
  | none => refuse (Utf8.decodeLossy nameBytes) .nameNotUtf8
  | some name =>
    let trailerOffset := reader.position
    let (trailer, reader) ← reader.take 8
    let tag ← byteAt trailer 0
    if (← slice trailer 1 4) ≠ [0, 0, 0] then refuse name (.reservedBytes (trailerOffset + 1))
    else
      let size ← numberAt trailer 4 4
      match ColumnType.ofTag? tag with
      | none => throw (.columnType name tag)
      | some type =>
        let bodyOffset := reader.position
        let (body, reader) ← reader.take size
        let cells ← readBody name type rows bodyOffset body
        return (⟨name, type, cells⟩, reader)

/-- Reads a number of columns with different names; columns read so far stand in reverse. -/
def readColumns (rows : Nat) : (count : Nat) → List Column → Reader → Indexed (List Column × Reader)
  | 0, read, reader => pure (read.reverse, reader)
  | count + 1, read, reader => do
    let (column, reader) ← readColumn rows reader
    if read.any fun earlier => earlier.name = column.name then throw (.duplicateColumn column.name)
    else readColumns rows count (column :: read) reader

/-- Reads the header at the front of a payload. -/
def readHeader (payload : Bytes) : Indexed Header := do
  if payload.isEmpty then throw .empty
  else if payload.length < headerSize then throw (.truncated 0 headerSize payload.length)
  else
    let found ← bytesAt payload 0 4
    if found ≠ Batch.magic then throw (.header (.magic found))
    else
      let version := UInt16.ofNat (← numberAt payload 4 2)
      if version ≠ Batch.version then throw (.version version)
      else
        let flags := UInt16.ofNat (← numberAt payload 6 2)
        if flags ≠ 0 then throw (.header (.flags flags))
        else
          let columnCount := UInt32.ofNat (← numberAt payload 8 4)
          let rowCount := UInt32.ofNat (← numberAt payload 12 4)
          if rowLimit < rowCount.toNat then throw (.tooManyRows rowCount.toNat rowLimit)
          else if columnCount = 0 ∧
            rowCount ≠ 0 then throw (.header (.rowsWithoutColumns rowCount.toNat))
          else return ⟨found, version, flags, columnCount, rowCount⟩

/-- Reads a batch, which has to end with its last column. -/
def decode (payload : Bytes) : Indexed Table := do
  let header ← readHeader payload
  let reader : Reader := ⟨payload, headerSize⟩
  let remaining ← reader.remaining
  if remaining < header.leastRest then throw (.truncated reader.position header.leastRest remaining)
  else
    let rows := header.rowCount.toNat
    let (columns, reader) ← readColumns rows header.columnCount.toNat [] reader
    let remaining ← reader.remaining
    if remaining = 0 then return ⟨rows, columns⟩
      else throw (.trailingBytes reader.position remaining)

end Definitions

section Accesses

variable {bytes : Bytes}

/-- An index below the length is never outside. -/
theorem byteAt_of_lt {index : Nat} (inside : index < bytes.length) :
    byteAt bytes index = pure bytes[index] := by
  rw [byteAt, List.getElem?_eq_getElem inside]

/-- A slice whose ends are ordered and inside is never outside. -/
theorem slice_of_le {start stop : Nat} (ordered : start ≤ stop) (inside : stop ≤ bytes.length) :
    slice bytes start stop = pure ((bytes.drop start).take (stop - start)) :=
      if_pos ⟨ordered, inside⟩

/-- Bytes of a width are inside if their end is. -/
theorem bytesAt_of_le {start width : Nat} (inside : start + width ≤ bytes.length) :
    bytesAt bytes start width = pure ((bytes.drop start).take width) := by
  induction width generalizing start with
  | zero => rfl
  | succ width inductionHypothesis =>
    have first : start < bytes.length := by omega
    have rest : bytesAt bytes (start + 1) width = pure ((bytes.drop (start + 1)).take width) :=
      inductionHypothesis (by omega)
    rw [bytesAt] at rest ⊢
    rw [List.range'_succ, List.mapM_cons, byteAt_of_lt first, rest, List.drop_eq_getElem_cons first,
      List.take_succ_cons]
    rfl

/-- A number is inside if its bytes are. -/
theorem numberAt_of_le {start width : Nat} (inside : start + width ≤ bytes.length) :
    numberAt bytes start width = pure (Bytes.ofLittleEndian ((bytes.drop start).take width)) := by
  rw [numberAt, bytesAt_of_le inside]
  rfl

/-- A reader that stands inside tells how much is left: the difference does not go below zero. -/
theorem remaining_of_le {position : Nat} (inside : position ≤ bytes.length) :
    Reader.remaining ⟨bytes, position⟩ = pure (bytes.length - position) := if_pos inside

/-- Bytes that are there are taken, and the position moves behind them. -/
theorem take_of_le {position needed : Nat} (enough : position + needed ≤ bytes.length) :
    Reader.take ⟨bytes, position⟩ needed
      = pure ((bytes.drop position).take needed, ⟨bytes, position + needed⟩) := by
  have few : ¬bytes.length - position < needed := by omega
  rw [Reader.take, remaining_of_le (by omega)]
  show (if bytes.length - position < needed then _ else _) = _
  rw [if_neg few, slice_of_le (Nat.le_add_right _ _) enough, Nat.add_sub_cancel_left]
  rfl

/-- From a position inside, too many bytes are refused with what is left. Nothing
outside is looked at for it. -/
theorem take_of_lt {position needed : Nat} (inside : position ≤ bytes.length)
    (short : bytes.length < position + needed) :
    Reader.take ⟨bytes, position⟩ needed = throw
    (.truncated position needed (bytes.length - position)) := by
  have few : bytes.length - position < needed := by omega
  rw [Reader.take, remaining_of_le inside]
  show (if bytes.length - position < needed then _ else _) = _
  rw [if_pos few]

end Accesses

section Readers

variable {α β γ δ : Type}

/-- Reading by index does what an outcome tells: it is refused for the same, or returns what is
alike. An access that falls outside does nothing that any outcome tells. -/
inductive Agrees (alike : α → β → Prop) : Indexed α → Except BatchError β → Prop
  | refused (refusal : BatchError) : Agrees alike (throw refusal) (.error refusal)
  | returned {value : α} {other : β} (same : alike value other) :
      Agrees alike (pure value) (.ok other)

/-- A reader at a position inside of its bytes is like a cursor that has the bytes behind that
position. The offset of the cursor counts from where the bytes begin. -/
inductive Alike (base : Nat) (bytes : Bytes) : α × Reader → α × Cursor → Prop
  | mk (value : α) {position : Nat} (inside : position ≤ bytes.length) :
      Alike base bytes (value, ⟨bytes, position⟩) (value, ⟨base + position, bytes.drop position⟩)

/-- Bytes that were taken as they stand, as many as were asked for. -/
inductive Taken (base : Nat) (bytes : Bytes) (needed : Nat) : Bytes × Reader → Bytes × Cursor → Prop
  | mk (taken : Bytes) {position : Nat} (length : taken.length = needed)
      (inside : position ≤ bytes.length) :
      Taken base bytes needed (taken, ⟨bytes, position⟩)
        (taken, ⟨base + position, bytes.drop position⟩)

/-- Two readings that agree step by step agree as a whole. It carries every lemma of this module
from the parts of a reader to the reader. -/
theorem Agrees.bind {alike : α → β → Prop} {alike' : γ → δ → Prop} {indexed : Indexed α}
    {outcome : Except BatchError β}
    {next : α → Indexed γ} {next' : β → Except BatchError δ} (first : Agrees alike indexed outcome)
    (step : ∀ value other, alike value other → Agrees alike' (next value) (next' other)) :
    Agrees alike' (indexed >>= next) (outcome >>= next') := by
  cases first with
  | refused refusal => exact .refused refusal
  | returned same => exact step _ _ same

/-- What agrees in a strict sense agrees in a weaker one. -/
theorem Agrees.mono {alike alike' : α → β → Prop} {indexed : Indexed α}
    {outcome : Except BatchError β}
    (agrees : Agrees alike indexed outcome)
    (weaker : ∀ value other, alike value other → alike' value other) :
    Agrees alike' indexed outcome := by
  cases agrees with
  | refused refusal => exact .refused refusal
  | returned same => exact .returned (weaker _ _ same)

/-- Where values agree by being equal, no difference is left: the reader by index gives what the
other gives, and is never outside. -/
theorem Agrees.eq_some {indexed : Indexed α} {outcome : Except BatchError α}
    (agrees : Agrees Eq indexed outcome) :
    indexed.run = some outcome := by
  cases agrees with
  | refused refusal => rfl
  | returned same => exact congrArg (some ∘ Except.ok) same

variable {base position : Nat} {bytes : Bytes}

/-- Refusals are not moved where the bytes are those of the payload. -/
theorem rebase_zero (indexed : Indexed α) : rebase 0 indexed = indexed := by
  have unmoved (refusal : BatchError) : moved 0 refusal = refusal := by
    cases refusal with
    | truncated offset needed available => rw [moved, Nat.zero_add]
    | _ => rfl
  match indexed with
  | none => rfl
  | some (.ok value) => rfl
  | some (.error refusal) =>
    show (throw (moved 0 refusal) : Indexed α) = throw refusal
    rw [unmoved refusal]

/-- Bytes that are inside are as many as were asked for. -/
theorem length_taken {needed : Nat} (enough : position + needed ≤ bytes.length) :
    ((bytes.drop position).take needed).length = needed := by
  rw [List.length_take, List.length_drop]
  omega

/-- The cursor of a reader takes the same bytes, and both stand equally far on. -/
theorem cursor_take_of_le {needed : Nat} (enough : position + needed ≤ bytes.length) :
    Cursor.take ⟨base + position, bytes.drop position⟩ needed
      = .ok ((bytes.drop position).take needed,
        ⟨base + (position + needed), bytes.drop (position + needed)⟩) := by
  refine Cursor.take_eq_ok_iff.mpr ⟨length_taken enough, ?_, ?_⟩
  · rw [← List.drop_drop, List.take_append_drop]
  · rw [length_taken enough, Nat.add_assoc]

/-- The cursor of a reader is refused for as many bytes, at an offset that is
moved by where the bytes begin. -/
theorem cursor_take_of_lt {needed : Nat} (inside : position ≤ bytes.length)
    (short : bytes.length < position + needed) :
    Cursor.take ⟨base + position, bytes.drop position⟩ needed
      = .error (.truncated (base + position) needed (bytes.length - position)) := by
  refine Cursor.take_eq_truncated_iff.mpr ⟨rfl, rfl, ?_, ?_⟩
  · rw [List.length_drop]
  · rw [List.length_drop]
    omega

/-- Taking bytes by index agrees with taking them from a cursor that stands as far on. Every other
reader comes down to this one. -/
theorem agrees_take (inside : position ≤ bytes.length) (needed : Nat) :
    Agrees (Taken base bytes needed) (rebase base (Reader.take ⟨bytes, position⟩ needed))
      (Cursor.take ⟨base + position, bytes.drop position⟩ needed) := by
  by_cases enough : position + needed ≤ bytes.length
  · rw [take_of_le enough, cursor_take_of_le enough]
    exact .returned (.mk _ (length_taken enough) enough)
  · rw [take_of_lt inside (Nat.lt_of_not_le enough),
      cursor_take_of_lt inside (Nat.lt_of_not_le enough)]
    exact .refused _

/-- Reading a number by index agrees with reading it from a cursor. -/
theorem agrees_number (inside : position ≤ bytes.length) (width : Nat) :
    Agrees (Alike base bytes) (rebase base (Reader.number ⟨bytes, position⟩ width))
      (Cursor.number ⟨base + position, bytes.drop position⟩ width) := by
  rw [Reader.number, Cursor.number]
  by_cases enough : position + width ≤ bytes.length
  · have length : ((bytes.drop position).take width).length = width := length_taken enough
    have whole : numberAt ((bytes.drop position).take width) 0 width
        = pure (Bytes.ofLittleEndian ((bytes.drop position).take width)) := by
      rw [numberAt_of_le (by omega), List.drop_zero, List.take_of_length_le (Nat.le_of_eq length)]
    rw [take_of_le enough, cursor_take_of_le enough]
    show Agrees _ (rebase base (numberAt _ 0 width >>= _)) _
    rw [whole]
    exact .returned (.mk _ enough)
  · rw [take_of_lt inside (Nat.lt_of_not_le enough),
      cursor_take_of_lt inside (Nat.lt_of_not_le enough)]
    exact .refused _

/-- Where the bytes are those of the payload, readers agree without being moved. -/
theorem agrees_take_zero (inside : position ≤ bytes.length) (needed : Nat) :
    Agrees (Taken 0 bytes needed) (Reader.take ⟨bytes, position⟩ needed)
      (Cursor.take ⟨0 + position, bytes.drop position⟩ needed) := by
  rw [← rebase_zero (Reader.take ⟨bytes, position⟩ needed)]
  exact agrees_take inside needed

/-- Reading a number agrees also where offsets count from the front of the bytes. -/
theorem agrees_number_zero (inside : position ≤ bytes.length) (width : Nat) :
    Agrees (Alike 0 bytes) (Reader.number ⟨bytes, position⟩ width)
      (Cursor.number ⟨0 + position, bytes.drop position⟩ width) := by
  rw [← rebase_zero (Reader.number ⟨bytes, position⟩ width)]
  exact agrees_number inside width

/-- Reading sized content by index agrees with reading it from a cursor. -/
theorem agrees_sized (inside : position ≤ bytes.length) :
    Agrees (Alike base bytes) (sized base ⟨bytes, position⟩)
      (Cursor.sized ⟨base + position, bytes.drop position⟩) := by
  refine (agrees_number inside 4).bind ?_
  rintro _ _ ⟨length, inside⟩
  refine (agrees_take inside length).mono ?_
  rintro _ _ ⟨content, -, inside⟩
  exact .mk content inside

/-- What is left behind the last byte that was read decides whether a value is returned. -/
theorem agrees_end {alike : α → β → Prop} {value : α} {other : β} (same : alike value other)
    (refusal : Nat → BatchError) (inside : position ≤ bytes.length) :
    Agrees alike
      (Reader.remaining ⟨bytes, position⟩ >>= fun unused => if unused = 0 then pure value
        else throw (refusal unused))
      (if (bytes.drop position).isEmpty then .ok other
        else .error (refusal (bytes.drop position).length)) := by
  have none : (bytes.drop position).isEmpty = true ↔ bytes.length - position = 0 := by
    rw [List.isEmpty_iff, List.drop_eq_nil_iff, Nat.sub_eq_zero_iff_le]
  rw [remaining_of_le inside, pure_bind]
  by_cases unused : bytes.length - position = 0
  · rw [if_pos unused, if_pos (none.mpr unused)]
    exact .returned same
  · rw [if_neg unused, if_neg fun empty => unused (none.mp empty), List.length_drop]
    exact .refused _

end Readers

section Columns

variable {base position : Nat} {bytes : Bytes} {column : String} {type : ColumnType}

/-- Refusing a column reads nothing, so it agrees. -/
theorem agrees_refuse {α β : Type} {alike : α → β → Prop} (column : String) (fault : ColumnFault) :
    Agrees alike (refuse column fault) (Batch.refuse column fault) := .refused _

/-- Reading a cell agrees, by one case for each type. What is read is looked at by index
once more, and always inside. -/
theorem agrees_readCell (inside : position ≤ bytes.length) :
    Agrees (Alike base bytes) (readCell column type base ⟨bytes, position⟩)
      (Batch.readCell column type ⟨base + position, bytes.drop position⟩) := by
  cases type with
  | null => exact agrees_refuse column _
  | bool =>
    refine (agrees_number inside 1).bind ?_
    rintro _ _ ⟨code, inside⟩
    dsimp only
    by_cases zero : code = 0
    · rw [if_pos zero, if_pos zero]
      exact .returned (.mk _ inside)
    · rw [if_neg zero, if_neg zero]
      by_cases one : code = 1
      · rw [if_pos one, if_pos one]
        exact .returned (.mk _ inside)
      · rw [if_neg one, if_neg one]
        exact agrees_refuse column _
  | int64 =>
    refine (agrees_number inside 8).bind ?_
    rintro _ _ ⟨pattern, inside⟩
    exact .returned (.mk _ inside)
  | float64 =>
    refine (agrees_number inside 8).bind ?_
    rintro _ _ ⟨pattern, inside⟩
    dsimp only
    cases Number.ofBinary64? (Binary64.ofBits pattern) with
    | none => exact agrees_refuse column _
    | some number => exact .returned (.mk _ inside)
  | utf8 =>
    refine (agrees_sized inside).bind ?_
    rintro _ _ ⟨content, inside⟩
    dsimp only
    cases Utf8.decode? content with
    | none => exact agrees_refuse column _
    | some text => exact .returned (.mk _ inside)
  | json =>
    refine (agrees_sized inside).bind ?_
    rintro _ _ ⟨content, inside⟩
    dsimp only
    cases readBytes? content with
    | none => exact agrees_refuse column _
    | some value => exact .returned (.mk _ inside)

/-- Reading cells agrees. Every row has its bit inside a bitmap that is long enough, so asking for
the bits of the rows never falls outside. -/
theorem agrees_readCells {bitmap : Bytes} {rows : List Nat}
    (covered : ∀ row ∈ rows, row / 8 < bitmap.length)
    (read : List Value) (inside : position ≤ bytes.length) :
    Agrees (Alike base bytes) (readCells column type base bitmap rows read ⟨bytes, position⟩)
      (Batch.readCells column type ⟨base + position, bytes.drop position⟩
        read (rows.map (presentAt bitmap))) := by
  induction rows generalizing read position with
  | nil => exact .returned (.mk _ inside)
  | cons row rows inductionHypothesis =>
    obtain ⟨within, covered⟩ := List.forall_mem_cons.mp covered
    have bit : presentAt bitmap row = bitmap[row / 8].toNat.testBit (row % 8) := by
      rw [presentAt, List.getD_eq_getElem?_getD, List.getElem?_eq_getElem within, Option.getD_some]
    rw [readCells, byteAt_of_lt within, pure_bind, List.map_cons, bit]
    cases bitmap[row / 8].toNat.testBit (row % 8) with
    | false => exact inductionHypothesis covered (.null :: read) inside
    | true =>
      rw [readCells_true]
      refine (agrees_readCell inside).bind ?_
      rintro _ _ ⟨value, inside⟩
      exact inductionHypothesis covered (value :: read) inside

/-- Reading a body agrees: the bitmap in front of it, the cells, and nothing behind them. -/
theorem agrees_readBody (rows : Nat) (body : Bytes) :
    Agrees Eq (readBody column type rows base body)
    (Batch.readBody column type rows ⟨base, body⟩) := by
  refine (agrees_take (Nat.zero_le body.length) (bitmapLength rows)).bind ?_
  rintro _ _ ⟨bitmap, length, inside⟩
  have covered : ∀ row ∈ List.range rows, row / 8 < bitmap.length := by
    intro row member
    have inside := List.mem_range.mp member
    rw [length, bitmapLength]
    omega
  dsimp only
  rw [presence_eq length]
  refine (agrees_readCells covered [] inside).bind ?_
  rintro _ _ ⟨cells, inside⟩
  exact agrees_end rfl (fun unused => .column column (.unusedBytes unused)) inside

/-- Reading a column agrees. The offsets of its body count from where the body stands in the
payload, so refusals from inside are moved. -/
theorem agrees_readColumn (rows : Nat) (inside : position ≤ bytes.length) :
    Agrees (Alike 0 bytes) (readColumn rows ⟨bytes, position⟩)
      (Batch.readColumn rows ⟨0 + position, bytes.drop position⟩) := by
  refine (agrees_number_zero inside 2).bind ?_
  rintro _ _ ⟨nameLength, inside⟩
  refine (agrees_take_zero inside nameLength).bind ?_
  rintro _ _ @⟨nameBytes, position, -, inside⟩
  dsimp only
  cases Utf8.decode? nameBytes with
  | none => exact agrees_refuse _ _
  | some name =>
    refine (agrees_take_zero inside 8).bind ?_
    rintro _ _ @⟨trailer, last, length, inside⟩
    have reserved : slice trailer 1 4 = pure ((trailer.drop 1).take 3) :=
      slice_of_le (by decide) (by omega)
    have size : numberAt trailer 4 4 = pure (Bytes.ofLittleEndian (trailer.drop 4)) := by
      rw [numberAt_of_le (by omega), List.take_of_length_le (by rw [List.length_drop]; omega)]
    have tag : byteAt trailer 0 = pure (trailer.headD 0) := by
      obtain ⟨first, rest, rfl⟩ : ∃ first rest, trailer = first :: rest :=
        List.exists_cons_of_length_pos (by omega)
      rfl
    dsimp only
    rw [tag, pure_bind, reserved, pure_bind, size, pure_bind]
    by_cases zero : (trailer.drop 1).take 3 ≠ [0, 0, 0]
    · rw [if_pos zero, if_pos zero, Nat.zero_add]
      exact agrees_refuse _ _
    · rw [if_neg zero, if_neg zero]
      cases ColumnType.ofTag? (trailer.headD 0) with
      | none => exact .refused _
      | some type =>
        refine (agrees_take_zero inside _).bind ?_
        rintro _ _ ⟨body, -, inside⟩
        rw [Nat.zero_add last]
        refine (agrees_readBody rows body).bind ?_
        rintro cells _ rfl
        exact .returned (.mk _ inside)

/-- Reading columns agrees. The induction is on how many are left, and every
column leaves the reader inside. -/
theorem agrees_readColumns (rows count : Nat) (read : List Column)
    (inside : position ≤ bytes.length) :
    Agrees (Alike 0 bytes) (readColumns rows count read ⟨bytes, position⟩)
      (Batch.readColumns rows count read ⟨0 + position, bytes.drop position⟩) := by
  induction count generalizing read position with
  | zero => exact .returned (.mk _ inside)
  | succ count inductionHypothesis =>
    rw [readColumns, readColumns_succ]
    refine (agrees_readColumn rows inside).bind ?_
    rintro _ _ ⟨column, inside⟩
    dsimp only
    by_cases known : (read.any fun earlier => earlier.name = column.name) = true
    · rw [if_pos known, if_pos known]
      exact .refused _
    · rw [if_neg known, if_neg known]
      exact inductionHypothesis (column :: read) inside

end Columns

section Payloads

variable (payload : Bytes)

/-- A field of the header is a number of the payload, wherever the header is complete. -/
theorem numberAt_eq_fieldAt (enough : headerSize ≤ payload.length) {offset width : Nat}
    (field : offset + width ≤ headerSize) :
    numberAt payload offset width = pure
    (Header.fieldAt (payload.take headerSize) offset width) := by
  have same : ((payload.take headerSize).drop offset).take width
    = (payload.drop offset).take width := by
    rw [List.drop_take, List.take_take, Nat.min_eq_left (by omega)]
  rw [numberAt_of_le (by omega), Header.fieldAt, same]

/-- Reading a header by index agrees with decoding it from its first bytes. The tests come in the
same order, and behind the test of the length every field is inside. -/
theorem agrees_readHeader : Agrees Eq (readHeader payload) (Header.decode payload) := by
  by_cases short : payload.length < headerSize
  · rw [Header.decode_of_short short, readHeader, if_pos short]
    cases payload with
    | nil => exact .refused _
    | cons first rest => exact .refused _
  · have enough : headerSize ≤ payload.length := Nat.le_of_not_lt short
    have front : (payload.take headerSize).length = headerSize := List.length_take_of_le enough
    have some : ¬payload.isEmpty = true := by
      intro empty
      rw [List.isEmpty_iff.mp empty] at enough
      exact absurd enough (by decide)
    have frontSome : ¬(payload.take headerSize).isEmpty = true := by
      intro empty
      rw [List.isEmpty_iff.mp empty] at front
      exact absurd front (by decide)
    have mark : bytesAt payload 0 4 = pure ((payload.take headerSize).take 4) := by
      rw [bytesAt_of_le (Nat.le_trans (by decide) enough), List.take_take]
      rfl
    rw [readHeader, Header.decode, if_neg some, if_neg short, mark, pure_bind,
      numberAt_eq_fieldAt payload enough (by decide),
        numberAt_eq_fieldAt payload enough (by decide),
      numberAt_eq_fieldAt payload enough (by decide),
        numberAt_eq_fieldAt payload enough (by decide)]
    dsimp only
    rw [if_neg frontSome, if_neg (Nat.not_lt.mpr (Nat.le_of_eq front.symm))]
    generalize payload.take headerSize = front
    -- Both compare the same fields in the same order.
    by_cases magic : front.take 4 ≠ Batch.magic
    · rw [if_pos magic, if_pos magic]
      exact .refused _
    rw [if_neg magic, if_neg magic, pure_bind]
    by_cases version : UInt16.ofNat (Header.fieldAt front 4 2) ≠ Batch.version
    · rw [if_pos version, if_pos version]
      exact .refused _
    rw [if_neg version, if_neg version, pure_bind]
    by_cases flags : UInt16.ofNat (Header.fieldAt front 6 2) ≠ 0
    · rw [if_pos flags, if_pos flags]
      exact .refused _
    rw [if_neg flags, if_neg flags, pure_bind, pure_bind]
    split
    · exact .refused _
    · split
      · exact .refused _
      · exact .returned rfl

/-- Decoding by index agrees with decoding, and so it never reaches outside of
the payload, accepted or not. -/
theorem agrees_decode : Agrees Eq (decode payload) (Batch.decode payload) := by
  have header := agrees_readHeader payload
  rw [decode, Batch.decode, Batch.readHeader]
  generalize readHeader payload = indexed at header
  cases read : Header.decode payload with
  | error refusal =>
    rw [read] at header
    cases header
    exact .refused _
  | ok found =>
    rw [read] at header
    cases header with
    | returned same =>
      have inside : headerSize ≤ payload.length := by
        apply Nat.le_of_not_lt
        intro short
        rw [Header.decode_of_short short] at read
        cases read
      rw [same, pure_bind]
      dsimp only
      rw [remaining_of_le inside, pure_bind]
      by_cases short : payload.length - headerSize < found.leastRest
      · rw [if_pos short, if_pos short]
        exact .refused _
      · rw [if_neg short, if_neg short]
        refine (agrees_readColumns found.rowCount.toNat found.columnCount.toNat [] inside).bind ?_
        rintro _ _ @⟨columns, last, inside⟩
        dsimp only
        rw [Nat.zero_add]
        exact agrees_end rfl (fun unused => .trailingBytes last unused) inside

/-- Reading by index does what reading does, on every payload: none of
its accesses falls outside. -/
theorem run_decode : (decode payload).run = some (Batch.decode payload) :=
  (agrees_decode payload).eq_some

end Payloads

end Indexed

end LedgerIntake.Batch
