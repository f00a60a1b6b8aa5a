import LedgerIntake.Proofs.Batch.Decoding
import LedgerIntake.Proofs.Batch.Refusal

/-!
# What reading columns is refused for

A reader that fails either met the end of its bytes, at a place that it reached by reading, or found
a column at fault. The body of a column is a payload of its own: what is refused inside of it is
told by a cursor that ends where the body ends. Whether bytes are left behind the last column is
asked only after all columns were read, so no reader of columns is refused for them.
-/

namespace LedgerIntake.Batch

open Json

/-- What a reader that begins at a cursor may be refused for. -/
inductive Cursor.Refuses : Cursor → BatchError → Prop
  /-- Behind some bytes that were passed, more were asked for than there are. -/
  | truncated {cursor later : Cursor} {passed : Bytes} {needed : Nat}
      (passes : cursor.Passes passed later)
      (short : later.rest.length < needed) :
      Refuses cursor (.truncated later.offset needed later.rest.length)
  /-- Behind some bytes that were passed, the body of a column was refused. -/
  | body {cursor : Cursor} {passed content rest : Bytes} {offset : Nat} {refusal : BatchError}
      (passes : cursor.Passes passed ⟨offset, content ++ rest⟩)
        (inner : Refuses ⟨offset, content⟩ refusal) :
      Refuses cursor refusal
  | column {cursor : Cursor} (name : String) (fault : ColumnFault) :
      Refuses cursor (.column name fault)
  | columnType {cursor : Cursor} (name : String) (tag : UInt8) :
      Refuses cursor (.columnType name tag)
  | duplicateColumn {cursor : Cursor} (name : String) : Refuses cursor (.duplicateColumn name)

namespace Cursor

variable {cursor middle later : Cursor} {α β : Type}

/-- What is told of a read that asks for more bytes than there are. -/
structure Short (cursor : Cursor) (needed offset asked available : Nat) : Prop where
  start : offset = cursor.offset
  request : asked = needed
  rest : available = cursor.rest.length
  few : cursor.rest.length < needed

/-- Taking bytes is refused as truncated exactly if there are too few, and the refusal tells the
offset, the need and the rest. -/
theorem take_eq_truncated_iff {needed offset asked available : Nat} :
    cursor.take needed = .error (.truncated offset asked available) ↔
      cursor.Short needed offset asked available := by
  have spec := cursor.take_spec needed
  constructor
  · intro refused
    obtain ⟨same, few⟩ := spec.of_error refused
    cases same
    exact ⟨rfl, rfl, rfl, few⟩
  · rintro ⟨rfl, rfl, rfl, few⟩
    cases outcome : cursor.take asked with
    | error refusal => rw [(spec.of_error outcome).1]
    | ok taken =>
      obtain ⟨length, -, whole⟩ := spec.of_ok outcome
      rw [whole, List.length_append, length] at few
      omega

/-- What is refused behind some bytes is refused by a reader that begins in front of them. -/
theorem Refuses.of_passes {front : Bytes} {refusal : BatchError}
    (passes : cursor.Passes front middle)
    (refused : middle.Refuses refusal) : cursor.Refuses refusal := by
  cases refused with
  | truncated behind short => exact .truncated (passes.append behind) short
  | body behind inner => exact .body (passes.append behind) inner
  | column name fault => exact .column name fault
  | columnType name tag => exact .columnType name tag
  | duplicateColumn name => exact .duplicateColumn name

/-- No reader of columns is refused for bytes behind them, since only the end of a payload is. -/
theorem Refuses.ne_trailingBytes {refusal : BatchError} (refused : cursor.Refuses refusal)
    (offset remaining : Nat) :
    refusal ≠ .trailingBytes offset remaining := by
  induction refused with
  | body passes inner inductionHypothesis => exact inductionHypothesis
  | _ => exact BatchError.noConfusion

/-- A reader that begins at a cursor: it stands behind the bytes that it passed, or is
refused as a reader may be. -/
def Reads (cursor : Cursor) (outcome : Except BatchError (α × Cursor)) : Prop :=
  Ensures outcome (fun read => ∃ passed, cursor.Passes passed read.2) cursor.Refuses

/-- A value that is returned at once takes no bytes. -/
theorem reads_ok (cursor : Cursor) (value : α) : cursor.Reads (.ok (value, cursor)) :=
  ⟨[], passes_nil_iff.mpr rfl⟩

/-- A reader that goes on where another one stands is a reader that begins where that one began. -/
theorem Reads.after {front : Bytes} {outcome : Except BatchError (α × Cursor)}
    (passes : cursor.Passes front middle)
    (reads : middle.Reads outcome) : cursor.Reads outcome := by
  refine reads.mono ?_ (fun _ refused => refused.of_passes passes)
  rintro ⟨value, later⟩ ⟨passed, behind⟩
  exact ⟨front ++ passed, passes.append behind⟩

/-- Reading one thing after another passes bytes that make up the whole, or fails
at a place behind its start. -/
theorem Reads.bind {outcome : Except BatchError (α × Cursor)}
    {next : α × Cursor → Except BatchError (β × Cursor)}
    (first : cursor.Reads outcome)
    (step : ∀ (value : α) (later : Cursor), later.Reads (next (value, later))) :
    cursor.Reads (outcome >>= next) := by
  refine Ensures.bind first ?_
  rintro ⟨value, later⟩ ⟨passed, passes⟩
  exact (step value later).after passes

/-- Taking bytes reads: what it passes are the bytes in front, and it fails where it stands. -/
theorem reads_take (cursor : Cursor) (needed : Nat) : cursor.Reads (cursor.take needed) := by
  refine (take_spec cursor needed).mono ?_ ?_
  · rintro ⟨taken, later⟩ ⟨length, offset, rest⟩
    exact ⟨taken, rest, by rw [offset, length]⟩
  · rintro refusal ⟨rfl, short⟩
    exact .truncated (passes_nil_iff.mpr rfl) short

/-- A number is read as its bytes are, whatever is made of them. -/
theorem reads_number (cursor : Cursor) (width : Nat) : cursor.Reads (cursor.number width) :=
  (cursor.reads_take width).bind fun _ later => reads_ok later _

/-- Sized content reads: its length is passed, and then the content itself. -/
theorem reads_sized (cursor : Cursor) : cursor.Reads cursor.sized :=
  (cursor.reads_number 4).bind fun length later => later.reads_take length

end Cursor

section Columns

variable (column : String) (type : ColumnType) (rows : Nat)

/-- A cell reads, by one case for each type: its bytes are passed, and only
then its value may be refused. -/
theorem reads_readCell (cursor : Cursor) : cursor.Reads (readCell column type cursor) := by
  have refused {α : Type} (cursor : Cursor) (fault : ColumnFault) :
      cursor.Reads (refuse (α := α × Cursor) column fault) := .column column fault
  cases type with
  | null => exact refused cursor .presentNull
  | bool =>
    refine (cursor.reads_number 1).bind fun code later => ?_
    dsimp only
    split
    · exact later.reads_ok _
    · split
      · exact later.reads_ok _
      · exact refused later _
  | int64 => exact (cursor.reads_number 8).bind fun pattern later => later.reads_ok _
  | float64 =>
    refine (cursor.reads_number 8).bind fun pattern later => ?_
    dsimp only
    split
    · exact later.reads_ok _
    · exact refused later _
  | utf8 =>
    refine cursor.reads_sized.bind fun content later => ?_
    dsimp only
    split
    · exact later.reads_ok _
    · exact refused later _
  | json =>
    refine cursor.reads_sized.bind fun content later => ?_
    dsimp only
    split
    · exact later.reads_ok _
    · exact refused later _

/-- Cells read one after another. The induction is on which of them are present. -/
theorem reads_readCells (cursor : Cursor) (read : List Value) (present : List Bool) :
    cursor.Reads (readCells column type cursor read present) := by
  induction present generalizing cursor read with
  | nil => exact cursor.reads_ok _
  | cons held rest inductionHypothesis =>
    cases held with
    | false => exact inductionHypothesis cursor (.null :: read)
    | true =>
      have cell := reads_readCell column type cursor
      rw [readCells]
      cases outcome : readCell column type cursor with
      | error refusal => exact cell.of_error outcome
      | ok first =>
        obtain ⟨passed, passes⟩ := cell.of_ok outcome
        exact (inductionHypothesis first.2 (first.1 :: read)).after passes

/-- The cells of a body are not followed by others, so only what a body is refused for matters. -/
theorem refuses_of_readBody (cursor : Cursor) :
    Ensures (readBody column type rows cursor) (fun _ => True) cursor.Refuses := by
  refine Ensures.bind (cursor.reads_take _) ?_
  rintro ⟨bitmap, middle⟩ ⟨front, first⟩
  have cells := (reads_readCells column type middle [] (presence bitmap rows)).after first
  refine Ensures.bind cells ?_
  rintro ⟨found, last⟩ -
  dsimp only
  split
  · trivial
  · exact .column column _

/-- A column reads: its front is passed in parts, and then a body that is passed as a whole. -/
theorem reads_readColumn (cursor : Cursor) : cursor.Reads (readColumn rows cursor) := by
  refine (cursor.reads_number 2).bind fun nameLength behindLength => ?_
  refine (behindLength.reads_take nameLength).bind fun nameBytes behindName => ?_
  dsimp only
  split
  · exact .column _ _
  · next name decoded =>
    refine (behindName.reads_take 8).bind fun trailer behindTrailer => ?_
    dsimp only
    split
    · exact .column _ _
    · split
      · exact .columnType _ _
      · next type typed =>
        refine Ensures.bind (Ensures.mono (behindTrailer.take_spec _) (fun _ taken => taken) ?_) ?_
        · rintro refusal ⟨rfl, short⟩
          exact .truncated (Cursor.passes_nil_iff.mpr rfl) short
        · rintro ⟨body, last⟩ ⟨length, offset, rest⟩
          have passes : behindTrailer.Passes body last := ⟨rest, by rw [offset, length]⟩
          have whole : behindTrailer.Passes [] ⟨behindTrailer.offset, body ++ last.rest⟩ :=
            ⟨rest, rfl⟩
          refine Ensures.bind
            ((refuses_of_readBody name type rows ⟨behindTrailer.offset, body⟩).mono
            (fun _ _ => trivial) (fun _ inner => .body whole inner)) ?_
          intro cells _
          exact ⟨body, passes⟩

/-- Columns read one after another, as many as are asked for. The
induction is on how many these are. -/
theorem reads_readColumns (cursor : Cursor) (count : Nat) (read : List Column) :
    cursor.Reads (readColumns rows count read cursor) := by
  induction count generalizing cursor read with
  | zero => exact cursor.reads_ok _
  | succ count inductionHypothesis =>
    have first := reads_readColumn rows cursor
    rw [readColumns]
    cases outcome : readColumn rows cursor with
    | error refusal => exact first.of_error outcome
    | ok result =>
      obtain ⟨passed, passes⟩ := first.of_ok outcome
      dsimp only
      split
      · exact .duplicateColumn _
      · exact (inductionHypothesis result.2 (result.1 :: read)).after passes

end Columns

end LedgerIntake.Batch
