import LedgerIntake.Proofs.Batch.Faults

/-!
# Where a batch ends

A batch tells its own end. The readers of columns take their bytes in order, so with more bytes
behind its own a reader does what it did, unless its own were too few. This is stated once for each
reader and handed on through sequences of them; the header, which is looked at from the front of the
payload, is compared at its length.

No payload that is accepted is thus the front of another one: cut short it is truncated, and
whatever is put behind it is refused as trailing bytes.
-/

namespace LedgerIntake.Batch

/-- The outcome of bytes that were too few. -/
def Truncates {α : Type} (outcome : Except BatchError α) : Prop :=
  ∃ offset needed available, outcome = .error (.truncated offset needed available)

/-- A cursor with more bytes behind its own. -/
def Cursor.extend (cursor : Cursor) (behind : Bytes) : Cursor :=
  ⟨cursor.offset, cursor.rest ++ behind⟩

/-- What a reader does, and what it does with more bytes behind its own: the same,
unless its own were too few. -/
inductive Settled {α : Type} (behind : Bytes) :
    Except BatchError (α × Cursor) → Except BatchError (α × Cursor) → Prop
  | truncated (offset needed available : Nat) (longer : Except BatchError (α × Cursor)) :
      Settled behind (.error (.truncated offset needed available)) longer
  | refused (refusal : BatchError) : Settled behind (.error refusal) (.error refusal)
  | returned (value : α) (later : Cursor) :
      Settled behind (.ok (value, later)) (.ok (value, later.extend behind))

section Readers

variable {α β : Type} (behind : Bytes)

/-- A sequence of readers is settled if each of them is. So every reader that is put together from
settled ones is settled, and no longer payload has to be opened for it. -/
theorem Settled.bind {behind : Bytes} {outcome longer : Except BatchError (α × Cursor)}
    {next next' : α × Cursor → Except BatchError (β × Cursor)}
    (first : Settled behind outcome longer)
    (step : ∀ (value : α) (later : Cursor),
      Settled behind (next (value, later)) (next' (value, later.extend behind))) :
    Settled behind (outcome >>= next) (longer >>= next') := by
  cases first with
  | truncated offset needed available longer => exact .truncated offset needed available _
  | refused refusal => exact .refused refusal
  | returned value later => exact step value later

/-- A cursor with more bytes behind it passes the same bytes, and stands as far on. -/
theorem Cursor.Passes.extend {cursor later : Cursor} {bytes : Bytes}
    (passes : cursor.Passes bytes later) :
    (cursor.extend behind).Passes bytes (later.extend behind) where
  rest := by rw [Cursor.extend, passes.rest, List.append_assoc, Cursor.extend]
  offset := passes.offset

/-- Taking bytes succeeds alike when more bytes stand behind, and only a lack of
bytes may be cured by them. -/
theorem settled_take (cursor : Cursor) (needed : Nat) :
    Settled behind (cursor.take needed) ((cursor.extend behind).take needed) := by
  have own := cursor.take_spec needed
  cases outcome : cursor.take needed with
  | error refusal =>
    obtain ⟨rfl, -⟩ := own.of_error outcome
    exact .truncated _ _ _ _
  | ok taken =>
    obtain ⟨bytes, later⟩ := taken
    obtain ⟨length, passes⟩ := Cursor.take_eq_ok_iff.mp outcome
    rw [Cursor.take_eq_ok_iff.mpr ⟨length, passes.extend behind⟩]
    exact .returned bytes later

/-- Numbers are taken as their bytes are, so more bytes behind them change nothing. -/
theorem settled_number (cursor : Cursor) (width : Nat) :
    Settled behind (cursor.number width) ((cursor.extend behind).number width) :=
  (settled_take behind cursor width).bind fun _ later => .returned _ later

/-- The body of a column is read from bytes of its own, so only whether they are all
there depends on what follows. -/
theorem settled_readColumn (rows : Nat) (cursor : Cursor) :
    Settled behind (readColumn rows cursor) (readColumn rows (cursor.extend behind)) := by
  refine (settled_number behind cursor 2).bind fun nameLength behindLength => ?_
  refine (settled_take behind behindLength nameLength).bind fun nameBytes behindName => ?_
  dsimp only
  split
  · exact .refused _
  · next name decoded =>
    refine (settled_take behind behindName 8).bind fun trailer behindTrailer => ?_
    dsimp only [Cursor.extend]
    split
    · exact .refused _
    · split
      · exact .refused _
      · next type known =>
        refine (settled_take behind behindTrailer _).bind fun body last => ?_
        dsimp only
        cases readBody name type rows ⟨behindTrailer.offset, body⟩ with
        | error refusal => exact .refused refusal
        | ok cells => exact .returned _ last

/-- Columns are read alike when more bytes stand behind them. The induction is on how many there
are, each settled before the next. -/
theorem settled_readColumns (rows count : Nat) (read : List Column) (cursor : Cursor) :
    Settled behind (readColumns rows count read cursor)
    (readColumns rows count read (cursor.extend behind)) := by
  induction count generalizing read cursor with
  | zero => exact .returned _ cursor
  | succ count inductionHypothesis =>
    have first := settled_readColumn behind rows cursor
    rw [readColumns, readColumns]
    generalize readColumn rows cursor = outcome at first ⊢
    generalize readColumn rows (cursor.extend behind) = longer at first ⊢
    cases first with
    | truncated offset needed available longer => exact .truncated offset needed available _
    | refused refusal => exact .refused refusal
    | returned column later =>
      dsimp only
      split
      · exact .refused _
      · exact inductionHypothesis (column :: read) later

end Readers

section Payloads

variable {front behind payload : Bytes} {table : Table}

/-- From a payload without a complete header no table is read, whatever the bytes that are there. -/
theorem readTable_of_short (short : payload.length < headerSize) :
    readTable payload =
      .error (if payload.isEmpty then .empty else .truncated 0 headerSize payload.length) := by
  rw [readTable, readHeader, Header.decode_of_short short]
  rfl

/-- A payload with a complete header is read like its front, unless its front is too short. -/
theorem settled_readTable (behind : Bytes) (complete : headerSize ≤ front.length) :
    Settled behind (readTable front) (readTable (front ++ behind)) := by
  have header : Header.decode (front ++ behind) = Header.decode front := by
    rw [Header.decode, List.take_append_of_le_length complete]
    rfl
  rw [readTable, readTable, readHeader, readHeader, header, List.drop_append_of_le_length complete]
  cases Header.decode front with
  | error refusal => exact .refused refusal
  | ok header =>
    dsimp only
    split
    · exact .truncated _ _ _ _
    · next enough =>
      rw [if_neg (by rw [List.length_append]; omega)]
      exact (settled_readColumns behind _ _ [] ⟨headerSize, front.drop headerSize⟩).bind
        fun columns last => .returned _ last

/-- No header is refused for bytes behind a table: that refusal comes
from the end of reading alone. -/
theorem readHeader_ne_trailingBytes (payload : Bytes) :
    Ensures (readHeader payload 0).1 (fun _ => True)
      (fun refusal => ∀ offset remaining, refusal ≠ .trailingBytes offset remaining) := by
  have decoded : Ensures (Header.decode payload) (fun _ => True)
      (fun refusal => ∀ offset remaining, refusal ≠ .trailingBytes offset remaining) := by
    rw [Header.decode]
    dsimp only
    repeat' split
    all_goals first | trivial | exact fun _ _ => BatchError.noConfusion
  rw [readHeader]
  cases outcome : Header.decode payload with
  | error refusal => exact decoded.of_error outcome
  | ok header =>
    dsimp only
    split
    · exact fun _ _ => BatchError.noConfusion
    · trivial

/-- A payload is refused for trailing bytes exactly if some are left
behind the table at its front. -/
theorem decode_eq_trailingBytes_iff {offset remaining : Nat} :
    decode payload = .error (.trailingBytes offset remaining) ↔
      ∃ table last, readTable payload = .ok (table, last) ∧
      last.rest ≠ [] ∧ last.offset = offset ∧ last.rest.length = remaining := by
  rw [decode_eq_readTable, bind_eq_error_iff]
  constructor
  · rintro (refused | ⟨⟨table, last⟩, read, refused⟩)
    · rcases bind_eq_error_iff.mp refused with refused | ⟨header, -, refused⟩
      · exact absurd rfl ((readHeader_ne_trailingBytes payload).of_error refused offset remaining)
      · rcases bind_eq_error_iff.mp refused with refused | ⟨_, -, returned⟩
        · have reader :=
            (reads_readColumns header.rowCount.toNat _ header.columnCount.toNat []).of_error refused
          exact absurd rfl (reader.ne_trailingBytes offset remaining)
        · cases returned
    · dsimp only at refused
      split at refused
      · cases refused
      · next some =>
        cases refused
        exact ⟨table, last, read, fun none => some (List.isEmpty_iff.mpr none), rfl, rfl⟩
  · rintro ⟨table, last, read, some, rfl, rfl⟩
    exact .inr ⟨(table, last), read, if_neg fun none => some (List.isEmpty_iff.mp none)⟩

/-- Whatever is put behind a payload that is accepted trails. The table at the front is still read,
and the bytes behind it are counted. -/
theorem decode_append (decoded : decode payload = .ok table) (some : behind ≠ []) :
    decode (payload ++ behind) = .error (.trailingBytes payload.length behind.length) := by
  obtain ⟨last, read, empty⟩ := decode_eq_ok_iff_readTable.mp decoded
  obtain ⟨front, -, whole, offset⟩ := holds_of_readTable read
  rw [empty, List.append_nil] at whole
  subst whole
  by_cases short : payload.length < headerSize
  · rw [readTable_of_short short] at read
    cases read
  · have settled := settled_readTable behind (Nat.le_of_not_lt short)
    rw [read] at settled
    generalize longer : readTable (payload ++ behind) = outcome at settled
    cases settled with
    | returned table last =>
      have rest : (last.extend behind).rest = behind := by
        rw [Cursor.extend, empty, List.nil_append]
      exact decode_eq_trailingBytes_iff.mpr
        ⟨table, last.extend behind, longer, rest.symm ▸ some, offset,
        congrArg List.length rest⟩

/-- A payload that is accepted once some bytes are put behind it was empty or had too few. -/
theorem truncates_of_append (decoded : decode (front ++ behind) = .ok table) (some : behind ≠ []) :
    (front = [] ∧ decode front = .error .empty) ∨ (front ≠ [] ∧ Truncates (decode front)) := by
  by_cases short : front.length < headerSize
  · rw [decode_eq_readTable, readTable_of_short short]
    cases front with
    | nil => exact .inl ⟨rfl, rfl⟩
    | cons first rest => exact .inr ⟨List.cons_ne_nil _ _, _, _, _, rfl⟩
  · obtain ⟨last, read, empty⟩ := decode_eq_ok_iff_readTable.mp decoded
    have settled := settled_readTable behind (Nat.le_of_not_lt short)
    rw [read] at settled
    refine .inr ⟨fun none => short (none ▸ by decide), ?_⟩
    rw [decode_eq_readTable]
    generalize readTable front = outcome at settled ⊢
    -- Where the front was not too short, the whole payload is read to the end of
    -- the front, with `behind` left.
    cases settled with
    | truncated offset needed available longer => exact ⟨offset, needed, available, rfl⟩
    | returned table later => exact absurd (List.append_eq_nil_iff.mp empty).2 some

/-- A payload tells where its batch ends. If it is accepted, each proper front of it is empty
or truncated, and whatever is put behind it trails, with its length for an offset. A payload
that is refused for trailing bytes is accepted up to the offset that the refusal tells, and all
bytes from there are counted. A front and the whole are read side by side: they pass the same
bytes until the front ends. -/
theorem decode_ends (payload : Bytes) :
    (∀ table, decode payload = .ok table →
      (∀ front, front <+: payload → front ≠ payload →
        (front = [] ∧ decode front = .error .empty) ∨ (front ≠ [] ∧ Truncates (decode front))) ∧
      ∀ behind, behind ≠ [] → decode (payload ++ behind) =
        .error (.trailingBytes payload.length behind.length)) ∧
    ∀ offset remaining, decode payload = .error (.trailingBytes offset remaining) →
      offset + remaining = payload.length ∧ 0 < remaining ∧
        ∃ table, decode (payload.take offset) = .ok table := by
  constructor
  · intro table decoded
    refine ⟨?_, fun behind some => decode_append decoded some⟩
    rintro front ⟨behind, rfl⟩ proper
    refine truncates_of_append decoded ?_
    rintro rfl
    exact proper (List.append_nil front).symm
  · intro offset remaining refused
    obtain ⟨table, last, read, some, rfl, rfl⟩ := decode_eq_trailingBytes_iff.mp refused
    obtain ⟨front, holds, rfl, offset⟩ := holds_of_readTable read
    refine ⟨by rw [List.length_append, offset], List.length_pos_iff.mpr some, table, ?_⟩
    rw [offset, List.take_left]
    exact decode_of_holds holds

/-- A batch of one flag breaks off when it is cut within its column, and has a trailing
byte when one is put behind it. -/
theorem decode_ends_flag : ∃ payload : Bytes, payload.length = 29 ∧
    Truncates (decode (payload.take 20)) ∧
    decode (payload ++ [7]) = .error (.trailingBytes 29 1) ∧
    ∃ table, decode ((payload ++ [7]).take 29) = .ok table := by
  obtain ⟨payload, same⟩ : ∃ payload : Bytes,
      payload = [84, 67, 66, 49, 1, 0, 0, 0, 1, 0, 0, 0, 1, 0, 0, 0, 1, 0, 97, 1,
        0, 0, 0, 2, 0, 0, 0, 1, 1] := ⟨_, rfl⟩
  have decoded : decode payload = .ok ⟨1, [⟨"a", .bool, [.bool true]⟩]⟩ := by
    rw [same]
    rfl
  obtain ⟨cut, trailing⟩ := (decode_ends payload).1 _ decoded
  have refused : decode (payload ++ [7]) = .error (.trailingBytes 29 1) := by
    have behind := trailing [7] (List.cons_ne_nil _ _)
    rwa [same] at behind ⊢
  refine ⟨payload, same ▸ rfl, ?_, refused, ((decode_ends (payload ++ [7])).2 29 1 refused).2.2⟩
  rcases cut (payload.take 20) (List.take_prefix _ _) (by rw [same]; decide) with ⟨none, -⟩
    | ⟨-, truncated⟩
  · rw [same] at none
    cases none
  · exact truncated

end Payloads

end LedgerIntake.Batch
