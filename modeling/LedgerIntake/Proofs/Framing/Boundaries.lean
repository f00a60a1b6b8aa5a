import LedgerIntake.Proofs.Framing

/-!
# Messages come back at their boundaries

What one call reads of a stream is told here on the bytes alone: `Reading` has a case for each way
in which a stream can go on, and every stream goes on in one of them. The reading laws connect it to
an inflow, whose reads may cut the bytes anywhere. A call leaves bytes and an end that are told in
the same way, so that a sequence of calls depends on nothing else either, and messages that were
written one behind the other are read one by one, up to the end of the stream and never past it.
-/

namespace LedgerIntake

namespace Frame

/-- What one call reads of a stream that comes to its end, and which bytes it leaves. -/
inductive Reading (limit : Nat) : (stream : Bytes) → Except FrameError (Option Bytes) →
    (left : Bytes) → Prop
  /-- The stream ends between two messages. -/
  | ended : Reading limit [] (.ok none) []
  /-- The stream ends within a length. -/
  | shortLength (begun : Bytes) (nonempty : begun ≠ []) (short : begun.length < Inflow.lengthSize) :
      Reading limit begun (.error (.unexpectedEnd Inflow.lengthSize begun.length)) []
  /-- A length above the limit is all that is taken. -/
  | excess (size : Nat) (behind : Bytes) (fits : size < UInt32.size) (exceeds : limit < size) :
      Reading limit (Bytes.bigEndian Inflow.lengthSize size ++ behind)
        (.error (.tooLarge size limit)) behind
  /-- The stream ends within a message. -/
  | shortMessage (size : Nat) (begun : Bytes) (fits : size < UInt32.size) (within : size ≤ limit)
      (short : begun.length < size) :
      Reading limit (Bytes.bigEndian Inflow.lengthSize size ++ begun)
        (.error (.unexpectedEnd size begun.length)) []
  /-- A whole message, up to its last byte. -/
  | message (payload behind : Bytes) (fits : payload.length < UInt32.size)
    (within : payload.length ≤ limit) :
      Reading limit (wire payload ++ behind) (.ok (some payload)) behind

/-- A stream of four bytes or more begins with the number that it announces. -/
theorem eq_announced_append (stream : Bytes) (enough : Inflow.lengthSize ≤ stream.length) :
    stream = Bytes.bigEndian Inflow.lengthSize
    (announced stream) ++ stream.drop Inflow.lengthSize := by
  have same := Bytes.bigEndian_ofBigEndian (stream.take Inflow.lengthSize)
  rw [List.length_take_of_le enough] at same
  rw [announced, same, List.take_append_drop]

/-- Every stream goes on in one of these ways, according to how many bytes it has and to
what the first four announce. -/
theorem exists_reading (limit : Nat) (stream : Bytes) :
    ∃ outcome left, Reading limit stream outcome left := by
  by_cases enough : Inflow.lengthSize ≤ stream.length
  · have fits := announced_lt stream
    have begins := eq_announced_append stream enough
    generalize announced stream = size at fits begins
    generalize stream.drop Inflow.lengthSize = behind at begins
    subst begins
    by_cases within : size ≤ limit
    · by_cases held : size ≤ behind.length
      · have whole : behind.take size ++ behind.drop size = behind :=
          List.take_append_drop size behind
        have length : (behind.take size).length = size := List.length_take_of_le held
        have message :=
          Reading.message (behind.take size) (behind.drop size)
            (length.symm ▸ fits) (length.symm ▸ within)
        rw [wire, length, List.append_assoc, whole] at message
        exact ⟨_, _, message⟩
      · exact ⟨_, _, .shortMessage size behind fits within (Nat.lt_of_not_le held)⟩
    · exact ⟨_, _, .excess size behind fits (Nat.lt_of_not_le within)⟩
  · cases stream with
    | nil => exact ⟨_, _, .ended⟩
    | cons first rest =>
      exact ⟨_, _, .shortLength _ (List.cons_ne_nil first rest) (Nat.lt_of_not_le enough)⟩

end Frame

namespace Inflow

variable {inflow : Inflow} {limit : Nat}

/-- Whatever becomes of it, taking bytes leaves those behind them, and the end as it was. -/
theorem take_later (inflow : Inflow) (needed : Nat) :
    (inflow.take needed).2.bytes = inflow.bytes.drop needed ∧
    (inflow.take needed).2.ending = inflow.ending := by
  have back := (collect_eq needed inflow.reads).2
  rw [take]
  dsimp only
  split
  · exact ⟨back, rfl⟩
  · cases inflow.ending <;> exact ⟨back, rfl⟩

/-- Bytes that end within what is taken are all taken, so nothing is left for a later call. -/
theorem take_exhausts {needed : Nat} {outcome : Except FrameError Bytes} {later : Inflow}
    (taken : inflow.take needed = (outcome, later)) (short : inflow.bytes.length ≤ needed) :
    later.bytes = [] ∧ later.ending = inflow.ending := by
  have left := inflow.take_later needed
  rw [taken] at left
  exact ⟨left.1.trans (List.drop_of_length_le short), left.2⟩

/-- Reading a length takes four bytes, whatever becomes of it. -/
theorem readLength_later (inflow : Inflow) : inflow.readLength.2 = (inflow.take lengthSize).2 := by
  rw [readLength]
  split <;> rename_i taken <;> rw [taken]

/-- A stream that ends within a length is left empty, and every later
call finds that there is none. -/
theorem readLength_exhausts {outcome : Except FrameError (Option Nat)} {later : Inflow}
    (read : inflow.readLength = (outcome, later)) (short : inflow.bytes.length < lengthSize) :
    later.bytes = [] ∧ later.ending = inflow.ending := by
  have left := inflow.readLength_later
  rw [read] at left
  exact take_exhausts (Prod.ext rfl left.symm) (Nat.le_of_lt short)

/-- A call gives what the bytes of a closed stream tell, and leaves the bytes that they tell. There
is one case for each way in which a stream may go on. -/
theorem readFrame_of_reading {stream : Bytes} {outcome : Except FrameError (Option Bytes)}
    {left : Bytes}
    (reading : Frame.Reading limit stream outcome left) (inflow : Inflow)
    (content : inflow.bytes = stream)
    (closed : inflow.ending = .closed) :
    ∃ later, inflow.readFrame limit = (outcome, later) ∧ later.bytes = left ∧
      later.ending = .closed := by
  cases reading with
  | ended =>
    obtain ⟨later, read⟩ := inflow.readLength_of_empty content closed
    obtain ⟨none, same⟩ := readLength_exhausts read (by rw [content]; decide)
    exact ⟨later, by rw [readFrame, read], none, same.trans closed⟩
  | shortLength _ begun short =>
    subst content
    obtain ⟨later, read⟩ := inflow.readLength_of_lt begun short closed
    obtain ⟨none, same⟩ := readLength_exhausts read short
    exact ⟨later, by rw [readFrame, read], none, same.trans closed⟩
  | excess size _ fits exceeds =>
    obtain ⟨inner, length, behind, same⟩ := inflow.readLength_of_begins fits content
    exact ⟨inner, by simp only [readFrame, length, readPayload, exceeds, if_true, Except.map],
      behind, same.trans closed⟩
  | shortMessage size begun fits within short =>
    obtain ⟨inner, length, rfl, same⟩ := inflow.readLength_of_begins fits content
    obtain ⟨later, read⟩ := inner.take_of_lt size short (same.trans closed)
    obtain ⟨none, kept⟩ := take_exhausts read (Nat.le_of_lt short)
    have admitted : ¬limit < size := Nat.not_lt.mpr within
    exact ⟨later, by
      simp only [readFrame, length, readPayload, admitted, if_false, read, Except.map], none,
      kept.trans (same.trans closed)⟩
  | message payload _ fits within =>
    obtain ⟨inner, later, length, read, behind, same⟩ := inflow.read_message within fits content
    exact ⟨later, by rw [readFrame, length]; dsimp only; rw [read]; rfl, behind, same.trans closed⟩

/-- What a number of calls give, one after the other. -/
def readFrames (inflow : Inflow) (limit : Nat) :
    (count : Nat) → List (Except FrameError (Option Bytes))
  | 0 => []
  | count + 1 => (inflow.readFrame limit).1 :: readFrames (inflow.readFrame limit).2 limit count

/-- How the bytes of a stream are cut into reads plays no part in what calls give. -/
theorem readFrames_congr (inflow other : Inflow) (same : inflow.bytes = other.bytes)
    (closed : inflow.ending = .closed)
    (otherClosed : other.ending = .closed) (count : Nat) :
    inflow.readFrames limit count = other.readFrames limit count := by
  induction count generalizing inflow other with
  | zero => rfl
  | succ count inductionHypothesis =>
    obtain ⟨outcome, left, reading⟩ := Frame.exists_reading limit inflow.bytes
    obtain ⟨later, read, behind, ending⟩ := readFrame_of_reading reading inflow rfl closed
    obtain ⟨otherLater, otherRead, otherBehind, otherEnding⟩ :=
      readFrame_of_reading reading other same.symm otherClosed
    rw [readFrames, readFrames, read, otherRead,
      inductionHypothesis later otherLater (behind.trans otherBehind.symm) ending otherEnding]

/-- At the end of a stream every call finds that there is no further message. -/
theorem readFrames_of_empty (inflow : Inflow) (empty : inflow.bytes = [])
    (closed : inflow.ending = .closed) (count : Nat) :
    inflow.readFrames limit count = List.replicate count (.ok none) := by
  induction count generalizing inflow with
  | zero => rfl
  | succ count inductionHypothesis =>
    obtain ⟨later, read, behind, ending⟩ :=
      readFrame_of_reading (.ended : Frame.Reading limit [] _ _) inflow empty closed
    rw [readFrames, read, List.replicate_succ, inductionHypothesis later behind ending]

/-- Messages that travel one behind the other are read one by one, and then
there is no further message. -/
theorem readFrames_wire (inflow : Inflow) {messages : List Bytes}
    (admissible : ∀ message ∈ messages, message.length ≤ limit ∧ message.length < UInt32.size)
    (content : inflow.bytes = messages.flatMap Frame.wire) (closed : inflow.ending = .closed)
    (further : Nat) :
    inflow.readFrames limit (messages.length + further)
      = messages.map (fun message => .ok (some message)) ++ List.replicate further (.ok none) := by
  induction messages generalizing inflow with
  | nil =>
    rw [List.length_nil, Nat.zero_add]
    exact inflow.readFrames_of_empty content closed further
  | cons message messages inductionHypothesis =>
    obtain ⟨⟨within, fits⟩, others⟩ := List.forall_mem_cons.mp admissible
    rw [List.flatMap_cons] at content
    obtain ⟨later, read, behind, ending⟩ :=
      readFrame_of_reading (.message message _ fits within) inflow content closed
    rw [List.length_cons, Nat.add_right_comm, readFrames, read,
      inductionHypothesis later others behind ending]
    rfl

end Inflow

namespace Sink

/-- Writes messages one after the other, up to the first that cannot be written. -/
def writeFrames (sink : Sink) : List Bytes → Except FrameError Unit × Sink
  | [] => (.ok (), sink)
  | message :: messages =>
    match sink.writeFrame message with
    | (.ok (), later) => writeFrames later messages
    | refused => refused

/-- Where there is room for them, messages are written as they travel, one behind the other. -/
theorem writeFrames_eq (sink : Sink) {messages : List Bytes}
    (fits : ∀ message ∈ messages, message.length < UInt32.size)
    (room : (messages.flatMap Frame.wire).length ≤ sink.room) :
    ∃ filled, sink.writeFrames messages = (.ok (), filled) ∧
      filled.taken = sink.taken ++ messages.flatMap Frame.wire := by
  induction messages generalizing sink with
  | nil => exact ⟨sink, rfl, (List.append_nil _).symm⟩
  | cons message messages inductionHypothesis =>
    obtain ⟨head, others⟩ := List.forall_mem_cons.mp fits
    rw [List.flatMap_cons, List.length_append] at room
    have accepted : (Frame.wire message).take sink.room = Frame.wire message :=
      List.take_of_length_le (Nat.le_of_add_right_le room)
    let later : Sink :=
      { sink with room := sink.room - (Frame.wire message).length, taken :=
        sink.taken ++ Frame.wire message }
    have written : sink.writeFrame message = (.ok (), later) := by
      rw [writeFrame, Frame.encode_eq_wire message head]
      simp only [write, accepted, if_true, later]
    obtain ⟨filled, rest, taken⟩ := inductionHypothesis later others (Nat.le_sub_of_add_le' room)
    exact ⟨filled, by rw [writeFrames, written]; exact rest, by
      rw [taken, List.flatMap_cons, List.append_assoc]⟩

end Sink

namespace Frame

/-- Boundaries are recovered whatever the reads: messages within the limit that were written one
behind the other come back in order, however their bytes are cut, and every later call finds that
there is none. Of any closed stream, whatever it holds, calls give what its bytes tell and nothing
else: every stream has a reading, and a call gives an outcome and leaves bytes exactly if these
are the reading of the bytes before it. Where reads cut the bytes plays no part, because a frame
is taken by counting bytes. -/
theorem boundaries_recovered (limit : Nat) :
    (∀ (messages : List Bytes) (sink : Sink),
      (∀ message ∈ messages, message.length ≤ limit ∧ message.length < UInt32.size) →
      (messages.flatMap wire).length ≤ sink.room →
      ∃ filled, sink.writeFrames messages = (.ok (), filled) ∧
        ∀ reads : List Bytes, sink.taken ++ reads.flatten = filled.taken → ∀ further : Nat,
          Inflow.readFrames ⟨reads, .closed⟩ limit (messages.length + further)
            = messages.map (fun message => .ok (some message)) ++ List.replicate further
            (.ok none)) ∧
    (∀ reads others : List Bytes, reads.flatten = others.flatten → ∀ count : Nat,
      Inflow.readFrames ⟨reads, .closed⟩ limit count
        = Inflow.readFrames ⟨others, .closed⟩ limit count) ∧
    (∀ stream : Bytes, ∃ outcome left, Reading limit stream outcome left) ∧
    (∀ (reads : List Bytes) (outcome : Except FrameError (Option Bytes)) (left : Bytes),
      Reading limit reads.flatten outcome left ↔
        ∃ later : Inflow, Inflow.readFrame ⟨reads, .closed⟩ limit = (outcome, later) ∧
          later.bytes = left ∧
          later.ending = .closed) := by
  refine ⟨?written, ?uncut, exists_reading limit, ?read⟩
  case written =>
    intro messages sink admissible room
    obtain ⟨filled, written, taken⟩ :=
      sink.writeFrames_eq (fun message member => (admissible message member).2) room
    refine ⟨filled, written, ?_⟩
    intro reads same further
    have content : reads.flatten = messages.flatMap wire :=
      List.append_cancel_left (same.trans taken)
    exact Inflow.readFrames_wire ⟨reads, .closed⟩ admissible content rfl further
  case uncut =>
    intro reads others same count
    exact Inflow.readFrames_congr ⟨reads, .closed⟩ ⟨others, .closed⟩ same rfl rfl count
  case read =>
    intro reads outcome left
    constructor
    · intro reading
      exact Inflow.readFrame_of_reading reading ⟨reads, .closed⟩ rfl rfl
    · rintro ⟨later, read, rfl, -⟩
      -- The bytes have some reading, and a call has only one outcome.
      obtain ⟨told, left, reading⟩ := exists_reading limit reads.flatten
      obtain ⟨other, same, rfl, -⟩ := Inflow.readFrame_of_reading reading ⟨reads, .closed⟩ rfl rfl
      obtain ⟨rfl, rfl⟩ := Prod.mk.inj (read.symm.trans same)
      exact reading

/-- A message of two bytes and an empty one come back although the reads cut both lengths. -/
theorem boundaries_recovered_pair :
    Inflow.readFrames ⟨[[0, 0], [0, 2, 104], [105, 0], [0, 0, 0]], .closed⟩ 5 4
      = [.ok (some [104, 105]), .ok (some []), .ok none, .ok none] := by
  obtain ⟨filled, written, read⟩ :=
    (boundaries_recovered 5).1 [[104, 105], []] ⟨10, "", []⟩ (by decide) (by decide)
  obtain rfl : filled = ⟨0, "", [0, 0, 0, 2, 104, 105, 0, 0, 0, 0]⟩ := (Prod.mk.inj written).2.symm
  exact read [[0, 0], [0, 2, 104], [105, 0], [0, 0, 0]] rfl 2

end Frame

end LedgerIntake
