import LedgerIntake.Frame

/-!
# Messages in a stream

A stream of bytes has one longest run of complete admissible messages at its front. `Cut` is that
run together with what stands behind it, stated on the bytes alone: how they arrive plays no part in
it. The reading laws below connect it to an inflow, whose reads may cut the same bytes anywhere,
within a length as well as within a message.

What stands behind the run either begins with a length above the limit or comes to an end too early.
Both are told by its first four bytes and its own length.
-/

namespace LedgerIntake

namespace Frame

/-- A message as it travels: its length in four bytes, the most significant first, and its bytes. -/
def wire (message : Bytes) : Bytes := Bytes.bigEndian Inflow.lengthSize message.length ++ message

/-- A message whose length fits into four bytes is written as it travels:
its length, and then itself. -/
theorem encode_eq_wire (message : Bytes) (fits : message.length < UInt32.size) :
    encode message = .ok (wire message) := by
  simp only [encode, wire, fits, if_true]

/-- A message takes four bytes more on the wire than it has, for its length. -/
theorem length_wire (message : Bytes) :
    (wire message).length = Inflow.lengthSize + message.length := by
  simp only [wire, List.length_append, Bytes.length_bigEndian]

/-- The number that the first four bytes of a stream denote. -/
def announced (stream : Bytes) : Nat := Bytes.ofBigEndian (stream.take Inflow.lengthSize)

/-- Four bytes announce no number above those that they can hold, nor do fewer. -/
theorem announced_lt (stream : Bytes) : announced stream < UInt32.size := by
  have bounded := Bytes.ofBigEndian_lt (stream.take Inflow.lengthSize)
  have width : (stream.take Inflow.lengthSize).length ≤ 4 := List.length_take_le _ _
  have most : 1 <<< (8 * (stream.take Inflow.lengthSize).length) ≤ UInt32.size := by
    rw [Nat.one_shiftLeft]
    exact Nat.pow_le_pow_right (by decide) (Nat.mul_le_mul_left 8 width)
  exact Nat.lt_of_lt_of_le bounded most

/-- A number of four bytes in front of others is announced, and the others stand behind it. -/
theorem announced_append (size : Nat) (behind : Bytes) (fits : size < UInt32.size) :
    announced (Bytes.bigEndian Inflow.lengthSize size ++ behind) = size ∧
      (Bytes.bigEndian Inflow.lengthSize size ++ behind).drop Inflow.lengthSize = behind := by
  refine ⟨?_, List.drop_left' (Bytes.length_bigEndian _ _)⟩
  rw [announced, List.take_left' (Bytes.length_bigEndian _ _)]
  exact Bytes.ofBigEndian_bigEndian _ _ fits

/-- The bytes in front of a message announce its length, whatever follows it. -/
theorem announced_wire (message after : Bytes) (fits : message.length < UInt32.size) :
    announced (wire message ++ after) = message.length := by
  rw [wire, List.append_assoc]
  exact (announced_append _ _ fits).1

/-- A stream that holds the bytes that it announces begins with a message of that length. -/
theorem eq_wire_append (stream : Bytes)
    (held : Inflow.lengthSize + announced stream ≤ stream.length) :
    ∃ message after, message.length = announced stream ∧ stream = wire message ++ after := by
  let behind := stream.drop Inflow.lengthSize
  have length : (behind.take (announced stream)).length = announced stream := by
    simp only [behind, List.length_take, List.length_drop]
    omega
  have width : (stream.take Inflow.lengthSize).length = Inflow.lengthSize :=
    List.length_take_of_le (by omega)
  have written : Bytes.bigEndian Inflow.lengthSize (announced stream)
      = stream.take Inflow.lengthSize := by
    have same := Bytes.bigEndian_ofBigEndian (stream.take Inflow.lengthSize)
    rwa [width] at same
  refine ⟨behind.take (announced stream), behind.drop (announced stream), length, ?_⟩
  rw [wire, length, written, List.append_assoc, List.take_append_drop, List.take_append_drop]

/-- The longest run of complete messages within a limit at the front of a
stream, and what stands behind it. -/
structure Cut (limit : Nat) (stream : Bytes) where
  messages : List Bytes
  rest : Bytes
  whole : stream = messages.flatMap wire ++ rest
  admissible : ∀ message ∈ messages, message.length ≤ limit
  /-- No further admissible message stands complete at the front of the rest. -/
  longest : ∀ message after, message.length ≤ limit → rest ≠ wire message ++ after

namespace Cut

variable {limit : Nat} {stream : Bytes}

/-- The length above the limit with which the rest begins, if it begins with one. -/
def excess? (cut : Cut limit stream) : Option Nat :=
  if Inflow.lengthSize ≤ cut.rest.length ∧ limit < announced cut.rest then some (announced cut.rest)
  else none

/-- A message in front of a stream lengthens its run by one. -/
def cons (message : Bytes) (within : message.length ≤ limit) (cut : Cut limit stream) :
    Cut limit (wire message ++ stream) where
  messages := message :: cut.messages
  rest := cut.rest
  whole := by rw [List.flatMap_cons, List.append_assoc, ← cut.whole]
  admissible := by
    intro other member
    rcases List.mem_cons.mp member with rfl | member
    · exact within
    · exact cut.admissible other member
  longest := cut.longest

end Cut

end Frame

namespace Inflow

/-- What is collected is the front of all bytes, and what is left is the back,
wherever the reads were cut. -/
theorem collect_eq (needed : Nat) (reads : List Bytes) :
    (collect needed reads).1 = reads.flatten.take needed ∧
      (collect needed reads).2.flatten = reads.flatten.drop needed := by
  have whole := collect_append needed reads
  have length := length_collect needed reads
  rw [← whole]
  by_cases enough : needed ≤ reads.flatten.length
  · have exactly : (collect needed reads).1.length = needed := by omega
    exact ⟨(List.take_left' exactly).symm, (List.drop_left' exactly).symm⟩
  · have all : (collect needed reads).2.flatten = [] := by
      have total := congrArg List.length whole
      rw [List.length_append] at total
      exact List.length_eq_zero_iff.mp (by omega)
    rw [all, List.append_nil]
    exact ⟨(List.take_of_length_le (by omega)).symm, (List.drop_of_length_le (by omega)).symm⟩

/-- Taking bytes that are there gives the front of them and leaves the back. -/
theorem take_of_le (inflow : Inflow) (needed : Nat) (enough : needed ≤ inflow.bytes.length) :
    ∃ later, inflow.take needed = (.ok (inflow.bytes.take needed), later) ∧
      later.bytes = inflow.bytes.drop needed ∧ later.ending = inflow.ending := by
  obtain ⟨front, back⟩ := collect_eq needed inflow.reads
  have full : (collect needed inflow.reads).1.length = needed := by
    rw [front]
    exact List.length_take_of_le enough
  refine ⟨{ inflow with reads := (collect needed inflow.reads).2 }, ?_, back, rfl⟩
  rw [take]
  dsimp only
  rw [if_pos full, front, bytes]

/-- Taking more bytes than come before the peer closes its side tells how many there were. -/
theorem take_of_lt (inflow : Inflow) (needed : Nat) (short : inflow.bytes.length < needed)
    (closed : inflow.ending = .closed) :
    ∃ later, inflow.take needed = (.error (.unexpectedEnd needed inflow.bytes.length), later) := by
  have front : (collect needed inflow.reads).1 = inflow.bytes :=
    (collect_eq needed inflow.reads).1.trans (List.take_of_length_le (Nat.le_of_lt short))
  have partly : inflow.bytes.length ≠ needed := Nat.ne_of_lt short
  refine ⟨{ inflow with reads := (collect needed inflow.reads).2 }, ?_⟩
  simp only [take, front, partly, if_false, closed]

/-- Four bytes or more hold a length, and reading it leaves the bytes behind them. -/
theorem readLength_of_le (inflow : Inflow) (enough : lengthSize ≤ inflow.bytes.length) :
    ∃ later, inflow.readLength = (.ok (some (Frame.announced inflow.bytes)), later) ∧
      later.bytes = inflow.bytes.drop lengthSize ∧ later.ending = inflow.ending := by
  obtain ⟨later, taken, back, ending⟩ := inflow.take_of_le lengthSize enough
  exact ⟨later, by simp only [readLength, taken, Frame.announced], back, ending⟩

/-- Four bytes at the front of a stream are read as the number that they are of. -/
theorem readLength_of_begins (inflow : Inflow) {size : Nat} {behind : Bytes}
    (fits : size < UInt32.size)
    (begins : inflow.bytes = Bytes.bigEndian lengthSize size ++ behind) :
    ∃ later, inflow.readLength = (.ok (some size), later) ∧ later.bytes = behind ∧
      later.ending = inflow.ending := by
  have enough : lengthSize ≤ inflow.bytes.length := by
    rw [begins, List.length_append, Bytes.length_bigEndian]
    exact Nat.le_add_right _ _
  obtain ⟨announced, dropped⟩ := Frame.announced_append size behind fits
  obtain ⟨later, read, back, ending⟩ := inflow.readLength_of_le enough
  rw [begins, announced] at read
  rw [begins, dropped] at back
  exact ⟨later, read, back, ending⟩

/-- A peer that closes its side before any byte leaves between two messages. -/
theorem readLength_of_empty (inflow : Inflow) (empty : inflow.bytes = [])
    (closed : inflow.ending = .closed) : ∃ later, inflow.readLength = (.ok none, later) := by
  obtain ⟨later, refused⟩ := inflow.take_of_lt lengthSize (by rw [empty]; decide) closed
  rw [empty] at refused
  exact ⟨later, by simp only [readLength, refused, List.length_nil]⟩

/-- A peer that closes its side within a length leaves it incomplete, and the
fault tells how much was there. -/
theorem readLength_of_lt (inflow : Inflow) (begun : inflow.bytes ≠ [])
    (short : inflow.bytes.length < lengthSize) (closed : inflow.ending = .closed) :
    ∃ later, inflow.readLength
      = (.error (.unexpectedEnd lengthSize inflow.bytes.length), later) := by
  obtain ⟨later, refused⟩ := inflow.take_of_lt lengthSize short closed
  have positive : inflow.bytes.length ≠ 0 := fun none => begun (List.length_eq_zero_iff.mp none)
  obtain ⟨count, counted⟩ := Nat.exists_eq_succ_of_ne_zero positive
  rw [counted] at refused ⊢
  exact ⟨later, by simp only [readLength, refused]⟩

/-- A complete message within a limit is read as its length and its bytes,
and what follows it is left. -/
theorem read_message (inflow : Inflow) {limit : Nat} {message after : Bytes}
    (within : message.length ≤ limit)
    (fits : message.length < UInt32.size) (begins : inflow.bytes = Frame.wire message ++ after) :
    ∃ inner later, inflow.readLength = (.ok (some message.length), inner) ∧
      inner.readPayload message.length limit = (.ok message, later) ∧
      later.bytes = after ∧ later.ending = inflow.ending := by
  rw [Frame.wire, List.append_assoc] at begins
  obtain ⟨inner, read, innerBytes, innerEnding⟩ := inflow.readLength_of_begins fits begins
  have body : message.length ≤ inner.bytes.length := by
    rw [innerBytes, List.length_append]
    exact Nat.le_add_right _ _
  obtain ⟨later, taken, laterBytes, laterEnding⟩ := inner.take_of_le message.length body
  refine ⟨inner, later, read, ?_, ?_, laterEnding.trans innerEnding⟩
  · rw [readPayload, if_neg (Nat.not_lt.mpr within), taken, innerBytes, List.take_left]
  · rw [laterBytes, innerBytes, List.drop_left]

/-- Reading fails if the connection breaks before the bytes that are due,
for the reason of the break. -/
theorem take_of_broken (inflow : Inflow) (needed : Nat) (short : inflow.bytes.length < needed)
    {reason : String}
    (broken : inflow.ending = .broken reason) :
    ∃ later, inflow.take needed = (.error (.broken reason), later) := by
  have front : (collect needed inflow.reads).1 = inflow.bytes :=
    (collect_eq needed inflow.reads).1.trans (List.take_of_length_le (Nat.le_of_lt short))
  have partly : inflow.bytes.length ≠ needed := Nat.ne_of_lt short
  refine ⟨{ inflow with reads := (collect needed inflow.reads).2 }, ?_⟩
  simp only [take, front, partly, if_false, broken]

/-- However a stream ends, more bytes than it holds are not taken. -/
theorem take_short (inflow : Inflow) (needed : Nat) (short : inflow.bytes.length < needed) :
    ∃ fault later, inflow.take needed = (.error fault, later) := by
  cases ending : inflow.ending with
  | closed =>
    obtain ⟨later, refused⟩ := inflow.take_of_lt needed short ending
    exact ⟨_, later, refused⟩
  | broken reason =>
    obtain ⟨later, refused⟩ := inflow.take_of_broken needed short ending
    exact ⟨_, later, refused⟩

/-- However a stream ends, fewer than four bytes hold no length, so no message is begun. -/
theorem readLength_short (inflow : Inflow) (short : inflow.bytes.length < lengthSize) (size : Nat)
    (later : Inflow) : inflow.readLength ≠ (.ok (some size), later) := by
  intro same
  cases ending : inflow.ending with
  | closed =>
    by_cases empty : inflow.bytes = []
    · obtain ⟨_, left⟩ := inflow.readLength_of_empty empty ending
      rw [left] at same
      cases same
    · obtain ⟨_, refused⟩ := inflow.readLength_of_lt empty short ending
      rw [refused] at same
      cases same
  | broken reason =>
    obtain ⟨_, refused⟩ := inflow.take_of_broken lengthSize short ending
    simp only [readLength, refused] at same
    cases same

/-- A message that is left incomplete behind a length within a limit is read up to that length. -/
theorem read_incomplete (inflow : Inflow) {limit : Nat} (header : lengthSize ≤ inflow.bytes.length)
    (short : inflow.bytes.length < lengthSize + Frame.announced inflow.bytes)
    (within : Frame.announced inflow.bytes ≤ limit) :
    ∃ inner later fault, inflow.readLength = (.ok (some (Frame.announced inflow.bytes)), inner) ∧
      inner.readPayload (Frame.announced inflow.bytes) limit = (.error fault, later) := by
  obtain ⟨inner, read, innerBytes, -⟩ := inflow.readLength_of_le header
  have early : inner.bytes.length < Frame.announced inflow.bytes := by
    rw [innerBytes, List.length_drop]
    omega
  obtain ⟨fault, later, refused⟩ := inner.take_short _ early
  refine ⟨inner, later, fault, read, ?_⟩
  rw [readPayload, if_neg (Nat.not_lt.mpr within), refused]

end Inflow

end LedgerIntake
