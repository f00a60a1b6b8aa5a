import LedgerIntake.Bytes

/-!
# Frames

A message travels behind its length, four bytes with the most significant first. What a peer sends
arrives in reads of any sizes; taking bytes from an inflow goes on over as many reads as it needs,
so that results depend on the bytes alone and not on how they were cut. A length above the limit is
refused before any byte of the message is taken.
-/

namespace LedgerIntake

/-- How the bytes of a peer come to their end. -/
inductive Ending where
  /-- The peer closed its side. -/
  | closed
  /-- Reading fails, for a reason that the system gives. -/
  | broken (reason : String)
deriving DecidableEq

/-- Why a message could not be read or written. -/
inductive FrameError where
  /-- The peer closed its side after some of the bytes that were due. -/
  | unexpectedEnd (expected received : Nat)
  /-- The message is longer than the limit. -/
  | tooLarge (size limit : Nat)
  /-- The length does not fit into four bytes. -/
  | unrepresentable (size : Nat)
  /-- Reading or writing failed. -/
  | broken (reason : String)
deriving DecidableEq

/-- The wording of an error. -/
def FrameError.message : FrameError → String
  | .unexpectedEnd expected received =>
    "connection closed after " ++ received.repr ++ " of " ++ expected.repr ++ " bytes"
  | .tooLarge size limit =>
    "message of " ++ size.repr ++ " bytes exceeds maximum " ++ limit.repr
  | .unrepresentable size => "message of " ++ size.repr ++ " bytes cannot be length-prefixed"
  | .broken reason => "I/O error: " ++ reason

/-- What a peer has still to send. -/
structure Inflow where
  /-- The reads in which the bytes arrive; an empty one brings nothing. -/
  reads : List Bytes
  ending : Ending

namespace Inflow

/-- Bytes that arrive at once from a peer that closes its side afterwards. -/
def ofBytes (bytes : Bytes) : Inflow := ⟨[bytes], .closed⟩

/-- All bytes that are still to come. -/
def bytes (inflow : Inflow) : Bytes := inflow.reads.flatten

/-- Takes a number of bytes from reads, or all of them if they hold fewer. -/
def collect (needed : Nat) : List Bytes → Bytes × List Bytes
  | [] => ([], [])
  | read :: later =>
    if read.length ≤ needed then
      let (more, later) := collect (needed - read.length) later
      (read ++ more, later)
    else (read.take needed, read.drop needed :: later)

/-- The bytes taken and those left are the bytes that were to come,
however they are cut into reads. -/
theorem collect_append (needed : Nat) (reads : List Bytes) :
    (collect needed reads).1 ++ (collect needed reads).2.flatten = reads.flatten := by
  fun_induction collect needed reads with
  | case1 => rfl
  | case2 needed read later fits more rest same ih =>
    rw [same] at ih
    simp only [List.append_assoc, List.flatten_cons] at *
    rw [ih]
  | case3 needed read later exceeds =>
    simp only [List.flatten_cons, ← List.append_assoc, List.take_append_drop]

/-- As many bytes are taken as asked for, unless there are fewer, and then all of them. -/
theorem length_collect (needed : Nat) (reads : List Bytes) :
    (collect needed reads).1.length = min needed reads.flatten.length := by
  fun_induction collect needed reads with
  | case1 => simp
  | case2 needed read later fits more rest same ih =>
    rw [same] at ih
    simp only [List.length_append, List.flatten_cons] at *
    omega
  | case3 needed read later exceeds =>
    simp only [List.length_take, List.flatten_cons, List.length_append]
    omega

/-- Takes exactly a number of bytes. -/
def take (inflow : Inflow) (needed : Nat) : Except FrameError Bytes × Inflow :=
  let (taken, reads) := collect needed inflow.reads
  let later : Inflow := { inflow with reads }
  if taken.length = needed then (.ok taken, later)
  else
    match inflow.ending with
    | .closed => (.error (.unexpectedEnd needed taken.length), later)
    | .broken reason => (.error (.broken reason), later)

/-- The number of bytes of a length. -/
def lengthSize : Nat := 4

/-- Takes the length of the next message. There is none if the peer closed its
side before its first byte. -/
def readLength (inflow : Inflow) : Except FrameError (Option Nat) × Inflow :=
  match inflow.take lengthSize with
  | (.ok written, later) => (.ok (some (Bytes.ofBigEndian written)), later)
  | (.error (.unexpectedEnd _ 0), later) => (.ok none, later)
  | (.error refusal, later) => (.error refusal, later)

/-- Takes a message of a known length. -/
def readPayload (inflow : Inflow) (length limit : Nat) : Except FrameError Bytes × Inflow :=
  if limit < length then (.error (.tooLarge length limit), inflow) else inflow.take length

/-- Takes a whole message. -/
def readFrame (inflow : Inflow) (limit : Nat) : Except FrameError (Option Bytes) × Inflow :=
  match inflow.readLength with
  | (.ok none, later) => (.ok none, later)
  | (.error refusal, later) => (.error refusal, later)
  | (.ok (some length), later) =>
    let (payload, later) := later.readPayload length limit
    (payload.map some, later)

/-- Taking some bytes leaves as many fewer, which is why a server's loop ends. -/
theorem length_bytes_of_take {inflow later : Inflow} {needed : Nat} {taken : Bytes}
    (result : inflow.take needed = (.ok taken, later)) :
    later.bytes.length + needed = inflow.bytes.length := by
  have whole := congrArg List.length (collect_append needed inflow.reads)
  unfold take at result
  dsimp only at result
  split at result
  · next full =>
    simp only [Prod.mk.injEq, Except.ok.injEq] at result
    rw [← result.2]
    simp only [bytes, List.length_append] at *
    omega
  · next short => split at result <;> simp at result

/-- Taking a length leaves fewer bytes by the four that it is written in. -/
theorem length_bytes_of_readLength {inflow later : Inflow} {size : Nat}
    (result : inflow.readLength = (.ok (some size), later)) :
    later.bytes.length + lengthSize = inflow.bytes.length := by
  unfold readLength at result
  split at result
  · next written _ taken =>
    have same : _ = later := (Prod.mk.inj result).2
    exact same ▸ length_bytes_of_take taken
  · simp at result
  · simp at result

/-- Taking a message leaves as many bytes fewer as its length said that it has. -/
theorem length_bytes_of_readPayload {inflow later : Inflow} {size limit : Nat} {payload : Bytes}
    (result : inflow.readPayload size limit = (.ok payload, later)) :
    later.bytes.length + size = inflow.bytes.length := by
  unfold readPayload at result
  split at result
  · simp at result
  · exact length_bytes_of_take result

end Inflow

namespace Frame

/-- A message behind its length. -/
def encode (payload : Bytes) : Except FrameError Bytes :=
  let length := payload.length
  if length < UInt32.size then .ok (Bytes.bigEndian Inflow.lengthSize length ++ payload)
  else .error (.unrepresentable length)

end Frame

/-- A place to write to that holds a limited number of bytes. -/
structure Sink where
  /-- How many more bytes it takes. -/
  room : Nat
  /-- Why it takes no more than these. -/
  reason : String
  /-- What it took. -/
  taken : Bytes

namespace Sink

/-- Writes bytes; if there is not room for all, the first of them are
taken and the writing fails. -/
def write (sink : Sink) (bytes : Bytes) : Except FrameError Unit × Sink :=
  let accepted := bytes.take sink.room
  let sink := { sink with room := sink.room - accepted.length, taken := sink.taken ++ accepted }
  (if accepted.length = bytes.length then .ok () else .error (.broken sink.reason), sink)

/-- Writes a message behind its length; one that has none is not begun. -/
def writeFrame (sink : Sink) (payload : Bytes) : Except FrameError Unit × Sink :=
  match Frame.encode payload with
  | .ok frame => sink.write frame
  | .error refusal => (.error refusal, sink)

end Sink

end LedgerIntake
