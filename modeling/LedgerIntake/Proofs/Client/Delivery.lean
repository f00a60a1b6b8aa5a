import LedgerIntake.Proofs.Admission.Submission
import LedgerIntake.Proofs.Client

/-!
# Replies that reach their client

A client reads a reply to a batch as the acknowledgment that the server gave, provided that the
reply is not longer than the client allows. The only replies that can be longer are lists of very
many faulty rows. A faulty row takes between 75 and 91 bytes, so no list of half as many rows as a
batch may carry is too long, and every list of two thirds of them is. Such a list answers a payload
that is short: a column without values takes a bit for each row.
-/

namespace LedgerIntake

open Json Text

namespace Rejection

variable {index : Nat} {fault : RecordFault} {field : RequiredField}

/-- The name of a field and the wording of its fault take little more or less for
one fault than for another. -/
theorem utf8ByteSize_wording (concerned : fault.field? = some field) :
    47 ≤ (quoted field.name).utf8ByteSize + (quoted fault.message).utf8ByteSize ∧
      (quoted field.name).utf8ByteSize + (quoted fault.message).utf8ByteSize ≤ 57 := by
  cases fault with
  | notObject => cases concerned
  | missing missing =>
    cases concerned
    cases field <;> decide
  | null empty =>
    cases concerned
    cases field <;> decide
  | entity =>
    cases concerned
    decide

/-- A faulty row of a batch has its index and its reason, so it takes between 75 and 91 bytes. -/
theorem utf8ByteSize_rowFault (few : index < Batch.rowLimit)
    (concerned : fault.field? = some field) :
    75 ≤ (Examined.rowFault index fault).toText.utf8ByteSize ∧
      (Examined.rowFault index fault).toText.utf8ByteSize ≤ 91 := by
  have number : (UInt64.ofNat index).toNat = index :=
    UInt64.toNat_ofNat_of_lt (Nat.lt_trans few (by decide))
  have filled : 0 < (Nat.toDigits 10 index).length := Nat.length_toDigits_pos
  have digits : (Nat.toDigits 10 index).length ≤ 7 :=
    (Nat.length_toDigits_le_iff (by decide) (by decide)).mpr (Nat.lt_trans few (by decide))
  obtain ⟨least, most⟩ := utf8ByteSize_wording concerned
  rw [RowFault.utf8ByteSize_toText, Examined.rowFault, number, concerned, utf8ByteSize_repr]
  dsimp only [Option.map_some]
  omega

/-- A list of faults is as long as they are, give or take a few bytes for each and
for what stands around them. -/
theorem utf8ByteSize_listed (message : String) (wording : message.utf8ByteSize ≤ 60)
    (faults : List RowFault)
    (sizes : ∀ fault ∈ faults, 75 ≤ fault.toText.utf8ByteSize ∧ fault.toText.utf8ByteSize ≤ 91) :
    76 * faults.length ≤ (toText ⟨.validation, message, faults⟩).utf8ByteSize ∧
      (toText ⟨.validation, message, faults⟩).utf8ByteSize ≤ 92 * faults.length + 500 := by
  have least := le_utf8ByteSize_brackets (faults.map RowFault.toText) 75 (by
    intro item among
    obtain ⟨fault, member, rfl⟩ := List.mem_map.mp among
    exact (sizes fault member).1)
  have most := utf8ByteSize_brackets_le (faults.map RowFault.toText) 91 (by
    intro item among
    obtain ⟨fault, member, rfl⟩ := List.mem_map.mp among
    exact (sizes fault member).2)
  have kind : (quoted RejectionKind.validation.name).utf8ByteSize = 12 := by decide
  have words := utf8ByteSize_quoted_le message
  rw [List.length_map] at least most
  rw [utf8ByteSize_toText, kind]
  dsimp only
  -- A list without faults is left out, brackets and all.
  by_cases empty : faults = []
  · subst empty
    rw [List.isEmpty_nil, if_pos rfl, List.length_nil]
    omega
  · have filled : faults.isEmpty = false := List.isEmpty_eq_false_iff.mpr empty
    rw [filled, if_neg Bool.false_ne_true]
    omega

end Rejection

namespace Record

/-- What is wrong with a row always concerns a field, so a reply names one for each faulty row. -/
theorem field?_of_fault? {row : Batch.Row} {cause : RecordFault} (found : fault? row = some cause) :
    ∃ field, cause.field? = some field := by
  rw [fault?, absence?_eq] at found
  rcases Option.or_eq_some_iff.mp found with absent | ⟨-, other⟩
  · obtain ⟨field, -, same⟩ := List.exists_of_findSome?_eq_some absent
    generalize presence row field = given at same
    rcases given with _ | _ | _
    · cases same
      exact ⟨field, rfl⟩
    · cases same
    · cases same
      exact ⟨field, rfl⟩
  · split at other
    · cases other
    · cases other
      exact ⟨.entityId, rfl⟩

end Record

/-- If every row is at fault, as many faults are listed as there are rows. -/
theorem Examined.length_rowFaults_of_faulty {rows : List Batch.Row}
    (faulty : ∀ row ∈ rows, Record.fault? row ≠ none) : (rowFaults rows).length = rows.length := by
  have all : (rowFaults rows).length = rows.zipIdx.length := by
    apply List.filterMap_length_eq_length.mpr
    rintro ⟨row, index⟩ among
    rw [Option.isSome_map, Option.isSome_iff_ne_none]
    exact faulty row (List.fst_mem_of_mem_zipIdx among)
  exact all.trans List.length_zipIdx

/-- Every fault among the rows of a batch takes between 75 and 91 bytes. So the length of a reply is
told by how many there are. -/
theorem Examined.utf8ByteSize_rowFaults {rows : List Batch.Row}
    (few : rows.length ≤ Batch.rowLimit) :
    ∀ fault ∈ rowFaults rows, 75 ≤ fault.toText.utf8ByteSize ∧ fault.toText.utf8ByteSize ≤ 91 := by
  intro fault among
  obtain ⟨index, row, cause, placed, found, rfl⟩ := (mem_rowFaults fault).mp among
  obtain ⟨field, concerned⟩ := Record.field?_of_fault? found
  have inside := (List.getElem?_eq_some_iff.mp placed).1
  exact Rejection.utf8ByteSize_rowFault (Nat.lt_of_lt_of_le inside few) concerned

/-- A reply is within what a client allows unless it lists more than half as many faulty rows as a
batch may carry rows, and it is not if they are more than two thirds as many. -/
structure Acknowledgment.Moderate (reply : Acknowledgment) : Prop where
  short : Client.responseLimit < reply.payload.length → ∃ message faults,
    reply = .rejected ⟨.validation, message, faults⟩ ∧ Batch.rowLimit < 2 * faults.length
  long : ∀ message faults, reply = .rejected ⟨.validation, message, faults⟩ →
    2 * Batch.rowLimit < 3 * faults.length → Client.responseLimit < reply.payload.length

/-- Replies to batches are moderate. Only the list of faulty rows can make one long, and it
has to be very long for that. -/
theorem Acknowledgment.Told.moderate {reply : Acknowledgment} (told : reply.Told) :
    reply.Moderate := by
  cases told with
  | accepted =>
    have small : Acknowledgment.accepted.payload.length ≤ Client.responseLimit := by decide
    refine ⟨fun exceeds => absurd small (Nat.not_le.mpr exceeds), ?_⟩
    rintro _ _ ⟨⟩
  | worded kind other message bounded =>
    have size : _ ≤ 6 * Batch.messageBound + 0 * (Rejection.faultBound + 1) + 200 :=
      Rejection.utf8ByteSize_toText_le ⟨kind, message, []⟩ Batch.messageBound bounded (by simp)
    have small : (Acknowledgment.rejected ⟨kind, message, []⟩).payload.length
      ≤ Client.responseLimit := by
      rw [Acknowledgment.payload, Utf8.length_encode]
      exact Nat.le_trans size (by decide)
    refine ⟨fun exceeds => absurd small (Nat.not_le.mpr exceeds), ?_⟩
    rintro _ _ ⟨⟩
    exact absurd rfl other
  | listed rows few message bounded =>
    obtain ⟨least, most⟩ :=
      Rejection.utf8ByteSize_listed message bounded _ (Examined.utf8ByteSize_rowFaults few)
    rw [← Utf8.length_encode] at least most
    constructor
    · intro exceeds
      refine ⟨message, _, rfl, ?_⟩
      rw [Acknowledgment.payload, Client.responseLimit] at exceeds
      rw [Batch.rowLimit]
      omega
    · rintro _ _ ⟨⟩ many
      rw [Batch.rowLimit] at many
      rw [Acknowledgment.payload, Client.responseLimit]
      omega

namespace Link

variable {payload : Bytes}

/-- A client that submits a payload to a server that serves gets the acknowledgment of that payload,
unless the reply is too long for it. -/
theorem submitPayload_of_serving [Diagnostics] (link : Link) (serving : link.phase = .serving)
    (within : payload.length ≤ link.server.limit) (fits : payload.length < UInt32.size)
    (machine : link.intake.pool.capacity < UInt64.size) (elapsed : Elapsed) :
    (link.submitPayload payload elapsed).1 =
      let reply := (link.intake.handle payload elapsed).1
      if reply.payload.length ≤ Client.responseLimit then .ok reply
      else .error (.framing (.tooLarge reply.payload.length Client.responseLimit)) := by
  have active : link.phase ≠ .closed := by
    rw [serving]
    decide
  have answer : (link.server.answer .serving payload link.intake elapsed).reply
      = (link.intake.handle payload elapsed).1.payload := by
    rw [Server.answer, Server.limitIn_serving, if_neg (Nat.not_lt.mpr within),
      Server.accept_serving]
  have framed := link.intake.length_reply_lt payload elapsed (Nat.lt_trans fits (by decide)) machine
  rw [submitPayload, exchange_of_active active fits]
  dsimp only
  rw [serving, answer, Client.receive_eq _ framed]
  split
  · rw [Except.bind, Client.readAcknowledgment, Acknowledgment.ofPayload?_payload]
  · rfl

/-- Whatever payload a client submits to a server that serves, it gets the very
acknowledgment of the server if the reply is not too long for it, and the reply is too long
only if it lists a great many faulty rows. Everything else that a reply is made of is bounded
by the format and the machine. -/
theorem submitPayload_delivers [Diagnostics] (link : Link) (serving : link.phase = .serving)
    (payload : Bytes)
    (within : payload.length ≤ link.server.limit) (fits : payload.length < UInt32.size)
    (machine : link.intake.pool.capacity < UInt64.size) (elapsed : Elapsed) :
    (link.intake.handle payload elapsed).1.Moderate ∧
      (link.submitPayload payload elapsed).1 =
        let reply := (link.intake.handle payload elapsed).1
        if reply.payload.length ≤ Client.responseLimit then .ok reply
        else .error (.framing (.tooLarge reply.payload.length Client.responseLimit)) := by
  have told := link.intake.told_reply payload elapsed (Nat.lt_trans fits (by decide)) machine
  exact ⟨told.moderate, submitPayload_of_serving link serving within fits machine elapsed⟩

/-- A batch of one row that has one key and no value under it. -/
def blankRow : Bytes :=
  [84, 67, 66, 49, 1, 0, 0, 0, 1, 0, 0, 0, 1, 0, 0, 0, 1, 0, 97, 0, 0, 0, 0, 1, 0, 0, 0, 0]

attribute [local instance] Diagnostics.plain in
/-- A client that submits a blank row is told what is wrong with it: its
first required field is missing. -/
theorem submitPayload_delivers_blankRow :
    ((dial Settings.standard.server ⟨⟨1, [], 1, 0, 0⟩, .fresh⟩).submitPayload blankRow ⟨0, 0⟩).1
      = .ok (.rejected ⟨.validation, "1 of 1 rows invalid",
        [⟨0, some "entity_id", "missing required field 'entity_id'"⟩]⟩) := by
  have reply : (Intake.handle ⟨⟨1, [], 1, 0, 0⟩, .fresh⟩ blankRow ⟨0, 0⟩).1
      = .rejected ⟨.validation, "1 of 1 rows invalid",
        [⟨0, some "entity_id", "missing required field 'entity_id'"⟩]⟩ := by
    decide +kernel
  have outcome :=
    submitPayload_delivers (dial Settings.standard.server ⟨⟨1, [], 1, 0, 0⟩, .fresh⟩) rfl blankRow
      (by decide) (by decide) (by decide) ⟨0, 0⟩
  rw [outcome.2]
  dsimp only [dial]
  rw [reply, if_pos (by decide +kernel)]

end Link

/-! ## A list that no client can read -/

section Blank

open Batch

/-- Rows that have one key each and no value under it. -/
def blankRows (count : Nat) : List Row := List.replicate count [("a", .null)]

variable {count : Nat}

/-- The one column of blank rows holds no values, only nulls. -/
theorem cellsOf_blankRows (count : Nat) :
    cellsOf (blankRows count) "a" = List.replicate count .null := by
  rw [cellsOf, blankRows, List.map_replicate]
  rfl

/-- Blank rows have one column, if there are any. -/
theorem columnNames_blankRows (positive : 0 < count) : columnNames (blankRows count) = ["a"] := by
  have keys : (blankRows count).flatMap Members.keys = List.replicate count "a" := by
    rw [blankRows, List.flatMap_replicate]
    exact List.flatten_replicate_singleton
  obtain ⟨fewer, rfl⟩ := Nat.exists_eq_succ_of_ne_zero (Nat.ne_of_gt positive)
  rw [columnNames, keys, List.replicate_succ, List.eraseDups_cons,
    List.filter_replicate_of_neg (by simp), List.eraseDups_nil]

/-- A column without values has no type, however many nulls it has. -/
theorem inferType_blank (count : Nat) : inferType (List.replicate count .null) = .null := by
  have kept : (List.replicate count Value.null).foldl Inference.add ⟨none, false⟩
    = ⟨none, false⟩ := by
    induction count with
    | zero => rfl
    | succ fewer inductionHypothesis => exact inductionHypothesis
  rw [inferType, kept, Inference.type]

/-- Nothing is written for the cells of blank rows, so that their body is the bitmap. -/
theorem writeBody_blank (count : Nat) :
    writeBody "a" .null (List.replicate count .null) =
      .ok (packBitmap [] (List.replicate count false)) := by
  have values : (List.replicate count Value.null).mapM (writeCell "a" .null)
    = .ok (List.replicate count []) := by
    induction count with
    | zero => rfl
    | succ fewer inductionHypothesis =>
      rw [List.replicate_succ, List.mapM_cons, inductionHypothesis]
      rfl
  rw [writeBody, values, List.map_replicate]
  dsimp only [bind, Except.bind]
  rw [List.flatten_replicate_nil, List.append_nil]
  rfl

/-- The column of blank rows takes a bit for each row, and its fixed parts. -/
theorem writeColumn_blank (few : count ≤ rowLimit) :
    ∃ column, writeColumn "a" (List.replicate count .null) = .ok column ∧
      column.length = 11 + bitmapLength count := by
  let bits := packBitmap [] (List.replicate count false)
  have width : bits.length = bitmapLength count := by
    rw [length_packBitmap, List.length_replicate, List.length_nil, Nat.zero_add]
  have small : bitmapLength count < sizeLimit := by
    rw [bitmapLength, sizeLimit]
    rw [rowLimit] at few
    simp only [UInt32.size]
    omega
  have name : (Utf8.encode "a").length = 1 := by decide
  refine ⟨Bytes.littleEndian 2 "a".utf8ByteSize ++ Utf8.encode "a" ++ [ColumnType.null.tag, 0, 0, 0]
    ++ Bytes.littleEndian 4 bits.length ++ bits, ?_, ?_⟩
  · rw [writeColumn, inferType_blank]
    dsimp only [bind, Except.bind]
    rw [writeBody_blank]
    dsimp only
    rw [if_pos (width ▸ small)]
    rfl
  · simp only [List.length_append, Bytes.length_littleEndian, List.length_cons, List.length_nil,
      name, width]

/-- Blank rows make a batch that is short for their number, while each
of them is told in the reply. -/
theorem writtenAs_blankRows (positive : 0 < count) (few : count ≤ rowLimit) :
    ∃ payload columns, WrittenAs (blankRows count) payload columns ∧
      payload.length = 27 + bitmapLength count := by
  obtain ⟨column, written, length⟩ := writeColumn_blank few
  have names := columnNames_blankRows positive
  have number : (blankRows count).length = count := List.length_replicate
  refine ⟨_, [column], ⟨?_, rfl, ?_, number.symm ▸ few⟩, ?_⟩
  · rw [names]
    refine .cons ?_ .nil
    rw [cellsOf_blankRows]
    exact written
  · rw [names]
    decide
  · rw [List.length_append, length_encode_header _ rfl, List.flatten_singleton, length, headerSize]
    omega

/-- The values of blank rows do not nest, so their batch is read. -/
theorem shallow_blankRows (count : Nat) :
    ∀ row ∈ blankRows count, ∀ member ∈ row, member.2.depth ≤ greatestDepth := by
  intro row among
  rw [List.eq_of_mem_replicate among]
  decide

/-- Every one of them lacks its entity, and still does when it has been read back. -/
theorem faulty_of_restores_blankRows {table : Table} (restored : table.Restores (blankRows count)) :
    ∀ row ∈ table.rows, Record.fault? row ≠ none := by
  have blank : Record.fault? [("a", .null)] = some (.missing .entityId) := by decide
  intro row among passes
  -- The row stands at some place, and so does the row from which it was written.
  obtain ⟨index, inside, same⟩ := List.mem_iff_getElem.mp among
  have inside' : index < (blankRows count).length := restored.count ▸ inside
  have source : (blankRows count)[index]? = some [("a", .null)] := by
    rw [List.getElem?_eq_getElem inside', List.eq_of_mem_replicate (List.getElem_mem inside')]
  have back := Record.readBack_of_restores restored (shallow_blankRows count) source
    (same ▸ List.getElem?_eq_getElem inside)
  have verdict := Record.fault?_of_readBack back
  rw [passes, blank] at verdict
  contradiction

/-- The reply to a batch of blank rows lists as many faults as it has rows,
since each row lacks a field. -/
theorem reply_blankRows [Diagnostics] {payload : Bytes} {columns : List Bytes}
    (positive : 0 < count)
    (parts : WrittenAs (blankRows count) payload columns) (intake : Intake) (elapsed : Elapsed) :
    ∃ message faults, (intake.handle payload elapsed).1 = .rejected ⟨.validation, message, faults⟩ ∧
      faults.length = count := by
  have number : (blankRows count).length = count := List.length_replicate
  have names := columnNames_blankRows positive
  obtain ⟨decoded, read, standing⟩ := decode_of_few parts (shallow_blankRows count)
    (.inr (names ▸ List.cons_ne_nil _ _)) (names ▸ (by decide))
  have restored := restores_of_columns standing
  have faulty := faulty_of_restores_blankRows restored
  have wrong : ¬∀ row ∈ Table.rows ⟨(blankRows count).length, decoded⟩,
    Record.fault? row = none := by
    intro passing
    have inside : 0 < (Table.rows ⟨(blankRows count).length, decoded⟩).length := by
      rw [restored.count, number]
      exact positive
    exact faulty _ (List.getElem_mem inside) (passing _ (List.getElem_mem inside))
  have reply : (intake.handle payload elapsed).1
    = ((Examined.ofPayload payload).offer intake.pool).1 := rfl
  rw [reply, Examined.ofPayload, read]
  dsimp only
  rw [Examined.ofRows_of_fault wrong]
  exact ⟨_, _, rfl, (Examined.length_rowFaults_of_faulty faulty).trans
    (restored.count.trans number)⟩

end Blank

namespace Link

attribute [local instance] Diagnostics.plain in
/-- A payload of 131,099 bytes whose reply the client cannot read: every row
that it announces is at fault. -/
theorem submitPayload_blankRows :
    ∃ payload : Bytes, payload.length = 131099 ∧ ∃ size,
      ((dial Settings.standard.server ⟨⟨1, [], 1, 0, 0⟩, .fresh⟩).submitPayload payload ⟨0, 0⟩).1
        = .error (.framing (.tooLarge size Client.responseLimit)) := by
  obtain ⟨payload, columns, parts, length⟩ :=
    writtenAs_blankRows (by decide : 0 < Batch.rowLimit) (Nat.le_refl _)
  have short : payload.length = 131099 := length
  obtain ⟨message, faults, reply, count⟩ :=
    reply_blankRows (by decide) parts ⟨⟨1, [], 1, 0, 0⟩, .fresh⟩ ⟨0, 0⟩
  have told :=
    Intake.told_reply ⟨⟨1, [], 1, 0, 0⟩, .fresh⟩ payload ⟨0, 0⟩ (short ▸ by decide) (by decide)
  have many : 2 * Batch.rowLimit < 3 * faults.length := by
    rw [count]
    decide
  have long := told.moderate.long message faults reply many
  have within : payload.length ≤ Settings.standard.server.limit := by
    rw [short]
    decide
  have fits : payload.length < UInt32.size := by
    rw [short]
    decide
  have outcome :=
    submitPayload_of_serving (dial Settings.standard.server ⟨⟨1, [], 1, 0, 0⟩, .fresh⟩)
      rfl within fits
    (by decide) ⟨0, 0⟩
  exact ⟨payload, short, _, outcome.trans (if_neg (Nat.not_le.mpr long))⟩

end Link

end LedgerIntake
