import LedgerIntake.Proofs.Admission

/-!
# Sizes of replies

Every reply to a batch fits behind a length of four bytes. The wording of a rejection is short, and
of faulty rows there are at most as many as one batch may carry, each told in a few hundred bytes.
-/

namespace LedgerIntake

open Json Text

/-- What is wrong with a row is told in few bytes, and so is the field that it concerns. -/
theorem RecordFault.utf8ByteSize_message_le (fault : RecordFault) :
    fault.message.utf8ByteSize ≤ 60 := by
  cases fault with
  | notObject => decide
  | missing field => cases field <;> decide
  | null field => cases field <;> decide
  | entity => decide

/-- The names of the required fields are short. -/
theorem RequiredField.utf8ByteSize_name_le (field : RequiredField) :
    field.name.utf8ByteSize ≤ 20 := by
  cases field <;> decide

/-- The names of the kinds of rejections are short. -/
theorem RejectionKind.utf8ByteSize_name_le (kind : RejectionKind) :
    kind.name.utf8ByteSize ≤ 20 := by
  cases kind <;> decide

/-- The bytes of a faulty row: its number, its field if it is known, its reason,
and what stands around them. -/
theorem RowFault.utf8ByteSize_toText (fault : RowFault) :
    fault.toText.utf8ByteSize = 18 + fault.row.toNat.repr.utf8ByteSize +
      (quoted fault.reason).utf8ByteSize
        + (match fault.field with
          | some field => (quoted field).utf8ByteSize + 9
          | none => 0) := by
  have row : (quoted "row").utf8ByteSize = 5 := by decide
  have field : (quoted "field").utf8ByteSize = 7 := by decide
  have reason : (quoted "reason").utf8ByteSize = 8 := by decide
  have holds : fault.members ≠ [] := List.cons_ne_nil _ _
  rw [toText, utf8ByteSize_object holds, members]
  cases fault.field with
  | none =>
    simp only [List.append_nil, List.singleton_append, List.map_cons, List.map_nil, List.sum_cons,
      List.sum_nil, row, reason]
    omega
  | some name =>
    simp only [List.cons_append, List.nil_append, List.map_cons, List.map_nil, List.sum_cons,
      List.sum_nil, row, field, reason]
    omega

namespace Rejection

/-- The bytes of a rejection: its kind, its message, the list of its rows if there are any,
and what stands around them. -/
theorem utf8ByteSize_toText (rejection : Rejection) :
    rejection.toText.utf8ByteSize = 21 + (quoted rejection.kind.name).utf8ByteSize
      + (quoted rejection.message).utf8ByteSize
      + (if rejection.rows.isEmpty then 0
        else (brackets (rejection.rows.map RowFault.toText)).utf8ByteSize + 8) := by
  have error : (quoted "error").utf8ByteSize = 7 := by decide
  have message : (quoted "message").utf8ByteSize = 9 := by decide
  have rows : (quoted "rows").utf8ByteSize = 6 := by decide
  generalize written : brackets (rejection.rows.map RowFault.toText) = list
  have holds : rejection.members list ≠ [] := List.cons_ne_nil _ _
  rw [toText, written, utf8ByteSize_object holds, members]
  split
  · simp only [List.append_nil, List.map_cons, List.map_nil, List.sum_cons, List.sum_nil, error,
      message]
    omega
  · simp only [List.cons_append, List.nil_append, List.map_cons, List.map_nil, List.sum_cons,
      List.sum_nil, error, message, rows]
    omega

/-- The most bytes that a faulty row takes. -/
def faultBound : Nat := 1280

/-- A faulty row of a batch takes few bytes: its index has at most twenty digits, and its
reason is one of few wordings. -/
theorem utf8ByteSize_rowFault_le (index : Nat) (fault : RecordFault) :
    (Examined.rowFault index fault).toText.utf8ByteSize ≤ faultBound := by
  have row : (UInt64.ofNat index).toNat.repr.utf8ByteSize ≤ 20 :=
    utf8ByteSize_repr_le _ (UInt64.toNat_lt_size _)
  have reason : (quoted fault.message).utf8ByteSize ≤ 362 :=
    Nat.le_trans (utf8ByteSize_quoted_le _) (by have := fault.utf8ByteSize_message_le; omega)
  rw [RowFault.utf8ByteSize_toText, Examined.rowFault, faultBound]
  dsimp only
  cases fault.field? with
  | none =>
    rw [Option.map_none]
    dsimp only
    omega
  | some field =>
    have name : (quoted field.name).utf8ByteSize ≤ 122 :=
      Nat.le_trans (utf8ByteSize_quoted_le _) (by have := field.utf8ByteSize_name_le; omega)
    rw [Option.map_some]
    dsimp only
    omega

/-- A rejection takes no more than its wording and its rows, and little besides. -/
theorem utf8ByteSize_toText_le (rejection : Rejection) (wording : Nat)
    (message : rejection.message.utf8ByteSize ≤ wording)
    (rows : ∀ fault ∈ rejection.rows, fault.toText.utf8ByteSize ≤ faultBound) :
    rejection.toText.utf8ByteSize ≤ 6 * wording + rejection.rows.length *
    (faultBound + 1) + 200 := by
  have list : (brackets (rejection.rows.map RowFault.toText)).utf8ByteSize
      ≤ rejection.rows.length * (faultBound + 1) + 2 := by
    have items := utf8ByteSize_brackets_le (rejection.rows.map RowFault.toText) faultBound (by
      intro item among
      obtain ⟨fault, member, rfl⟩ := List.mem_map.mp among
      exact rows fault member)
    rwa [List.length_map] at items
  have kind : (quoted rejection.kind.name).utf8ByteSize ≤ 122 :=
    Nat.le_trans (utf8ByteSize_quoted_le _) (by have := rejection.kind.utf8ByteSize_name_le; omega)
  have words : (quoted rejection.message).utf8ByteSize ≤ 6 * wording + 2 :=
    Nat.le_trans (utf8ByteSize_quoted_le _) (by omega)
  rw [utf8ByteSize_toText]
  generalize rejection.rows.length * (faultBound + 1) = all at *
  split <;> omega

end Rejection

namespace Examined

/-- There are at most as many faulty rows as rows, and each takes few bytes. -/
theorem length_rowFaults_le (rows : List Batch.Row) : (rowFaults rows).length ≤ rows.length := by
  rw [rowFaults]
  exact Nat.le_trans (List.length_filterMap_le _ _) (Nat.le_of_eq List.length_zipIdx)

/-- The text of every row's fault keeps the bound: an index below 2⁶⁴, a
field and one of few reasons. -/
theorem utf8ByteSize_of_mem_rowFaults (rows : List Batch.Row) (fault : RowFault)
    (member : fault ∈ rowFaults rows) : fault.toText.utf8ByteSize ≤ Rejection.faultBound := by
  obtain ⟨⟨row, index⟩, -, found⟩ := List.mem_filterMap.mp member
  obtain ⟨cause, -, rfl⟩ := Option.map_eq_some_iff.mp found
  exact Rejection.utf8ByteSize_rowFault_le index cause

end Examined

/-- A refusal of the pool is told in few words, as its numbers are those of a machine. -/
theorem PoolError.utf8ByteSize_capacityExceeded_le (capacity requested available : Nat)
    (wide : capacity < UInt64.size) (asked : requested < UInt64.size)
    (free : available < UInt64.size) :
    (PoolError.capacityExceeded capacity requested available).message.utf8ByteSize
      ≤ Batch.messageBound := by
  have whole := utf8ByteSize_repr_le capacity wide
  have wanted := utf8ByteSize_repr_le requested asked
  have left := utf8ByteSize_repr_le available free
  have own (text : String) : text.utf8ByteSize ≤ text.utf8ByteSize := Nat.le_refl _
  exact Nat.le_trans
    (utf8ByteSize_append_le (utf8ByteSize_append_le (utf8ByteSize_append_le (utf8ByteSize_append_le
      (utf8ByteSize_append_le (utf8ByteSize_append_le (own _) wanted) (own _)) left) (own _)) whole)
      (own _)) (by decide)

/-- What replies to batches are: acceptances, rejections in so many words, and lists of
the faulty rows of a batch. -/
inductive Acknowledgment.Told : Acknowledgment → Prop where
  | accepted : Told .accepted
  | worded (kind : RejectionKind) (other : kind ≠ .validation) (message : String)
      (bounded : message.utf8ByteSize ≤ Batch.messageBound) : Told (.rejected ⟨kind, message, []⟩)
  | listed (rows : List Batch.Row) (few : rows.length ≤ Batch.rowLimit) (message : String)
      (bounded : message.utf8ByteSize ≤ 60) :
          Told (.rejected ⟨.validation, message, Examined.rowFaults rows⟩)

namespace Intake

/-- The reply to a batch is one of those that are told. What it is made of is bounded by the format,
since the payload and the capacity are numbers of the machine. -/
theorem told_reply [Diagnostics] (intake : Intake) (payload : Bytes) (elapsed : Elapsed)
    (bounded : payload.length < UInt64.size) (machine : intake.pool.capacity < UInt64.size) :
    (intake.handle payload elapsed).1.Told := by
  show ((Examined.ofPayload payload).offer intake.pool).1.Told
  unfold Examined.ofPayload
  cases outcome : Batch.decode payload with
  | error cause =>
    have moderate : cause.Moderate := (Batch.decode_moderate payload bounded).of_error outcome
    exact .worded .codec (by decide) _ (cause.utf8ByteSize_message_le moderate)
  | ok table =>
    have few := Batch.length_rows_of_decode payload table outcome
    have small : table.rows.length < UInt64.size := Nat.lt_of_le_of_lt few (by decide)
    dsimp only
    by_cases passing : ∀ row ∈ table.rows, Record.fault? row = none
    · have same := Examined.length_records passing
      rw [Examined.ofRows_of_passes passing]
      by_cases room : (Examined.records table.rows).length ≤ intake.pool.available
      · rw [Examined.offer_of_le _ _ room]
        exact .accepted
      · have free : intake.pool.available ≤ intake.pool.capacity := Nat.sub_le _ _
        rw [Examined.offer_of_lt _ _ (Nat.lt_of_not_le room)]
        refine .worded .capacity (by decide) _ ?_
        exact PoolError.utf8ByteSize_capacityExceeded_le _ _ _ machine (same ▸ small)
          (Nat.lt_of_le_of_lt free machine)
    · have fewer := Examined.length_rowFaults_le table.rows
      rw [Examined.ofRows_of_fault passing]
      refine .listed table.rows few _ ?_
      have wrong := utf8ByteSize_repr_le (Examined.rowFaults table.rows).length
        (Nat.lt_of_le_of_lt fewer small)
      have all := utf8ByteSize_repr_le table.rows.length small
      exact Nat.le_trans
        (utf8ByteSize_append_le
          (utf8ByteSize_append_le (utf8ByteSize_append_le wrong (Nat.le_refl _)) all)
          (Nat.le_refl _)) (by decide)

/-- The reply to a batch fits behind a length of four bytes, however many rows it lists. -/
theorem length_reply_lt [Diagnostics] (intake : Intake) (payload : Bytes) (elapsed : Elapsed)
    (bounded : payload.length < UInt64.size) (machine : intake.pool.capacity < UInt64.size) :
    (intake.handle payload elapsed).1.payload.length < UInt32.size := by
  have rejected (rejection : Rejection)
    (wording : rejection.message.utf8ByteSize ≤ Batch.messageBound)
      (few : rejection.rows.length ≤ Batch.rowLimit)
      (rows : ∀ fault ∈ rejection.rows, fault.toText.utf8ByteSize ≤ Rejection.faultBound) :
      (Acknowledgment.rejected rejection).payload.length < UInt32.size := by
    have size := rejection.utf8ByteSize_toText_le Batch.messageBound wording rows
    have lines := Nat.mul_le_mul_right (Rejection.faultBound + 1) few
    rw [Acknowledgment.payload, Utf8.length_encode]
    simp only [Batch.messageBound, Rejection.faultBound, Batch.rowLimit] at size lines
    simp only [UInt32.size]
    omega
  have told := intake.told_reply payload elapsed bounded machine
  generalize (intake.handle payload elapsed).1 = reply at told ⊢
  cases told with
  | accepted => exact (by decide : Acknowledgment.accepted.payload.length < UInt32.size)
  | worded kind other message bounded => exact rejected _ bounded (Nat.zero_le _) (by simp)
  | listed rows few message bounded =>
    have fewer := Examined.length_rowFaults_le rows
    exact rejected _ (Nat.le_trans bounded (by decide)) (Nat.le_trans fewer few)
      (Examined.utf8ByteSize_of_mem_rowFaults rows)

end Intake

end LedgerIntake
