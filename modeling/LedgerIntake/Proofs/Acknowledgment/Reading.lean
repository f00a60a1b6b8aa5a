import LedgerIntake.Acknowledgment
import LedgerIntake.Proofs.Json.Messages

/-!
# Acknowledgments read back

The payload of an acknowledgment is read as that acknowledgment, whatever its wording and however
many rows it lists. A rejection is an object and so never begins like an acceptance; its members are
found under their keys again, also where the list of rows or the field of a row was left out.
-/

namespace LedgerIntake

open Json

namespace RowFault

/-- The members that describe a fault, with what they spell. -/
def entries (fault : RowFault) : List Entry :=
  [.count "row" fault.row]
    ++ (match fault.field with
      | some field => [.quoted "field" field]
      | none => [])
    ++ [.quoted "reason" fault.reason]

/-- What is written of a fault. -/
def source (fault : RowFault) : Source := .object (fault.entries.map Entry.written)

/-- The members that a fault is written with are those of its entries. -/
theorem map_member_entries (fault : RowFault) : fault.entries.map Entry.member = fault.members := by
  obtain ⟨row, field, reason⟩ := fault
  cases field <;> rfl

/-- The keys of a fault are those of its fields; without a field the key is left out. -/
theorem keys_entries (fault : RowFault) :
    fault.entries.map Entry.key = ["row", "reason"] ∨
      fault.entries.map Entry.key = ["row", "field", "reason"] := by
  rw [entries]
  cases fault.field with
  | none => exact .inl rfl
  | some field => exact .inr rfl

/-- The text of a fault is read as the fault, each entry under its key. -/
theorem spells (fault : RowFault) : Spells fault.toText fault.source := by
  rw [toText, ← map_member_entries]
  exact Entry.spells_object fault.entries

/-- What is written of a fault is read as that fault, with or without a field. -/
theorem read?_source (fault : RowFault) : read? fault.source = some fault := by
  have different : (fault.entries.map Entry.key).Nodup := by
    rcases fault.keys_entries with keys | keys
    · rw [keys]
      decide
    · rw [keys]
      decide
  obtain ⟨row, field, reason⟩ := fault
  rw [source, read?, Entry.fields?_object _ different]
  cases field <;>
    simp [entries, Entry.under?, Entry.count, Entry.quoted, Source.optional?]

end RowFault

namespace RejectionKind

/-- A kind is read from its name, as no two kinds share one. -/
theorem read?_raw (kind : RejectionKind) :
    read? (.text (Style.plain.raw kind.name)) = some kind := by
  rw [read?, legible_plain.resolveText?_raw]
  cases kind <;> rfl

end RejectionKind

namespace Rejection

/-- The list of faulty rows under its key. -/
def rowsEntry (rows : List RowFault) : Entry where
  key := "rows"
  text := brackets (rows.map RowFault.toText)
  source := .array (rows.map RowFault.source)
  spells := by
    have spelled := Spells.brackets (rows.map fun fault => (fault.toText, fault.source)) (by
      intro item among
      obtain ⟨fault, -, rfl⟩ := List.mem_map.mp among
      exact fault.spells)
    rw [List.map_map, List.map_map] at spelled
    exact spelled

/-- The members that describe a rejection, with what they spell. -/
def entries (rejection : Rejection) : List Entry :=
  [.quoted "error" rejection.kind.name, .quoted "message" rejection.message]
    ++ (if rejection.rows.isEmpty then [] else [rowsEntry rejection.rows])

/-- A rejection is written as the object of its members, without the list of rows if it is empty. -/
theorem toText_eq (rejection : Rejection) :
    rejection.toText = object (rejection.entries.map Entry.member) := by
  rw [toText, members, entries]
  cases rejection.rows.isEmpty <;> rfl

/-- The keys of a rejection are those of its fields; the list of rows is left out if it is empty. -/
theorem keys_entries (rejection : Rejection) :
    rejection.entries.map Entry.key = ["error", "message"] ∨
      rejection.entries.map Entry.key = ["error", "message", "rows"] := by
  rw [entries]
  cases rejection.rows.isEmpty with
  | true => exact .inl rfl
  | false => exact .inr rfl

/-- No key stands twice in a rejection, so each is found under its name. -/
theorem nodup_entries (rejection : Rejection) : (rejection.entries.map Entry.key).Nodup := by
  rcases rejection.keys_entries with keys | keys
  · rw [keys]
    decide
  · rw [keys]
    decide

/-- The faults that are listed are read in order, so the list is read as itself. -/
theorem mapM_read?_source (rows : List RowFault) :
    (rows.map RowFault.source).mapM RowFault.read? = some rows := by
  induction rows with
  | nil => rfl
  | cons fault rest inductionHypothesis =>
    rw [List.map_cons, List.mapM_cons, fault.read?_source, inductionHypothesis]
    rfl

/-- What is written of a rejection is read as that rejection. A list of rows
that was left out is empty. -/
theorem read?_entries (rejection : Rejection) :
    read? (.object (rejection.entries.map Entry.written)) = some rejection := by
  have fields :=
    Entry.fields?_object rejection.entries rejection.nodup_entries ["error", "message", "rows"]
  have kind := rejection.kind.read?_raw
  have listed := mapM_read?_source rejection.rows
  obtain ⟨kind, message, rows⟩ := rejection
  cases rows with
  | nil =>
    rw [read?, fields]
    simp_all [entries, Entry.under?, Entry.quoted, readRows?]
  | cons fault rest =>
    rw [read?, fields]
    simp_all [entries, Entry.under?, Entry.quoted, rowsEntry, readRows?, Source.items?]

end Rejection

namespace Acknowledgment

/-- No object is an acceptance, since it begins with a brace and an acceptance with a letter. -/
theorem encode_object_ne_acceptance (members : List (String × String)) :
    Utf8.encode (Json.object members) ≠ acceptance := by
  intro same
  have first := congrArg List.head? same
  rw [Json.object, Json.Style.braces, Utf8.encode_append, Utf8.encode_append] at first
  have brace : Utf8.encode "\x7b" = [123] := by decide
  have letters : acceptance = [79, 75] := by decide
  rw [brace, letters] at first
  cases first

/-- No rejection has the two letters of an acceptance as its payload: its first byte is a brace. -/
theorem payload_ne_acceptance (rejection : Rejection) : (rejected rejection).payload ≠ acceptance :=
  encode_object_ne_acceptance _

/-- The payload of an acknowledgment is read as that acknowledgment. Two letters are tried first,
and then the text as an object. -/
theorem ofPayload?_payload (acknowledgment : Acknowledgment) :
    ofPayload? acknowledgment.payload = some acknowledgment := by
  cases acknowledgment with
  | accepted => rw [ofPayload?, payload, if_pos rfl]
  | rejected rejection =>
    rw [ofPayload?, payload, rejection.toText_eq, if_neg (encode_object_ne_acceptance _),
      Entry.read_object, Option.bind_some, rejection.read?_entries, Option.map_some]

/-- Acknowledgments with one payload are the same, because the payload is read as each of them. -/
theorem payload_injective {acknowledgment other : Acknowledgment}
    (same : acknowledgment.payload = other.payload) :
    acknowledgment = other := by
  have read := acknowledgment.ofPayload?_payload
  rw [same, other.ofPayload?_payload] at read
  exact (Option.some.inj read).symm

/-- A payload tells its acknowledgment: it is read as that one, no other acknowledgment has
it, and the two letters of an acceptance are the payload of no rejection, whatever the
rejection's wording and rows. A rejection is an object whose entries are told apart by their
keys, so reading undoes writing. -/
theorem payload_identifies (acknowledgment other : Acknowledgment) :
    ofPayload? acknowledgment.payload = some acknowledgment ∧
      (acknowledgment.payload = other.payload ↔ acknowledgment = other) ∧
      (acknowledgment.payload = Utf8.encode "OK" ↔ acknowledgment = .accepted) := by
  refine ⟨acknowledgment.ofPayload?_payload, ⟨payload_injective, congrArg payload⟩, ?_⟩
  constructor
  · intro letters
    cases acknowledgment with
    | accepted => rfl
    | rejected rejection => exact absurd letters (payload_ne_acceptance rejection)
  · rintro rfl
    rfl

end Acknowledgment

end LedgerIntake
