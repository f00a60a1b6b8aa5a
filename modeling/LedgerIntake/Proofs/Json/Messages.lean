import LedgerIntake.Json.Fields
import LedgerIntake.Proofs.Json.NumberReading

/-!
# Messages read back

A message is an object that is written member by member. As long as no key stands twice, each field
of it is found again under its key, whatever order the reader asks in and whichever fields the
writer left out.
-/

namespace LedgerIntake.Json

/-- A member of a message: its key, the text of its value, and the value that the text spells. -/
structure Entry where
  key : String
  text : String
  source : Source
  spells : Spells text source

namespace Entry

/-- The member as the writer takes it. -/
def member (entry : Entry) : String × String := (entry.key, entry.text)

/-- The member as it is written. -/
def written (entry : Entry) : Bytes × Source := (Style.plain.raw entry.key, entry.source)

/-- A string under a key. -/
def quoted (key value : String) : Entry :=
  ⟨key, Json.quoted value, .text (Style.plain.raw value), legible_plain.spells value⟩

/-- A truth value under a key. -/
def truth (key : String) (value : Bool) : Entry :=
  ⟨key, if value then "true" else "false", .bool value, spells_bool value⟩

/-- A number of 64 bits under a key. -/
def count (key : String) (value : UInt64) : Entry :=
  ⟨key, value.toNat.repr, .number (Style.plain.literal (.natural value)),
    plain_readable.spells_number (.natural value)⟩

/-- What stands under a key, if anything does. -/
def under? (entries : List Entry) (key : String) : Option Source :=
  (entries.find? fun entry => entry.key = key).map Entry.source

/-- Members in braces spell the object of what they spell, each key with its value. -/
theorem spells_object (entries : List Entry) :
    Spells (object (entries.map member)) (.object (entries.map written)) := by
  have spelled : Spells (Style.plain.braces _) _ := Spells.braces
    (entries.map fun entry => ⟨entry.key, entry.text, Style.plain.raw entry.key, entry.source⟩) (by
    intro spelled among
    obtain ⟨entry, -, rfl⟩ := List.mem_map.mp among
    exact ⟨legible_plain.names entry.key, entry.spells⟩)
  rw [List.map_map, List.map_map] at spelled
  exact spelled

/-- An object of members is read as what is written of them, in their order. -/
theorem read_object (entries : List Entry) :
    Source.read? (Utf8.encode (object (entries.map member))) =
      some (.object (entries.map written)) :=
  (spells_object entries).read

/-- A key that stands at most once has the value that stands beside it, or none. -/
theorem only?_eq_under? (entries : List Entry) (different : (entries.map Entry.key).Nodup)
    (key : String) :
    Source.only? (entries.map fun entry => (entry.key, entry.source)) key =
      some (under? entries key) := by
  induction entries with
  | nil => rfl
  | cons entry rest inductionHypothesis =>
    obtain ⟨fresh, different⟩ := List.nodup_cons.mp different
    by_cases same : entry.key = key
    · subst same
      have others : (rest.map fun other => (other.key, other.source)).filter
          (fun named => decide (named.1 = entry.key)) = [] := by
        apply List.filter_eq_nil_iff.mpr
        intro named among
        obtain ⟨other, present, rfl⟩ := List.mem_map.mp among
        simp only [decide_eq_true_eq]
        intro equal
        exact fresh (List.mem_map.mpr ⟨other, present, equal⟩)
      rw [Source.only?, List.map_cons, List.filter_cons_of_pos (by simp), others, under?,
        List.find?_cons_of_pos (by simp)]
      rfl
    · rw [Source.only?, List.map_cons, List.filter_cons_of_neg (by simpa using same), under?,
        List.find?_cons_of_neg (by simpa using same)]
      exact inductionHypothesis different

/-- The fields of an object of members are what stands under their keys. -/
theorem fields?_object (entries : List Entry) (different : (entries.map Entry.key).Nodup)
    (keys : List String) :
    Source.fields? keys (.object (entries.map written)) = some (keys.map (under? entries)) := by
  have named : (entries.map written).mapM
      (fun member => (resolveText? member.1).map fun key => (key, member.2))
        = some (entries.map fun entry => (entry.key, entry.source)) := by
    clear different
    induction entries with
    | nil => rfl
    | cons entry rest inductionHypothesis =>
      rw [List.map_cons, List.mapM_cons, inductionHypothesis, written,
        legible_plain.resolveText?_raw]
      rfl
  have found : Source.only? (entries.map fun entry => (entry.key, entry.source))
      = fun key => pure (under? entries key) := funext (only?_eq_under? entries different)
  rw [Source.fields?, named, Option.bind_eq_bind, Option.bind_some, found, List.mapM_pure]
  rfl

end Entry

/-- A string that was written is read as that string. -/
@[simp] theorem Source.text?_raw (value : String) :
    text? (.text (Style.plain.raw value)) = some value :=
  legible_plain.resolveText?_raw value

/-- A number of 64 bits that was written is read as that number. -/
@[simp] theorem Source.natural?_literal (value : UInt64) :
    natural? (.number (Style.plain.literal (.natural value))) = some value := by
  rw [natural?, plain_writes.literal_eq, Number.number?_natural]

end LedgerIntake.Json
