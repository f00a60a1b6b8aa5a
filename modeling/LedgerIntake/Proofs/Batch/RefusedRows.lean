import LedgerIntake.Proofs.Batch.Finishing
import LedgerIntake.Proofs.Text.Size
import Mathlib.Data.List.TakeWhile

/-!
# Rows that a writer refuses

A writer registers the keys of a row one after the other and refuses the row at the first key that
is too long. The new keys in front of that one stay behind as columns, although no row has them. The
rows of the writer and its answers to later calls are those of a writer that was not called. Its
batch has the columns that stayed behind, so it is the same only if later rows bring these keys
first and in the same order.
-/

namespace LedgerIntake.Batch.Writer

open Json

section Registration

/-- The keys in front of the first one that is too long, each once and without
those that are columns already. -/
def fresh (columns keys : List String) : List String :=
  ((keys.takeWhile fun key => key.utf8ByteSize ≤ nameLimit).filter (· ∉ columns)).eraseDups

/-- What is wrong with the first key that is too long. -/
def overlong? (keys : List String) : Option EncodeFault :=
  (keys.find? fun key => nameLimit < key.utf8ByteSize).map fun key => .nameTooLong key.utf8ByteSize

variable {columns keys rest : List String} {key : String}

/-- A key that is a column already adds none, and the keys behind it are looked at as before. -/
theorem fresh_of_known (fits : key.utf8ByteSize ≤ nameLimit) (known : key ∈ columns) :
    fresh columns (key :: rest) = fresh columns rest := by
  rw [fresh, fresh, List.takeWhile_cons_of_pos (by simpa using fits),
    List.filter_cons_of_neg (by simpa using known)]

/-- A new key is a column for the keys behind it, so a key that stands twice is added once. -/
theorem fresh_of_unknown (fits : key.utf8ByteSize ≤ nameLimit) (unknown : key ∉ columns) :
    fresh columns (key :: rest) = key :: fresh (columns ++ [key]) rest := by
  rw [fresh, fresh, List.takeWhile_cons_of_pos (by simpa using fits),
    List.filter_cons_of_pos (by simpa using unknown), List.eraseDups_cons, List.filter_filter]
  refine congrArg (fun others => key :: List.eraseDups others) (List.filter_congr fun name _ => ?_)
  rw [Bool.eq_iff_iff]
  simp only [Bool.and_eq_true, Bool.not_eq_true', beq_eq_false_iff_ne, decide_eq_true_eq,
    List.mem_append, List.mem_singleton, not_or]
  exact and_comm

/-- A key that is too long adds no column, nor do the keys behind it. -/
theorem fresh_of_overlong (long : nameLimit < key.utf8ByteSize) :
    fresh columns (key :: rest) = [] := by
  rw [fresh, List.takeWhile_cons_of_neg (by simpa using long), List.filter_nil, List.eraseDups_nil]

/-- A key that fits is not what a row is refused for; the first one
behind it that does not fit is. -/
theorem overlong?_of_le (fits : key.utf8ByteSize ≤ nameLimit) :
    overlong? (key :: rest) = overlong? rest := by
  rw [overlong?, overlong?, List.find?_cons_of_neg (by simpa using fits)]

/-- A key that is too long is what a row is refused for, and the refusal tells its length. -/
theorem overlong?_of_lt (long : nameLimit < key.utf8ByteSize) :
    overlong? (key :: rest) = some (.nameTooLong key.utf8ByteSize) := by
  rw [overlong?, List.find?_cons_of_pos (by simpa using long), Option.map_some]

/-- Registering adds the new keys in front of the first one that is too
long, and reports that one. -/
theorem register_eq (short : ∀ name ∈ columns, name.utf8ByteSize ≤ nameLimit) (keys : List String) :
    register columns keys = (columns ++ fresh columns keys, overlong? keys) := by
  induction keys generalizing columns with
  | nil =>
    rw [fresh, List.takeWhile_nil, List.filter_nil, List.eraseDups_nil, List.append_nil]
    rfl
  | cons key rest inductionHypothesis =>
    rw [register]
    split
    · next known =>
      rw [inductionHypothesis short, fresh_of_known (short key known) known,
        overlong?_of_le (short key known)]
    · next unknown =>
      split
      · next long => rw [fresh_of_overlong long, overlong?_of_lt long, List.append_nil]
      · next fits =>
        have fits := Nat.le_of_not_lt fits
        have shorts : ∀ name ∈ columns ++ [key], name.utf8ByteSize ≤ nameLimit :=
          List.forall_mem_append.mpr ⟨short, List.forall_mem_singleton.mpr fits⟩
        rw [inductionHypothesis shorts, fresh_of_unknown fits unknown, overlong?_of_le fits,
          List.append_assoc, List.singleton_append]

/-- Names that are passed over leave the others as they are. The induction is on the number of
names, because each step drops all repetitions of a name. -/
theorem eraseDups_filter (names : List String) (keep : String → Bool) :
    (names.filter keep).eraseDups = names.eraseDups.filter keep := by
  induction length : names.length using Nat.strongRecOn generalizing names with
  | ind count inductionHypothesis =>
    cases names with
    | nil => rfl
    | cons name rest =>
      have fewer := List.length_filter_le (fun other => !other == name) rest
      rw [List.length_cons] at length
      have others := inductionHypothesis _ (by omega) (rest.filter fun other => !other == name) rfl
      rw [List.eraseDups_cons, List.filter_cons, List.filter_cons]
      split
      · rw [List.eraseDups_cons, ← others, List.filter_filter, List.filter_filter]
        simp only [Bool.and_comm]
      · next dropped =>
        rw [← others, List.filter_filter]
        refine congrArg List.eraseDups (List.filter_congr fun other _ => ?_)
        cases kept : keep other with
        | false => rfl
        | true =>
          have different : other ≠ name := fun same => dropped (same ▸ kept)
          rw [Bool.true_and, beq_false_of_ne different]
          rfl

end Registration

section Calls

/-- The keys of a refused value that stay behind as columns. -/
def leftover (writer : Writer) : Value → List String
  | .object row => if rowLimit ≤ writer.size then [] else fresh writer.columns (Members.keys row)
  | _ => []

/-- What a writer answers to calls that follow each other. -/
def answers (writer : Writer) : List Value → List (Except BatchError Unit)
  | [] => []
  | value :: rest => (writer.pushValue value).2 :: answers (writer.pushValue value).1 rest

/-- The columns that a writer has gained when values were offered to it. -/
def gained (writer : Writer) (values : List Value) : List String :=
  (writer.offerAll values).columns.drop writer.columns.length

variable {writer other after : Writer} {base left new : List String}

/-- What a call with a row does, told without the loop over its keys: the keys in front of the first
overlong one become columns in any case, and the row is kept if there is none. -/
theorem push_eq (sound : writer.Sound) (row : Row) :
    writer.push row =
      if rowLimit ≤ writer.size then (writer, .error (.tooManyRows (rowLimit + 1) rowLimit))
      else match overlong? (Members.keys row) with
        | none =>
          (⟨writer.columns ++ fresh writer.columns (Members.keys row), writer.rows.push row⟩,
            .ok ())
        | some fault =>
          (⟨writer.columns ++ fresh writer.columns (Members.keys row), writer.rows⟩,
            .error (.encode fault)) := by
  obtain ⟨columns, rows⟩ := writer
  rw [push, size]
  dsimp only
  rw [register_eq sound.short]
  split
  · rfl
  · cases overlong? (Members.keys row) <;> rfl

/-- A call that is refused leaves columns behind and nothing else. Values that are no rows, and rows
past the limit, leave not even these. -/
theorem eq_of_refused (sound : writer.Sound) {value : Value} {refusal : BatchError}
    (refused : writer.pushValue value = (after, .error refusal)) :
    after = ⟨writer.columns ++ writer.leftover value, writer.rows⟩ := by
  cases value with
  | object row =>
    rw [pushValue, push_eq sound] at refused
    rw [leftover]
    split at refused
    · next full =>
      cases refused
      rw [if_pos full, List.append_nil]
    · next room =>
      rw [if_neg room]
      cases verdict : overlong? (Members.keys row) with
      | none =>
        rw [verdict] at refused
        cases refused
      | some fault =>
        rw [verdict] at refused
        cases refused
        rfl
  | _ =>
    cases refused
    exact congrArg (fun columns : List String => (⟨columns, writer.rows⟩ : Writer))
      (List.append_nil _).symm

/-- A writer holds the rows of another one and its columns, and between those that stood at first
and those that are new it has some that were left. -/
structure Retains (base left new : List String) (writer other : Writer) : Prop where
  sound : writer.Sound
  sound' : other.Sound
  rows : other.rows = writer.rows
  columns : writer.columns = base ++ new
  retained : other.columns = base ++ left ++ new.filter (· ∉ left)

/-- The new keys of a row are those that were not left, if columns were: a key that
stayed behind is no longer new. -/
theorem Retains.fresh_eq (retains : Retains base left new writer other) (keys : List String) :
    fresh other.columns keys = (fresh writer.columns keys).filter (· ∉ left) := by
  rw [fresh, fresh, ← eraseDups_filter, List.filter_filter, retains.columns, retains.retained]
  refine congrArg List.eraseDups (List.filter_congr fun name _ => ?_)
  rw [Bool.eq_iff_iff]
  simp only [Bool.and_eq_true, decide_eq_true_eq, List.mem_append, List.mem_filter]
  tauto

/-- New columns on both sides leave what was left where it is, behind the
columns that both writers had. -/
theorem Retains.extend (retains : Retains base left new writer other) (keys : List String) :
    writer.columns ++ fresh writer.columns keys = base ++ (new ++ fresh writer.columns keys) ∧
      other.columns ++ fresh other.columns keys
        = base ++ left ++ (new ++ fresh writer.columns keys).filter (· ∉ left) := by
  constructor
  · rw [← List.append_assoc, ← retains.columns]
  · rw [retains.fresh_eq, List.filter_append, ← List.append_assoc, ← retains.retained]

/-- A row is answered alike, and what was left stays where it is. Both writers look at the keys of
the row, and not at their columns, to refuse it. -/
theorem Retains.push (retains : Retains base left new writer other) (row : Row) :
    (other.push row).2 = (writer.push row).2 ∧
      ∃ new, Retains base left new (writer.push row).1 (other.push row).1 := by
  have sound := retains.sound.push row
  have sound' := retains.sound'.push row
  have same : other.size = writer.size := congrArg Array.size retains.rows
  obtain ⟨columns, retained⟩ := retains.extend (Members.keys row)
  rw [push_eq retains.sound] at sound ⊢
  rw [push_eq retains.sound', same] at sound' ⊢
  by_cases full : rowLimit ≤ writer.size
  · rw [if_pos full, if_pos full]
    exact ⟨rfl, new, retains⟩
  · rw [if_neg full] at sound sound' ⊢
    rw [if_neg full]
    cases verdict : overlong? (Members.keys row) with
    | none =>
      rw [verdict] at sound sound'
      exact ⟨rfl, _, sound, sound', congrArg (Array.push · row) retains.rows, columns, retained⟩
    | some fault =>
      rw [verdict] at sound sound'
      exact ⟨rfl, _, sound, sound', retains.rows, columns, retained⟩

/-- All calls are answered alike. The induction is on the calls, and what has been
gained since grows along it. -/
theorem Retains.offerAll (retains : Retains base left new writer other) (values : List Value) :
    other.answers values = writer.answers values ∧
      ∃ new, Retains base left new (writer.offerAll values) (other.offerAll values) := by
  induction values generalizing writer other new with
  | nil => exact ⟨rfl, new, retains⟩
  | cons value rest inductionHypothesis =>
    have call : (other.pushValue value).2 = (writer.pushValue value).2 ∧
        ∃ new, Retains base left new (writer.pushValue value).1 (other.pushValue value).1 := by
      cases value with
      | object row => exact retains.push row
      | _ => exact ⟨rfl, new, retains⟩
    obtain ⟨answer, later, retains⟩ := call
    obtain ⟨others, retains⟩ := inductionHypothesis retains
    exact ⟨congrArg₂ List.cons answer others, retains⟩

/-- After a call that was refused a writer retains what was left over,
and has gained nothing yet. -/
theorem retains_of_refused (sound : writer.Sound) {value : Value} {refusal : BatchError}
    (refused : writer.pushValue value = (after, .error refusal)) :
    Retains writer.columns (writer.leftover value) [] writer after := by
  have sound' : (writer.pushValue value).1.Sound := sound.offerAll [value]
  rw [refused] at sound'
  have known := eq_of_refused sound refused
  subst known
  exact ⟨sound, sound', rfl, (List.append_nil _).symm, by rw [List.filter_nil, List.append_nil]⟩

end Calls

section Batches

variable {writer other : Writer} {bytes : Bytes}

/-- Every key of a row is a column. -/
def Covered (writer : Writer) : Prop :=
  ∀ row ∈ writer.rows.toList, ∀ key ∈ Members.keys row, key ∈ writer.columns

/-- If no key is too long, all of them are columns in the end, old or new. -/
theorem mem_append_fresh {columns keys : List String} (fits : overlong? keys = none) {key : String}
    (among : key ∈ keys) : key ∈ columns ++ fresh columns keys := by
  have short : ∀ key ∈ keys, decide (key.utf8ByteSize ≤ nameLimit) = true := by
    intro key among
    have found := List.find?_eq_none.mp (Option.map_eq_none_iff.mp fits) key among
    simpa using found
  by_cases known : key ∈ columns
  · exact List.mem_append_left _ known
  · apply List.mem_append_right
    rw [fresh, List.takeWhile_eq_self_iff.mpr short, List.mem_eraseDups, List.mem_filter]
    exact ⟨among, decide_eq_true known⟩

/-- A row that is taken brings columns for its keys, so the keys of all rows stay covered. -/
theorem Covered.push (covered : writer.Covered) (sound : writer.Sound) (row : Row) :
    (writer.push row).1.Covered := by
  have former : ∀ row' ∈ writer.rows.toList, ∀ key ∈ Members.keys row',
      key ∈ writer.columns ++ fresh writer.columns (Members.keys row) :=
    fun row' present key among => List.mem_append_left _ (covered row' present key among)
  rw [push_eq sound]
  split
  · exact covered
  · cases verdict : overlong? (Members.keys row) with
    | some fault => exact former
    | none =>
      intro row' present
      dsimp only at present
      rw [Array.toList_push] at present
      rcases List.mem_append.mp present with present | last
      · exact former row' present
      · rw [List.mem_singleton.mp last]
        exact fun key among => mem_append_fresh verdict among

/-- Whatever is offered to a fresh writer, the keys of its rows are among its columns. -/
theorem covered_offerAll (values : List Value) : (empty.offerAll values).Covered :=
  (offerAll_induction (motive := fun writer => writer.Sound ∧ writer.Covered)
    (fun _ row kept => ⟨kept.1.push row, kept.2.push kept.1 row⟩)
    ⟨sound_empty, fun _ present => absurd present List.not_mem_nil⟩ values).2

/-- A column without values is written, however many rows there are. So columns that stayed behind
never keep a batch from being finished. -/
theorem exists_writeColumn_of_null (name : String) {cells : List Value}
    (null : ∀ cell ∈ cells, cell = .null)
    (few : cells.length ≤ rowLimit) : ∃ block, writeColumn name cells = .ok block := by
  have values (type : ColumnType) : cells.mapM (writeCell name type)
    = .ok (cells.map fun _ => []) := by
    clear few
    induction cells with
    | nil => rfl
    | cons cell rest inductionHypothesis =>
      have empty : writeCell name type cell = .ok [] := by
        rw [null cell List.mem_cons_self]
        exact if_pos rfl
      rw [List.mapM_cons, empty,
        inductionHypothesis fun other member => null other (List.mem_cons_of_mem _ member)]
      rfl
  have body : writeBody name (inferType cells) cells
      = .ok (packBitmap [] (cells.map fun cell => !cell.isNull)
          ++ (cells.map fun _ => []).flatten) := by
    rw [writeBody, values]
    rfl
  have small :
      (packBitmap [] (cells.map fun cell => !cell.isNull)
        ++ (cells.map fun _ => ([] : Bytes)).flatten).length
      < sizeLimit := by
    rw [List.flatten_eq_nil_iff.mpr (List.forall_mem_map.mpr fun _ _ => rfl), List.append_nil,
      length_packBitmap, List.length_map, List.length_nil, Nat.zero_add]
    exact bitmapLength_lt_sizeLimit few
  exact ⟨_, bind_eq_ok_iff.mpr ⟨_, body, if_pos small⟩⟩

/-- A writer finishes a batch exactly if each of its columns is written, since
nothing is tested at the end. -/
theorem exists_finish_iff : (∃ bytes, writer.finish = .ok bytes) ↔
    ∀ name ∈ writer.columns, ∃ block, writeColumn name
    (cellsOf writer.rows.toList name) = .ok block := by
  constructor
  · rintro ⟨bytes, finished⟩ name among
    obtain ⟨blocks, written, -⟩ := finish_parts finished
    obtain ⟨index, inside, rfl⟩ := List.getElem_of_mem among
    exact ⟨_, written.get inside (written.length_eq ▸ inside)⟩
  · intro each
    obtain ⟨blocks, computed⟩ := exists_mapM each
    rw [finish]
    dsimp only
    rw [computed]
    exact ⟨_, rfl⟩

/-- The bytes of a column tell its name, and where it ends: both have
their lengths in front of them. -/
theorem writeColumn_append_inj {name name' : String} {cells cells' : List Value}
    {block block' rest rest' : Bytes}
    (short : name.utf8ByteSize ≤ nameLimit) (short' : name'.utf8ByteSize ≤ nameLimit)
    (written : writeColumn name cells = .ok block)
    (written' : writeColumn name' cells' = .ok block')
    (same : block ++ rest = block' ++ rest') : name = name' ∧ rest = rest' := by
  obtain ⟨body, -, small, rfl⟩ := writeColumn_parts written
  obtain ⟨body', -, small', rfl⟩ := writeColumn_parts written'
  have fits {name : String} (short : name.utf8ByteSize ≤ nameLimit) :
      name.utf8ByteSize < 1 <<< (8 * 2) :=
    Nat.lt_of_le_of_lt short (by decide)
  simp only [List.append_assoc] at same
  obtain ⟨lengths, behind⟩ :=
    List.append_inj same (by rw [Bytes.length_littleEndian, Bytes.length_littleEndian])
  have sizes := congrArg Bytes.ofLittleEndian lengths
  rw [Bytes.ofLittleEndian_littleEndian 2 _ (fits short),
    Bytes.ofLittleEndian_littleEndian 2 _ (fits short'), ← Utf8.length_encode,
    ← Utf8.length_encode] at sizes
  obtain ⟨names, behind⟩ := List.append_inj behind sizes
  obtain ⟨-, behind⟩ := List.append_inj behind rfl
  obtain ⟨lengths, behind⟩ :=
    List.append_inj behind (by rw [Bytes.length_littleEndian, Bytes.length_littleEndian])
  have sizes := congrArg Bytes.ofLittleEndian lengths
  rw [Bytes.ofLittleEndian_littleEndian 4 _ small,
    Bytes.ofLittleEndian_littleEndian 4 _ small'] at sizes
  exact ⟨Utf8.encode_injective names, (List.append_inj behind sizes).2⟩

/-- The bytes of columns tell their names in order. The induction is on the columns of one side, and
each cuts off as many bytes on the other. -/
theorem names_eq_of_blocks {cellsOf cellsOf' : String → List Value} {names names' : List String}
    {blocks blocks' : List Bytes} (short : ∀ name ∈ names, name.utf8ByteSize ≤ nameLimit)
    (short' : ∀ name ∈ names', name.utf8ByteSize ≤ nameLimit)
    (written : List.Forall₂ (fun name block => writeColumn name (cellsOf name) = .ok block)
      names blocks)
    (written' : List.Forall₂ (fun name block => writeColumn name (cellsOf' name) = .ok block)
      names' blocks')
    (same : blocks.flatten = blocks'.flatten) : names = names' := by
  have taken {name : String} {cells : List Value} {block : Bytes} {blocks : List Bytes}
      (written : writeColumn name cells = .ok block) : (block :: blocks).flatten ≠ [] := by
    intro empty
    have least := length_writeColumn written
    rw [(List.append_eq_nil_iff.mp empty).1, List.length_nil, columnOverhead] at least
    omega
  induction written generalizing names' blocks' with
  | nil =>
    cases written' with
    | nil => rfl
    | cons first _ => exact absurd same.symm (taken first)
  | cons first others inductionHypothesis =>
    cases written' with
    | nil => exact absurd same (taken first)
    | cons first' others' =>
      obtain ⟨head, tails⟩ :=
        writeColumn_append_inj (short _ List.mem_cons_self) (short' _ List.mem_cons_self)
          first first' same
      rw [head,
        inductionHypothesis (fun other member => short other (List.mem_cons_of_mem _ member))
          (fun other member => short' other (List.mem_cons_of_mem _ member)) others' tails]

/-- A batch tells the columns of its writer, whatever their cells: headers are equally long, and
behind them stand the blocks. -/
theorem columns_eq_of_finish (sound : writer.Sound) (sound' : other.Sound)
    (finished : writer.finish = .ok bytes)
    (finished' : other.finish = .ok bytes) : writer.columns = other.columns := by
  obtain ⟨blocks, written, whole⟩ := finish_parts finished
  obtain ⟨blocks', written', whole'⟩ := finish_parts finished'
  rw [whole] at whole'
  have header (columns rows : UInt32) : (Header.ofCounts columns rows).encode.length = headerSize :=
    length_encode_header _ rfl
  obtain ⟨-, same⟩ := List.append_inj whole' (by rw [header, header])
  exact names_eq_of_blocks sound.short sound'.short written written' same

variable {base left new : List String} (retains : Retains base left new writer other)

include retains

/-- Columns that were left have no values, so a batch is finished with them
exactly if it is without them. -/
theorem Retains.exists_finish_iff (covered : writer.Covered) :
    (∃ bytes, other.finish = .ok bytes) ↔ ∃ bytes, writer.finish = .ok bytes := by
  rw [Writer.exists_finish_iff, Writer.exists_finish_iff, retains.rows]
  constructor
  · intro written name among
    apply written
    rw [retains.columns] at among
    rw [retains.retained, List.mem_append, List.mem_append, List.mem_filter, decide_eq_true_eq]
    rcases List.mem_append.mp among with among | among
    · exact .inl (.inl among)
    · by_cases known : name ∈ left
      · exact .inl (.inr known)
      · exact .inr ⟨among, known⟩
  · intro written name _
    by_cases known : name ∈ writer.columns
    · exact written name known
    · refine exists_writeColumn_of_null name ?_ ?_
      · intro cell among
        obtain ⟨row, present, rfl⟩ := List.mem_map.mp among
        cases found : Members.get? row name with
        | none => rfl
        | some value =>
          have key : name ∈ Members.keys row := List.mem_map_of_mem (Members.mem_of_get? found)
          exact absurd (covered row present name key) known
      · rw [cellsOf, List.length_map, Array.length_toList]
        exact retains.sound.few

/-- Columns that were left add none exactly if the new ones begin with them. -/
theorem Retains.columns_eq_iff : other.columns = writer.columns ↔ left <+: new := by
  have different : new.Nodup :=
    (List.nodup_append.mp (retains.columns ▸ retains.sound.different)).2.1
  rw [retains.columns, retains.retained, List.append_assoc, List.append_cancel_left_eq]
  constructor
  · intro same
    exact ⟨_, same⟩
  · rintro ⟨later, rfl⟩
    obtain ⟨-, -, apart⟩ := List.nodup_append.mp different
    have behind : later.filter (· ∉ left) = later :=
      List.filter_eq_self.mpr fun name among => decide_eq_true fun known =>
        apart name known name among rfl
    have front : left.filter (· ∉ left) = [] :=
      List.filter_eq_nil_iff.mpr fun name known absent => of_decide_eq_true absent known
    rw [List.filter_append, front, behind, List.nil_append]

/-- The batch is the same exactly if the columns are, and these are exactly if what was left
is gained first and in order. -/
theorem Retains.finish_eq_iff {found : Bytes} (finished : writer.finish = .ok bytes)
    (finished' : other.finish = .ok found) : found = bytes ↔ left <+: new := by
  rw [← retains.columns_eq_iff]
  constructor
  · rintro rfl
    exact columns_eq_of_finish retains.sound' retains.sound finished' finished
  · intro columns
    have same : other = writer := by
      obtain ⟨_, _⟩ := writer
      obtain ⟨_, _⟩ := other
      exact congrArg₂ Writer.mk columns retains.rows
    rw [same, finished] at finished'
    exact (Except.ok.inj finished').symm

end Batches

/-- After a refused call a writer answers each later call as if that call had not been made, and
holds the same rows; but the keys of the refused value in front of the one that it was refused for
stay behind as columns. A batch is still finished exactly where it would have been, and it is the
same batch exactly if later rows bring the keys that stayed behind first and in the same order. -/
theorem refused_leaves {history : List Value} {writer after : Writer} {value : Value}
    {refusal : BatchError}
    (reached : empty.offerAll history = writer)
    (refused : writer.pushValue value = (after, .error refusal)) :
    after = ⟨writer.columns ++ writer.leftover value, writer.rows⟩ ∧
    ∀ later : List Value,
      after.answers later = writer.answers later ∧
      (after.offerAll later).rows = (writer.offerAll later).rows ∧
      ((∃ found, (after.offerAll later).finish = .ok found) ↔
        ∃ bytes, (writer.offerAll later).finish = .ok bytes) ∧
      ∀ bytes found, (writer.offerAll later).finish = .ok bytes →
      (after.offerAll later).finish = .ok found →
        (found = bytes ↔ writer.leftover value <+: writer.gained later) := by
  have sound : writer.Sound := reached ▸ sound_offerAll history
  refine ⟨eq_of_refused sound refused, fun later => ?_⟩
  obtain ⟨answers, new, retains⟩ := (retains_of_refused sound refused).offerAll later
  have covered : (writer.offerAll later).Covered := by
    have joined : writer.offerAll later = empty.offerAll (history ++ later) := by
      rw [← reached, offerAll, offerAll, offerAll, List.foldl_append]
    rw [joined]
    exact covered_offerAll _
  have gained : writer.gained later = new := by
    rw [Writer.gained, retains.columns, List.drop_left]
  rw [gained]
  exact ⟨answers, retains.rows, retains.exists_finish_iff covered, fun bytes found =>
    retains.finish_eq_iff⟩

/-- A key that is a byte too long. -/
def overlongKey : String := String.ofList (List.replicate 0x10000 'b')

/-- The key is longer than a name may be, by one byte. -/
theorem utf8ByteSize_overlongKey : overlongKey.utf8ByteSize = nameLimit + 1 :=
  Text.utf8ByteSize_replicate 0x10000 'b' (by decide)

/-- A row with a key that fits in front of one that is too long. -/
def refusedRow : Value := .object [("b", .null), (overlongKey, .null)]

/-- The row is refused for its second key, and its first key stays behind. -/
theorem pushValue_refusedRow {writer : Writer} (sound : writer.Sound)
    (room : ¬rowLimit ≤ writer.size) (unknown : "b" ∉ writer.columns) :
    writer.pushValue refusedRow = (⟨writer.columns ++ ["b"], writer.rows⟩,
        .error (.encode (.nameTooLong (nameLimit + 1)))) := by
  have long : nameLimit < overlongKey.utf8ByteSize := utf8ByteSize_overlongKey ▸ Nat.lt_succ_self _
  have fits : "b".utf8ByteSize ≤ nameLimit := by decide
  have columns : fresh writer.columns ["b", overlongKey] = ["b"] := by
    rw [fresh_of_unknown fits unknown, fresh_of_overlong long]
  have fault : overlong? ["b", overlongKey] = some (.nameTooLong (nameLimit + 1)) := by
    rw [overlong?_of_le fits, overlong?_of_lt long, utf8ByteSize_overlongKey]
  have keys : Members.keys [("b", .null), (overlongKey, .null)] = ["b", overlongKey] := rfl
  rw [refusedRow, pushValue, push_eq sound, if_neg room, keys, columns, fault]

/-- After a row that was taken in, a refused one leaves a column behind, and the next call
is answered as if it had not. -/
theorem refused_leaves_row : ∃ writer after : Writer,
    empty.offerAll [.object [("a", .bool true)]] = writer ∧
    writer.pushValue refusedRow = (after, .error (.encode (.nameTooLong (nameLimit + 1)))) ∧
    after.answers [.object [("b", .null)]] = writer.answers [.object [("b", .null)]] := by
  have refused :=
    pushValue_refusedRow (sound_offerAll [.object [("a", .bool true)]]) (by decide) (by decide)
  obtain ⟨-, same⟩ := refused_leaves rfl refused
  exact ⟨_, _, rfl, refused, (same [.object [("b", .null)]]).1⟩

/-- The batch of a later row has the column that stayed behind, so it is not the batch
that the row alone would make. -/
theorem finish_ne_of_refused : ∃ after : Writer,
    empty.pushValue refusedRow = (after, .error (.encode (.nameTooLong (nameLimit + 1)))) ∧
    (after.offerAll [.object [("c", .number (.natural 1))]]).finish
      ≠ (empty.offerAll [.object [("c", .number (.natural 1))]]).finish := by
  have refused := pushValue_refusedRow (sound_offerAll []) (by decide) (by decide)
  refine ⟨⟨["b"], #[]⟩, refused, ?_⟩
  decide +kernel

end LedgerIntake.Batch.Writer
