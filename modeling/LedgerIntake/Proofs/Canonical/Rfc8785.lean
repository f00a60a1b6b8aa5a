import LedgerIntake.Proofs.Canonical
import Mathlib.Data.List.Lex
import Mathlib.Data.List.Sort
import Mathlib.Data.String.Basic

/-!
# Canonical text beside RFC 8785

A serialization of JSON leaves open how numbers and the characters of strings are written, and what
the members of an object are sorted by. RFC 8785 sorts them by the UTF-16 units of their keys, and
writes every character raw but the quote, the backslash and the controls. Canonical text sorts them
by code points, and escapes what is not printable ASCII. Where a key or a text holds such a
character, the two write other bytes; on all other values without numbers they agree.
-/

namespace LedgerIntake.Json

mutual

/-- The characters of the keys and texts of a value. -/
def Value.characters : Value → List Char
  | .text value => value.toList
  | .array items => charactersOfItems items
  | .object members => charactersOfMembers members
  | _ => []

/-- The characters of each value of a list. -/
def charactersOfItems : List Value → List Char
  | [] => []
  | item :: rest => item.characters ++ charactersOfItems rest

/-- The characters of each key and of its value. -/
def charactersOfMembers : List (String × Value) → List Char
  | [] => []
  | (key, value) :: rest => key.toList ++ value.characters ++ charactersOfMembers rest

end

/-- A character of items is one of some item. -/
theorem mem_charactersOfItems {items : List Value} {char : Char} :
    char ∈ charactersOfItems items ↔ ∃ item ∈ items, char ∈ item.characters := by
  induction items with
  | nil => simp [charactersOfItems]
  | cons item rest inductionHypothesis => simp [charactersOfItems, inductionHypothesis]

/-- A character of members is one of some key or of some value. -/
theorem mem_charactersOfMembers {members : List (String × Value)} {char : Char} :
    char ∈ charactersOfMembers members ↔
      ∃ member ∈ members, char ∈ member.1.toList ∨ char ∈ member.2.characters := by
  induction members with
  | nil => simp [charactersOfMembers]
  | cons member rest inductionHypothesis =>
    obtain ⟨key, value⟩ := member
    simp only [charactersOfMembers, List.mem_append, inductionHypothesis, List.mem_cons,
      exists_eq_or_imp]

/-- What a serialization without blanks leaves open: what is written for a number and for a
character of a string, and the numbers that the members of an object are sorted by. -/
structure Profile where
  number : Number → List Char
  char : Char → List Char
  rank : String → List Nat

namespace Profile

variable (profile : Profile)

/-- A string in quotes. -/
def quoted (text : String) : List Char := '"' :: text.toList.flatMap profile.char ++ ['"']

/-- Members in the order of what their keys are sorted by. -/
def sort (members : List (String × List Char)) : List (String × List Char) :=
  members.insertionSort fun member other => profile.rank member.1 ≤ profile.rank other.1

mutual

/-- The characters that a value is written with. -/
def serialize : Value → List Char
  | .null => "null".toList
  | .bool value => if value then "true".toList else "false".toList
  | .number value => profile.number value
  | .text value => profile.quoted value
  | .array items => '[' :: [','].intercalate (serializeItems items) ++ [']']
  | .object members =>
    '\x7b' :: [','].intercalate ((profile.sort (serializeMembers members)).map fun member =>
      profile.quoted member.1 ++ ':' :: member.2) ++ ['\x7d']

/-- What each value is written with. -/
def serializeItems : List Value → List (List Char)
  | [] => []
  | item :: rest => serialize item :: serializeItems rest

/-- What each member's value is written with, beside its key. -/
def serializeMembers : List (String × Value) → List (String × List Char)
  | [] => []
  | (key, value) :: rest => (key, serialize value) :: serializeMembers rest

end

/-- The UTF-8 bytes of what a value is written with. -/
def bytes (value : Value) : Bytes := Utf8.encode (String.ofList (profile.serialize value))

end Profile

/-- The UTF-16 units of a character. -/
def unitsOf (char : Char) : List Nat :=
  if char.toNat < 0x10000 then [char.toNat]
  else [0xd800 + (char.toNat - 0x10000) / 0x400, 0xdc00 + (char.toNat - 0x10000) % 0x400]

/-- The escape of a UTF-16 unit. -/
def escaped (unit : Nat) : List Char :=
  ['\\', 'u', Bytes.hexDigit (unit / 4096), Bytes.hexDigit (unit / 256 % 16),
    Bytes.hexDigit (unit / 16 % 16),
    Bytes.hexDigit (unit % 16)]

/-- The characters with an escape of two characters, each with its letter. -/
def shortForms : List (Char × Char) :=
  [('"', '"'), ('\\', '\\'), (Char.ofNat 8, 'b'), ('\t', 't'),
    ('\n', 'n'), (Char.ofNat 12, 'f'), ('\r', 'r')]

/-- What RFC 8785 writes for a character of a string: escapes for the quote, the backslash and the
controls, short where there is a short form, and every other character raw. -/
def spelling (char : Char) : List Char :=
  match shortForms.lookup char with
  | some letter => ['\\', letter]
  | none => if char.toNat < 0x20 then escaped char.toNat else [char]

/-- RFC 8785 with some form of numbers: members are sorted by the UTF-16 units of their keys. -/
def rfc8785 (number : Number → List Char) : Profile where
  number := number
  char := spelling
  rank := fun key => key.toList.flatMap unitsOf

section Parts

variable {char : Char} {parts : List (List Char)}

/-- Parts with commas between them: the first, and each other behind a comma. -/
theorem intercalate_cons (first : List Char) (rest : List (List Char)) :
    [','].intercalate (first :: rest) = first ++ rest.flatMap fun part => ',' :: part := by
  induction rest generalizing first with
  | nil => rw [List.intercalate_singleton, List.flatMap_nil, List.append_nil]
  | cons second rest inductionHypothesis =>
    rw [List.intercalate_cons_cons, inductionHypothesis, List.flatMap_cons, List.append_assoc,
      List.singleton_append, List.cons_append]

/-- Between parts stand commas alone, so a character of the whole is one of a part or a comma. -/
theorem mem_of_mem_intercalate (member : char ∈ [','].intercalate parts) :
    char = ',' ∨ ∃ part ∈ parts, char ∈ part := by
  cases parts with
  | nil => cases member
  | cons first rest =>
    rw [intercalate_cons, List.mem_append, List.mem_flatMap] at member
    obtain inside | ⟨part, among, inside⟩ := member
    · exact .inr ⟨first, List.mem_cons_self, inside⟩
    · obtain rfl | inside := List.mem_cons.mp inside
      · exact .inl rfl
      · exact .inr ⟨part, List.mem_cons_of_mem _ among, inside⟩

/-- What stands in a part stands in the whole that commas join. -/
theorem mem_intercalate {part : List Char} (among : part ∈ parts) (inside : char ∈ part) :
    char ∈ [','].intercalate parts := by
  cases parts with
  | nil => cases among
  | cons first rest =>
    rw [intercalate_cons, List.mem_append, List.mem_flatMap]
    obtain rfl | later := List.mem_cons.mp among
    · exact .inl inside
    · exact .inr ⟨part, later, List.mem_cons_of_mem _ inside⟩

end Parts

namespace Profile

variable (profile : Profile)

/-- Items are serialized one by one. -/
theorem serializeItems_eq (items : List Value) :
    profile.serializeItems items = items.map profile.serialize := by
  induction items with
  | nil => rfl
  | cons item rest inductionHypothesis => rw [serializeItems, inductionHypothesis, List.map_cons]

/-- The values of members are serialized one by one, and their keys stay. -/
theorem serializeMembers_eq (members : List (String × Value)) :
    profile.serializeMembers members = members.map fun member =>
      (member.1, profile.serialize member.2) := by
  induction members with
  | nil => rfl
  | cons member rest inductionHypothesis =>
    obtain ⟨key, value⟩ := member
    rw [serializeMembers, inductionHypothesis, List.map_cons]

/-- A member as it is written. -/
def member (member : String × Value) : List Char :=
  profile.quoted member.1 ++ ':' :: profile.serialize member.2

/-- Members that are in order are written in their order, as sorting leaves them where they are. -/
theorem serialize_object {members : Members}
    (ordered : members.Pairwise fun member other => profile.rank member.1 ≤ profile.rank other.1) :
    profile.serialize (.object members)
      = '\x7b' :: [','].intercalate (members.map profile.member) ++ ['\x7d'] := by
  have sorted : profile.sort (profile.serializeMembers members)
    = profile.serializeMembers members := by
    apply List.Pairwise.insertionSort_eq
    rw [serializeMembers_eq]
    exact List.pairwise_map.mpr ordered
  rw [serialize, sorted, serializeMembers_eq, List.map_map]
  rfl

variable {profile} {char : Char}

/-- What is written inside an object stands in one of its members, whatever their order is. -/
theorem mem_sort {members : List (String × Value)} {written : String × List Char} :
    written ∈ profile.sort (profile.serializeMembers members) ↔
      ∃ member ∈ members, (member.1, profile.serialize member.2) = written := by
  rw [sort, List.mem_insertionSort, serializeMembers_eq, List.mem_map]

/-- What a string is written with stands for one of its characters, or is a quote. -/
theorem mem_quoted {text : String} :
    char ∈ profile.quoted text ↔ char = '"' ∨ ∃ source ∈ text.toList,
      char ∈ profile.char source := by
  rw [quoted, List.cons_append, List.mem_cons, List.mem_append, List.mem_flatMap,
    List.mem_singleton, or_left_comm, or_self, or_comm]

/-- Where characters stand for themselves, every character of a value is written. -/
theorem mem_serialize (raw : char ∈ profile.char char) {value : Value}
    (member : char ∈ value.characters) :
    char ∈ profile.serialize value := by
  induction value using Value.induction with
  | null => cases member
  | bool value => cases member
  | number value => cases member
  | text value => exact mem_quoted.mpr (.inr ⟨char, member, raw⟩)
  | array items inductionHypothesis =>
    obtain ⟨item, among, inside⟩ := mem_charactersOfItems.mp member
    rw [serialize, serializeItems_eq]
    apply List.mem_append_left
    apply List.mem_cons_of_mem
    exact mem_intercalate (List.mem_map_of_mem among) (inductionHypothesis item among inside)
  | object members inductionHypothesis =>
    obtain ⟨pair, among, inside⟩ := mem_charactersOfMembers.mp member
    rw [serialize]
    apply List.mem_append_left
    apply List.mem_cons_of_mem
    refine mem_intercalate (List.mem_map_of_mem (mem_sort.mpr ⟨pair, among, rfl⟩)) ?_
    rw [List.mem_append, List.mem_cons]
    obtain inside | inside := inside
    · exact .inl (mem_quoted.mpr (.inr ⟨char, inside, raw⟩))
    · exact .inr (.inr (inductionHypothesis pair among inside))

/-- A test of each character of a list, which is how short lists of characters are checked. -/
theorem ascii_of_all {chars : List Char} (low : (chars.all fun char => char.toNat < 0x7f) = true) :
    ∀ char ∈ chars, char.toNat < 0x7f :=
  fun char member => of_decide_eq_true (List.all_eq_true.mp low char member)

/-- What is written is in printable ASCII if numbers and characters are. The induction is on the
value; brackets, commas and words add nothing else. -/
theorem ascii_serialize (chars : ∀ source, ∀ char ∈ profile.char source, char.toNat < 0x7f)
    {value : Value}
    (numbers : ∀ number ∈ value.numbers, ∀ char ∈ profile.number number, char.toNat < 0x7f) :
    ∀ char ∈ profile.serialize value, char.toNat < 0x7f := by
  have string (text : String) : ∀ char ∈ profile.quoted text, char.toNat < 0x7f := by
    intro char member
    obtain rfl | ⟨source, -, inside⟩ := mem_quoted.mp member
    · decide
    · exact chars source char inside
  have enclosed {first last : Char} {parts : List (List Char)}
    (low : first.toNat < 0x7f) (low' : last.toNat < 0x7f)
      (each : ∀ part ∈ parts, ∀ char ∈ part, char.toNat < 0x7f) :
      ∀ char ∈ first :: [','].intercalate parts ++ [last], char.toNat < 0x7f := by
    intro char member
    rw [List.cons_append, List.mem_cons, List.mem_append, List.mem_singleton] at member
    obtain rfl | inside | rfl := member
    · exact low
    · obtain rfl | ⟨part, among, inside⟩ := mem_of_mem_intercalate inside
      · decide
      · exact each part among char inside
    · exact low'
  induction value using Value.induction with
  | null =>
    exact ascii_of_all (by decide : ("null".toList.all fun char => char.toNat < 0x7f) = true)
  | bool value =>
    cases value with
    | true =>
      exact ascii_of_all (by decide : ("true".toList.all fun char => char.toNat < 0x7f) = true)
    | false =>
      exact ascii_of_all (by decide : ("false".toList.all fun char => char.toNat < 0x7f) = true)
  | number value => exact numbers value List.mem_cons_self
  | text value => exact string value
  | array items inductionHypothesis =>
    rw [serialize, serializeItems_eq]
    refine enclosed (by decide) (by decide) (List.forall_mem_map.mpr fun item among => ?_)
    exact inductionHypothesis item among fun number inside =>
      numbers number (mem_numbersOfItems.mpr ⟨item, among, inside⟩)
  | object members inductionHypothesis =>
    rw [serialize]
    refine enclosed (by decide) (by decide) (List.forall_mem_map.mpr fun written among => ?_)
    obtain ⟨member, present, rfl⟩ := mem_sort.mp among
    intro char inside
    rw [List.mem_append, List.mem_cons] at inside
    obtain inside | rfl | inside := inside
    · exact string member.1 char inside
    · decide
    · exact inductionHypothesis member present
        (fun number inside => numbers number (mem_numbersOfMembers.mpr ⟨member, present, inside⟩))
          char inside

/-- Keys made of some characters are ranked as strings are. -/
def Ranks (profile : Profile) (among : Char → Prop) : Prop :=
  ∀ key later : String, (∀ char ∈ key.toList, among char) → (∀ char ∈ later.toList, among char) →
    key < later →
    profile.rank key ≤ profile.rank later

/-- Members whose keys are ranked as strings are in order, so the profile need not sort them. -/
theorem Ranks.pairwise {among : Char → Prop} (ranks : profile.Ranks among) {members : Members}
    (sorted : Members.Sorted members)
    (keys : ∀ member ∈ members, ∀ char ∈ member.1.toList, among char) :
    members.Pairwise fun member other => profile.rank member.1 ≤ profile.rank other.1 := by
  refine List.Pairwise.imp_of_mem ?_ sorted
  intro member other present present' before
  exact ranks member.1 other.1 (keys member present) (keys other present') before

/-- Keys that are ranked alike over some characters are ranked alike over fewer. -/
theorem Ranks.mono {among less : Char → Prop} (ranks : profile.Ranks among)
    (included : ∀ char, less char → among char) : profile.Ranks less := by
  intro key later keys keys' before
  exact ranks key later (fun char member => included char (keys char member))
    (fun char member => included char (keys' char member)) before

/-- Profiles that rank keys as strings write a value alike if they write its numbers and characters
alike. The induction is on the value. -/
theorem serialize_congr {other : Profile} {among : Char → Prop} (ranks : profile.Ranks among)
    (ranks' : other.Ranks among) (chars : ∀ char, among char → profile.char char = other.char char)
    {value : Value}
    (wellFormed : value.WellFormed)
    (numbers : ∀ number ∈ value.numbers, profile.number number = other.number number)
    (within : ∀ char ∈ value.characters, among char) :
    profile.serialize value = other.serialize value := by
  have string {text : String} (within : ∀ char ∈ text.toList, among char) :
      profile.quoted text = other.quoted text := by
    rw [quoted, quoted, List.flatMap_congr fun char member => chars char (within char member)]
  induction value using Value.induction with
  | null => rfl
  | bool value => rfl
  | number value => exact numbers value List.mem_cons_self
  | text value => exact string within
  | array items inductionHypothesis =>
    have each := wellFormedItems_iff.mp wellFormed
    have same (item : Value) (present : item ∈ items) :
        profile.serialize item = other.serialize item :=
      inductionHypothesis item present (each item present)
        (fun number inside => numbers number (mem_numbersOfItems.mpr ⟨item, present, inside⟩))
        fun char inside => within char (mem_charactersOfItems.mpr ⟨item, present, inside⟩)
    rw [serialize, serialize, serializeItems_eq, serializeItems_eq, List.map_congr_left same]
  | object members inductionHypothesis =>
    obtain ⟨sorted, each⟩ := wellFormed
    have keys (pair : String × Value) (present : pair ∈ members)
      (char : Char) (inside : char ∈ pair.1.toList) :
        among char := within char (mem_charactersOfMembers.mpr ⟨pair, present, .inl inside⟩)
    have same (pair : String × Value) (present : pair ∈ members) :
        profile.member pair = other.member pair := by
      rw [member, member, string (keys pair present), inductionHypothesis pair present
        (wellFormedMembers_iff.mp each pair present)
        (fun number inside => numbers number (mem_numbersOfMembers.mpr ⟨pair, present, inside⟩))
        fun char inside => within char (mem_charactersOfMembers.mpr ⟨pair, present, .inr inside⟩)]
    rw [serialize_object profile (ranks.pairwise sorted keys),
      serialize_object other (ranks'.pairwise sorted keys), List.map_congr_left same]

end Profile

end LedgerIntake.Json

namespace LedgerIntake.Canonical

open Json

/-- Canonical text: settled numbers, an escape for each UTF-16 unit of what is not printable ASCII,
and members sorted by code points. -/
def profile : Profile where
  number := fun number => (numberText (settle number)).toList
  char := fun char => if char.toNat < 0x7f then spelling char else (unitsOf char).flatMap escaped
  rank := fun key => key.toList.map Char.toNat

/-- Above printable ASCII no escape is shared by all styles, so each style decides for itself. -/
theorem escape?_eq_none {char : Char} (high : 0x7f ≤ char.toNat) : escape? char = none := by
  have other (ascii : Char) (low : ascii.toNat < 0x7f) : char ≠ ascii := by
    rintro rfl
    omega
  rw [escape?, if_neg (other _ (by decide)), if_neg (other _ (by decide)), if_neg (by omega),
    if_neg (by omega), if_neg (other _ (by decide)), if_neg (other _ (by decide)),
    if_neg (other _ (by decide)), if_neg (by omega)]

/-- An escape by UTF-16 units writes the units one by one, in four digits each. -/
theorem toList_escapeUnits (char : Char) :
    (escapeUnits char).toList = (unitsOf char).flatMap escaped := by
  have scalar : char.toNat < 0xd800 ∨ 0xdfff < char.toNat ∧ char.toNat < 0x110000 := char.valid
  unfold escapeUnits unitsOf
  dsimp only
  split
  · next narrow =>
    rw [toList_escapeUnit _ narrow, List.flatMap_singleton]
    rfl
  · rw [String.toList_append, toList_escapeUnit _ (by omega), toList_escapeUnit _ (by omega),
      List.flatMap_cons, List.flatMap_singleton]
    rfl

/-- Canonical text spells characters below U+007F like RFC 8785, and in printable ASCII. -/
theorem style_char {char : Char} (low : char.toNat < 0x7f) :
    (style.char char).toList = spelling char ∧
    ((spelling char).all fun part => part.toNat < 0x7f) = true := by
  have each : ∀ value : Fin 0x7f, (style.char (Char.ofNat value.val)).toList
    = spelling (Char.ofNat value.val) ∧
      ((spelling (Char.ofNat value.val)).all fun part => part.toNat < 0x7f) = true := by
    decide
  have known := each ⟨char.toNat, low⟩
  dsimp only at known
  rwa [Char.ofNat_toNat] at known

/-- Canonical text writes each character of a string by its profile: as a short escape, as
it stands, or by its units. -/
theorem toList_char (char : Char) : (style.char char).toList = profile.char char := by
  by_cases low : char.toNat < 0x7f
  · exact (style_char low).1.trans (if_pos low).symm
  · have high : ¬(0x20 ≤ char.toNat ∧ char.toNat ≤ 0x7e) := by omega
    have written : profile.char char = (unitsOf char).flatMap escaped := if_neg low
    have escapes : style.char char = escapeUnits char := by
      show (escape? char).getD _ = _
      rw [escape?_eq_none (Nat.le_of_not_lt low), Option.getD_none, if_neg high]
    rw [written, escapes, toList_escapeUnits]

/-- The writer quotes text as the profile does, character by character. -/
theorem toList_quote (text : String) : (style.quote text).toList = profile.quoted text := by
  have quote : "\"".toList = ['"'] := by decide
  rw [Style.quote, String.toList_append, String.toList_append, quote, String.toList_join,
    List.flatMap_map, Profile.quoted, List.flatMap_congr fun char _ => toList_char char]
  rfl

/-- Code points rank keys as strings, whatever characters they hold, so members
of the profile are in order. -/
theorem ranks_profile (among : Char → Prop) : profile.Ranks among := by
  intro key later _ _ before
  have points : profile.rank key < profile.rank later :=
    List.map_lt (fun _ _ less => less) (String.lt_iff_toList_lt.mp before)
  exact points.le

/-- Canonical text is what its profile writes. The induction is on the value; both write it part by
part, and members stand in order already. -/
theorem toList_text {value : Value} (wellFormed : value.WellFormed) :
    (text value).toList = profile.serialize value := by
  rw [text, normalize_fst wellFormed]
  have enclosed (opening closing : String) (parts : List String) :
      (opening ++ String.intercalate "," parts ++ closing).toList
        = opening.toList ++ [','].intercalate (parts.map String.toList) ++ closing.toList := by
    rw [String.toList_append, String.toList_append, String.toList_intercalate]
    rfl
  induction value using Value.induction with
  | null => rfl
  | bool value => cases value <;> rfl
  | number value => rfl
  | text value => exact toList_quote value
  | array items inductionHypothesis =>
    have each := wellFormedItems_iff.mp wellFormed
    have same (item : Value) (present : item ∈ items) :
        (String.toList ∘ Value.write style ∘ Value.revalue settle) item = profile.serialize item :=
      inductionHypothesis item present (each item present)
    rw [revalue_array, Value.write, writeItems_eq, brackets, enclosed, Profile.serialize,
      Profile.serializeItems_eq, List.map_map, List.map_map, Function.comp_assoc,
      List.map_congr_left same]
    rfl
  | object members inductionHypothesis =>
    obtain ⟨sorted, each⟩ := wellFormed
    have single := wellFormedMembers_iff.mp each
    have ordered := (ranks_profile fun _ => True).pairwise sorted fun _ _ _ _ => trivial
    have colon : ":".toList = [':'] := by decide
    have same (member : String × Value) (present : member ∈ members) :
        (style.quote member.1 ++ ":" ++ (member.2.revalue settle).write style).toList
          = profile.member member := by
      rw [String.toList_append, String.toList_append, toList_quote, colon,
        inductionHypothesis member present (single member present), List.append_assoc]
      rfl
    rw [revalue_object sorted, Value.write, writeMembers_eq, Style.braces, enclosed,
      Profile.serialize_object profile ordered, ← List.map_congr_left same,
        List.map_map, List.map_map, List.map_map]
    rfl

/-- The escapes of a character's units are printable ASCII: a backslash, a letter and digits. -/
theorem ascii_escaped {unit : Nat} (small : unit < 0x10000) :
    ∀ char ∈ escaped unit, char.toNat < 0x7f := by
  have digit (value : Nat) (small : value < 16) : (Bytes.hexDigit value).toNat < 0x7f :=
    (by decide : ∀ value : Fin 16, (Bytes.hexDigit value.val).toNat < 0x7f) ⟨value, small⟩
  simp only [escaped, List.forall_mem_cons, List.not_mem_nil, false_imp_iff, implies_true, and_true]
  exact ⟨by decide, by decide, digit _ (by omega), digit _ (by omega),
    digit _ (by omega), digit _ (by omega)⟩

/-- The units of a character have 16 bits, also the two of a pair. -/
theorem lt_of_mem_unitsOf {char : Char} {unit : Nat} (member : unit ∈ unitsOf char) :
    unit < 0x10000 := by
  have scalar : char.toNat < 0xd800 ∨ 0xdfff < char.toNat ∧ char.toNat < 0x110000 := char.valid
  unfold unitsOf at member
  split at member
  · next narrow => exact List.mem_singleton.mp member ▸ narrow
  · simp only [List.mem_cons, List.not_mem_nil, or_false] at member
    omega

/-- What canonical text writes for a character is printable ASCII, whatever the character. -/
theorem ascii_char (source : Char) : ∀ char ∈ profile.char source, char.toNat < 0x7f := by
  by_cases low : source.toNat < 0x7f
  · rw [show profile.char source = spelling source from if_pos low]
    exact Profile.ascii_of_all (style_char low).2
  · rw [show profile.char source = (unitsOf source).flatMap escaped from if_neg low]
    intro char member
    obtain ⟨unit, among, inside⟩ := List.mem_flatMap.mp member
    exact ascii_escaped (lt_of_mem_unitsOf among) char inside

/-- Below U+10000 the UTF-16 units of a key are its code points, so both profiles rank it alike. -/
theorem rank_rfc8785 (number : Number → List Char) {key : String}
    (narrow : ∀ char ∈ key.toList, char.toNat < 0x10000) :
    (rfc8785 number).rank key = profile.rank key := by
  have single (char : Char) (member : char ∈ key.toList) : unitsOf char = [char.toNat] :=
    if_pos (narrow char member)
  show key.toList.flatMap unitsOf = key.toList.map Char.toNat
  rw [List.flatMap_congr single, List.map_eq_flatMap]

/-- Over characters that are one unit each, comparing units and comparing characters rank texts
alike. Beyond them a pair of surrogates ranks before the last units. -/
theorem ranks_rfc8785 (number : Number → List Char) :
    (rfc8785 number).Ranks fun char => char.toNat < 0x10000 := by
  intro key later narrow narrow' before
  rw [rank_rfc8785 number narrow, rank_rfc8785 number narrow']
  exact ranks_profile _ key later narrow narrow' before

/-- RFC 8785 writes characters from U+007F on raw, where the canonical profile escapes them. -/
theorem raw_rfc8785 (number : Number → List Char) {char : Char} (high : 0x7f ≤ char.toNat) :
    (rfc8785 number).char char = [char] := by
  have low : ((shortForms.map Prod.fst).all fun char => char.toNat < 0x7f) = true := by decide
  have none : shortForms.lookup char = none := by
    rw [List.lookup_eq_none_iff]
    intro form member
    rw [bne_iff_ne]
    rintro rfl
    exact absurd (Profile.ascii_of_all low form.1 (List.mem_map_of_mem member))
      (Nat.not_lt.mpr high)
  show spelling char = [char]
  rw [spelling, none]
  exact if_neg (by omega)

/-- Canonical bytes of a well-formed value are its canonical profile's, which escapes what is not
printable ASCII and sorts members by code points. Without numbers they are those of RFC 8785 exactly
if every character of a key or text is below U+007F. -/
theorem bytes_eq_rfc8785_iff (value : Value) (wellFormed : value.WellFormed)
    (noNumbers : value.numbers = [])
    (number : Number → List Char) :
    bytes value = profile.bytes value ∧
      (bytes value = (rfc8785 number).bytes value ↔
        ∀ char ∈ value.characters, char.toNat < 0x7f) := by
  have written : bytes value = profile.bytes value := by
    rw [bytes, Profile.bytes, ← toList_text wellFormed, String.ofList_toList]
  refine ⟨written, ?_⟩
  rw [written]
  constructor
  · intro same char member
    have lists : profile.serialize value = (rfc8785 number).serialize value :=
      String.ofList_injective (Utf8.encode_injective same)
    by_contra high
    have raw : char ∈ (rfc8785 number).serialize value := by
      refine Profile.mem_serialize ?_ member
      rw [raw_rfc8785 number (Nat.le_of_not_lt high)]
      exact List.mem_cons_self
    have ascii : ∀ char ∈ profile.serialize value, char.toNat < 0x7f :=
      Profile.ascii_serialize ascii_char (by rw [noNumbers]; exact List.forall_mem_nil _)
    exact high (ascii char (lists ▸ raw))
  · intro low
    have same : profile.serialize value = (rfc8785 number).serialize value := by
      have ranks : (rfc8785 number).Ranks fun char => char.toNat < 0x7f :=
        (ranks_rfc8785 number).mono fun char low => by omega
      refine Profile.serialize_congr (ranks_profile _) ranks ?_ wellFormed ?_ low
      · intro char low
        exact if_pos low
      · rw [noNumbers]
        exact List.forall_mem_nil _
    rw [Profile.bytes, Profile.bytes, same]

/-- Controls in a key and in a text are escaped alike by both profiles. -/
theorem bytes_eq_rfc8785_controls :
    bytes (.object [("\t", .null), ("a", .array [.text "\u0001\n", .bool true])])
    = (rfc8785 fun _ => []).bytes
    (.object [("\t", .null), ("a", .array [.text "\u0001\n", .bool true])]) := by
  have wellFormed :
      (Value.object [("\t", .null), ("a", .array [.text "\u0001\n", .bool true])]).WellFormed := by
    refine ⟨?_, trivial, ⟨trivial, trivial, trivial⟩, trivial⟩
    simp only [Members.Sorted, List.pairwise_cons, List.forall_mem_cons]
    decide
  exact (bytes_eq_rfc8785_iff _ wellFormed rfl _).2.mpr (Profile.ascii_of_all (by decide))

/-- A character that is escaped, and two keys whose order by UTF-16 units is the other one. -/
theorem bytes_ne_rfc8785 : bytes (.text "é") ≠ (rfc8785 fun _ => []).bytes (.text "é") ∧
    bytes (.object [("\ue000", .null), ("𐀀", .null)])
      ≠ (rfc8785 fun _ => []).bytes (.object [("\ue000", .null), ("𐀀", .null)]) ∧
    (rfc8785 fun _ => []).serialize (.object [("\ue000", .null), ("𐀀", .null)])
      = "\x7b\"𐀀\":null,\"\ue000\":null\x7d".toList := by
  decide

end LedgerIntake.Canonical
