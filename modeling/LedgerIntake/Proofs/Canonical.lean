import LedgerIntake.Canonical
import LedgerIntake.Proofs.Json.NumberIdentity
import LedgerIntake.Proofs.Json.Numbers

/-!
# Canonical bytes tell normalized values apart

Canonical text is readable JSON, and what it writes of a number is written of no other number. So
two values have the same canonical bytes exactly if their normalized forms are the same value.
Normalizing exchanges numbers only, and the number that it settles on is told by the rational number
that it stands for: the two zeros and all integers from -2⁶³ up to 2⁶⁴ have one form without a
point, and every other rational number is at most one binary64.
-/

namespace LedgerIntake

open Json

namespace Canonical

/-- Characters above U+FFFF are written as a pair of surrogates, which reading joins again. -/
theorem denotes_pair (char : Char) (wide : 0x10000 ≤ char.toNat) :
    Denotes (escapeUnit (0xd800 + (char.toNat - 0x10000) / 0x400)
      ++ escapeUnit (0xdc00 + (char.toNat - 0x10000) % 0x400)) char := by
  have scalar : char.toNat < 0xd800 ∨ 0xdfff < char.toNat ∧ char.toNat < 0x110000 := char.valid
  have high : 0xd800 + (char.toNat - 0x10000) / 0x400 < 0x10000 := by omega
  have low : 0xdc00 + (char.toNat - 0x10000) % 0x400 < 0x10000 := by omega
  have joined : joinSurrogates (0xd800 + (char.toNat - 0x10000) / 0x400)
      (0xdc00 + (char.toNat - 0x10000) % 0x400) = char := by
    have value : 0x10000 + (0xd800 + (char.toNat - 0x10000) / 0x400 - 0xd800) * 0x400
        + (0xdc00 + (char.toNat - 0x10000) % 0x400 - 0xdc00) = char.toNat := by omega
    rw [joinSurrogates, value, Char.ofNat_toNat]
  constructor
  · intro passed rest
    rw [Utf8.encode_append, List.append_assoc, scanText_escapeUnit _ high,
      scanText_escapeUnit _ low, List.reverse_append, List.append_assoc]
  · intro resolved rest
    rw [String.toList_append, toList_escapeUnit _ high, toList_escapeUnit _ low]
    simp only [List.cons_append, List.nil_append]
    rw [unescape_pair _ _ _ _ _ _ _ _ _ _ resolved rest (unit?_hexDigit _ high)
      (unit?_hexDigit _ low) (by omega) (by omega), joined]

/-- Every escape by UTF-16 units reads back, with one unit or two. -/
theorem denotes_escapeUnits (char : Char) : Denotes (escapeUnits char) char := by
  have scalar : char.toNat < 0xd800 ∨ 0xdfff < char.toNat ∧ char.toNat < 0x110000 := char.valid
  unfold escapeUnits
  dsimp only
  by_cases narrow : char.toNat < 0x10000
  · rw [if_pos narrow]
    have denotes := denotes_escapeUnit char.toNat narrow (by omega)
    rwa [Char.ofNat_toNat] at denotes
  · rw [if_neg narrow]
    exact denotes_pair char (Nat.le_of_not_lt narrow)

/-- Canonical text is legible: whatever a string holds, its escapes are resolved to it. -/
theorem legible_style : style.Legible := by
  intro char
  show Denotes ((escape? char).getD _) char
  cases escaped : escape? char with
  | some written => exact denotes_of_escape char written escaped
  | none =>
    obtain ⟨quote, backslash, visible⟩ := plain_of_escape char escaped
    rw [Option.getD_none]
    split
    · exact denotes_raw char quote backslash visible
    · exact denotes_escapeUnits char

/-- Canonical text writes numbers so that they read back as literals,
floats always with an exponent. -/
theorem style_writes : style.Writes layout 'E' [] where
  natural := fun _ => rfl
  negative := fun _ => rfl
  float := fun _ _ => rfl
  exponentMark := rfl
  exponentPlus := rfl
  ending := by
    intro leading full
    cases full
  marked := .inr rfl
  sign := .inl rfl

/-- Canonical bytes are JSON text, of the normalized value. All identity of bytes rests on this. -/
theorem read?_bytes (value : Value) :
    Source.read? (bytes value) = some (.ofValue style (normalize .clean value).1) :=
  (style_writes.readable legible_style).read _

/-- The canonical bytes of a value are never empty, as nothing can be read of no bytes. -/
theorem bytes_ne_nil (value : Value) : bytes value ≠ [] := by
  intro empty
  have read := read?_bytes value
  rw [empty, Source.read?, Lexeme.scan, Lexeme.scanFrom] at read
  cases read

end Canonical

section Trees

/-- What is written of a string tells the string, since resolving its escapes gives it back. -/
theorem Json.Style.Legible.raw_injective {style : Style} (legible : style.Legible)
    {text other : String}
    (same : style.raw text = style.raw other) :
    text = other := by
  have resolved := legible.resolveText?_raw text
  rw [same, legible.resolveText?_raw other] at resolved
  exact (Option.some.inj resolved).symm

/-- Lists are the same if their items are told apart. The induction is on one list,
and the other has to follow. -/
theorem eq_of_map_eq {α β : Type} {image : α → β} {items others : List α}
    (apart : ∀ item ∈ items, ∀ other, image item = image other → item = other)
    (same : items.map image = others.map image) : items = others := by
  induction items generalizing others with
  | nil => exact (List.map_eq_nil_iff.mp same.symm).symm
  | cons item rest inductionHypothesis =>
    cases others with
    | nil => cases same
    | cons other others =>
      rw [List.map_cons, List.map_cons] at same
      obtain ⟨first, later⟩ := List.cons.inj same
      rw [apart item List.mem_cons_self other first,
        inductionHypothesis (fun item member => apart item (List.mem_cons_of_mem _ member)) later]

variable {style : Style} (legible : style.Legible)
  (literals : ∀ number other, style.literal number = style.literal other → number = other)

include legible literals

/-- The tree that is written for a value tells the value. The induction is on the value: kinds are
kept, and strings and numbers are told by what is written of them. -/
theorem ofValue_injective (value other : Value)
    (same : Source.ofValue style value = Source.ofValue style other) :
    value = other := by
  induction value using Value.induction generalizing other with
  | null => cases other <;> first | rfl | cases same
  | bool value =>
    cases other with
    | bool => exact congrArg Value.bool (Source.bool.inj same)
    | _ => cases same
  | number value =>
    cases other with
    | number => exact congrArg Value.number (literals _ _ (Source.number.inj same))
    | _ => cases same
  | text value =>
    cases other with
    | text => exact congrArg Value.text (legible.raw_injective (Source.text.inj same))
    | _ => cases same
  | array items inductionHypothesis =>
    cases other with
    | array others =>
      rw [Source.ofValue, Source.ofValue, sourceItems_eq, sourceItems_eq] at same
      exact congrArg Value.array (eq_of_map_eq inductionHypothesis (Source.array.inj same))
    | _ => cases same
  | object members inductionHypothesis =>
    cases other with
    | object others =>
      rw [Source.ofValue, Source.ofValue, sourceMembers_eq, sourceMembers_eq] at same
      apply congrArg Value.object
      refine eq_of_map_eq ?_ (Source.object.inj same)
      intro member among other equal
      obtain ⟨keys, values⟩ := Prod.mk.inj equal
      exact Prod.ext (legible.raw_injective keys) (inductionHypothesis member among other.2 values)
    | _ => cases same

end Trees

namespace Canonical

/-- The number that stands for another one in a normalized value. -/
def settle (number : Number) : Number := (replacement? number).getD number

/-- Normalizing a list normalizes each of its items, whatever the report is. -/
theorem normalizeItems_fst (items : List Value) (report : HygieneReport)
    (each : ∀ item ∈ items, ∀ report, (normalize report item).1 = item.revalue settle) :
    (normalizeItems report items).1 = items.map (Value.revalue settle) := by
  induction items generalizing report with
  | nil => rfl
  | cons item rest inductionHypothesis =>
    rw [normalizeItems]
    dsimp only
    rw [each item List.mem_cons_self,
      inductionHypothesis _ fun other member => each other (List.mem_cons_of_mem _ member),
        List.map_cons]

/-- Members are normalized one by one, and their keys stay, so their order does as well. -/
theorem normalizeMembers_fst (members : List (String × Value)) (report : HygieneReport)
    (each : ∀ member ∈ members, ∀ report, (normalize report member.2).1 = member.2.revalue settle) :
    (normalizeMembers report members).1 = members.map fun member =>
      (member.1, member.2.revalue settle) := by
  induction members generalizing report with
  | nil => rfl
  | cons member rest inductionHypothesis =>
    have first := each member List.mem_cons_self
    obtain ⟨key, value⟩ := member
    rw [normalizeMembers]
    dsimp only
    rw [first, inductionHypothesis _ fun other among => each other (List.mem_cons_of_mem _ among),
      List.map_cons]

/-- Normalizing a value exchanges its numbers for settled ones and nothing else. The induction is on
the value, for whatever was reported before. -/
theorem normalize_fst {value : Value} (wellFormed : value.WellFormed) (report : HygieneReport) :
    (normalize report value).1 = value.revalue settle := by
  induction value using Value.induction generalizing report with
  | null => rfl
  | bool value => rfl
  | text value => rfl
  | number value =>
    rw [normalize, Value.revalue, settle]
    split
    · next integer found => rw [found, Option.getD_some]
    · next missed => rw [missed, Option.getD_none]
  | array items inductionHypothesis =>
    have each := wellFormedItems_iff.mp wellFormed
    rw [normalize, revalue_array]
    dsimp only
    rw [normalizeItems_fst items report fun item member =>
      inductionHypothesis item member (each item member)]
  | object members inductionHypothesis =>
    obtain ⟨sorted, wellFormed⟩ := wellFormed
    have each := wellFormedMembers_iff.mp wellFormed
    rw [normalize, revalue_object sorted]
    dsimp only
    rw [normalizeMembers_fst members report fun member among =>
      inductionHypothesis member among (each member among)]

/-- Values have the same canonical bytes exactly if they are the same
once their numbers are settled. -/
theorem bytes_eq_bytes_iff {value other : Value} (wellFormed : value.WellFormed)
    (wellFormed' : other.WellFormed) :
    bytes value = bytes other ↔ value.revalue settle = other.revalue settle := by
  have readable : style.Readable := style_writes.readable legible_style
  have literals (number other : Number) (same : style.literal number = style.literal other) :
      number = other := by
    rw [style_writes.literal_eq, style_writes.literal_eq] at same
    exact Number.literal_injective layout same
  rw [bytes, bytes, text, text, normalize_fst wellFormed, normalize_fst wellFormed']
  constructor
  · intro same
    have first := readable.read (value.revalue settle)
    have second := readable.read (other.revalue settle)
    rw [same, second] at first
    exact (ofValue_injective legible_style literals _ _ (Option.some.inj first)).symm
  · intro same
    rw [same]

section Settled

open Binary64

/-- What replaces a binary64 is the integer that it equals, so nothing is rounded. -/
theorem integral?_eq_some {value : Binary64} {number : Number}
    (replaced : integral? value = some number) :
    ∃ integer, value.toInt? = some integer ∧ number.integer? = some integer := by
  obtain ⟨integer, equal, formed⟩ := Option.bind_eq_some_iff.mp replaced
  exact ⟨integer, equal, Number.integer?_of_ofInt? formed⟩

/-- Settling leaves the rational number that a number stands for; only the form changes. -/
theorem exact_settle (number : Number) : (settle number).exact = number.exact := by
  rw [settle]
  cases replaced : replacement? number with
  | none => rfl
  | some integer =>
    cases number with
    | float value finite =>
      obtain ⟨whole, equal, known⟩ := integral?_eq_some replaced
      rw [Option.getD_some, Number.exact_of_integer? known, Number.exact,
        (value.exact_eq_intCast_iff whole).mpr equal]
    | natural => cases replaced
    | negative => cases replaced

/-- A settled number is an integer, or a binary64 that no integer replaces. -/
inductive Settled : Number → Prop where
  | integer (number : Number) (integer : Int) (known : number.integer? = some integer) :
      Settled number
  | float (value : Binary64) (finite : value.isFinite = true) (kept : integral? value = none) :
    Settled (.float value finite)

/-- A settled number is settled: it is an integer, or a float that no integer replaces. -/
theorem settled_settle (number : Number) : Settled (settle number) := by
  rw [settle]
  cases number with
  | natural value => exact .integer _ value.toNat rfl
  | negative below => exact .integer _ (-(below.val : Int) - 1) rfl
  | float value finite =>
    rw [replacement?]
    cases replaced : integral? value with
    | none => exact .float value finite replaced
    | some number =>
      obtain ⟨integer, -, known⟩ := integral?_eq_some replaced
      exact .integer number integer known

/-- An integer that a binary64 stands for replaces it, if the integer has 64 bits. -/
theorem integral?_of_exact {number : Number} {integer : Int} {value : Binary64}
    (known : number.integer? = some integer) (same : number.exact = value.exact) :
    integral? value = some number := by
  have equal : value.toInt? = some integer := by
    rw [← value.exact_eq_intCast_iff, ← same, Number.exact_of_integer? known]
  rw [integral?, equal, Option.bind_some, Number.ofInt?_integer known]

/-- A binary64 that no integer replaces is not zero, as either zero is replaced. -/
theorem units_ne_zero_of_kept {value : Binary64} (kept : integral? value = none) :
    value.units ≠ 0 := by
  intro zero
  have equal : value.toInt? = some 0 := by
    rw [value.toInt?_eq_some_iff, Binary64.signedUnits, zero]
    simp
  rw [integral?, equal] at kept
  cases kept

/-- Settled numbers that stand for one rational number are one. An integer and a kept float cannot,
and two floats of one value differ in the sign of zero alone. -/
theorem Settled.eq_of_exact {number other : Number} (settled : Settled number)
    (settled' : Settled other)
    (same : number.exact = other.exact) : number = other := by
  cases settled with
  | integer number integer known =>
    cases settled' with
    | integer other integer' known' =>
      rw [Number.exact_of_integer? known, Number.exact_of_integer? known', Int.cast_inj] at same
      have formed := Number.ofInt?_integer known
      rw [same, Number.ofInt?_integer known'] at formed
      exact (Option.some.inj formed).symm
    | float value finite kept =>
      rw [integral?_of_exact known same] at kept
      cases kept
  | float value finite kept =>
    cases settled' with
    | integer other integer known =>
      rw [integral?_of_exact known same.symm] at kept
      cases kept
    | float other finite' kept' =>
      have sign := Binary64.isNegative_eq_of_exact (units_ne_zero_of_kept kept) same
      have equal : value = other := Binary64.eq_of_exact sign same
      subst equal
      rfl

/-- Numbers have the same settled form exactly if they stand for the same rational number. -/
theorem settle_eq_settle_iff (number other : Number) :
    settle number = settle other ↔ number.exact = other.exact := by
  constructor
  · intro same
    rw [← exact_settle number, ← exact_settle other, same]
  · intro same
    apply (settled_settle number).eq_of_exact (settled_settle other)
    rw [exact_settle, exact_settle, same]

/-- Settling leaves a settled number as it is, so canonical bytes are those
of the normalized value too. -/
theorem settle_settle (number : Number) : settle (settle number) = settle number :=
  (settle_eq_settle_iff _ _).mpr (exact_settle number)

/-- A binary64 that equals an integer with a form of its own has the
settled form of that integer. -/
theorem settle_widened {number : Number} {integer : Int} {value : Binary64}
    (finite : value.isFinite = true)
    (known : number.integer? = some integer) (equal : value.toInt? = some integer) :
    settle (.float value finite) = settle number := by
  rw [settle_eq_settle_iff, Number.exact_of_integer? known]
  exact (value.exact_eq_intCast_iff integer).mpr equal

/-- Settling tells numbers of one sign apart; only the two zeros become one. -/
theorem settle_injective {x y : Binary64} {finite : x.isFinite = true} {finite' : y.isFinite = true}
    (sign : x.isNegative = y.isNegative)
    (same : settle (.float x finite) = settle (.float y finite')) : x = y :=
  eq_of_exact sign ((settle_eq_settle_iff _ _).mp same)

/-- A number that is read back has the same settled form only if it is the same number. -/
theorem settle_rereadIn_iff {layout : Layout} (short : layout.Short) (number : Number) :
    settle (number.rereadIn layout) = settle number ↔ number.rereadIn layout = number := by
  constructor
  · intro same
    cases number with
    | natural value => exact Number.rereadIn_natural layout value
    | negative below => exact Number.rereadIn_negative layout below
    | float x finite =>
      obtain ⟨y, proper, read, sign⟩ := Number.rereadIn_float short x finite
      rw [read] at same ⊢
      have equal : y = x := settle_injective sign same
      subst equal
      rfl
  · intro same
    rw [same]

/-- A number settles alike before and after it is read again exactly if reading
it again does not change it. -/
theorem settle_reread_iff (number : Number) : settle number.reread = settle number ↔
    number.reread = number :=
  settle_rereadIn_iff Number.short_layout number

end Settled

end Canonical

end LedgerIntake
