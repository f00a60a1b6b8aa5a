import Mathlib.Algebra.Ring.Nat
import Mathlib.Logic.Basic
import LedgerIntake.Json.Reader
import LedgerIntake.Proofs.Json.Members
import LedgerIntake.Proofs.Text.Size
import LedgerIntake.Proofs.Text.Utf8Decoding

/-!
# Values weigh no more than their text

A value weighs one for itself and for each value inside it, and the bytes of its texts and keys. No
step of reading gains weight: a lexeme weighs no more than its bytes, the machine keeps what it is
given, an escape is longer than the character that it stands for, and a key that stands twice loses
a value.
-/

namespace LedgerIntake.Json

mutual

/-- One for each value in the tree, and the bytes of its texts and keys. -/
def Value.weight : Value → Nat
  | .text value => value.utf8ByteSize + 1
  | .array items => weightOfItems items + 1
  | .object members => weightOfMembers members + 1
  | _ => 1

/-- The weights of values together. -/
def weightOfItems : List Value → Nat
  | [] => 0
  | item :: rest => item.weight + weightOfItems rest

/-- The bytes of keys and the weights of their values together. -/
def weightOfMembers : List (String × Value) → Nat
  | [] => 0
  | (key, value) :: rest => key.utf8ByteSize + value.weight + weightOfMembers rest

end

mutual

/-- The weight of what is written, where texts and keys count as they stand. -/
def Source.weight : Source → Nat
  | .text raw => raw.length + 1
  | .array items => weightOfSources items + 1
  | .object members => weightOfEntries members + 1
  | _ => 1

/-- The weights of written items together. -/
def weightOfSources : List Source → Nat
  | [] => 0
  | item :: rest => item.weight + weightOfSources rest

/-- The bytes of written keys and the weights of their values together. -/
def weightOfEntries : List (Bytes × Source) → Nat
  | [] => 0
  | (key, value) :: rest => key.length + value.weight + weightOfEntries rest

end

/-- Items weigh what they weigh one by one. -/
theorem weightOfItems_eq (items : List Value) :
    weightOfItems items = (items.map Value.weight).sum := by
  induction items with
  | nil => rfl
  | cons item rest inductionHypothesis =>
    rw [weightOfItems, inductionHypothesis, List.map_cons, List.sum_cons]

/-- Sources weigh what they weigh one by one. -/
theorem weightOfSources_eq (items : List Source) :
    weightOfSources items = (items.map Source.weight).sum := by
  induction items with
  | nil => rfl
  | cons item rest inductionHypothesis =>
    rw [weightOfSources, inductionHypothesis, List.map_cons, List.sum_cons]

/-- Entries weigh what their keys and values weigh. -/
theorem weightOfEntries_eq (members : List (Bytes × Source)) :
    weightOfEntries members =
      (members.map fun member => member.1.length + member.2.weight).sum := by
  induction members with
  | nil => rfl
  | cons member rest inductionHypothesis =>
    obtain ⟨key, value⟩ := member
    rw [weightOfEntries, inductionHypothesis, List.map_cons, List.sum_cons]

/-- Items weigh the same in reverse, as a builder holds them. -/
theorem weightOfItems_reverse (items : List Value) :
    weightOfItems items.reverse = weightOfItems items := by
  rw [weightOfItems_eq, weightOfItems_eq, List.map_reverse, List.sum_reverse]

/-- Sources weigh the same in reverse, as a builder holds them. -/
theorem weightOfSources_reverse (items : List Source) :
    weightOfSources items.reverse = weightOfSources items := by
  rw [weightOfSources_eq, weightOfSources_eq, List.map_reverse, List.sum_reverse]

/-- Entries weigh the same in reverse, as a builder holds them. -/
theorem weightOfEntries_reverse (members : List (Bytes × Source)) :
    weightOfEntries members.reverse = weightOfEntries members := by
  rw [weightOfEntries_eq, weightOfEntries_eq, List.map_reverse, List.sum_reverse]

section Texts

/-- An escape of two characters stands for a character of one byte, so resolving it saves a byte. -/
theorem utf8Size_of_shortEscape {letter char : Char} (known : shortEscape? letter = some char) :
    char.utf8Size = 1 := by
  unfold shortEscape? at known
  split at known
  · next literal =>
    cases known
    simp only [Bool.or_eq_true, decide_eq_true_eq] at literal
    obtain (rfl | rfl) | rfl := literal <;> decide
  · repeat' split at known
    all_goals cases known
    all_goals decide

/-- Characters with their escapes resolved take no more bytes: an escape takes at least two, or six
where it stands for more than one. -/
theorem utf8ByteSize_of_unescape {resolved escaped chars : List Char}
    (read : unescape resolved escaped = some chars) :
    (String.ofList chars).utf8ByteSize
      ≤ (String.ofList resolved).utf8ByteSize + (String.ofList escaped).utf8ByteSize := by
  have some (char : Char) : 1 ≤ char.utf8Size := char.utf8Size_pos
  have few (char : Char) : char.utf8Size ≤ 4 := char.utf8Size_le_four
  fun_induction unescape resolved escaped with
  | case1 resolved =>
    cases read
    rw [Text.utf8ByteSize_reverse]
    exact Nat.le_add_right _ _
  | case3 resolved a b c d rest unit _ _ inductionHypothesis =>
    have later := inductionHypothesis read
    simp only [Text.utf8ByteSize_ofList_cons] at later ⊢
    have := few (Char.ofNat unit)
    have := some '\\'
    have := some 'u'
    have := some a
    have := some b
    omega
  | case6 resolved a b c d high _ _ _ e f g h rest low _ _ inductionHypothesis =>
    have later := inductionHypothesis read
    simp only [Text.utf8ByteSize_ofList_cons] at later ⊢
    have := few (joinSurrogates high low)
    have := some '\\'
    have := some 'u'
    omega
  | case10 resolved letter rest _ char known inductionHypothesis =>
    have later := inductionHypothesis read
    have one := utf8Size_of_shortEscape known
    have := some '\\'
    simp only [Text.utf8ByteSize_ofList_cons] at later ⊢
    omega
  | case11 resolved char rest _ _ inductionHypothesis =>
    have later := inductionHypothesis read
    simp only [Text.utf8ByteSize_ofList_cons] at later ⊢
    omega
  | _ => cases read

/-- A text takes no more bytes than stand between its quotes, since every escape
is longer than its character. -/
theorem utf8ByteSize_of_resolveText? {raw : Bytes} {text : String}
    (read : resolveText? raw = some text) :
    text.utf8ByteSize ≤ raw.length := by
  obtain ⟨escaped, decoded, read⟩ := Option.bind_eq_some_iff.mp read
  obtain ⟨chars, resolved, returned⟩ := Option.bind_eq_some_iff.mp read
  cases returned
  rw [Utf8.decode?_eq_some_iff] at decoded
  have bounded := utf8ByteSize_of_unescape resolved
  rw [String.ofList_toList] at bounded
  rw [decoded, Utf8.length_encode]
  exact Nat.le_trans bounded (Nat.le_of_eq (Nat.zero_add _))

end Texts

section Evaluation

/-- Setting a key adds no more than its bytes and the weight of its value. -/
theorem weightOfMembers_insert_le (members : Members) (key : String) (value : Value) :
    weightOfMembers (members.insert key value) ≤
      weightOfMembers members + (key.utf8ByteSize + value.weight) := by
  induction members with
  | nil => exact Nat.le_of_eq (Nat.add_comm _ _)
  | cons member rest inductionHypothesis =>
    obtain ⟨other, old⟩ := member
    rw [Members.insert]
    split
    · simp only [weightOfMembers]
      omega
    · split
      · simp only [weightOfMembers]
        omega
      · simp only [weightOfMembers]
        omega

mutual

/-- A value weighs no more than what is written of it. The recursion is on what is written, together
with its items and members. -/
theorem weight_le_of_value? {depth : Nat} {value : Value} : (source : Source) →
    source.value? depth = some value → value.weight ≤ source.weight
  | .null, read => by
    cases read
    exact Nat.le_refl _
  | .bool _, read => by
    cases read
    exact Nat.le_refl _
  | .number _, read => by
    obtain ⟨number, -, rfl⟩ := Option.map_eq_some_iff.mp read
    exact Nat.le_refl _
  | .text raw, read => by
    obtain ⟨text, resolved, rfl⟩ := Option.map_eq_some_iff.mp read
    exact Nat.succ_le_succ (utf8ByteSize_of_resolveText? resolved)
  | .array items, read => by
    cases depth with
    | zero => cases read
    | succ inner =>
      obtain ⟨values, found, rfl⟩ := Option.map_eq_some_iff.mp read
      have bounded := weightOfItems_le_of_itemValues? items found
      rw [weightOfItems, Nat.zero_add] at bounded
      exact Nat.succ_le_succ bounded
  | .object members, read => by
    cases depth with
    | zero => cases read
    | succ inner =>
      obtain ⟨values, found, rfl⟩ := Option.map_eq_some_iff.mp read
      have bounded := weightOfMembers_le_of_memberValues? members found
      rw [weightOfMembers, Nat.zero_add] at bounded
      exact Nat.succ_le_succ bounded

/-- The values of items weigh no more than the items. -/
theorem weightOfItems_le_of_itemValues? {depth : Nat} {evaluated values : List Value} :
    (items : List Source) →
    itemValues? depth evaluated items = some values →
      weightOfItems values ≤ weightOfItems evaluated + weightOfSources items
  | [], read => by
    cases read
    rw [weightOfItems_reverse]
    exact Nat.le_refl _
  | item :: rest, read => by
    rw [itemValues?] at read
    split at read
    · cases read
    · next value found =>
      have first := weight_le_of_value? item found
      have others := weightOfItems_le_of_itemValues? rest read
      rw [weightOfItems] at others
      rw [weightOfSources]
      omega

/-- The values of members weigh no more than the members, since a later value of a key
takes the place of the earlier. -/
theorem weightOfMembers_le_of_memberValues? {depth : Nat} {evaluated values : Members} :
    (members : List (Bytes × Source)) → memberValues? depth evaluated members = some values →
      weightOfMembers values ≤ weightOfMembers evaluated + weightOfEntries members
  | [], read => by
    cases read
    exact Nat.le_refl _
  | (key, member) :: rest, read => by
    rw [memberValues?] at read
    split at read
    · next name value resolved found =>
      have named := utf8ByteSize_of_resolveText? resolved
      have first := weight_le_of_value? member found
      have others := weightOfMembers_le_of_memberValues? rest read
      have added := weightOfMembers_insert_le evaluated name value
      rw [weightOfEntries]
      omega
    · cases read

end

end Evaluation

section Building

/-- What an open array or object weighs so far. -/
def Opened.weight : Opened → Nat
  | .array items => weightOfSources items + 1
  | .object members key => weightOfEntries members + key.length + 1

/-- What the machine holds. -/
def Builder.weight : Builder → Nat
  | .awaitValue stack => (stack.map Opened.weight).sum
  | .awaitFirstItem stack | .awaitFirstKey stack => (stack.map Opened.weight).sum + 1
  | .awaitKey stack members => (stack.map Opened.weight).sum + (weightOfEntries members + 1)
  | .awaitColon stack members key =>
    (stack.map Opened.weight).sum + (weightOfEntries members + key.length + 1)
  | .complete stack value => (stack.map Opened.weight).sum + value.weight

/-- What a lexeme adds at most. -/
def Lexeme.weight : Lexeme → Nat
  | .text raw => raw.length + 1
  | _ => 1

/-- The first lexeme of a value adds what it weighs, whether the value is
complete with it or opened. -/
theorem Builder.weight_begin {stack : List Opened} {lexeme : Lexeme} {next : Builder}
    (begun : begin stack lexeme = some next) :
    next.weight = (stack.map Opened.weight).sum + lexeme.weight := by
  cases lexeme <;> first | cases begun; rfl | cases begun

/-- A lexeme adds no more than what it weighs, as closing a list or an
object only moves what it holds. -/
theorem Builder.weight_step {builder next : Builder} {lexeme : Lexeme}
    (stepped : builder.step lexeme = some next) :
    next.weight ≤ builder.weight + lexeme.weight := by
  unfold step at stepped
  split at stepped
  · exact Nat.le_of_eq (weight_begin stepped)
  · cases stepped
    exact Nat.le_add_right _ _
  · have begun := weight_begin stepped
    rw [List.map_cons, List.sum_cons] at begun
    simp only [weight, Opened.weight, weightOfSources] at begun ⊢
    omega
  all_goals cases stepped
  all_goals
    simp only [weight, List.map_cons, List.sum_cons, Opened.weight, Source.weight, Lexeme.weight,
      weightOfSources_reverse, weightOfEntries_reverse, weightOfSources, weightOfEntries]
    omega

/-- Lexemes add no more than what they weigh together. The induction is on the lexemes. -/
theorem Builder.weight_foldlM {lexemes : List Lexeme} {builder last : Builder}
    (stepped : lexemes.foldlM step builder = some last) :
    last.weight ≤ builder.weight + (lexemes.map Lexeme.weight).sum := by
  induction lexemes generalizing builder with
  | nil =>
    cases stepped
    exact Nat.le_refl _
  | cons lexeme rest inductionHypothesis =>
    rw [List.foldlM_cons] at stepped
    obtain ⟨next, first, others⟩ := Option.bind_eq_some_iff.mp stepped
    have added := weight_step first
    have later := inductionHypothesis others
    rw [List.map_cons, List.sum_cons]
    omega

/-- A tree weighs no more than the lexemes that it is built from. -/
theorem weight_le_of_ofLexemes? {lexemes : List Lexeme} {source : Source}
    (built : Source.ofLexemes? lexemes = some source) :
    source.weight ≤ (lexemes.map Lexeme.weight).sum := by
  obtain ⟨last, stepped, finished⟩ := Option.bind_eq_some_iff.mp built
  have bounded := Builder.weight_foldlM stepped
  unfold Builder.result? at finished
  split at finished
  · cases finished
    simp only [Builder.weight, List.map_nil, List.sum_nil, Nat.zero_add] at bounded
    exact bounded
  · cases finished

end Building

namespace Lexeme

/-- A string ends with a quote, which it does not hold, so it is
shorter than what it was cut from. -/
theorem length_lt_of_scanText {passed source raw rest : Bytes}
    (scanned : scanText passed source = some (raw, rest)) :
    raw.length + rest.length < passed.length + source.length := by
  fun_induction scanText passed source with
  | case2 passed after =>
    cases scanned
    rw [List.length_reverse, List.length_cons]
    omega
  | case4 _ _ _ _ _ _ _ _ inductionHypothesis =>
    have later := inductionHypothesis scanned
    simp only [List.length_cons] at later ⊢
    omega
  | case7 _ _ _ _ _ _ inductionHypothesis =>
    have later := inductionHypothesis scanned
    simp only [List.length_cons] at later ⊢
    omega
  | case10 _ _ _ _ _ _ inductionHypothesis =>
    have later := inductionHypothesis scanned
    simp only [List.length_cons] at later ⊢
    omega
  | _ => cases scanned

/-- A string stands behind its first quote, so only the quote tells that a string is meant. -/
theorem scanText_of_next {byte : UInt8} {rest raw after : Bytes}
    (found : next? (byte :: rest) = some (.text raw, after)) :
    scanText [] rest = some (raw, after) := by
  rw [next?] at found
  iterate 6
    obtain ⟨-, mark⟩ | ⟨-, found⟩ := ite_eq_iff.mp found
    · cases mark
  obtain ⟨-, quoted⟩ | ⟨-, found⟩ := ite_eq_iff.mp found
  · obtain ⟨⟨inside, behind⟩, scanned, same⟩ := Option.map_eq_some_iff.mp quoted
    cases same
    exact scanned
  iterate 3
    obtain ⟨-, word⟩ | ⟨-, found⟩ := ite_eq_iff.mp found
    · obtain ⟨behind, -, same⟩ := Option.map_eq_some_iff.mp word
      cases same
  unfold scanNumber at found
  dsimp only at found
  obtain ⟨-, empty⟩ | ⟨-, found⟩ := ite_eq_iff.mp found
  · cases empty
  · obtain ⟨literal, -, same⟩ := Option.map_eq_some_iff.mp found
    cases same

/-- A lexeme weighs no more than the bytes that are cut off for it, by one case for each lexeme. -/
theorem weight_of_next {source after : Bytes} {lexeme : Lexeme}
    (found : next? source = some (lexeme, after)) :
    lexeme.weight + after.length ≤ source.length := by
  have shorter : after.length < source.length := length_of_next found
  cases lexeme with
  | text raw =>
    cases source with
    | nil => cases found
    | cons byte rest =>
      have inside := length_lt_of_scanText (scanText_of_next found)
      rw [List.length_nil] at inside
      rw [weight, List.length_cons]
      omega
  | _ =>
    show 1 + after.length ≤ source.length
    omega

/-- Lexemes weigh no more than the text that they are cut from. The induction follows the
scanner; blanks weigh nothing. -/
theorem weight_le_of_scanFrom {cut lexemes : List Lexeme} {source : Bytes}
    (scanned : scanFrom cut source = some lexemes) :
    (lexemes.map weight).sum ≤ (cut.map weight).sum + source.length := by
  fun_induction scanFrom cut source with
  | case1 cut =>
    cases scanned
    rw [List.map_reverse, List.sum_reverse]
    exact Nat.le_add_right _ _
  | case2 cut byte rest _ inductionHypothesis =>
    have later := inductionHypothesis scanned
    rw [List.length_cons]
    omega
  | case3 => cases scanned
  | case4 cut byte rest _ lexeme after found inductionHypothesis =>
    have later := inductionHypothesis scanned
    have weighed := weight_of_next found
    rw [List.map_cons, List.sum_cons] at later
    omega

end Lexeme

/-- A value that is read weighs no more than the bytes that it is read from. -/
theorem weight_le_of_readBytes? {source : Bytes} {value : Value}
    (read : readBytes? source = some value) :
    value.weight ≤ source.length := by
  obtain ⟨written, found, evaluated⟩ := Option.bind_eq_some_iff.mp read
  obtain ⟨lexemes, scanned, built⟩ := Option.bind_eq_some_iff.mp found
  have cut : (lexemes.map Lexeme.weight).sum ≤ 0 + source.length :=
    Lexeme.weight_le_of_scanFrom scanned
  have first := weight_le_of_value? written evaluated
  have second := weight_le_of_ofLexemes? built
  omega

end LedgerIntake.Json
