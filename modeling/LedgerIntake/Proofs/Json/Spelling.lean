import LedgerIntake.Json.Source
import LedgerIntake.Json.Writer
import LedgerIntake.Proofs.Text.Utf8

/-!
# Texts that spell a value

A text spells a written value if, wherever it stands, its bytes are cut into lexemes of which the
machine makes that value. One condition is put on what follows: a number ends with the last byte of
which numbers are made, so no such byte may stand behind it. Brackets, commas and colons meet the
condition, and so does the end.

Spellings compose: arrays and objects spell what their parts spell. Nothing here depends on how
numbers and strings are written.
-/

namespace LedgerIntake.Json

/-- What may follow a value: nothing, or a byte of which no number is made. -/
def Closed (after : Bytes) : Prop := ∀ byte rest, after = byte :: rest →
    Lexeme.isNumeric byte = false

/-- The end of a text closes a number, as nothing can go on with it. -/
theorem closed_nil : Closed [] := by
  intro byte rest same
  cases same

/-- A byte that is not numeric closes a number in front of it. -/
theorem closed_cons (byte : UInt8) (rest : Bytes) (other : Lexeme.isNumeric byte = false) :
    Closed (byte :: rest) := by
  intro first later same
  cases same
  exact other

namespace Lexeme

/-- A lexeme that is found at a byte which is no blank is cut off, and
scanning goes on behind it. -/
theorem scanFrom_of_next {byte : UInt8} {rest after : Bytes} {lexeme : Lexeme} (cut : List Lexeme)
    (visible : isBlank byte = false) (found : next? (byte :: rest) = some (lexeme, after)) :
    scanFrom cut (byte :: rest) = scanFrom (lexeme :: cut) after := by
  rw [scanFrom, visible, if_neg (by decide)]
  split
  · next none =>
    rw [found] at none
    cases none
  · next some =>
    rw [found] at some
    cases some
    rfl

/-- Bytes are cut into lexemes wherever they stand. -/
def Cuts (bytes : Bytes) (lexemes : List Lexeme) : Prop :=
  ∀ cut after, Closed after →
    scanFrom cut (bytes ++ after) = scanFrom (lexemes.reverse ++ cut) after

/-- A byte that is a lexeme by itself is cut off whatever follows it. -/
def Stands (byte : UInt8) (lexeme : Lexeme) : Prop :=
  isBlank byte = false ∧ isNumeric byte = false ∧ ∀ rest, next? (byte :: rest) = some (lexeme, rest)

/-- A square bracket opens an array, and belongs to no number. -/
theorem stands_openArray : Stands 91 .openArray := ⟨by decide, by decide, fun _ => rfl⟩

/-- A square bracket closes an array, and a number that ends in front of it. -/
theorem stands_closeArray : Stands 93 .closeArray := ⟨by decide, by decide, fun _ => rfl⟩

/-- A brace opens an object, and belongs to no number. -/
theorem stands_openObject : Stands 123 .openObject := ⟨by decide, by decide, fun _ => rfl⟩

/-- A brace closes an object, and a number that ends in front of it. -/
theorem stands_closeObject : Stands 125 .closeObject := ⟨by decide, by decide, fun _ => rfl⟩

/-- A comma stands between items and between members, and closes a number. -/
theorem stands_comma : Stands 44 .comma := ⟨by decide, by decide, fun _ => rfl⟩

/-- A colon stands between a key and its value, and belongs to no number. -/
theorem stands_colon : Stands 58 .colon := ⟨by decide, by decide, fun _ => rfl⟩

variable {byte : UInt8} {lexeme : Lexeme} {first second : Bytes} {front back : List Lexeme}

/-- A lexeme of one byte may stand in front of anything, since nothing
that follows can change it. -/
theorem Cuts.cons (stands : Stands byte lexeme) (cuts : Cuts second back) :
    Cuts (byte :: second) (lexeme :: back) := by
  intro cut after closed
  rw [List.cons_append, scanFrom_of_next cut stands.1 (stands.2.2 _), cuts _ after closed,
    List.reverse_cons, List.append_assoc, List.singleton_append]

/-- What begins with no byte of a number may stand behind anything. Only numbers
do not tell where they end. -/
theorem Cuts.append (cuts : Cuts first front) (behind : Cuts second back)
    (follow : ∀ after, Closed (second ++ after)) : Cuts (first ++ second) (front ++ back) := by
  intro cut after closed
  rw [List.append_assoc, cuts cut _ (follow after), behind _ after closed, List.reverse_append,
    List.append_assoc]

/-- A mark that stands for a lexeme closes a number in front of it. -/
theorem closed_of_stands (stands : Stands byte lexeme) (rest after : Bytes) :
    Closed ((byte :: rest) ++ after) :=
  closed_cons byte (rest ++ after) stands.2.1

/-- No bytes are cut into no lexemes. -/
theorem cuts_nil : Cuts [] [] := by
  intro cut after _
  rfl

end Lexeme

namespace Builder

/-- What the machine comes to that reads lexemes. -/
def run (builder : Builder) (lexemes : List Lexeme) : Option Builder := lexemes.foldlM step builder

/-- The first lexeme is met before the others. -/
theorem run_cons (builder : Builder) (lexeme : Lexeme) (rest : List Lexeme) :
    builder.run (lexeme :: rest) = (builder.step lexeme).bind fun next => next.run rest := rfl

/-- Lexemes that follow others are met by what those built, so texts can
be put together part by part. -/
theorem run_append (builder : Builder) (front back : List Lexeme) :
    builder.run (front ++ back) = (builder.run front).bind fun next => next.run back := by
  rw [run, List.foldlM_append]
  rfl

/-- The machine makes a value of lexemes wherever it waits for one. The first of them closes no
array, which the machine would accept where it waits for the first item. -/
structure Builds (lexemes : List Lexeme) (source : Source) : Prop where
  value : ∀ stack, (awaitValue stack).run lexemes = some (.complete stack source)
  opening : ∃ first rest, lexemes = first :: rest ∧ first ≠ .closeArray

variable {lexemes : List Lexeme} {source : Source}

/-- Where the first item of an array may stand, a value becomes that item. -/
theorem Builds.firstItem (builds : Builds lexemes source) (stack : List Opened) :
    (awaitFirstItem stack).run lexemes = some (.complete (.array [] :: stack) source) := by
  obtain ⟨first, rest, rfl, other⟩ := builds.opening
  have same : (awaitFirstItem stack).step first = (awaitValue (.array [] :: stack)).step first := by
    cases first <;> first | rfl | exact absurd rfl other
  rw [run_cons, same, ← run_cons]
  exact builds.value (.array [] :: stack)

end Builder

/-- A text spells a value. -/
def Spells (text : String) (source : Source) : Prop :=
  ∃ lexemes, Lexeme.Cuts (Utf8.encode text) lexemes ∧ Builder.Builds lexemes source

/-- A word that is a lexeme by itself spells the value that the machine makes of that lexeme. -/
theorem spells_word {text : String} {byte : UInt8} {rest : Bytes} {lexeme : Lexeme}
    {source : Source}
    (bytes : Utf8.encode text = byte :: rest) (visible : Lexeme.isBlank byte = false)
    (found : ∀ after, Lexeme.next? (byte :: (rest ++ after)) = some (lexeme, after))
    (other : lexeme ≠ .closeArray)
    (begins : ∀ stack, Builder.begin stack lexeme = some (.complete stack source)) :
    Spells text source := by
  refine ⟨[lexeme], ?_, ?_, _, _, rfl, other⟩
  · intro cut after _
    rw [bytes, List.cons_append, Lexeme.scanFrom_of_next cut visible (found after)]
    rfl
  · intro stack
    rw [Builder.run_cons,
      show (Builder.awaitValue stack).step lexeme = Builder.begin stack lexeme from rfl, begins]
    rfl

/-- The word for null is read as null, whatever follows it. -/
theorem spells_null : Spells "null" .null :=
  spells_word (by decide : Utf8.encode "null" = [110, 117, 108, 108])
    (by decide) (fun _ => rfl) (by simp)
    fun _ => rfl

/-- The words for truth and falsehood are read as those, whatever follows them. -/
theorem spells_bool (value : Bool) : Spells (if value then "true" else "false") (.bool value) := by
  cases value with
  | true =>
    exact spells_word (by decide : Utf8.encode "true" = [116, 114, 117, 101])
      (by decide) (fun _ => rfl)
      (by simp) fun _ => rfl
  | false =>
    exact spells_word (by decide : Utf8.encode "false" = [102, 97, 108, 115, 101])
      (by decide) (fun _ => rfl)
      (by simp) fun _ => rfl

/-- A text that is cut into one string can be a key. -/
def Names (text : String) (raw : Bytes) : Prop := Lexeme.Cuts (Utf8.encode text) [.text raw]

/-- What names a text in front of a colon spells it as a value, since one lexeme serves for both. -/
theorem Names.spells {text : String} {raw : Bytes} (names : Names text raw) :
    Spells text (.text raw) :=
  ⟨[.text raw], names, fun _ => rfl, _, _, rfl, by simp⟩

/-- Texts with commas between them: the first, and each other behind a comma. -/
theorem encode_intercalate (first : String) (rest : List String) :
    Utf8.encode (String.intercalate "," (first :: rest))
      = Utf8.encode first ++ rest.flatMap fun text => 44 :: Utf8.encode text := by
  have comma : Utf8.encode "," = [44] := by decide
  induction rest generalizing first with
  | nil => simp
  | cons second rest inductionHypothesis =>
    rw [String.intercalate_cons_of_ne_nil (by simp), Utf8.encode_append, Utf8.encode_append, comma,
      inductionHypothesis, List.flatMap_cons]
    simp

section Arrays

/-- What stands behind a text inside an array: the other items, each
behind a comma, and the bracket. -/
def itemsTail (items : List (String × Source)) : Bytes :=
  (items.flatMap fun item => 44 :: Utf8.encode item.1) ++ [93]

/-- A number in front of further items is closed by the comma or by the bracket. -/
theorem closed_itemsTail (items : List (String × Source)) (after : Bytes) :
    Closed (itemsTail items ++ after) := by
  cases items with
  | nil => exact closed_cons 93 after (by decide)
  | cons item rest => exact closed_cons 44 _ (by decide)

/-- The items behind the current one complete the array. The induction is on them, inside of
whatever is open around the array. -/
theorem itemsTail_builds (items : List (String × Source))
    (spelled : ∀ item ∈ items, Spells item.1 item.2) :
    ∃ lexemes, Lexeme.Cuts (itemsTail items) lexemes ∧ ∀ stack earlier value,
      (Builder.complete (.array earlier :: stack) value).run lexemes
        = some (.complete stack (.array ((value :: earlier).reverse ++ items.map Prod.snd))) := by
  induction items with
  | nil =>
    refine ⟨[.closeArray], Lexeme.Cuts.cons Lexeme.stands_closeArray Lexeme.cuts_nil, ?_⟩
    intro stack earlier value
    rw [List.map_nil, List.append_nil]
    rfl
  | cons item rest inductionHypothesis =>
    obtain ⟨tail, tailCuts, completes⟩ :=
      inductionHypothesis fun other member => spelled other (List.mem_cons_of_mem _ member)
    obtain ⟨lexemes, cuts, builds⟩ := spelled item List.mem_cons_self
    refine ⟨.comma :: (lexemes ++ tail), ?_, ?_⟩
    · have joined := cuts.append tailCuts (closed_itemsTail rest)
      have whole := Lexeme.Cuts.cons Lexeme.stands_comma joined
      simpa only [itemsTail, List.flatMap_cons, List.cons_append, List.append_assoc] using whole
    · intro stack earlier value
      have step : (Builder.complete (.array earlier :: stack) value).step .comma
          = some (.awaitValue (.array (value :: earlier) :: stack)) := rfl
      rw [Builder.run_cons, step, Option.bind_some, Builder.run_append, builds.value,
        Option.bind_some, completes]
      simp

/-- Texts in brackets spell the array of what they spell, also if there are none. -/
theorem Spells.brackets (items : List (String × Source))
    (spelled : ∀ item ∈ items, Spells item.1 item.2) :
    Spells (brackets (items.map Prod.fst)) (.array (items.map Prod.snd)) := by
  have opening : Utf8.encode "[" = [91] := by decide
  have closing : Utf8.encode "]" = [93] := by decide
  cases items with
  | nil =>
    refine ⟨[.openArray, .closeArray], ?_, fun _ => rfl, _, _, rfl, by simp⟩
    exact Lexeme.Cuts.cons Lexeme.stands_openArray
      (Lexeme.Cuts.cons Lexeme.stands_closeArray Lexeme.cuts_nil)
  | cons item rest =>
    obtain ⟨tail, tailCuts, completes⟩ :=
      itemsTail_builds rest fun other member => spelled other (List.mem_cons_of_mem _ member)
    obtain ⟨lexemes, cuts, builds⟩ := spelled item List.mem_cons_self
    refine ⟨.openArray :: (lexemes ++ tail), ?_, ?_, _, _, rfl, by simp⟩
    · have joined := cuts.append tailCuts (closed_itemsTail rest)
      have whole := Lexeme.Cuts.cons Lexeme.stands_openArray joined
      have text : Utf8.encode (Json.brackets ((item :: rest).map Prod.fst))
          = 91 :: (Utf8.encode item.1 ++ itemsTail rest) := by
        rw [Json.brackets, Utf8.encode_append, Utf8.encode_append, opening, closing, List.map_cons,
          encode_intercalate, List.flatMap_map, itemsTail]
        simp
      rw [text]
      exact whole
    · intro stack
      have step : (Builder.awaitValue stack).step .openArray = some (.awaitFirstItem stack) := rfl
      rw [Builder.run_cons, step, Option.bind_some, Builder.run_append, builds.firstItem,
        Option.bind_some, completes]
      simp

end Arrays

section Objects

variable (style : Style)

/-- A member of an object: its key, the text of its value, and what these spell. -/
structure Spelled where
  key : String
  text : String
  raw : Bytes
  source : Source

/-- What a member is written as spells what it is said to spell. -/
def Spelled.Holds (member : Spelled) : Prop :=
  Names (style.quote member.key) member.raw ∧ Spells member.text member.source

/-- A member as it is written. -/
def Spelled.bytes (member : Spelled) : Bytes :=
  Utf8.encode (style.quote member.key) ++ 58 :: Utf8.encode member.text

/-- What stands behind a value inside an object: the other members, each
behind a comma, and the brace. -/
def membersTail (members : List Spelled) : Bytes :=
  (members.flatMap fun member => 44 :: member.bytes style) ++ [125]

/-- A number in front of further members is closed by the comma or by the brace. -/
theorem closed_membersTail (members : List Spelled) (after : Bytes) :
    Closed (membersTail style members ++ after) := by
  cases members with
  | nil => exact closed_cons 125 after (by decide)
  | cons member rest => exact closed_cons 44 _ (by decide)

variable {style}

/-- A member is cut into its key, a colon and its value, which the machine takes in where it waits
for a colon behind the key. -/
theorem Spelled.Holds.builds {member : Spelled} (holds : member.Holds style) :
    ∃ lexemes, Lexeme.Cuts (member.bytes style) (.text member.raw :: .colon :: lexemes) ∧
      ∀ stack earlier, (Builder.awaitColon stack earlier member.raw).run (.colon :: lexemes)
        = some (.complete (.object earlier member.raw :: stack) member.source) := by
  obtain ⟨key, lexemes, cuts, builds⟩ := holds
  refine ⟨lexemes, ?_, ?_⟩
  · exact key.append (Lexeme.Cuts.cons Lexeme.stands_colon cuts)
      (Lexeme.closed_of_stands Lexeme.stands_colon _)
  · intro stack earlier
    exact builds.value (.object earlier member.raw :: stack)

/-- The members behind the current one complete the object. The induction is on them, inside of
whatever is open around the object. -/
theorem membersTail_builds (members : List Spelled)
    (hold : ∀ member ∈ members, member.Holds style) :
    ∃ lexemes, Lexeme.Cuts (membersTail style members) lexemes ∧ ∀ stack earlier key value,
      (Builder.complete (.object earlier key :: stack) value).run lexemes
        = some (.complete stack (.object (((key, value) :: earlier).reverse
          ++ members.map fun member => (member.raw, member.source)))) := by
  induction members with
  | nil =>
    refine ⟨[.closeObject], Lexeme.Cuts.cons Lexeme.stands_closeObject Lexeme.cuts_nil, ?_⟩
    intro stack earlier key value
    rw [List.map_nil, List.append_nil]
    rfl
  | cons member rest inductionHypothesis =>
    obtain ⟨tail, tailCuts, completes⟩ :=
      inductionHypothesis fun other among => hold other (List.mem_cons_of_mem _ among)
    obtain ⟨lexemes, cuts, builds⟩ := (hold member List.mem_cons_self).builds
    refine ⟨.comma :: (.text member.raw :: .colon :: lexemes ++ tail), ?_, ?_⟩
    · have joined := cuts.append tailCuts (closed_membersTail style rest)
      have whole := Lexeme.Cuts.cons Lexeme.stands_comma joined
      simpa only [membersTail, List.flatMap_cons, List.cons_append, List.append_assoc] using whole
    · intro stack earlier key value
      have comma : (Builder.complete (.object earlier key :: stack) value).step .comma
          = some (.awaitKey stack ((key, value) :: earlier)) := rfl
      have name : (Builder.awaitKey stack ((key, value) :: earlier)).step (.text member.raw)
          = some (.awaitColon stack ((key, value) :: earlier) member.raw) := rfl
      rw [Builder.run_cons, comma, Option.bind_some, List.cons_append, Builder.run_cons, name,
        Option.bind_some, Builder.run_append, builds, Option.bind_some, completes]
      simp

/-- Members in braces spell the object of what they spell, also if there are none. -/
theorem Spells.braces (members : List Spelled) (hold : ∀ member ∈ members, member.Holds style) :
    Spells (style.braces (members.map fun member => (member.key, member.text)))
      (.object (members.map fun member => (member.raw, member.source))) := by
  have opening : Utf8.encode "\x7b" = [123] := by decide
  have closing : Utf8.encode "\x7d" = [125] := by decide
  have colon : Utf8.encode ":" = [58] := by decide
  cases members with
  | nil =>
    refine ⟨[.openObject, .closeObject], ?_, fun _ => rfl, _, _, rfl, by simp⟩
    have text : Utf8.encode (style.braces []) = [123, 125] :=
      (by decide : Utf8.encode ("\x7b" ++ String.intercalate "," [] ++ "\x7d") = [123, 125])
    rw [List.map_nil, text]
    exact Lexeme.Cuts.cons Lexeme.stands_openObject
      (Lexeme.Cuts.cons Lexeme.stands_closeObject Lexeme.cuts_nil)
  | cons member rest =>
    obtain ⟨tail, tailCuts, completes⟩ :=
      membersTail_builds rest fun other among => hold other (List.mem_cons_of_mem _ among)
    obtain ⟨lexemes, cuts, builds⟩ := (hold member List.mem_cons_self).builds
    refine ⟨.openObject :: (.text member.raw :: .colon :: lexemes ++ tail),
      ?_, ?_, _, _, rfl, by simp⟩
    · have joined := cuts.append tailCuts (closed_membersTail style rest)
      have whole := Lexeme.Cuts.cons Lexeme.stands_openObject joined
      have text :
          Utf8.encode (style.braces ((member :: rest).map fun member => (member.key, member.text)))
          = 123 :: (member.bytes style ++ membersTail style rest) := by
        rw [Style.braces, Utf8.encode_append, Utf8.encode_append, opening, closing, List.map_map,
          List.map_cons, encode_intercalate, List.flatMap_map, membersTail]
        simp [Spelled.bytes, colon]
      rw [text]
      exact whole
    · intro stack
      have brace : (Builder.awaitValue stack).step .openObject = some (.awaitFirstKey stack) := rfl
      have name : (Builder.awaitFirstKey stack).step (.text member.raw)
          = some (.awaitColon stack [] member.raw) := rfl
      rw [Builder.run_cons, brace, Option.bind_some, List.cons_append, Builder.run_cons, name,
        Option.bind_some, Builder.run_append, builds, Option.bind_some, completes]
      simp

end Objects

/-- A text that spells a value is read as that value: it is cut into lexemes to its
end, and these build the value. -/
theorem Spells.read {text : String} {source : Source} (spells : Spells text source) :
    Source.read? (Utf8.encode text) = some source := by
  obtain ⟨lexemes, cuts, builds⟩ := spells
  have whole := cuts [] [] closed_nil
  rw [List.append_nil, List.append_nil] at whole
  have scanned : Lexeme.scan (Utf8.encode text) = some lexemes := by
    rw [Lexeme.scan, whole, Lexeme.scanFrom, List.reverse_reverse]
  have made : lexemes.foldlM Builder.step (.awaitValue []) = some (.complete [] source) :=
    builds.value []
  rw [Source.read?, scanned, Option.bind_some, Source.ofLexemes?, made]
  rfl

end LedgerIntake.Json
