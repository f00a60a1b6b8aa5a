import LedgerIntake.Json.Lexeme

/-!
# Written values

Lexemes are built into a tree by a machine with a stack of open arrays and objects, one step for
each lexeme. The tree holds what is written and no more: members stand in their written order, also
if a key stands twice, and strings and numbers are not yet evaluated.
-/

namespace LedgerIntake.Json

/-- A value as it is written. -/
inductive Source where
  | null
  | bool (value : Bool)
  | number (literal : Number.Literal)
  | text (raw : Bytes)
  | array (items : List Source)
  | object (members : List (Bytes × Source))

/-- An array or object whose closing bracket has not been read. -/
inductive Opened where
  /-- The items before the current one, newest first. -/
  | array (items : List Source)
  /-- The members before the current one, newest first, and its key. -/
  | object (members : List (Bytes × Source)) (key : Bytes)

/-- What the machine waits for; the innermost open array or object heads the stack. -/
inductive Builder where
  /-- A value. -/
  | awaitValue (stack : List Opened)
  /-- The first item of an array, or its end. -/
  | awaitFirstItem (stack : List Opened)
  /-- The first key of an object, or its end. -/
  | awaitFirstKey (stack : List Opened)
  /-- A further key of an object. -/
  | awaitKey (stack : List Opened) (members : List (Bytes × Source))
  /-- The colon after a key. -/
  | awaitColon (stack : List Opened) (members : List (Bytes × Source)) (key : Bytes)
  /-- The end or the continuation of what a complete value stands in. -/
  | complete (stack : List Opened) (value : Source)

namespace Builder

/-- Reads the first lexeme of a value. -/
def begin (stack : List Opened) : Lexeme → Option Builder
  | .null => some (.complete stack .null)
  | .bool value => some (.complete stack (.bool value))
  | .number literal => some (.complete stack (.number literal))
  | .text raw => some (.complete stack (.text raw))
  | .openArray => some (.awaitFirstItem stack)
  | .openObject => some (.awaitFirstKey stack)
  | _ => none

/-- Reads one lexeme. -/
def step : Builder → Lexeme → Option Builder
  | .awaitValue stack, lexeme => begin stack lexeme
  | .awaitFirstItem stack, .closeArray => some (.complete stack (.array []))
  | .awaitFirstItem stack, lexeme => begin (.array [] :: stack) lexeme
  | .awaitFirstKey stack, .closeObject => some (.complete stack (.object []))
  | .awaitFirstKey stack, .text key => some (.awaitColon stack [] key)
  | .awaitKey stack members, .text key => some (.awaitColon stack members key)
  | .awaitColon stack members key, .colon => some (.awaitValue (.object members key :: stack))
  | .complete (.array items :: stack) value, .comma =>
    some (.awaitValue (.array (value :: items) :: stack))
  | .complete (.array items :: stack) value, .closeArray =>
    some (.complete stack (.array (value :: items).reverse))
  | .complete (.object members key :: stack) value, .comma =>
    some (.awaitKey stack ((key, value) :: members))
  | .complete (.object members key :: stack) value, .closeObject =>
    some (.complete stack (.object ((key, value) :: members).reverse))
  | _, _ => none

/-- The value, if one is complete and nothing is open. -/
def result? : Builder → Option Source
  | .complete [] value => some value
  | _ => none

end Builder

namespace Source

/-- The value that lexemes spell. -/
def ofLexemes? (lexemes : List Lexeme) : Option Source :=
  (lexemes.foldlM Builder.step (.awaitValue [])).bind Builder.result?

/-- The value that a text spells. -/
def read? (source : Bytes) : Option Source := (Lexeme.scan source).bind ofLexemes?

end Source

end LedgerIntake.Json
