import LedgerIntake.Text.Utf8
import LedgerIntake.Json.Writer
import LedgerIntake.Digest

/-!
# Canonical form

Records are hashed in one fixed spelling. Every binary64 that equals an integer from -2⁶³ up to 2⁶⁴
is replaced by that integer, and a report counts the replaced numbers; the text then has no blanks,
its keys are ordered, its other numbers have an exponent, and its strings hold printable ASCII
alone.
-/

namespace LedgerIntake

open Json

/-- What the normalization of a value met. -/
inductive Warning where
  /-- A binary64 that equals an integer was replaced. -/
  | integralFloat
deriving DecidableEq

namespace Warning

/-- The stable name of a warning. -/
def code : Warning → String
  | .integralFloat => "IntegralFloat"

/-- The name under which occurrences of a warning are counted. -/
def metric : Warning → String
  | .integralFloat => "integral_floats"

end Warning

/-- Whether a value was in canonical form already. -/
inductive Hygiene where
  | ok
  | normalized
deriving DecidableEq

/-- The name of a status. -/
def Hygiene.name : Hygiene → String
  | .ok => "Ok"
  | .normalized => "Normalized"

/-- The outcome of a normalization: its status, each warning once, and how often each occurred. -/
structure HygieneReport where
  status : Hygiene
  warnings : List Warning
  metrics : List (Warning × Nat)
deriving DecidableEq

namespace HygieneReport

/-- Nothing was replaced. -/
def clean : HygieneReport := ⟨.ok, [], []⟩

/-- One more occurrence of a counted warning. -/
def increment (warning : Warning) : List (Warning × Nat) → List (Warning × Nat)
  | [] => [(warning, 1)]
  | (other, count) :: rest =>
    if other = warning then (other, count + 1) :: rest else (other, count) :: increment warning rest

/-- Records one occurrence of a warning. -/
def record (report : HygieneReport) (warning : Warning) : HygieneReport where
  status := .normalized
  warnings := if warning ∈ report.warnings then report.warnings else report.warnings ++ [warning]
  metrics := increment warning report.metrics

/-- The report as an object. -/
def toJson (report : HygieneReport) : Value :=
  .object
    [("status", .text report.status.name),
     ("warnings", .array (report.warnings.map fun warning => .text warning.code)),
     ("metrics", .object (report.metrics.map fun (warning, count) =>
        (warning.metric, .number (.ofNat count))))]

end HygieneReport

namespace Canonical

/-- The integer form of a binary64 that equals an integer with such a form. -/
def integral? (value : Binary64) : Option Number := value.toInt?.bind Number.ofInt?

/-- The integer that replaces a number, if one does. -/
def replacement? : Number → Option Number
  | .float value _ => integral? value
  | _ => none

mutual

/-- Replaces numbers of a value and adds what it met to a report. -/
def normalize (report : HygieneReport) : Value → Value × HygieneReport
  | .number value =>
    match replacement? value with
    | some integer => (.number integer, report.record .integralFloat)
    | none => (.number value, report)
  | .array items =>
    let (items, report) := normalizeItems report items
    (.array items, report)
  | .object members =>
    let (members, report) := normalizeMembers report members
    (.object members, report)
  | value => (value, report)

/-- Normalizes each value of a list in turn. -/
def normalizeItems (report : HygieneReport) : List Value → List Value × HygieneReport
  | [] => ([], report)
  | item :: rest =>
    let (item, report) := normalize report item
    let (rest, report) := normalizeItems report rest
    (item :: rest, report)

/-- Normalizes each member's value in turn. -/
def normalizeMembers (report : HygieneReport) :
    List (String × Value) → List (String × Value) × HygieneReport
  | [] => ([], report)
  | (key, value) :: rest =>
    let (value, report) := normalize report value
    let (rest, report) := normalizeMembers report rest
    ((key, value) :: rest, report)

end

/-- Binary numbers that remain: one digit before the point and always an exponent. -/
def layout : Layout where
  tie := .greater
  inFull := fun _ => false
  wholeEnding := ""
  exponentMark := "E"
  exponentPlus := ""
  notNumber := "null"
  infinity := "null"

/-- The canonical spelling of a normalized number. -/
def numberText : Number → String
  | .float value _ => layout.write value
  | integer => integer.text

/-- The UTF-16 escape of a character, in a pair of units above U+FFFF. -/
def escapeUnits (char : Char) : String :=
  let value := char.toNat
  if value < 0x10000 then escapeUnit value
  else
    escapeUnit (0xd800 + (value - 0x10000) / 0x400)
      ++ escapeUnit (0xdc00 + (value - 0x10000) % 0x400)

/-- Canonical text: what is not printable ASCII is escaped. -/
def style : Style where
  number := numberText
  char := fun char =>
    (escape? char).getD
      (if 0x20 ≤ char.toNat ∧ char.toNat ≤ 0x7e then char.toString else escapeUnits char)

/-- The canonical text of a value. -/
def text (value : Value) : String := (normalize .clean value).1.write style

/-- The canonical bytes of a value, which are hashed. -/
def bytes (value : Value) : Bytes := Utf8.encode (text value)

/-- What the normalization of a value met. -/
def report (value : Value) : HygieneReport := (normalize .clean value).2

/-- The text of a single number for hashing: integers as in canonical text,
other numbers as in plain JSON. -/
def plainNumberText (value : Number) : String := ((replacement? value).getD value).text

/-- The hash of a record. -/
def hash (value : Value) : Digest := Digest.ofMessage (bytes value)

end Canonical

end LedgerIntake
