import LedgerIntake.Bytes

/-!
# Diagnostics

JSON text and settings are read by parsers that say in words of their own why they refuse a text.
Messages quote these words, and nothing is decided by them. So the library takes them as given:
one text for each text that is refused, of a length that leaves room for the rest of a message.
-/

namespace LedgerIntake

/-- What parsers say of the texts that they refuse. -/
class Diagnostics where
  /-- What is said of bytes that are no JSON text. -/
  ofJson : Bytes → String
  /-- What is said of a reply to a batch that is no acknowledgment. -/
  ofReply : Bytes → String
  /-- What is said of a reply to a token that says neither yes nor no. -/
  ofAuthReply : Bytes → String
  /-- What is said of a text that assigns no settings. -/
  ofSettings : String → String
  /-- A message about JSON text is a line and no document. -/
  short_ofJson : ∀ bytes, (ofJson bytes).utf8ByteSize ≤ 0x10000

/-- Parsers that say the same of every text. -/
@[reducible] def Diagnostics.plain : Diagnostics where
  ofJson _ := "malformed text"
  ofReply _ := "malformed text"
  ofAuthReply _ := "malformed text"
  ofSettings _ := "malformed text"
  short_ofJson _ := by decide

end LedgerIntake
