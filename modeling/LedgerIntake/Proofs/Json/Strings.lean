import LedgerIntake.Json.Reader
import LedgerIntake.Proofs.Json.Spelling

/-!
# Strings in quotes

A style writes strings legibly if the scanner passes over what it writes for a character, so that
the closing quote is the first one that ends the string, and if the escapes in it resolve to that
character. Both are laws about one character in front of anything; strings follow by induction.
Every style shares the escapes of `escape?` and writes other characters either raw or by UTF-16
units.
-/

namespace LedgerIntake.Json

/-- What a style writes between the quotes of a string. -/
def Style.raw (style : Style) (text : String) : Bytes :=
  Utf8.encode (String.join (text.toList.map style.char))

/-- What is written for a character reads back as it: the scanner passes
over it, and it resolves to it. -/
structure Denotes (written : String) (char : Char) : Prop where
  passes : ∀ passed rest, Lexeme.scanText passed (Utf8.encode written ++ rest)
    = Lexeme.scanText ((Utf8.encode written).reverse ++ passed) rest
  resolves : ∀ resolved rest, unescape resolved (written.toList ++ rest)
    = unescape (char :: resolved) rest

/-- Every character that a style writes reads back. -/
def Style.Legible (style : Style) : Prop := ∀ char, Denotes (style.char char) char

namespace Style.Legible

variable {style : Style} (legible : style.Legible)

include legible

/-- The scanner passes over the inside of a string. The induction is on its characters, each
of which it takes as a whole. -/
theorem scanText_chars (chars : List Char) (passed rest : Bytes) :
    Lexeme.scanText passed (Utf8.encode (String.join (chars.map style.char)) ++ rest)
      = Lexeme.scanText
      ((Utf8.encode (String.join (chars.map style.char))).reverse ++ passed) rest := by
  induction chars generalizing passed with
  | nil => rfl
  | cons char chars inductionHypothesis =>
    rw [List.map_cons, String.join_cons, Utf8.encode_append, List.append_assoc,
      (legible char).passes, inductionHypothesis, List.reverse_append, List.append_assoc]

/-- A string in quotes is cut into one string, whatever follows it. -/
theorem names (text : String) : Names (style.quote text) (style.raw text) := by
  have opening : Utf8.encode "\"" = [34] := by decide
  intro cut after _
  have inside : Lexeme.scanText [] (style.raw text ++ 34 :: after)
    = some (style.raw text, after) := by
    rw [Style.raw, legible.scanText_chars, Lexeme.scanText.eq_def]
    dsimp only
    rw [if_pos rfl, List.append_nil, List.reverse_reverse]
  have found : Lexeme.next? (34 :: (style.raw text ++ 34 :: after))
    = some (.text (style.raw text), after) := by
    rw [Lexeme.next?, if_neg (by decide), if_neg (by decide), if_neg (by decide),
      if_neg (by decide), if_neg (by decide), if_neg (by decide), if_pos rfl, inside,
      Option.map_some]
  have bytes : Utf8.encode (style.quote text) ++ after = 34 :: (style.raw text ++ 34 :: after) := by
    rw [Style.quote, Utf8.encode_append, Utf8.encode_append, opening, Style.raw]
    simp
  rw [bytes, Lexeme.scanFrom_of_next cut (by decide) found]
  rfl

/-- A quoted text is read as the text, also where a value is expected. -/
theorem spells (text : String) : Spells (style.quote text) (.text (style.raw text)) :=
  (legible.names text).spells

/-- The escapes inside a string resolve to its characters, one after another. -/
theorem unescape_chars (chars resolved : List Char) :
    unescape resolved (String.join (chars.map style.char)).toList =
      some (resolved.reverse ++ chars) := by
  induction chars generalizing resolved with
  | nil =>
    rw [List.map_nil, List.append_nil]
    rfl
  | cons char chars inductionHypothesis =>
    rw [List.map_cons, String.join_cons, String.toList_append, (legible char).resolves,
      inductionHypothesis, List.reverse_cons, List.append_assoc, List.singleton_append]

/-- What stands between the quotes of a string is that string, in every legible style. -/
theorem resolveText?_raw (text : String) : resolveText? (style.raw text) = some text := by
  rw [resolveText?, Style.raw, Utf8.decode?_encode, Option.bind_eq_bind, Option.bind_some,
    legible.unescape_chars]
  simp

end Style.Legible

section Characters

/-- A byte of a character that is written raw neither ends a string nor opens an escape. -/
theorem scanText_cons (byte : UInt8) (passed rest : Bytes) (quote : byte ≠ 34)
    (backslash : byte ≠ 92)
    (visible : 32 ≤ byte) :
    Lexeme.scanText passed (byte :: rest) = Lexeme.scanText (byte :: passed) rest := by
  have above : ¬byte < 32 := UInt8.not_lt.mpr visible
  rw [Lexeme.scanText.eq_def]
  dsimp only
  rw [if_neg quote, if_neg backslash, if_neg above]

/-- Plain bytes of a string are scanned as they stand. The induction is on them, since the
scanner takes one at a time. -/
theorem scanText_append (bytes passed rest : Bytes)
    (plain : ∀ byte ∈ bytes, byte ≠ 34 ∧ byte ≠ 92 ∧ 32 ≤ byte) :
    Lexeme.scanText passed (bytes ++ rest) = Lexeme.scanText (bytes.reverse ++ passed) rest := by
  induction bytes generalizing passed with
  | nil => rfl
  | cons byte bytes inductionHypothesis =>
    obtain ⟨quote, backslash, visible⟩ := plain byte List.mem_cons_self
    rw [List.cons_append, scanText_cons byte passed _ quote backslash visible,
      inductionHypothesis _ fun other member => plain other (List.mem_cons_of_mem _ member),
      List.reverse_cons, List.append_assoc, List.singleton_append]

/-- A byte that stands for a number is told from the quote, the backslash and
the controls by that number. -/
theorem plain_ofNat (value : Nat) (byte : value < 256) (quote : value ≠ 34) (backslash : value ≠ 92)
    (visible : 32 ≤ value) :
    UInt8.ofNat value ≠ 34 ∧ UInt8.ofNat value ≠ 92 ∧ 32 ≤ UInt8.ofNat value := by
  have back : (UInt8.ofNat value).toNat = value := by
    rw [UInt8.toNat_ofNat']
    omega
  refine ⟨?_, ?_, ?_⟩
  · intro same
    rw [same] at back
    exact quote back.symm
  · intro same
    rw [same] at back
    exact backslash back.symm
  · rw [UInt8.le_iff_toNat_le, back]
    exact visible

/-- The bytes of a character above the controls that is neither the quote nor the backslash. -/
theorem plain_utf8EncodeChar (char : Char) (quote : char ≠ '"') (backslash : char ≠ '\\')
    (visible : 0x20 ≤ char.toNat) :
    ∀ byte ∈ String.utf8EncodeChar char, byte ≠ 34 ∧ byte ≠ 92 ∧ 32 ≤ byte := by
  have scalar : char.toNat < 0xd800 ∨ 0xdfff < char.toNat ∧ char.toNat < 0x110000 := char.valid
  have notQuote : char.toNat ≠ 34 := fun same => quote (Char.toNat_inj.mp same)
  have notBackslash : char.toNat ≠ 92 := fun same => backslash (Char.toNat_inj.mp same)
  unfold String.utf8EncodeChar
  dsimp only
  rw [show char.val.toNat = char.toNat from rfl]
  intro byte member
  repeat' split at member
  all_goals
    simp only [List.mem_cons, List.not_mem_nil, or_false] at member
  · subst member
    exact plain_ofNat _ (by omega) notQuote notBackslash visible
  all_goals
    rcases member with rfl | rfl | rfl | rfl <;>
      exact plain_ofNat _ (by omega) (by omega) (by omega) (by omega)

/-- An escape of two characters is passed over, so its second one does not end the string. -/
theorem scanText_short (letter : UInt8) (passed rest : Bytes)
    (known : Lexeme.isEscape letter = true) :
    Lexeme.scanText passed (92 :: letter :: rest) = Lexeme.scanText
    (letter :: 92 :: passed) rest := by
  have other : letter ≠ 117 := by
    rintro rfl
    contradiction
  rw [Lexeme.scanText.eq_def]
  dsimp only
  rw [if_neg (by decide), if_pos rfl, if_neg other, if_pos known]

/-- An escape of four hexadecimal digits is passed over as a whole. -/
theorem scanText_unit (a b c d : UInt8) (passed rest : Bytes)
    (digits : (Lexeme.isHex a && Lexeme.isHex b && Lexeme.isHex c && Lexeme.isHex d) = true) :
    Lexeme.scanText passed (92 :: 117 :: a :: b :: c :: d :: rest)
      = Lexeme.scanText (d :: c :: b :: a :: 117 :: 92 :: passed) rest := by
  rw [Lexeme.scanText.eq_def]
  dsimp only
  rw [if_neg (by decide), if_pos rfl, if_pos rfl, if_pos digits]

/-- A character that opens no escape stands for itself, whatever follows it. -/
theorem unescape_cons (char : Char) (resolved rest : List Char) (plain : char ≠ '\\') :
    unescape resolved (char :: rest) = unescape (char :: resolved) rest := by
  rw [unescape.eq_def]
  split
  · next same => cases same
  · next same =>
    cases same
    contradiction
  · next same =>
    cases same
    contradiction
  · next same =>
    cases same
    rfl

/-- An escape of two characters stands for one, unless its letter begins a unit. -/
theorem unescape_short (letter char : Char) (resolved rest : List Char)
    (known : shortEscape? letter = some char) :
    unescape resolved ('\\' :: letter :: rest) = unescape (char :: resolved) rest := by
  have other : letter ≠ 'u' := by
    rintro rfl
    contradiction
  rw [unescape.eq_def]
  split
  · next same => cases same
  · next same =>
    cases same
    contradiction
  · next same =>
    cases same
    rw [known]
  · next distinct same =>
    cases same
    exact (distinct letter rest rfl rfl).elim

/-- An escape of a unit that is no surrogate stands for the character of that number. -/
theorem unescape_unit (a b c d : Char) (unit : Nat) (resolved rest : List Char)
    (value : unit? a b c d = some unit) (scalar : unit < 0xd800 ∨ 0xe000 ≤ unit) :
    unescape resolved ('\\' :: 'u' :: a :: b :: c :: d :: rest)
      = unescape (Char.ofNat unit :: resolved) rest := by
  rw [unescape, value]
  dsimp only
  rw [if_pos (by simpa using scalar)]

/-- Two escapes of a pair of surrogates stand for one character above U+FFFF. -/
theorem unescape_pair (a b c d e f g h : Char) (high low : Nat) (resolved rest : List Char)
    (first : unit? a b c d = some high) (second : unit? e f g h = some low)
    (leading : 0xd800 ≤ high ∧ high < 0xdc00) (trailing : 0xdc00 ≤ low ∧ low < 0xe000) :
    unescape resolved ('\\' :: 'u' :: a :: b :: c :: d :: '\\' :: 'u' :: e :: f :: g :: h :: rest)
      = unescape (joinSurrogates high low :: resolved) rest := by
  have surrogate : ¬(decide (high < 0xd800) || decide (0xe000 ≤ high)) = true := by
    simp only [Bool.or_eq_true, decide_eq_true_eq]
    omega
  have partner : (decide (0xdc00 ≤ low) && decide (low < 0xe000)) = true := by
    simp only [Bool.and_eq_true, decide_eq_true_eq]
    exact trailing
  rw [unescape, first]
  dsimp only
  rw [if_neg surrogate, if_neg (by omega)]
  simp only [second, partner, if_true]

/-- A character above the controls that is neither the quote nor the
backslash may stand for itself. -/
theorem denotes_raw (char : Char) (quote : char ≠ '"') (backslash : char ≠ '\\')
    (visible : 0x20 ≤ char.toNat) :
    Denotes char.toString char where
  passes := by
    intro passed rest
    have bytes : Utf8.encode char.toString = String.utf8EncodeChar char := by
      rw [Utf8.encode, Char.toString_eq_singleton, String.toList_singleton, List.flatMap_singleton]
    rw [bytes]
    exact scanText_append _ passed rest (plain_utf8EncodeChar char quote backslash visible)
  resolves := by
    intro resolved rest
    rw [Char.toString_eq_singleton, String.toList_singleton]
    exact unescape_cons char resolved rest backslash

/-- A backslash and a letter stand for one character: the scanner passes
them, and resolving gives it. -/
theorem denotes_short (written : String) (letter char : Char) (byte : UInt8)
    (chars : written.toList = ['\\', letter]) (bytes : Utf8.encode written = [92, byte])
    (passing : Lexeme.isEscape byte = true) (known : shortEscape? letter = some char) :
    Denotes written char where
  passes := by
    intro passed rest
    rw [bytes]
    exact scanText_short byte passed rest passing
  resolves := by
    intro resolved rest
    rw [chars]
    exact unescape_short letter char resolved rest known

/-- The character of a hexadecimal digit as a byte. -/
def hexByte (value : Nat) : UInt8 := UInt8.ofNat (Bytes.hexDigit value).toNat

/-- A hexadecimal digit is one byte, and the scanner takes it as one.
All sixteen are gone through. -/
theorem utf8EncodeChar_hexDigit (value : Nat) (small : value < 16) :
    String.utf8EncodeChar (Bytes.hexDigit value) = [hexByte value] ∧
      Lexeme.isHex (hexByte value) = true := by
  have all : ∀ digit : Fin 16,
      String.utf8EncodeChar (Bytes.hexDigit digit.val) = [hexByte digit.val] ∧
        Lexeme.isHex (hexByte digit.val) = true := by decide
  exact all ⟨value, small⟩

/-- The escape of a unit is a backslash, a letter and the four digits of the unit. -/
theorem toList_escapeUnit (unit : Nat) (small : unit < 0x10000) :
    (escapeUnit unit).toList =
      ['\\', 'u', Bytes.hexDigit (unit / 4096), Bytes.hexDigit (unit / 256 % 16),
      Bytes.hexDigit (unit / 16 % 16), Bytes.hexDigit (unit % 16)] := by
  have high : (UInt8.ofNat (unit / 256)).toNat = unit / 256 := by
    rw [UInt8.toNat_ofNat']
    omega
  have low : (UInt8.ofNat unit).toNat = unit % 256 := UInt8.toNat_ofNat'
  have bytes : Bytes.bigEndian 2 unit = [UInt8.ofNat (unit / 256), UInt8.ofNat unit] := rfl
  have letters : "\\u".toList = ['\\', 'u'] := by decide
  have first : unit / 256 / 16 = unit / 4096 := by omega
  have third : unit % 256 / 16 = unit / 16 % 16 := by omega
  have fourth : unit % 256 % 16 = unit % 16 := by omega
  rw [escapeUnit, String.toList_append, letters, Bytes.toHex, String.toList_ofList, bytes]
  simp only [List.flatMap_cons, List.flatMap_nil, List.append_nil, List.cons_append,
    List.nil_append, high, low, first, third, fourth]

/-- An escape is six bytes of ASCII: a backslash, a letter and four digits. -/
theorem encode_escapeUnit (unit : Nat) (small : unit < 0x10000) :
    Utf8.encode (escapeUnit unit) = [92, 117, hexByte (unit / 4096), hexByte (unit / 256 % 16),
      hexByte (unit / 16 % 16), hexByte (unit % 16)] := by
  have backslash : String.utf8EncodeChar '\\' = [92] := by decide
  have letter : String.utf8EncodeChar 'u' = [117] := by decide
  rw [Utf8.encode, toList_escapeUnit unit small]
  simp only [List.flatMap_cons, List.flatMap_nil, List.append_nil, backslash, letter,
    (utf8EncodeChar_hexDigit (unit / 4096) (by omega)).1,
    (utf8EncodeChar_hexDigit (unit / 256 % 16) (by omega)).1,
    (utf8EncodeChar_hexDigit (unit / 16 % 16) (by omega)).1,
    (utf8EncodeChar_hexDigit (unit % 16) (by omega)).1, List.cons_append, List.nil_append]

/-- The digits of a unit have its value, put together from the front. -/
theorem unit?_hexDigit (unit : Nat) (small : unit < 0x10000) :
    unit? (Bytes.hexDigit (unit / 4096)) (Bytes.hexDigit (unit / 256 % 16))
      (Bytes.hexDigit (unit / 16 % 16)) (Bytes.hexDigit (unit % 16)) = some unit := by
  have value : ((unit / 4096 * 16 + unit / 256 % 16) * 16 + unit / 16 % 16) * 16 + unit % 16
    = unit := by
    omega
  rw [unit?, Bytes.hexValue?_hexDigit (by omega), Bytes.hexValue?_hexDigit (by omega),
    Bytes.hexValue?_hexDigit (by omega), Bytes.hexValue?_hexDigit (by omega)]
  simp only [Option.bind_eq_bind, Option.bind_some, value]
  rfl

/-- An escape is scanned as it stands: a backslash, the letter and the four digits behind it. -/
theorem scanText_escapeUnit (unit : Nat) (small : unit < 0x10000) (passed rest : Bytes) :
    Lexeme.scanText passed (Utf8.encode (escapeUnit unit) ++ rest)
      = Lexeme.scanText ((Utf8.encode (escapeUnit unit)).reverse ++ passed) rest := by
  rw [encode_escapeUnit unit small]
  apply scanText_unit
  simp only [(utf8EncodeChar_hexDigit (unit / 4096) (by omega)).2,
    (utf8EncodeChar_hexDigit (unit / 256 % 16) (by omega)).2,
    (utf8EncodeChar_hexDigit (unit / 16 % 16) (by omega)).2,
    (utf8EncodeChar_hexDigit (unit % 16) (by omega)).2, Bool.and_self]

/-- The escape of a unit that is no surrogate stands for the character of that number. -/
theorem denotes_escapeUnit (unit : Nat) (small : unit < 0x10000)
    (scalar : unit < 0xd800 ∨ 0xe000 ≤ unit) :
    Denotes (escapeUnit unit) (Char.ofNat unit) where
  passes := scanText_escapeUnit unit small
  resolves := by
    intro resolved rest
    rw [toList_escapeUnit unit small]
    exact unescape_unit _ _ _ _ unit resolved rest (unit?_hexDigit unit small) scalar

/-- Short escapes read back, each of the seven by itself. -/
theorem denotes_of_mem_shortEscapes {char : Char} {written : String}
    (among : (char, written) ∈ shortEscapes) :
    Denotes written char := by
  simp only [shortEscapes, List.mem_cons, List.not_mem_nil, or_false, Prod.mk.injEq] at among
  rcases among with ⟨rfl, rfl⟩ | ⟨rfl, rfl⟩ | ⟨rfl, rfl⟩ | ⟨rfl, rfl⟩
    | ⟨rfl, rfl⟩ | ⟨rfl, rfl⟩ | ⟨rfl, rfl⟩
  · exact denotes_short _ '"' _ 34 (by decide) (by decide) (by decide) (by decide)
  · exact denotes_short _ '\\' _ 92 (by decide) (by decide) (by decide) (by decide)
  · exact denotes_short _ 'b' _ 98 (by decide) (by decide) (by decide) (by decide)
  · exact denotes_short _ 'f' _ 102 (by decide) (by decide) (by decide) (by decide)
  · exact denotes_short _ 'n' _ 110 (by decide) (by decide) (by decide) (by decide)
  · exact denotes_short _ 'r' _ 114 (by decide) (by decide) (by decide) (by decide)
  · exact denotes_short _ 't' _ 116 (by decide) (by decide) (by decide) (by decide)

/-- The escapes that every style shares read back: the short ones, and the units of controls. -/
theorem denotes_of_escape (char : Char) (written : String) (escaped : escape? char = some written) :
    Denotes written char := by
  rcases escape?_eq_some escaped with among | ⟨control, rfl⟩
  · exact denotes_of_mem_shortEscapes among
  · have denotes := denotes_escapeUnit char.toNat (by omega) (by omega)
    rwa [Char.ofNat_toNat] at denotes

/-- A character without an escape is neither the quote nor the backslash nor a control. -/
theorem plain_of_escape (char : Char) (none : escape? char = none) :
    char ≠ '"' ∧ char ≠ '\\' ∧ 0x20 ≤ char.toNat := by
  unfold escape? at none
  repeat' split at none
  all_goals first
    | contradiction
    | (refine ⟨by assumption, by assumption, ?_⟩; omega)

/-- Plain text is legible, as what it does not escape stands for itself. -/
theorem legible_plain : Style.plain.Legible := by
  intro char
  show Denotes ((escape? char).getD char.toString) char
  cases escaped : escape? char with
  | none =>
    obtain ⟨quote, backslash, visible⟩ := plain_of_escape char escaped
    exact denotes_raw char quote backslash visible
  | some written => exact denotes_of_escape char written escaped

end Characters

end LedgerIntake.Json
