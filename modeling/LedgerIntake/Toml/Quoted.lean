import LedgerIntake.Bytes

/-!
# Quoted TOML text

Strings are basic or literal, on one line or on several. Escapes stand for characters in basic
strings only. Each scan reads what follows an opening quote up to the closing one, and gives the
characters and the text behind it, which is never longer than the text it was given.
-/

namespace LedgerIntake.Toml

/-- Space or tab. -/
def isBlank (char : Char) : Bool := char = ' ' || char = '\t'

/-- The characters that may stand in strings and comments: no control character but the tab. -/
def isPlain (char : Char) : Bool :=
  char = '\t' || (0x20 ≤ char.toNat && char.toNat ≠ 0x7f)

/-- A text without the blanks at its front. -/
def skipBlanks (text : List Char) : List Char := text.dropWhile isBlank

/-- The character of a short escape. -/
def shortEscape? (letter : Char) : Option Char :=
  if letter = 'b' then some (Char.ofNat 8)
  else if letter = 't' then some '\t'
  else if letter = 'n' then some '\n'
  else if letter = 'f' then some (Char.ofNat 12)
  else if letter = 'r' then some '\r'
  else if letter = '"' || letter = '\\' then some letter
  else none

/-- The character whose number hexadecimal digits give; surrogates are none. -/
def scalar? (digits : List Char) : Option Char := do
  let values ← digits.mapM Bytes.hexValue?
  let value := values.foldl (fun value digit => value * 16 + digit) 0
  if value.isValidChar then some (Char.ofNat value) else none

/-- Reads a basic string behind its opening quote. Characters read so far stand in reverse. -/
def scanBasic (scanned : List Char) : List Char → Option (List Char × List Char)
  | [] => none
  | '"' :: rest => some (scanned.reverse, rest)
  | '\\' :: 'u' :: a :: b :: c :: d :: rest =>
    match scalar? [a, b, c, d] with
    | some char => scanBasic (char :: scanned) rest
    | none => none
  | '\\' :: 'U' :: a :: b :: c :: d :: e :: f :: g :: h :: rest =>
    match scalar? [a, b, c, d, e, f, g, h] with
    | some char => scanBasic (char :: scanned) rest
    | none => none
  | '\\' :: letter :: rest =>
    match shortEscape? letter with
    | some char => scanBasic (char :: scanned) rest
    | none => none
  | char :: rest => if isPlain char && char ≠ '\\' then scanBasic (char :: scanned) rest else none

/-- Reads a literal string behind its opening quote. -/
def scanLiteral (scanned : List Char) : List Char → Option (List Char × List Char)
  | [] => none
  | '\'' :: rest => some (scanned.reverse, rest)
  | char :: rest => if isPlain char then scanLiteral (char :: scanned) rest else none

/-- The end of a string of several lines behind its three closing quotes: up to two more of
them are its last characters. -/
def closeLines (quote : Char) (scanned : List Char) : List Char → List Char × List Char
  | a :: b :: rest =>
    if a = quote then
      if b = quote then ((quote :: quote :: scanned).reverse, rest)
      else ((quote :: scanned).reverse, b :: rest)
    else (scanned.reverse, a :: b :: rest)
  | [a] => if a = quote then ((quote :: scanned).reverse, []) else (scanned.reverse, [a])
  | [] => (scanned.reverse, [])

/-- Whether a line ends here, but for blanks. -/
def endsLine (text : List Char) : Bool :=
  match skipBlanks text with
  | '\n' :: _ => true
  | '\r' :: '\n' :: _ => true
  | _ => false

/-- Reads a basic string of several lines behind its opening quotes. A backslash at the end
of a line folds it: blanks and line ends up to the next other character are left out. Line
ends are read as line feeds. -/
def scanBasicLines (folding : Bool) (scanned : List Char) :
    List Char → Option (List Char × List Char)
  | [] => none
  | '"' :: '"' :: '"' :: rest => some (closeLines '"' scanned rest)
  | '\\' :: 'u' :: a :: b :: c :: d :: rest =>
    match scalar? [a, b, c, d] with
    | some char => scanBasicLines false (char :: scanned) rest
    | none => none
  | '\\' :: 'U' :: a :: b :: c :: d :: e :: f :: g :: h :: rest =>
    match scalar? [a, b, c, d, e, f, g, h] with
    | some char => scanBasicLines false (char :: scanned) rest
    | none => none
  | '\\' :: letter :: rest =>
    if endsLine (letter :: rest) then scanBasicLines true scanned (letter :: rest)
    else
      match shortEscape? letter with
      | some char => scanBasicLines false (char :: scanned) rest
      | none => none
  | '\r' :: '\n' :: rest =>
    scanBasicLines folding (if folding then scanned else '\n' :: scanned) rest
  | '\n' :: rest => scanBasicLines folding (if folding then scanned else '\n' :: scanned) rest
  | char :: rest =>
    if folding && isBlank char then scanBasicLines true scanned rest
    else if isPlain char && char ≠ '\\' then scanBasicLines false (char :: scanned) rest
    else none

/-- Reads a literal string of several lines behind its opening quotes. -/
def scanLiteralLines (scanned : List Char) : List Char → Option (List Char × List Char)
  | [] => none
  | '\'' :: '\'' :: '\'' :: rest => some (closeLines '\'' scanned rest)
  | '\r' :: '\n' :: rest => scanLiteralLines ('\n' :: scanned) rest
  | '\n' :: rest => scanLiteralLines ('\n' :: scanned) rest
  | char :: rest => if isPlain char then scanLiteralLines (char :: scanned) rest else none

/-- A text without the line end at its front, if there is one. -/
def skipLineEnd : List Char → List Char
  | '\n' :: rest => rest
  | '\r' :: '\n' :: rest => rest
  | text => text

/-- Dropping characters from the front leaves no more than there were. -/
theorem length_dropWhile_le (keep : Char → Bool) (text : List Char) :
    (text.dropWhile keep).length ≤ text.length :=
  (List.dropWhile_sublist keep).length_le

/-- What follows a basic string is no longer than the string and what follows it. -/
theorem length_of_scanBasic {scanned text : List Char} {result : List Char × List Char}
    (found : scanBasic scanned text = some result) : result.2.length ≤ text.length := by
  fun_induction scanBasic scanned text <;> simp_all <;> grind

/-- What follows a literal string is no longer than the string and what follows it. -/
theorem length_of_scanLiteral {scanned text : List Char} {result : List Char × List Char}
    (found : scanLiteral scanned text = some result) : result.2.length ≤ text.length := by
  fun_induction scanLiteral scanned text <;> simp_all <;> grind

/-- Closing a string of several lines takes up quotes or nothing, and never adds to what is left. -/
theorem length_closeLines (quote : Char) (scanned text : List Char) :
    (closeLines quote scanned text).2.length ≤ text.length := by
  fun_cases closeLines quote scanned text <;> simp_all
  omega

/-- What follows a basic string of several lines is no longer than both. -/
theorem length_of_scanBasicLines {folding : Bool} {scanned text : List Char}
    {result : List Char × List Char} (found : scanBasicLines folding scanned text = some result) :
    result.2.length ≤ text.length := by
  fun_induction scanBasicLines folding scanned text <;> simp_all <;>
    grind [length_closeLines]

/-- What follows a literal string of several lines is no longer than both. -/
theorem length_of_scanLiteralLines {scanned text : List Char} {result : List Char × List Char}
    (found : scanLiteralLines scanned text = some result) : result.2.length ≤ text.length := by
  fun_induction scanLiteralLines scanned text <;> simp_all <;> grind [length_closeLines]

/-- Skipping a line end leaves no more than there was, and all of it where none stands. -/
theorem length_skipLineEnd (text : List Char) : (skipLineEnd text).length ≤ text.length := by
  fun_cases skipLineEnd text with
  | case1 rest => simp
  | case2 rest =>
    simp only [List.length_cons]
    omega
  | case3 => exact Nat.le_refl _

end LedgerIntake.Toml
