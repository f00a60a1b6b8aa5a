import LedgerIntake.Toml.Value

/-!
# TOML assignments

The part of TOML that settings are written in: one assignment a line, with a bare or quoted key and
a string or an integer as its value, between blank lines and comments. Everything else is refused as
a whole, and so is a key that is assigned twice. Each line takes up some of the text, so the reading
ends.
-/

namespace LedgerIntake.Toml

/-- The characters of keys without quotes. -/
def isBare (char : Char) : Bool :=
  char.isAlphanum || char = '_' || char = '-'

/-- Reads a key. -/
def key? : List Char → Option (List Char × List Char)
  | '"' :: rest => scanBasic [] rest
  | '\'' :: rest => scanLiteral [] rest
  | text =>
    match text.takeWhile isBare with
    | [] => none
    | name => some (name, text.dropWhile isBare)

/-- A text without the comment at its front, if there is one. -/
def skipComment : List Char → List Char
  | '#' :: rest => rest.dropWhile isPlain
  | text => text

/-- What follows a line of which only blanks and a comment are left. -/
def lineEnd? (text : List Char) : Option (List Char) :=
  match skipComment (skipBlanks text) with
  | [] => some []
  | '\n' :: rest => some rest
  | '\r' :: '\n' :: rest => some rest
  | _ => none

/-- Reads an assignment. -/
def assignment? (text : List Char) : Option ((String × Scalar) × List Char) :=
  match key? text with
  | none => none
  | some (key, rest) =>
    match skipBlanks rest with
    | '=' :: rest =>
      (value? (skipBlanks rest)).map fun (value, rest) => ((String.ofList key, value), rest)
    | _ => none

/-- Reads a line: what it assigns, if anything, and what follows it. -/
def line? (text : List Char) : Option (Option (String × Scalar) × List Char) :=
  match lineEnd? text with
  | some rest => some (none, rest)
  | none =>
    match assignment? (skipBlanks text) with
    | none => none
    | some (assigned, rest) => (lineEnd? rest).map fun rest => (some assigned, rest)

/-- Skipping a comment leaves no more than there was, and all of it where no comment begins. -/
theorem length_skipComment (text : List Char) : (skipComment text).length ≤ text.length := by
  fun_cases skipComment text with
  | case1 rest =>
    have shorter := length_dropWhile_le isPlain rest
    simp only [List.length_cons]
    omega
  | case2 => simp

/-- A key has at least one character, so reading one makes the text shorter. -/
theorem length_of_key {text : List Char} {result : List Char × List Char}
    (found : key? text = some result) : result.2.length < text.length := by
  unfold key? at found
  split at found
  · have shorter := length_of_scanBasic found
    simp only [List.length_cons]
    omega
  · have shorter := length_of_scanLiteral found
    simp only [List.length_cons]
    omega
  · split at found
    · contradiction
    · next name _ _ present =>
      have whole := congrArg List.length (List.takeWhile_append_dropWhile (p := isBare) (l := text))
      have nonempty : 0 < (text.takeWhile isBare).length := by
        cases listed : text.takeWhile isBare <;> simp_all
      simp only [Option.some.injEq] at found
      subst found
      simp only [List.length_append] at whole
      show (text.dropWhile isBare).length < text.length
      omega

/-- An assignment has at least the one character of its key, so reading
one makes the text shorter. -/
theorem length_of_assignment {text : List Char} {result : (String × Scalar) × List Char}
    (found : assignment? text = some result) : result.2.length < text.length := by
  unfold assignment? at found
  split at found
  · contradiction
  · next key rest named =>
    have afterKey : rest.length < text.length := length_of_key named
    split at found
    · next valueText spaced =>
      obtain ⟨inner, valued, same⟩ := Option.map_eq_some_iff.mp found
      subst same
      have afterValue := length_of_value valued
      have blanks := length_dropWhile_le isBlank rest
      have further := length_dropWhile_le isBlank valueText
      simp only [skipBlanks] at spaced afterValue
      rw [spaced] at blanks
      simp only [List.length_cons] at blanks
      show inner.2.length < text.length
      omega
    · contradiction

/-- The end of a line takes up some of a text that has any, since it is a line
break or the end of the text. -/
theorem length_of_lineEnd {text rest : List Char} (found : lineEnd? text = some rest) :
    rest.length ≤ text.length ∧ (text ≠ [] → rest.length < text.length) := by
  have blanks := length_dropWhile_le isBlank text
  have comment := length_skipComment (skipBlanks text)
  unfold lineEnd? at found
  split at found
  · simp only [Option.some.injEq] at found
    subst found
    exact ⟨Nat.zero_le _, fun present => List.length_pos_iff.mpr present⟩
  all_goals simp_all [skipBlanks] <;> omega

/-- A line of a text that has any takes up some of it, so that reading lines comes to an end. -/
theorem length_of_line {text : List Char} {result : Option (String × Scalar) × List Char}
    (found : line? text = some result) (present : text ≠ []) :
    result.2.length < text.length := by
  unfold line? at found
  split at found
  · next rest ended =>
    simp only [Option.some.injEq] at found
    subst found
    exact (length_of_lineEnd ended).2 present
  · split at found
    · contradiction
    · next assigned rest stated =>
      obtain ⟨after, ended, same⟩ := Option.map_eq_some_iff.mp found
      subst same
      have blanks := length_dropWhile_le isBlank text
      have afterStatement := length_of_assignment stated
      have afterLine := (length_of_lineEnd ended).1
      simp only [skipBlanks] at afterStatement
      show after.length < text.length
      omega

/-- The assignments of the lines of a text, after those already read, which stand in reverse. -/
def readLines (read : List (String × Scalar)) (text : List Char) :
    Option (List (String × Scalar)) :=
  if _present : text = [] then some read.reverse
  else
    match _line : line? text with
    | none => none
    | some (none, rest) => readLines read rest
    | some (some assigned, rest) =>
      if read.any fun earlier => earlier.1 = assigned.1 then none
      else readLines (assigned :: read) rest
termination_by text.length
decreasing_by
  · exact length_of_line _line _present
  · exact length_of_line _line _present

/-- A text without the byte order mark at its front, if there is one. -/
def skipMark : List Char → List Char
  | char :: rest => if char.toNat = 0xfeff then rest else char :: rest
  | [] => []

/-- The assignments of a text, in order. -/
def read? (text : String) : Option (List (String × Scalar)) := readLines [] (skipMark text.toList)

end LedgerIntake.Toml
