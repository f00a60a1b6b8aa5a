import LedgerIntake.Bytes
import LedgerIntake.SystemFault

/-!
# File trees

What a path finds. A path leads from the root, or from a place in the tree if it does not begin with
a slash, over one name after another to a place; every name is looked for where the ones before it
have led, so it is a fault if no directory is there, even if a later name leads back.
-/

namespace LedgerIntake

/-- Files and directories, each by the names that lead to it from the root. What stands in front of
a name is a directory as well. -/
structure FileTree where
  files : List (List String × Bytes)
  directories : List (List String)

namespace FileTree

/-- The greatest length of a name in bytes. -/
def nameLimit : Nat := 255

/-- The least length of a path in bytes that is too great. -/
def pathLimit : Nat := 4096

/-- Whether a place has a directory. -/
def isDirectory (tree : FileTree) (place : List String) : Bool :=
  place.isEmpty || tree.directories.any place.isPrefixOf
    || tree.files.any fun file => place.isPrefixOf file.1 && place ≠ file.1

/-- What a file at a place holds, if there is one. -/
def contents? (tree : FileTree) (place : List String) : Option Bytes :=
  (tree.files.find? fun file => file.1 = place).map Prod.snd

/-- The place to which a name leads from a place. No name and one dot stay
there, and two dots lead back. -/
def step (tree : FileTree) (place : List String) (name : String) :
    Except SystemFault (List String) :=
  if !tree.isDirectory place then .error .notDirectory
  else if name = "" ∨ name = "." then .ok place
  else if name = ".." then .ok place.dropLast
  else if nameLimit < name.utf8ByteSize then .error .nameTooLong
  else
    let place := place ++ [name]
    if tree.isDirectory place || (tree.contents? place).isSome then .ok place else .error .noFile

/-- The place to which a path leads from a place. -/
def locate (tree : FileTree) (place : List String) (path : String) :
    Except SystemFault (List String) :=
  if path = "" then .error .noFile
  else if pathLimit ≤ path.utf8ByteSize then .error .nameTooLong
  else
    let names := (path.toList.splitOn '/').map String.ofList
    names.foldlM tree.step (if names.head? = some "" then [] else place)

/-- What the file holds to which a path leads from a place. -/
def read (tree : FileTree) (place : List String) (path : String) : Except SystemFault Bytes := do
  match tree.contents? (← tree.locate place path) with
  | some contents => return contents
  | none => throw .directory

end FileTree

end LedgerIntake
