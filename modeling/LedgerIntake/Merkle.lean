import LedgerIntake.Canonical

/-!
# Merkle roots

The root of a batch is folded from the digests of its records level by level: neighbours are hashed
together, and the last digest of an odd level is paired with itself. A single record is its own
root. Each level has half as many digests, rounded up, so the fold ends.
-/

namespace LedgerIntake.Merkle

open Json

/-- The digest of a node from the digests below it. -/
def join (left right : Digest) : Digest := Digest.ofMessage (left.bytes ++ right.bytes)

/-- The level above a level. -/
def pairUp : List Digest → List Digest
  | left :: right :: rest => join left right :: pairUp rest
  | [single] => [join single single]
  | [] => []

/-- A level is half as long as the one below it, rounded up. Building
a tree ends for this reason. -/
theorem length_pairUp (level : List Digest) : (pairUp level).length = (level.length + 1) / 2 := by
  fun_induction pairUp level with
  | case1 left right rest ih => simp only [List.length_cons, ih]; omega
  | case2 single => simp
  | case3 => simp

/-- The root over the digests of some records; no record at all has the digest of nothing. -/
def root : List Digest → Digest
  | [] => Digest.ofNothing
  | [single] => single
  | first :: second :: rest => root (pairUp (first :: second :: rest))
termination_by level => level.length
decreasing_by
  rw [length_pairUp]
  simp only [List.length_cons]
  omega

/-- The digest of each record, in order. -/
def hashes (records : List Value) : List Digest := records.map Canonical.hash

/-- The root over some records. -/
def rootOf (records : List Value) : Digest := root (hashes records)

end LedgerIntake.Merkle
