import Mathlib.Data.List.Nodup
import Mathlib.Data.Nat.Log
import LedgerIntake.Proofs.Canonical
import LedgerIntake.Proofs.Merkle

/-!
# Roots over different numbers of records

A level with an odd number of nodes repeats its last one. Writing out what all levels repeat
completes a list to the leaves that the tree really has below its root, a power of two of them. The
root is the root of the completed list, so lists with one completion have one root, whatever their
lengths: three records, and the same three with the last one repeated. That is the only way in which
a root forgets how many records there are, as long as no two messages collide and no record passes
for a node.

The second proviso is needed because leaves and nodes are hashed alike. In trees of different
heights a record of the lower one stands beside a node of the higher one, and nothing but their
bytes tells them apart: canonical bytes of 64 characters might be the digests of two children. In
trees of one height records stand beside records.
-/

namespace LedgerIntake.Merkle

open Json

section Completion

variable {α β : Type}

/-- Neighbours as pairs; the last of an odd number is paired with itself. -/
def pairs : List α → List (α × α)
  | left :: right :: rest => (left, right) :: pairs rest
  | [single] => [(single, single)]
  | [] => []

/-- There is a pair for every two items, and one more for a last item without a partner. -/
theorem length_pairs (items : List α) : (pairs items).length = (items.length + 1) / 2 := by
  fun_induction pairs items with
  | case1 left right rest inductionHypothesis =>
    simp only [List.length_cons, inductionHypothesis]
    omega
  | case2 single => simp
  | case3 => simp

/-- Both items of each pair, in order. -/
def unpaired (pairs : List (α × α)) : List α := pairs.flatMap fun pair => [pair.1, pair.2]

/-- Every pair has two items, so unpairing doubles the length. -/
theorem length_unpaired (items : List (α × α)) : (unpaired items).length = 2 * items.length := by
  induction items with
  | nil => rfl
  | cons pair rest inductionHypothesis =>
    rw [unpaired, List.flatMap_cons, List.length_append, ← unpaired, inductionHypothesis,
      List.length_cons]
    simp only [List.length_cons, List.length_nil]
    omega

/-- The leaves of the tree over a list, with those that odd levels repeat. -/
def completed {α : Type} : (items : List α) → List α
  | [] => []
  | [single] => [single]
  | first :: second :: rest => unpaired (completed (pairs (first :: second :: rest)))
termination_by items => items.length
decreasing_by
  rw [length_pairs]
  simp only [List.length_cons]
  omega

example : completed [1, 2, 3, 4, 5] = [1, 2, 3, 4, 5, 5, 5, 5] := by cbv

/-- Pairing and changing items commute, as pairing looks at places only. -/
theorem pairs_map (image : α → β) (items : List α) :
    pairs (items.map image) = (pairs items).map (Prod.map image image) := by
  fun_induction pairs items with
  | case1 left right rest inductionHypothesis =>
    rw [List.map_cons, List.map_cons, pairs, inductionHypothesis, List.map_cons]
    rfl
  | case2 single => rfl
  | case3 => rfl

/-- Unpairing and changing items commute, as unpairing looks at places only. -/
theorem unpaired_map (image : α → β) (pairs : List (α × α)) :
    unpaired (pairs.map (Prod.map image image)) = (unpaired pairs).map image := by
  rw [unpaired, unpaired, List.flatMap_map, List.map_flatMap]
  rfl

/-- Completing a list goes by places and not by what stands there, so digests are
completed as their messages are. -/
theorem completed_map (image : α → β) (items : List α) :
    completed (items.map image) = (completed items).map image := by
  fun_induction completed items generalizing β with
  | case1 => rw [List.map_nil, completed]
  | case2 α single => rw [List.map_singleton, completed]
  | case3 α first second rest inductionHypothesis =>
    rw [List.map_cons, List.map_cons, completed, ← List.map_cons, ← List.map_cons, pairs_map,
      inductionHypothesis, unpaired_map]

/-- Pairing undoes writing out pairs, since these are even in number. -/
theorem pairs_unpaired (items : List (α × α)) : pairs (unpaired items) = items := by
  induction items with
  | nil => rfl
  | cons pair rest inductionHypothesis => exact congrArg (List.cons pair) inductionHypothesis

/-- Both items of a pair were among the items, also where the last one is its own partner. -/
theorem mem_of_mem_pairs {items : List α} {pair : α × α} (among : pair ∈ pairs items) :
    pair.1 ∈ items ∧ pair.2 ∈ items := by
  fun_induction pairs items with
  | case1 left right rest inductionHypothesis =>
    rcases List.mem_cons.mp among with rfl | later
    · simp
    · obtain ⟨first, second⟩ := inductionHypothesis later
      exact ⟨by simp [first], by simp [second]⟩
  | case2 single =>
    rw [List.mem_singleton.mp among]
    simp
  | case3 => cases among

/-- A completed list has no items but those of the list; it only repeats them. -/
theorem mem_of_mem_completed {items : List α} {item : α} (among : item ∈ completed items) :
    item ∈ items := by
  fun_induction completed items with
  | case1 => cases among
  | case2 α single => exact among
  | case3 α first second rest inductionHypothesis =>
    obtain ⟨pair, present, either⟩ := List.mem_flatMap.mp among
    obtain ⟨left, right⟩ := mem_of_mem_pairs (inductionHypothesis present)
    simp only [List.mem_cons, List.not_mem_nil, or_false] at either
    rcases either with rfl | rfl
    · exact left
    · exact right

/-- Pairing keeps all items in order, and adds one at the end at most. -/
theorem prefix_unpaired_pairs (items : List α) : items <+: unpaired (pairs items) := by
  fun_induction pairs items with
  | case1 left right rest inductionHypothesis =>
    exact (List.prefix_cons_inj left).mpr ((List.prefix_cons_inj right).mpr inductionHypothesis)
  | case2 single => exact ⟨[single], rfl⟩
  | case3 => exact List.nil_prefix

/-- Completing a list only adds to its end, so the list can be found again at the front. -/
theorem prefix_completed (items : List α) : items <+: completed items := by
  fun_induction completed items with
  | case1 => exact List.nil_prefix
  | case2 α single => exact List.prefix_rfl
  | case3 α first second rest inductionHypothesis =>
    obtain ⟨repeated, whole⟩ := inductionHypothesis
    refine (prefix_unpaired_pairs _).trans ?_
    rw [← whole, unpaired, unpaired, List.flatMap_append]
    exact List.prefix_append _ _

/-- Halving a number of several, rounded up, takes one from its binary logarithm. -/
theorem clog_half {count : Nat} (several : 2 ≤ count) :
    Nat.clog 2 count = Nat.clog 2 ((count + 1) / 2) + 1 := by
  rw [Nat.clog_of_two_le (by decide) several, Nat.add_sub_assoc (by decide)]

/-- The tree over a list is full: its leaves are a power of two, as many as its height allows. -/
theorem length_completed {items : List α} (present : items ≠ []) :
    (completed items).length = 2 ^ Nat.clog 2 items.length := by
  fun_induction completed items with
  | case1 => exact absurd rfl present
  | case2 α single => rfl
  | case3 α first second rest inductionHypothesis =>
    have above : pairs (first :: second :: rest) ≠ [] := by
      rw [pairs]
      exact List.cons_ne_nil _ _
    have several : 2 ≤ (first :: second :: rest).length := by simp
    rw [length_unpaired, inductionHypothesis above, length_pairs, clog_half several, Nat.pow_succ,
      Nat.mul_comm]

/-- Only no items are completed to none. -/
theorem completed_eq_nil_iff (items : List α) : completed items = [] ↔ items = [] := by
  constructor
  · intro empty
    have front := prefix_completed items
    rwa [empty, List.prefix_nil] at front
  · rintro rfl
    rw [completed]

end Completion

section Levels

/-- The message that is hashed for a node. -/
def node (children : Digest × Digest) : Bytes := children.1.bytes ++ children.2.bytes

/-- The bytes of a node determine its two children, as both have 32 bytes. -/
theorem node_injective : Function.Injective node := by
  rintro ⟨left, right⟩ ⟨left', right'⟩ same
  obtain ⟨rfl, rfl⟩ := digests_eq_of_append same
  rfl

/-- The joined bytes of a level are the nodes of its pairs, a last digest being its own partner. -/
theorem joined_eq_map (level : List Digest) : joined level = (pairs level).map node := by
  fun_induction joined level with
  | case1 left right rest inductionHypothesis => exact congrArg (List.cons _) inductionHypothesis
  | case2 single => rfl
  | case3 => rfl

/-- The level above is made of the joins of the pairs below, one for each pair. -/
theorem pairUp_eq_map (level : List Digest) :
    pairUp level = (pairs level).map fun children => join children.1 children.2 := by
  rw [pairUp_eq, joined_eq_map, List.map_map]
  rfl

/-- A level of pairs that is not empty has the root of the level above it. -/
theorem root_unpaired {children : List (Digest × Digest)} (present : children ≠ []) :
    root (unpaired children) = root (children.map fun pair => join pair.1 pair.2) := by
  have above := pairUp_eq_map (unpaired children)
  rw [pairs_unpaired] at above
  cases children with
  | nil => exact absurd rfl present
  | cons pair rest =>
    have front : unpaired (pair :: rest) = pair.1 :: pair.2 :: unpaired rest := rfl
    rw [← above, front, root]

/-- A list has the root of its completion: writing out what odd levels repeat changes no node. -/
theorem root_completed (level : List Digest) : root (completed level) = root level := by
  fun_induction root level with
  | case1 => rw [completed, root]
  | case2 single => rw [completed, root]
  | case3 first second rest inductionHypothesis =>
    have present : completed (pairs (first :: second :: rest)) ≠ [] := by
      rw [ne_eq, completed_eq_nil_iff, pairs]
      exact List.cons_ne_nil _ _
    rw [completed, root_unpaired present, ← completed_map, ← pairUp_eq_map, inductionHypothesis]

/-- The levels of a tree above its leaves are one more than those above the next level. -/
theorem clog_length {first second : Digest} {rest : List Digest} :
    Nat.clog 2 (first :: second :: rest).length = Nat.clog 2
    (pairUp (first :: second :: rest)).length + 1 := by
  rw [length_pairUp, clog_half (by simp)]

/-- Above a level that has a node there is one that has a node. -/
theorem pairUp_ne_nil {level : List Digest} (present : level ≠ []) : pairUp level ≠ [] := by
  intro empty
  have halved := length_pairUp level
  rw [empty, List.length_nil] at halved
  have filled := List.length_pos_iff.mpr present
  omega

/-- The messages above a level of several digests begin with those of the level above it. -/
theorem joined_subset {first second : Digest} {rest : List Digest} :
    joined (first :: second :: rest) ⊆ messagesAbove (first :: second :: rest) := by
  rw [messagesAbove]
  exact List.subset_append_left _ _

/-- The messages above a level include those above the level above it. -/
theorem messagesAbove_pairUp_subset {first second : Digest} {rest : List Digest} :
    messagesAbove (pairUp (first :: second :: rest)) ⊆ messagesAbove (first :: second :: rest) := by
  rw [messagesAbove]
  exact List.subset_append_right _ _

/-- The root over several digests is the digest of a message above them. -/
theorem exists_message_of_root {level : List Digest} (several : 2 ≤ level.length) :
    ∃ message ∈ messagesAbove level, root level = Digest.ofMessage message := by
  fun_induction root level with
  | case1 => cases several
  | case2 single => cases Nat.le_of_succ_le_succ several
  | case3 first second rest inductionHypothesis =>
    by_cases more : 2 ≤ (pairUp (first :: second :: rest)).length
    · obtain ⟨message, above, same⟩ := inductionHypothesis more
      exact ⟨message, messagesAbove_pairUp_subset above, same⟩
    · cases rest with
      | nil =>
        refine ⟨node (first, second), joined_subset List.mem_cons_self, ?_⟩
        rw [pairUp, pairUp, root]
        rfl
      | cons third others =>
        rw [length_pairUp] at more
        simp only [List.length_cons] at more
        omega

/-- The message of a node above a level begins with a digest of the level or with
that of another such message. -/
theorem exists_child_of_mem {level : List Digest} (present : level ≠ []) {message : Bytes}
    (above : message ∈ messagesAbove level) :
    ∃ children : Digest × Digest, message = node children ∧
      (children.1 ∈ level ∨ ∃ lower ∈ messagesAbove level,
        Digest.ofMessage lower = children.1) := by
  fun_induction messagesAbove level with
  | case1 => exact absurd rfl present
  | case2 single => cases above
  | case3 first second rest inductionHypothesis =>
    rcases List.mem_append.mp above with lowest | higher
    · rw [joined_eq_map] at lowest
      obtain ⟨children, among, rfl⟩ := List.mem_map.mp lowest
      exact ⟨children, rfl, .inl (mem_of_mem_pairs among).1⟩
    · obtain ⟨children, rfl, child⟩ := inductionHypothesis (pairUp_ne_nil present) higher
      refine ⟨children, rfl, .inr ?_⟩
      rcases child with child | ⟨lower, among, same⟩
      · rw [pairUp_eq] at child
        obtain ⟨lower, among, same⟩ := List.mem_map.mp child
        exact ⟨lower, List.mem_append_left _ among, same⟩
      · exact ⟨lower, List.mem_append_right _ among, same⟩

end Levels

section Binding

/-- Two lists hold different messages with one digest. -/
def Collide (messages others : List Bytes) : Prop :=
  ∃ collision : Digest.Collision, collision.first ∈ messages ∧ collision.second ∈ others

/-- A collision is one in either direction, so the order of the two trees plays no part. -/
theorem Collide.symm {messages others : List Bytes} (collide : Collide messages others) :
    Collide others messages := by
  obtain ⟨⟨first, second, different, same⟩, among, among'⟩ := collide
  exact ⟨⟨second, first, different.symm, same.symm⟩, among', among⟩

/-- A collision among some messages is one among more, so collisions of
levels are collisions of trees. -/
theorem Collide.mono {messages others messages' others' : List Bytes}
    (collide : Collide messages others)
    (subset : messages ⊆ messages') (subset' : others ⊆ others') : Collide messages' others' := by
  obtain ⟨collision, among, among'⟩ := collide
  exact ⟨collision, subset among, subset' among'⟩

/-- Messages with one digest are one message or collide. No other property of digests is used. -/
theorem eq_or_collide {messages others : List Bytes} {message other : Bytes}
    (among : message ∈ messages)
    (among' : other ∈ others) (same : Digest.ofMessage message = Digest.ofMessage other) :
    message = other ∨ Collide messages others := by
  by_cases equal : message = other
  · exact .inl equal
  · exact .inr ⟨⟨message, other, equal, same⟩, among, among'⟩

/-- A level of a lower tree holds the digest of a node of a higher one. -/
def Reaches (level other : List Digest) : Prop :=
  Nat.clog 2 level.length < Nat.clog 2 other.length ∧
    ∃ message ∈ messagesAbove other, Digest.ofMessage message ∈ level

variable {first second first' second' : Digest} {rest rest' : List Digest}

/-- What reaches a node from the level above reaches one of the node's
children from the level itself. -/
theorem Reaches.descend
    (reaches : Reaches (pairUp (first :: second :: rest)) (pairUp (first' :: second' :: rest'))) :
    Reaches (first :: second :: rest) (first' :: second' :: rest') ∨
      Collide (messagesAbove (first :: second :: rest))
      (messagesAbove (first' :: second' :: rest')) := by
  obtain ⟨lower, message, above, among⟩ := reaches
  rw [pairUp_eq (first :: second :: rest)] at among
  obtain ⟨below, joins, same⟩ := List.mem_map.mp among
  rcases eq_or_collide (joined_subset joins) (messagesAbove_pairUp_subset above)
    same with rfl | collide
  · rw [joined_eq_map] at joins
    obtain ⟨children, pair, rfl⟩ := List.mem_map.mp joins
    have held : children.1 ∈ first :: second :: rest := (mem_of_mem_pairs pair).1
    obtain ⟨children', equal, child⟩ :=
      exists_child_of_mem (pairUp_ne_nil (List.cons_ne_nil _ _)) above
    rw [← node_injective equal] at child
    have deeper : Nat.clog 2 (first :: second :: rest).length
      < Nat.clog 2 (first' :: second' :: rest').length := by
      rw [clog_length, clog_length]
      exact Nat.succ_lt_succ lower
    rcases child with child | ⟨lower, among', hashed⟩
    · rw [pairUp_eq] at child
      obtain ⟨lower, among', hashed⟩ := List.mem_map.mp child
      exact .inl ⟨deeper, lower, joined_subset among', hashed ▸ held⟩
    · exact .inl ⟨deeper, lower, messagesAbove_pairUp_subset among', hashed ▸ held⟩
  · exact .inr collide

/-- Several digests in two levels that are completed alike one level above are completed
alike, or messages collide. -/
theorem completed_eq_of_pairUp
    (same : completed (pairUp (first :: second :: rest))
      = completed (pairUp (first' :: second' :: rest'))) :
    completed (first :: second :: rest) = completed (first' :: second' :: rest') ∨
      Collide (messagesAbove (first :: second :: rest))
      (messagesAbove (first' :: second' :: rest')) := by
  rw [pairUp_eq, pairUp_eq, completed_map, completed_map] at same
  rcases eq_or_collision same with equal | found
  · rw [joined_eq_map, joined_eq_map, completed_map, completed_map] at equal
    rw [completed, completed, List.map_injective_iff.mpr node_injective equal]
    exact .inl rfl
  · obtain ⟨collision, found⟩ := Option.isSome_iff_exists.mp found
    obtain ⟨among, among'⟩ := mem_of_collision? found
    have inside := joined_subset (mem_of_mem_completed among)
    have inside' := joined_subset (mem_of_mem_completed among')
    exact .inr ⟨collision, inside, inside'⟩

/-- A single digest that is the root over several reaches the topmost node above them. -/
theorem reaches_of_root_eq {single : Digest} (same : root (first :: second :: rest) = single) :
    Reaches [single] (first :: second :: rest) := by
  have several : 2 ≤ (first :: second :: rest).length := by
    rw [List.length_cons, List.length_cons]
    exact Nat.le_add_left 2 _
  obtain ⟨message, above, hashed⟩ := exists_message_of_root several
  constructor
  · rw [clog_length, List.length_singleton, Nat.clog_one_right]
    exact Nat.succ_pos _
  · refine ⟨message, above, ?_⟩
    rw [← hashed, same]
    exact List.mem_singleton_self _

/-- Levels with one root are completed alike unless messages collide or one level reaches a
node of the other tree. The induction follows the levels of both trees from the leaves, as long
as both have a level above. -/
theorem completed_eq_of_root {level other : List Digest} (present : level ≠ [])
    (present' : other ≠ [])
    (same : root level = root other) :
    Collide (messagesAbove level) (messagesAbove other) ∨ Reaches level other ∨
      Reaches other level ∨
      completed level = completed other := by
  induction level using root.induct generalizing other with
  | case1 => exact absurd rfl present
  | case2 single =>
    obtain ⟨first', others, rfl⟩ := List.exists_cons_of_ne_nil present'
    cases others with
    | nil =>
      rw [root, root] at same
      rw [same]
      exact .inr (.inr (.inr rfl))
    | cons second' rest' =>
      rw [root] at same
      exact .inr (.inl (reaches_of_root_eq same.symm))
  | case3 first second rest inductionHypothesis =>
    obtain ⟨first', others, rfl⟩ := List.exists_cons_of_ne_nil present'
    cases others with
    | nil =>
      rw [root.eq_2] at same
      exact .inr (.inr (.inl (reaches_of_root_eq same)))
    | cons second' rest' =>
      rw [root, root] at same
      rcases inductionHypothesis (pairUp_ne_nil present) (pairUp_ne_nil present') same with
        collide | reaches | reaches | equal
      · exact .inl (collide.mono messagesAbove_pairUp_subset messagesAbove_pairUp_subset)
      · rcases reaches.descend with reaches | collide
        · exact .inr (.inl reaches)
        · exact .inl collide
      · rcases reaches.descend with reaches | collide
        · exact .inr (.inr (.inl reaches))
        · exact .inl collide.symm
      · rcases completed_eq_of_pairUp equal with equal | collide
        · exact .inr (.inr (.inr equal))
        · exact .inl collide

end Binding

section Records

variable {records others : List Value}

/-- A record of the lower of two trees has the bytes of a node of the higher one. -/
def Overlaps (records others : List Value) : Prop :=
  Nat.clog 2 records.length < Nat.clog 2 others.length ∧
    ∃ record ∈ records, Canonical.bytes record ∈ messagesAbove (hashes others)

/-- The canonical bytes of all records are among the messages that are hashed for their root: they
are what the leaves are hashed from. -/
theorem bytes_subset_messages (records : List Value) :
    records.map Canonical.bytes ⊆ messages records :=
  List.subset_append_left _ _

/-- The joined bytes of all levels are among the messages that are hashed for the root. -/
theorem messagesAbove_subset_messages (records : List Value) :
    messagesAbove (hashes records) ⊆ messages records :=
  List.subset_append_right _ _

/-- If a leaf of the lower tree is the digest of a node of the higher one, some record has the bytes
of the node itself, or record and node collide. -/
theorem overlaps_of_reaches (reaches : Reaches (hashes records) (hashes others)) :
    Overlaps records others ∨ Collide (messages records) (messages others) := by
  obtain ⟨lower, message, above, among⟩ := reaches
  rw [hashes, hashes, List.length_map, List.length_map] at lower
  obtain ⟨record, held, same⟩ := List.mem_map.mp among
  have hashed : Canonical.bytes record ∈ messages records :=
    bytes_subset_messages records (List.mem_map_of_mem held)
  rcases eq_or_collide hashed (messagesAbove_subset_messages others above) same with equal | collide
  · exact .inl ⟨lower, record, held, equal ▸ above⟩
  · exact .inr collide

/-- The root over some records, if there are any, is the digest of a message that is not empty. -/
theorem exists_message_of_rootOf (present : records ≠ []) :
    ∃ message ∈ messages records, message ≠ [] ∧ rootOf records = Digest.ofMessage message := by
  match records, present with
  | [record], _ =>
    refine ⟨Canonical.bytes record, bytes_subset_messages _ List.mem_cons_self,
      Canonical.bytes_ne_nil record, ?_⟩
    rw [rootOf, hashes, List.map_singleton, root]
    rfl
  | first :: second :: rest, _ =>
    have several : 2 ≤ (hashes (first :: second :: rest)).length := by simp [hashes]
    obtain ⟨message, above, same⟩ := exists_message_of_root several
    have inhabited : hashes (first :: second :: rest) ≠ [] := by simp [hashes]
    obtain ⟨children, rfl, -⟩ := exists_child_of_mem inhabited above
    refine ⟨node children, messagesAbove_subset_messages _ above, ?_, same⟩
    intro empty
    have length := congrArg List.length empty
    rw [node, List.length_append, Digest.length_bytes] at length
    simp at length

/-- The root over no record is that over some only if the empty message collides. -/
theorem collide_of_rootOf_nil (present : others ≠ []) (same : rootOf [] = rootOf others) :
    Collide (messages []) (messages others) := by
  obtain ⟨message, among, filled, hashed⟩ := exists_message_of_rootOf present
  have empty : [] ∈ messages [] := messagesAbove_subset_messages [] (by
    rw [hashes, List.map_nil, messagesAbove]
    exact List.mem_singleton_self _)
  have nothing : rootOf [] = Digest.ofMessage [] := by
    rw [rootOf, hashes, List.map_nil, root]
    rfl
  rw [nothing, hashed] at same
  rcases eq_or_collide empty among same with equal | collide
  · exact absurd equal.symm filled
  · exact collide

/-- Digests that are completed alike come from records that are, or two records collide. -/
theorem completed_bytes_eq (same : completed (hashes records) = completed (hashes others)) :
    completed (records.map Canonical.bytes) = completed (others.map Canonical.bytes) ∨
      Collide (messages records) (messages others) := by
  rw [hashes_eq, hashes_eq, completed_map Digest.ofMessage, completed_map Digest.ofMessage] at same
  rcases eq_or_collision same with equal | found
  · exact .inl equal
  · obtain ⟨collision, found⟩ := Option.isSome_iff_exists.mp found
    obtain ⟨among, among'⟩ := mem_of_collision? found
    exact .inr ⟨collision, bytes_subset_messages _ (mem_of_mem_completed among),
      bytes_subset_messages _ (mem_of_mem_completed among')⟩

/-- What one root says of two lists of records, unless messages collide or
a record passes for a node. -/
theorem completed_bytes_eq_of_rootOf (same : rootOf records = rootOf others) :
    Collide (messages records) (messages others) ∨ Overlaps records others ∨
      Overlaps others records ∨
      completed (records.map Canonical.bytes) = completed (others.map Canonical.bytes) := by
  by_cases present : records = []
  · by_cases present' : others = []
    · rw [present, present']
      exact .inr (.inr (.inr rfl))
    · subst present
      exact .inl (collide_of_rootOf_nil present' same)
  · by_cases present' : others = []
    · subst present'
      exact .inl (collide_of_rootOf_nil present same.symm).symm
    · have filled {records : List Value} (present : records ≠ []) : hashes records ≠ [] :=
        fun empty => present (List.map_eq_nil_iff.mp empty)
      rcases completed_eq_of_root (filled present) (filled present')
        same with collide | reaches | reaches | equal
      · exact .inl
          (collide.mono (messagesAbove_subset_messages _) (messagesAbove_subset_messages _))
      · rcases overlaps_of_reaches reaches with overlaps | collide
        · exact .inr (.inl overlaps)
        · exact .inl collide
      · rcases overlaps_of_reaches reaches with overlaps | collide
        · exact .inr (.inr (.inl overlaps))
        · exact .inl collide.symm
      · rcases completed_bytes_eq equal with equal | collide
        · exact .inr (.inr (.inr equal))
        · exact .inl collide

/-- Lists with one completion are a beginning of one another, and their trees are equally high. -/
theorem prefix_and_clog_of_completed {α : Type} {items others : List α}
    (same : completed items = completed others) :
    (items <+: others ∨ others <+: items) ∧ (items = [] ↔ others = []) ∧
      Nat.clog 2 items.length = Nat.clog 2 others.length := by
  have empty : items = [] ↔ others = [] := by
    rw [← completed_eq_nil_iff items, same, completed_eq_nil_iff]
  refine ⟨List.prefix_or_prefix_of_prefix (prefix_completed items)
    (same ▸ prefix_completed others), empty, ?_⟩
  by_cases present : items = []
  · rw [present, empty.mp present]
  · have lengths := congrArg List.length same
    rw [length_completed present, length_completed (mt empty.mpr present)] at lengths
    exact Nat.pow_right_injective (Nat.le_refl 2) lengths

/-- Whatever the numbers of records, two lists have one root exactly if writing out what odd levels
repeat makes them the same, byte by byte. Excepted are messages that collide, and records of the
lower tree that have the bytes of a node of the higher one. One of two lists with one root is then a
beginning of the other, and both trees have the same height. -/
theorem rootOf_eq_iff_completed (records others : List Value) :
    Collide (messages records) (messages others) ∨ Overlaps records others ∨
      Overlaps others records ∨
      ((rootOf records = rootOf others ↔
          completed (records.map Canonical.bytes) = completed (others.map Canonical.bytes)) ∧
        (rootOf records = rootOf others →
          (records.map Canonical.bytes <+: others.map Canonical.bytes ∨
            others.map Canonical.bytes <+: records.map Canonical.bytes) ∧
          (records = [] ↔ others = []) ∧
            Nat.clog 2 records.length = Nat.clog 2 others.length)) := by
  by_cases same : rootOf records = rootOf others
  · rcases completed_bytes_eq_of_rootOf same with collide | overlaps | overlaps | equal
    · exact .inl collide
    · exact .inr (.inl overlaps)
    · exact .inr (.inr (.inl overlaps))
    · have shape := prefix_and_clog_of_completed equal
      rw [List.map_eq_nil_iff, List.map_eq_nil_iff, List.length_map, List.length_map] at shape
      exact .inr (.inr (.inr ⟨iff_of_true same equal, fun _ => shape⟩))
  · refine .inr (.inr (.inr ⟨iff_of_false same ?_, fun equal => absurd equal same⟩))
    intro equal
    apply same
    rw [rootOf, rootOf, ← root_completed (hashes records), ← root_completed (hashes others),
      hashes_eq, hashes_eq, completed_map Digest.ofMessage, completed_map Digest.ofMessage, equal]

/-- Three records, and the same with the last one repeated, have one root, though all messages on
the way to it have digests of their own. -/
theorem rootOf_repeated :
    let records : List Value := [.text "a", .text "b", .text "c"]
    let others : List Value := records ++ [.text "c"]
    records.length ≠ others.length ∧ rootOf records = rootOf others ∧
      ¬ Collide (messages records ++ messages others) (messages records ++ messages others) := by
  intro records others
  refine ⟨by decide, ?_, ?_⟩
  · rw [rootOf, rootOf]
    show root [_, _, _] = root [_, _, _, _]
    rw [root, root, pairUp, pairUp, pairUp, pairUp, pairUp]
  · rintro ⟨⟨first, second, different, same⟩, among, among'⟩
    let a := Canonical.bytes (.text "a")
    let b := Canonical.bytes (.text "b")
    let c := Canonical.bytes (.text "c")
    let ab := node (Digest.ofMessage a, Digest.ofMessage b)
    let cc := node (Digest.ofMessage c, Digest.ofMessage c)
    let top := node (Digest.ofMessage ab, Digest.ofMessage cc)
    have apart : ([a, b, c, ab, cc, top].map Digest.ofMessage).Nodup := by decide +kernel
    have within : messages records ++ messages others ⊆ [a, b, c, ab, cc, top] := by
      simp only [messages, records, others, hashes, List.map, List.cons_append, List.nil_append,
        messagesAbove, joined, pairUp]
      show [a, b, c, ab, cc, top, a, b, c, c, ab, cc, top] ⊆ _
      simp only [List.cons_subset, List.mem_cons, true_or, or_true, and_true, List.nil_subset]
    exact different (List.inj_on_of_nodup_map apart (within among) (within among') same)

end Records

end LedgerIntake.Merkle
