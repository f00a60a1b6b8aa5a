import LedgerIntake.Merkle

/-!
# What a root binds

A root is computed from messages: the canonical bytes of each record, and for every node of the tree
the two digests below it, one behind the other. The trees over equally many records have the same
shape, so the messages of two roots stand in the same places. Going down from equal roots, level by
level, either the messages of a level are equal and the level below is too, or some place holds two
different messages with one digest. `collision?` finds such a place from the messages alone.

Trees over different numbers of records have different shapes; nothing is said here about their
roots.
-/

namespace LedgerIntake

open Json

/-- Two different messages with one digest. -/
structure Digest.Collision where
  first : Bytes
  second : Bytes
  different : first ≠ second
  same : Digest.ofMessage first = Digest.ofMessage second

namespace Merkle

/-- The messages whose digests are the level above a level. -/
def joined : List Digest → List Bytes
  | left :: right :: rest => (left.bytes ++ right.bytes) :: joined rest
  | [single] => [single.bytes ++ single.bytes]
  | [] => []

/-- The level above is made of the digests of the joined bytes below, in their order. -/
theorem pairUp_eq (level : List Digest) : pairUp level = (joined level).map Digest.ofMessage := by
  fun_induction joined level with
  | case1 left right rest inductionHypothesis => exact congrArg (List.cons _) inductionHypothesis
  | case2 single => rfl
  | case3 => rfl

/-- The messages that are hashed on the way from a level to its root, the lowest ones first. -/
def messagesAbove : List Digest → List Bytes
  | [] => [[]]
  | [_] => []
  | first :: second :: rest =>
    joined (first :: second :: rest) ++ messagesAbove (pairUp (first :: second :: rest))
termination_by level => level.length
decreasing_by
  rw [length_pairUp]
  simp only [List.length_cons]
  omega

/-- The messages that are hashed for the root over records. -/
def messages (records : List Value) : List Bytes :=
  records.map Canonical.bytes ++ messagesAbove (hashes records)

/-- The first place at which two lists hold different messages with one digest. -/
def collision? : List Bytes → List Bytes → Option Digest.Collision
  | message :: rest, other :: others =>
    if collides : message ≠ other ∧ Digest.ofMessage message = Digest.ofMessage other then
      some ⟨message, other, collides.1, collides.2⟩
    else collision? rest others
  | _, _ => none

section Collisions

variable {messages others : List Bytes}

/-- A collision that is found is one of messages that are there, one from each list. -/
theorem mem_of_collision? {collision : Digest.Collision}
    (found : collision? messages others = some collision) :
    collision.first ∈ messages ∧ collision.second ∈ others := by
  fun_induction collision? messages others with
  | case1 message rest other others collides =>
    cases found
    exact ⟨List.mem_cons_self, List.mem_cons_self⟩
  | case2 message rest other others clear inductionHypothesis =>
    obtain ⟨first, second⟩ := inductionHypothesis found
    exact ⟨List.mem_cons_of_mem _ first, List.mem_cons_of_mem _ second⟩
  | case3 => cases found

/-- Messages with the same digests are the same unless two of them collide. -/
theorem eq_or_collision (same : messages.map Digest.ofMessage = others.map Digest.ofMessage) :
    messages = others ∨ (collision? messages others).isSome := by
  induction messages generalizing others with
  | nil => exact .inl (List.map_eq_nil_iff.mp same.symm).symm
  | cons message rest inductionHypothesis =>
    cases others with
    | nil => cases same
    | cons other others =>
      obtain ⟨digest, digests⟩ := List.cons.inj same
      rw [collision?]
      by_cases equal : message = other
      · subst equal
        rw [dif_neg fun collides => collides.1 rfl]
        rcases inductionHypothesis digests with equal | found
        · exact .inl (congrArg _ equal)
        · exact .inr found
      · rw [dif_pos ⟨equal, digest⟩]
        exact .inr rfl

/-- A collision in front is found whatever follows, since messages are compared place by place. -/
theorem collision?_append_left (behind behind' : List Bytes)
    (found : (collision? messages others).isSome) :
    (collision? (messages ++ behind) (others ++ behind')).isSome := by
  fun_induction collision? messages others with
  | case1 message rest other others collides =>
    rw [List.cons_append, List.cons_append, collision?, dif_pos collides]
    rfl
  | case2 message rest other others clear inductionHypothesis =>
    rw [List.cons_append, List.cons_append, collision?, dif_neg clear]
    exact inductionHypothesis found
  | case3 => cases found

/-- Behind equally many messages some collision is found if one stands there. -/
theorem collision?_append_right {behind behind' : List Bytes}
    (length : messages.length = others.length)
    (found : (collision? behind behind').isSome) :
    (collision? (messages ++ behind) (others ++ behind')).isSome := by
  induction messages generalizing others with
  | nil =>
    rw [List.eq_nil_of_length_eq_zero length.symm]
    exact found
  | cons message rest inductionHypothesis =>
    cases others with
    | nil => cases length
    | cons other others =>
      rw [List.cons_append, List.cons_append, collision?]
      split
      · rfl
      · exact inductionHypothesis (Nat.succ.inj length)

end Collisions

/-- Where one digest ends and the next begins is settled by their length. -/
theorem digests_eq_of_append {left right left' right' : Digest}
    (same : left.bytes ++ right.bytes = left'.bytes ++ right'.bytes) :
    left = left' ∧ right = right' := by
  obtain ⟨lefts, rights⟩ := List.append_inj same (left.length_bytes.trans left'.length_bytes.symm)
  cases left
  cases right
  cases left'
  cases right'
  cases lefts
  cases rights
  exact ⟨rfl, rfl⟩

/-- The messages above a level tell the level, if its length is known. -/
theorem joined_injective {level other : List Digest} (length : level.length = other.length)
    (same : joined level = joined other) : level = other := by
  fun_induction joined level generalizing other with
  | case1 left right rest inductionHypothesis =>
    match other, length with
    | left' :: right' :: rest', length =>
      rw [joined] at same
      obtain ⟨message, others⟩ := List.cons.inj same
      obtain ⟨lefts, rights⟩ := digests_eq_of_append message
      have behind : rest.length = rest'.length := Nat.succ.inj (Nat.succ.inj length)
      rw [lefts, rights, inductionHypothesis behind others]
  | case2 single =>
    match other, length with
    | [single'], _ =>
      rw [joined] at same
      rw [(digests_eq_of_append (List.cons.inj same).1).1]
  | case3 => exact (List.eq_nil_of_length_eq_zero length.symm).symm

/-- Equally many digests with one root are the same unless messages collide on the way to it. The
induction follows the levels: what is known of a level is carried down to the one below. -/
theorem eq_or_collision_of_root {level other : List Digest} (length : level.length = other.length)
    (same : root level = root other) :
    level = other ∨ (collision? (messagesAbove level) (messagesAbove other)).isSome := by
  fun_induction root level generalizing other with
  | case1 => exact .inl (List.eq_nil_of_length_eq_zero length.symm).symm
  | case2 single =>
    match other, length with
    | [single'], _ =>
      rw [root] at same
      exact .inl (congrArg (fun digest => [digest]) same)
  | case3 first second rest inductionHypothesis =>
    match other, length with
    | first' :: second' :: rest', length =>
      rw [root] at same
      have upper : (pairUp (first :: second :: rest)).length
        = (pairUp (first' :: second' :: rest')).length := by
        rw [length_pairUp, length_pairUp, length]
      have lower : (joined (first :: second :: rest)).length
        = (joined (first' :: second' :: rest')).length := by
        rwa [pairUp_eq, pairUp_eq, List.length_map, List.length_map] at upper
      rw [messagesAbove, messagesAbove]
      rcases inductionHypothesis upper same with equal | found
      · rw [pairUp_eq, pairUp_eq] at equal
        rcases eq_or_collision equal with equal | found
        · exact .inl (joined_injective length equal)
        · exact .inr (collision?_append_left _ _ found)
      · exact .inr (collision?_append_right lower found)

/-- The digests of records are those of their canonical bytes, and nothing
else of a record is hashed. -/
theorem hashes_eq (records : List Value) :
    hashes records = (records.map Canonical.bytes).map Digest.ofMessage := by
  rw [hashes, List.map_map]
  rfl

/-- Equally many records with one root have the same canonical bytes unless messages collide. -/
theorem bytes_eq_or_collision_of_rootOf {records others : List Value}
    (length : records.length = others.length)
    (same : rootOf records = rootOf others) :
    records.map Canonical.bytes = others.map Canonical.bytes ∨
      (collision? (messages records) (messages others)).isSome := by
  have counted : (records.map Canonical.bytes).length = (others.map Canonical.bytes).length := by
    rw [List.length_map, List.length_map, length]
  have lengths : (hashes records).length = (hashes others).length := by
    rw [hashes, hashes, List.length_map, List.length_map, length]
  rcases eq_or_collision_of_root lengths same with equal | above
  · rw [hashes_eq, hashes_eq] at equal
    rcases eq_or_collision equal with equal | below
    · exact .inl equal
    · exact .inr (collision?_append_left _ _ below)
  · exact .inr (collision?_append_right counted above)

/-- Lists of equally many items have the same images exactly if the items do, one by one. -/
theorem map_eq_map_iff_getElem? {α β : Type} {image : α → β} {items others : List α}
    (length : items.length = others.length) :
    items.map image = others.map image ↔ ∀ (index : Nat)
    (item other : α), items[index]? = some item →
      others[index]? = some other → image item = image other := by
  constructor
  · intro same index item other found found'
    have place := congrArg (fun list => list[index]?) same
    simpa [found, found'] using place
  · intro same
    apply List.ext_getElem
    · rw [List.length_map, List.length_map, length]
    · intro index inside inside'
      rw [List.length_map] at inside inside'
      rw [List.getElem_map, List.getElem_map]
      exact same index _ _ (List.getElem?_eq_getElem inside) (List.getElem?_eq_getElem inside')

/-- Two lists of equally many records have the same root exactly if their records have the same
canonical bytes, one by one, unless two different messages among those that are hashed for the roots
have one digest. These are then found by comparing the messages place by place. -/
theorem rootOf_eq_iff_or_collision (records others : List Value)
    (length : records.length = others.length) :
    (∃ collision, collision? (messages records) (messages others) = some collision ∧
        collision.first ∈ messages records ∧ collision.second ∈ messages others) ∨
      (rootOf records = rootOf others ↔
        ∀ (index : Nat) (record other : Value), records[index]? = some record →
        others[index]? = some other → Canonical.bytes record = Canonical.bytes other) := by
  rw [← map_eq_map_iff_getElem? length]
  cases found : collision? (messages records) (messages others) with
  | some collision => exact .inl ⟨collision, rfl, mem_of_collision? found⟩
  | none =>
    right
    constructor
    · intro same
      rcases bytes_eq_or_collision_of_rootOf length same with equal | collides
      · exact equal
      · rw [found] at collides
        cases collides
    · intro same
      rw [rootOf, rootOf, hashes_eq, hashes_eq, same]

/-- Of three records the last two are swapped. Their root changes unless messages collide. -/
theorem rootOf_swapped :
    let records : List Value := [.text "a", .text "b", .text "c"]
    let others : List Value := [.text "a", .text "c", .text "b"]
    (∃ collision, collision? (messages records) (messages others) = some collision) ∨
      rootOf records ≠ rootOf others := by
  intro records others
  have different : Canonical.bytes (.text "b") ≠ Canonical.bytes (.text "c") := by decide
  rcases rootOf_eq_iff_or_collision records others rfl with ⟨collision, found, -⟩ | binds
  · exact .inl ⟨collision, found⟩
  · right
    intro same
    exact different (binds.mp same 1 (.text "b") (.text "c") rfl rfl)

end Merkle

end LedgerIntake
