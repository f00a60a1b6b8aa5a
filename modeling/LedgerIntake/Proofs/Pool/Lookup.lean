import Mathlib.Data.List.Nodup
import LedgerIntake.Proofs.Pool.Runs

/-!
# Looking up numbers

The entries of a pool stand in the order of their numbers and without a gap. So whether a number is
closed in on by halves, computed from the oldest entry, or searched for from the front, the same
entry is found: the one that bears the number, if there is one.

The history of the pool tells which entries these are. Numbers are given once, and what is removed
was admitted before. An entry is therefore found exactly if an admission gave its record the number
and no later drain or clear took it out.
-/

namespace LedgerIntake.Pool

section Places

/-- Later entries have greater numbers. -/
def Ascending (entries : List PoolEntry) : Prop :=
  entries.Pairwise fun earlier later => earlier.sequence < later.sequence

variable {entries : List PoolEntry} {sequence place : Nat} {entry : PoolEntry}

/-- Consecutive numbers ascend, which is all that halving needs. -/
theorem ascending_of_consecutive {first count : Nat}
    (consecutive : entries.map PoolEntry.sequence = List.range' first count) : Ascending entries :=
  List.pairwise_map.mp
    (consecutive ▸ List.pairwise_lt_range' : (entries.map PoolEntry.sequence).Pairwise (· < ·))

/-- Entries that ascend stand at places in the order of their numbers. -/
theorem Ascending.lt_of_lt (ascending : Ascending entries) {place' : Nat} {entry' : PoolEntry}
    (here : entries[place]? = some entry) (there : entries[place']? = some entry')
    (before : place < place') :
    entry.sequence < entry'.sequence := by
  obtain ⟨inside, rfl⟩ := List.getElem?_eq_some_iff.mp here
  obtain ⟨inside', rfl⟩ := List.getElem?_eq_some_iff.mp there
  exact List.pairwise_iff_getElem.mp ascending place place' inside inside' before

/-- So the number of an entry tells on which side of another one it stands. -/
theorem Ascending.compare (ascending : Ascending entries) {place' : Nat} {entry' : PoolEntry}
    (here : entries[place]? = some entry) (there : entries[place']? = some entry') :
    place < place' ∧ entry.sequence < entry'.sequence ∨ place = place' ∧ entry = entry'
      ∨ place' < place ∧ entry'.sequence < entry.sequence := by
  rcases Nat.lt_trichotomy place place' with before | rfl | behind
  · exact .inl ⟨before, ascending.lt_of_lt here there before⟩
  · exact .inr (.inl ⟨rfl, Option.some.inj (here.symm.trans there)⟩)
  · exact .inr (.inr ⟨behind, ascending.lt_of_lt there here behind⟩)

/-- What is first behind a place stands there, so the middle of a part
has its place in the whole. -/
theorem getElem?_of_drop {middle : PoolEntry} {behind : List PoolEntry}
    (split : entries.drop place = middle :: behind) : entries[place]? = some middle := by
  rw [← List.head?_drop, split, List.head?_cons]

/-- Closing in by halves finds the place of the entry that bears the number, since the half that is
left out holds no entry that bears it. -/
theorem search_eq_some_iff (ascending : Ascending entries) :
    search entries sequence = some place ↔ ∃ entry, entries[place]? = some entry ∧
      entry.sequence = sequence := by
  fun_induction search entries sequence generalizing place with
  | case1 entries split =>
    have none : entries = [] := by
      have lengths := congrArg List.length split
      rw [List.length_drop, List.length_nil] at lengths
      exact List.eq_nil_of_length_eq_zero (by omega)
    simp [none]
  | case2 entries middle behind split below inductionHypothesis =>
    have half := getElem?_of_drop split
    rw [inductionHypothesis ascending.take]
    constructor
    · rintro ⟨entry, found, bears⟩
      rw [List.getElem?_take, Option.ite_none_right_eq_some] at found
      exact ⟨entry, found.2, bears⟩
    · rintro ⟨entry, found, bears⟩
      rcases ascending.compare found half with ⟨front, -⟩ | ⟨-, rfl⟩ | ⟨-, greater⟩
      · exact ⟨entry, (List.getElem?_take_of_lt front).trans found, bears⟩
      · omega
      · omega
  | case3 entries middle behind split _ above inductionHypothesis =>
    have half := getElem?_of_drop split
    have rest : behind = entries.drop (entries.length / 2 + 1) := by
      rw [← List.tail_drop, split, List.tail_cons]
    rw [Option.map_eq_some_iff]
    simp only [inductionHypothesis (rest ▸ ascending.drop)]
    rw [rest]
    simp only [List.getElem?_drop]
    constructor
    · rintro ⟨offset, ⟨entry, found, bears⟩, rfl⟩
      exact ⟨entry, found, bears⟩
    · rintro ⟨entry, found, bears⟩
      rcases ascending.compare found half with ⟨-, smaller⟩ | ⟨-, rfl⟩ | ⟨back, -⟩
      · omega
      · omega
      · have same : entries.length / 2 + 1 + (place - (entries.length / 2 + 1)) = place := by omega
        exact ⟨place - (entries.length / 2 + 1), ⟨entry, same.symm ▸ found, bears⟩, same⟩
  | case4 entries middle behind split notBelow notAbove =>
    have half := getElem?_of_drop split
    constructor
    · rintro ⟨rfl⟩
      exact ⟨middle, half, by omega⟩
    · rintro ⟨entry, found, bears⟩
      rcases ascending.compare found half with ⟨-, smaller⟩ | ⟨rfl, -⟩ | ⟨-, greater⟩
      · omega
      · rfl
      · omega

/-- A lookup finds the entry that bears the number, and finds nothing if there is none. -/
theorem get?_eq_some_iff {pool : Pool} (ascending : Ascending pool.entries) :
    pool.get? sequence = some entry ↔ entry ∈ pool.entries ∧ entry.sequence = sequence := by
  rw [get?, Option.bind_eq_some_iff]
  constructor
  · rintro ⟨place, found, there⟩
    obtain ⟨bearer, held, bears⟩ := (search_eq_some_iff ascending).mp found
    have same : entry = bearer := Option.some.inj (there.symm.trans held)
    exact ⟨List.mem_of_getElem? there, same ▸ bears⟩
  · rintro ⟨among, bears⟩
    obtain ⟨place, there⟩ := List.mem_iff_getElem?.mp among
    exact ⟨place, (search_eq_some_iff ascending).mpr ⟨entry, there, bears⟩, there⟩

/-- A number is contained where some entry bears it, by the same search. -/
theorem contains_iff {pool : Pool} (ascending : Ascending pool.entries) :
    pool.contains sequence = true ↔ ∃ entry ∈ pool.entries, entry.sequence = sequence := by
  rw [contains, Option.isSome_iff_exists]
  simp only [search_eq_some_iff ascending]
  constructor
  · rintro ⟨place, entry, there, bears⟩
    exact ⟨entry, List.mem_of_getElem? there, bears⟩
  · rintro ⟨entry, among, bears⟩
    obtain ⟨place, there⟩ := List.mem_iff_getElem?.mp among
    exact ⟨place, entry, there, bears⟩

/-- A search from the front finds the entry that bears the number,
since no two entries share one. -/
theorem find?_eq_some_iff (ascending : Ascending entries) :
    entries.find? (fun entry => entry.sequence = sequence) = some entry
      ↔ entry ∈ entries ∧ entry.sequence = sequence := by
  rw [List.find?_eq_some_iff_append]
  constructor
  · rintro ⟨bears, front, behind, rfl, -⟩
    exact ⟨List.mem_append_right _ List.mem_cons_self, of_decide_eq_true bears⟩
  · rintro ⟨among, bears⟩
    obtain ⟨front, behind, rfl⟩ := List.append_of_mem among
    refine ⟨decide_eq_true bears, front, behind, rfl, fun other before => ?_⟩
    have smaller : other.sequence < entry.sequence :=
      (List.pairwise_append.mp ascending).2.2 other before entry List.mem_cons_self
    rw [decide_eq_false (by omega), Bool.not_false]

/-- The entry as far behind the oldest one as its number is, if that entry bears the number. -/
def atDistance? (entries : List PoolEntry) (sequence : Nat) : Option PoolEntry :=
  match entries with
  | [] => none
  | oldest :: _ =>
    (entries[sequence - oldest.sequence]?).filter fun entry => entry.sequence = sequence

/-- Where numbers are consecutive, that is the entry that bears the number. -/
theorem atDistance?_eq_some_iff {first count : Nat}
    (consecutive : entries.map PoolEntry.sequence = List.range' first count) :
    atDistance? entries sequence = some entry ↔ entry ∈ entries ∧ entry.sequence = sequence := by
  have number (place : Nat) (other : PoolEntry) (found : entries[place]? = some other) :
      other.sequence = first + place := by
    have same := congrArg (·[place]?) consecutive
    simp only [List.getElem?_map, found, Option.map_some] at same
    obtain ⟨inside, known⟩ := List.getElem?_eq_some_iff.mp same.symm
    rw [← known, List.getElem_range', Nat.one_mul]
  cases entries with
  | nil => simp [atDistance?]
  | cons oldest rest =>
    have least := number 0 oldest rfl
    rw [atDistance?, Option.filter_eq_some_iff]
    constructor
    · exact fun ⟨found, bears⟩ => ⟨List.mem_of_getElem? found, of_decide_eq_true bears⟩
    · rintro ⟨among, bears⟩
      obtain ⟨place, found⟩ := List.mem_iff_getElem?.mp among
      have known := number place entry found
      have here : sequence - oldest.sequence = place := by omega
      rw [here]
      exact ⟨found, decide_eq_true bears⟩

end Places

section History

variable {Caller : Type} {pool start final : Pool} {turns : List (Turn Caller)}

/-- A call that gives a number takes nothing out, so an entry is never removed
by the call that brought it. -/
theorem Event.removed_of_admitted {event : Event Caller} {entry : PoolEntry}
    (given : entry ∈ event.admitted) :
    event.removed = [] := by
  obtain ⟨⟨caller, call⟩, before, reply⟩ := event
  cases call with
  | admitOne | admitBatch => rfl
  | drain | peek | snapshot | get | contains | clear | stats => cases given

/-- The events of a run, cut anywhere, are those of two runs, the second
from where the first ended. -/
theorem moves_split {front back : List (Event Caller)} (split : pool.events turns = front ++ back) :
    ∃ middle, Moves pool front middle ∧ Moves middle back (pool.after turns) := by
  induction front generalizing pool turns with
  | nil =>
    rw [List.nil_append] at split
    exact ⟨pool, .refl pool, split ▸ moves_events pool turns⟩
  | cons event front inductionHypothesis =>
    cases turns with
    | nil => cases split
    | cons turn rest =>
      obtain ⟨rfl, others⟩ := List.cons.inj split
      obtain ⟨middle, before, behind⟩ := inductionHypothesis others
      exact ⟨middle, (moves_perform pool turn).trans before, behind⟩

/-- Entries that were given their numbers in one run are told apart by them. -/
theorem Moves.nodup {events : List (Event Caller)} (moves : Moves start events final) :
    ((events.flatMap Event.admitted).map PoolEntry.sequence).Nodup :=
  moves.numbers ▸ List.nodup_range'

/-- An admission gave an entry its number, and no call that followed took that number out. -/
def Remains (events : List (Event Caller)) (entry : PoolEntry) : Prop :=
  ∃ earlier event later, events = earlier ++ event :: later ∧ entry ∈ event.admitted ∧
    ∀ taken ∈ later.flatMap Event.removed, taken.sequence ≠ entry.sequence

/-- What waits in a pool that began empty is what remains of what was admitted: numbers are
given once, so nothing returns. -/
theorem mem_entries_iff (empty : pool.entries = []) {entry : PoolEntry} :
    entry ∈ (pool.after turns).entries ↔ Remains (pool.events turns) entry := by
  have moves := moves_events pool turns
  have conserved := moves.entries
  rw [empty, List.nil_append] at conserved
  have different := moves.nodup
  constructor
  · intro waits
    have given : entry ∈ (pool.events turns).flatMap Event.admitted :=
      conserved ▸ List.mem_append_right _ waits
    obtain ⟨event, member, admitted⟩ := List.mem_flatMap.mp given
    obtain ⟨earlier, later, split⟩ := List.append_of_mem member
    refine ⟨earlier, event, later, split, admitted, fun taken among same => ?_⟩
    have removed : taken ∈ (pool.events turns).flatMap Event.removed := by
      rw [split, List.flatMap_append, List.flatMap_cons]
      exact List.mem_append_right _ (List.mem_append_right _ among)
    rw [conserved, List.map_append] at different
    exact (List.nodup_append.mp different).2.2 _ (List.mem_map_of_mem removed)
      _ (List.mem_map_of_mem waits) same
  · rintro ⟨earlier, event, later, split, admitted, kept⟩
    have given : entry ∈ (pool.events turns).flatMap Event.admitted := by
      rw [split, List.flatMap_append, List.flatMap_cons]
      exact List.mem_append_right _ (List.mem_append_left _ admitted)
    rw [conserved] at given
    refine (List.mem_append.mp given).resolve_left fun taken => ?_
    rw [split, List.flatMap_append, List.flatMap_cons, Event.removed_of_admitted admitted,
      List.nil_append] at taken
    rcases List.mem_append.mp taken with before | behind
    · -- What the calls in front took out they had also admitted, and no number is given twice.
      obtain ⟨middle, front, -⟩ := moves_split split
      have returned := front.entries
      rw [empty, List.nil_append] at returned
      have known : entry ∈ earlier.flatMap Event.admitted :=
        returned ▸ List.mem_append_left _ before
      rw [split, List.flatMap_append, List.flatMap_cons, List.map_append,
        List.map_append] at different
      exact (List.nodup_append.mp different).2.2 _ (List.mem_map_of_mem known) _
        (List.mem_append_left _ (List.mem_map_of_mem admitted)) rfl
    · exact kept entry behind rfl

/-- What a pool knows of a number, whichever way it is looked up. -/
structure Located (events : List (Event Caller)) (pool : Pool) (sequence : Nat) : Prop where
  /-- The entry that is found bears the number, was given it for its record and has not been taken
  out since; every such entry is found. -/
  found : ∀ entry, pool.get? sequence = some entry ↔ entry.sequence = sequence ∧
    Remains events entry
  /-- One record at most was ever given the number. -/
  single : ∀ entry ∈ events.flatMap Event.admitted, ∀ other ∈ events.flatMap Event.admitted,
    entry.sequence = sequence → other.sequence = sequence → entry = other
  scanned : pool.get? sequence = pool.snapshot.find? fun entry => entry.sequence = sequence
  computed : pool.get? sequence = atDistance? pool.snapshot sequence
  contained : pool.contains sequence = (pool.get? sequence).isSome ∧
    pool.contains sequence = pool.snapshot.any fun entry => entry.sequence = sequence

/-- A pool of any capacity from one is created, and after any turns every number is found where the
history of the pool tells. Whatever the turns were, the numbers that wait are consecutive, so that
each way of looking finds the one entry that bears the number. Halving comes down to the numbers
standing in ascending order, and counting from the first entry to their being consecutive. -/
theorem create_locates (Caller : Type) (capacity : Nat) (positive : 0 < capacity) :
    ∃ pool, create capacity = .ok pool ∧ ∀ (turns : List (Turn Caller)) (sequence : Nat),
      Located (pool.events turns) (pool.after turns) sequence := by
  refine ⟨_, create_of_pos capacity positive, ?_⟩
  intro turns sequence
  have moves := moves_events ⟨capacity, [], 1, 0, 0⟩ turns
  have consecutive := (accounts_of_moves moves).held.2
  have ascending := ascending_of_consecutive consecutive
  have scanned : (after ⟨capacity, [], 1, 0, 0⟩ turns).get? sequence
      = (after ⟨capacity, [], 1, 0, 0⟩ turns).snapshot.find? fun entry =>
        entry.sequence = sequence :=
    Option.ext fun entry => (get?_eq_some_iff ascending).trans (find?_eq_some_iff ascending).symm
  have contained : (after ⟨capacity, [], 1, 0, 0⟩ turns).contains sequence
      = (after ⟨capacity, [], 1, 0, 0⟩ turns).snapshot.any fun entry =>
        entry.sequence = sequence := by
    rw [Bool.eq_iff_iff, contains_iff ascending, List.any_eq_true]
    simp only [decide_eq_true_eq, snapshot]
  constructor
  case found =>
    intro entry
    rw [get?_eq_some_iff ascending, mem_entries_iff rfl, and_comm]
  case single =>
    intro entry given other given' bears bears'
    exact List.inj_on_of_nodup_map moves.nodup given given' (bears.trans bears'.symm)
  case scanned => exact scanned
  case computed =>
    exact Option.ext fun entry =>
      (get?_eq_some_iff ascending).trans (atDistance?_eq_some_iff consecutive).symm
  case contained => exact ⟨by rw [contained, scanned, List.isSome_find?], contained⟩

/-- Of three numbers that were given the one that waits is found; the drained and the cleared one
are missed, and so are numbers that were not given. -/
theorem create_locates_crossed : ∃ pool, create 2 = .ok pool ∧
    (∀ sequence, Located (pool.events crossedTurns) (pool.after crossedTurns) sequence) ∧
      (pool.after crossedTurns).get? 3 = some ⟨3, leastRecord⟩ ∧
        ∀ sequence ∈ [0, 1, 2, 4], (pool.after crossedTurns).get? sequence = none := by
  obtain ⟨pool, created, located⟩ := create_locates Bool 2 (by decide)
  refine ⟨pool, created, located crossedTurns, ?_⟩
  cases created
  refine ⟨(located crossedTurns 3).scanned, ?_⟩
  intro sequence among
  rw [(located crossedTurns sequence).scanned]
  simp only [List.mem_cons, List.not_mem_nil, or_false] at among
  rcases among with rfl | rfl | rfl | rfl <;> rfl

end History

end LedgerIntake.Pool
