import LedgerIntake.Json.Value

/-!
# Members of objects

Setting a key keeps the order of the members and touches no other key, so the members of a list of
pairs stand in order, and a key that stands once in the list has its value.
-/

namespace LedgerIntake.Json

/-- Inserting a key above all others puts it behind them, so members in order are
inserted without moving any. -/
theorem insert_of_forall_lt (members : Members) (key : String) (value : Value)
    (above : ∀ member ∈ members, member.1 < key) :
    members.insert key value = members ++ [(key, value)] := by
  induction members with
  | nil => rfl
  | cons member rest inductionHypothesis =>
    obtain ⟨other, old⟩ := member
    have before : other < key := above (other, old) List.mem_cons_self
    have notAfter : ¬key < other := String.lt_asymm before
    have different : key ≠ other := by
      rintro rfl
      exact String.lt_irrefl key before
    rw [Members.insert, if_neg notAfter, if_neg different,
      inductionHypothesis fun other among => above other (List.mem_cons_of_mem _ among),
        List.cons_append]

/-- Members in order stay as they are when they are inserted in turn,
behind those that were there. -/
theorem foldl_insert_of_sorted (earlier members : Members)
    (sorted : Members.Sorted (earlier ++ members)) :
    members.foldl (fun members member => Members.insert members member.1 member.2) earlier
      = earlier ++ members := by
  induction members generalizing earlier with
  | nil => exact (List.append_nil earlier).symm
  | cons member rest inductionHypothesis =>
    have above : ∀ other ∈ earlier, other.1 < member.1 := by
      intro other among
      exact (List.pairwise_append.mp sorted).2.2 other among member List.mem_cons_self
    have joined : earlier ++ member :: rest = (earlier ++ [member]) ++ rest := by simp
    rw [List.foldl_cons, insert_of_forall_lt earlier member.1 member.2 above, joined]
    rw [joined] at sorted
    exact inductionHypothesis (earlier ++ [member]) sorted

/-- Members in order are inserted as they stand. -/
theorem Members.ofList_of_sorted (members : Members) (sorted : Members.Sorted members) :
    Members.ofList members = members := by
  rw [Members.ofList, foldl_insert_of_sorted [] members sorted, List.nil_append]

namespace Members

/-- Of two keys that differ, one is less: keys are ordered in one line. -/
theorem lt_of_not_lt {key other : String} (notBefore : ¬key < other) (different : key ≠ other) :
    other < key := by
  by_cases after : other < key
  · exact after
  · exact absurd (String.le_antisymm (String.not_lt.mp after) (String.not_lt.mp notBefore))
      different

/-- The first of some pairs is looked at before the others. -/
theorem get?_cons (first : String) (old : Value) (rest : Members) (key : String) :
    get? ((first, old) :: rest) key = if first = key then some old else get? rest key := by
  unfold get?
  rw [List.find?_cons]
  by_cases same : first = key
  · simp [same]
  · simp [same]

/-- A value that is found is that of a member with the key, the first one that has it. -/
theorem mem_of_get? {members : Members} {key : String} {value : Value}
    (found : members.get? key = some value) :
    (key, value) ∈ members := by
  induction members with
  | nil => cases found
  | cons member rest inductionHypothesis =>
    obtain ⟨first, old⟩ := member
    rw [get?_cons] at found
    split at found
    · next same =>
      cases found
      rw [same]
      exact List.mem_cons_self
    · exact List.mem_cons_of_mem _ (inductionHypothesis found)

/-- In an object that is in order, every member is found under its key. -/
theorem get?_of_mem {members : Members} (sorted : Sorted members) {member : String × Value}
    (among : member ∈ members) : members.get? member.1 = some member.2 := by
  induction members with
  | nil => cases among
  | cons first rest inductionHypothesis =>
    obtain ⟨above, later⟩ := List.pairwise_cons.mp sorted
    obtain ⟨key, value⟩ := first
    rw [get?_cons]
    rcases List.mem_cons.mp among with rfl | behind
    · exact if_pos rfl
    · have apart : key ≠ member.1 := String.ne_of_lt (above member behind)
      rw [if_neg apart]
      exact inductionHypothesis later behind

/-- Objects in order that have the same keys list them alike, since an order leaves no choice. -/
theorem keys_eq_of_mem_iff {members others : Members} (sorted : Sorted members)
    (sorted' : Sorted others)
    (same : ∀ key, key ∈ members.keys ↔ key ∈ others.keys) : members.keys = others.keys := by
  have ordered (members : Members) (sorted : Sorted members) :
      members.keys.Pairwise fun left right => left < right :=
    List.pairwise_map.mpr sorted
  have distinct (members : Members) (sorted : Sorted members) : members.keys.Nodup := by
    refine (ordered members sorted).imp ?_
    rintro left right less rfl
    exact String.lt_irrefl left less
  refine List.Perm.eq_of_pairwise ?_ (ordered members sorted) (ordered others sorted')
    ((List.perm_ext_iff_of_nodup (distinct members sorted) (distinct others sorted')).mpr same)
  intro left right _ _ less greater
  exact absurd greater (String.lt_asymm less)

section Insert

variable (members : Members) (key : String) (value : Value)

/-- The keys after setting one are that key and the former ones. The induction is on
the members that are passed. -/
theorem mem_keys_insert (other : String) :
    other ∈ (members.insert key value).keys ↔ other = key ∨ other ∈ members.keys := by
  induction members with
  | nil => simp [insert, keys]
  | cons member rest inductionHypothesis =>
    obtain ⟨first, old⟩ := member
    rw [insert]
    split
    · simp [keys]
    · split
      · next same =>
        subst same
        simp [keys]
      · simp only [keys, List.map_cons, List.mem_cons] at inductionHypothesis ⊢
        rw [inductionHypothesis]
        constructor
        · rintro (same | same | among)
          · exact .inr (.inl same)
          · exact .inl same
          · exact .inr (.inr among)
        · rintro (same | same | among)
          · exact .inr (.inl same)
          · exact .inl same
          · exact .inr (.inr among)

/-- Setting a key keeps the order: the key is put in front of the first one above it,
or takes the place of itself. -/
theorem sorted_insert (sorted : Sorted members) : Sorted (members.insert key value) := by
  induction members with
  | nil => exact List.pairwise_singleton _ _
  | cons member rest inductionHypothesis =>
    obtain ⟨first, old⟩ := member
    obtain ⟨above, ordered⟩ := List.pairwise_cons.mp sorted
    rw [insert]
    split
    · next before =>
      apply List.pairwise_cons.mpr
      refine ⟨?_, sorted⟩
      intro other among
      rcases List.mem_cons.mp among with rfl | among
      · exact before
      · exact String.lt_trans before (above other among)
    · next notBefore =>
      split
      · next same =>
        subst same
        exact List.pairwise_cons.mpr ⟨above, ordered⟩
      · next different =>
        apply List.pairwise_cons.mpr
        refine ⟨?_, inductionHypothesis ordered⟩
        intro other among
        have present : other.1 ∈ (insert rest key value).keys := List.mem_map_of_mem among
        rcases (mem_keys_insert rest key value other.1).mp present with same | present
        · rw [same]
          exact lt_of_not_lt notBefore different
        · obtain ⟨member, among, same⟩ := List.mem_map.mp present
          rw [← same]
          exact above member among

/-- A key that was set has its value, and no other key is touched. This is all that
later proofs need of setting. -/
theorem get?_insert (other : String) :
    (members.insert key value).get? other = if key = other then some value
      else members.get? other := by
  induction members with
  | nil =>
    rw [insert, get?_cons]
  | cons member rest inductionHypothesis =>
    obtain ⟨first, old⟩ := member
    rw [insert]
    split
    · rw [get?_cons]
    · split
      · next same =>
        subst same
        rw [get?_cons, get?_cons]
        split <;> rfl
      · next different =>
        rw [get?_cons, inductionHypothesis, get?_cons]
        by_cases found : first = other
        · have apart : key ≠ other := fun equal => different (equal.trans found.symm)
          rw [if_pos found, if_neg apart, if_pos found]
        · rw [if_neg found, if_neg found]

/-- A new key stands beside the former members, somewhere among them. -/
theorem perm_insert (fresh : key ∉ members.keys) :
    (members.insert key value).Perm ((key, value) :: members) := by
  induction members with
  | nil => exact .refl _
  | cons member rest inductionHypothesis =>
    obtain ⟨first, old⟩ := member
    obtain ⟨different, others⟩ := not_or.mp (fun among => fresh (List.mem_cons.mpr among))
    rw [insert, if_neg different]
    split
    · exact .refl _
    · exact ((inductionHypothesis others).cons _).trans (.swap _ _ _)

end Insert

section List

variable (pairs : List (String × Value))

/-- The members of a list of pairs stand in order, in whatever order the pairs came. -/
theorem sorted_ofList : Sorted (ofList pairs) := by
  have inserted (earlier : Members) (sorted : Sorted earlier) : Sorted
      (pairs.foldl (fun members member => Members.insert members member.1 member.2) earlier) := by
    induction pairs generalizing earlier with
    | nil => exact sorted
    | cons pair rest inductionHypothesis =>
      exact inductionHypothesis _ (sorted_insert earlier pair.1 pair.2 sorted)
  exact inserted [] List.Pairwise.nil

/-- The keys of the members are the keys of the pairs, each of them once. -/
theorem mem_keys_ofList (key : String) : key ∈ (ofList pairs).keys ↔ key ∈ pairs.map Prod.fst := by
  have inserted (earlier : Members) :
      key ∈ Members.keys
        (pairs.foldl (fun members member => Members.insert members member.1 member.2) earlier)
        ↔ key ∈ pairs.map Prod.fst ∨ key ∈ earlier.keys := by
    induction pairs generalizing earlier with
    | nil => simp
    | cons pair rest inductionHypothesis =>
      rw [List.foldl_cons, inductionHypothesis, mem_keys_insert, List.map_cons, List.mem_cons]
      constructor
      · rintro (among | same | among)
        · exact .inl (.inr among)
        · exact .inl (.inl same)
        · exact .inr among
      · rintro ((same | among) | among)
        · exact .inr (.inl same)
        · exact .inl among
        · exact .inr (.inr among)
  rw [ofList, inserted]
  simp [keys]

/-- Pairs with different keys are the members, put into order. -/
theorem perm_ofList (different : (pairs.map Prod.fst).Nodup) : (ofList pairs).Perm pairs := by
  have inserted (earlier : Members) (apart : ∀ key ∈ pairs.map Prod.fst, key ∉ earlier.keys) :
      List.Perm
        (pairs.foldl (fun members member => Members.insert members member.1 member.2) earlier)
        (pairs ++ earlier) := by
    induction pairs generalizing earlier with
    | nil => exact .refl _
    | cons pair rest inductionHypothesis =>
      obtain ⟨fresh, different⟩ := List.nodup_cons.mp different
      have later := inductionHypothesis different (earlier.insert pair.1 pair.2) (by
        intro key among present
        rcases (mem_keys_insert earlier pair.1 pair.2 key).mp present with rfl | present
        · exact fresh among
        · exact apart key (List.mem_cons_of_mem _ among) present)
      have added := perm_insert earlier pair.1 pair.2 (apart pair.1 List.mem_cons_self)
      exact later.trans ((added.append_left rest).trans List.perm_middle)
  have whole := inserted [] fun _ _ => List.not_mem_nil
  rwa [List.append_nil] at whole

/-- A key that stands once in the list has the value that stands beside it. -/
theorem get?_ofList {key : String} {value : Value} (different : (pairs.map Prod.fst).Nodup)
    (member : (key, value) ∈ pairs) : (ofList pairs).get? key = some value := by
  have kept (pairs : List (String × Value)) (earlier : Members)
    (absent : key ∉ pairs.map Prod.fst) :
      Members.get?
        (pairs.foldl (fun members member => Members.insert members member.1 member.2) earlier) key
        = earlier.get? key := by
    induction pairs generalizing earlier with
    | nil => rfl
    | cons pair rest inductionHypothesis =>
      rw [List.map_cons, List.mem_cons, not_or] at absent
      rw [List.foldl_cons, inductionHypothesis _ absent.2, get?_insert,
        if_neg fun same => absent.1 same.symm]
  have inserted (earlier : Members) :
      Members.get?
        (pairs.foldl (fun members member => Members.insert members member.1 member.2) earlier) key
        = some value := by
    induction pairs generalizing earlier with
    | nil => cases member
    | cons pair rest inductionHypothesis =>
      obtain ⟨fresh, different⟩ := List.nodup_cons.mp different
      rw [List.foldl_cons]
      rcases List.mem_cons.mp member with rfl | member
      · rw [kept rest _ fresh, get?_insert, if_pos rfl]
      · exact inductionHypothesis different member _
  exact inserted []

end List

end Members

end LedgerIntake.Json
