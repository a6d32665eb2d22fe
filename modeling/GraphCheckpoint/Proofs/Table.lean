import GraphCheckpoint.Table

/-!
Contract: what ordered tables and sets of ids determine.

Owns:
- the entries and the look-ups that every operation leaves;
- the order, which every operation keeps;
- an ordered table is determined by its look-ups, and is the table of its own entries.

Does not own: what is stored under a key.
-/

namespace GraphCheckpoint

private theorem lt_of_not_before {left right : String} (differs : left ≠ right)
    (notBefore : ¬ left < right) : right < left := by
  by_cases before : right < left
  · exact before
  · exact absurd (String.le_antisymm (String.not_lt.mp before) (String.not_lt.mp notBefore)) differs

private theorem ne_of_before {left right : String} (before : left < right) : left ≠ right := by
  intro same
  subst same
  exact String.lt_irrefl left before

namespace Table

variable {α β : Type}

/-! ## Look-ups and entries -/

theorem ordered_cons {entry : String × α} {rest : Table α} :
    Ordered (entry :: rest) ↔ (∀ other ∈ rest, entry.1 < other.1) ∧ Ordered rest :=
  List.pairwise_cons

theorem Ordered.nodup_keys {table : Table α} (ordered : Ordered table) : table.keys.Nodup :=
  List.pairwise_map.mpr (ordered.imp fun before => ne_of_before before)

theorem get?_eq_none {key : String} {table : Table α}
    (absent : ∀ entry ∈ table, entry.1 ≠ key) : table.get? key = none := by
  induction table with
  | nil => rfl
  | cons entry rest inductionHypothesis =>
      rw [get?, if_neg (absent entry (by simp))]
      exact inductionHypothesis fun other member => absent other (by simp [member])

theorem mem_of_get? {key : String} {value : α} {table : Table α}
    (found : table.get? key = some value) : (key, value) ∈ table := by
  induction table with
  | nil => cases found
  | cons entry rest inductionHypothesis =>
      obtain ⟨candidate, stored⟩ := entry
      rw [get?] at found
      split at found
      · rename_i same
        cases found
        simp [same]
      · exact List.mem_cons_of_mem _ (inductionHypothesis found)

theorem get?_of_mem {key : String} {value : α} {table : Table α} (ordered : Ordered table)
    (member : (key, value) ∈ table) : table.get? key = some value := by
  induction table with
  | nil => cases member
  | cons entry rest inductionHypothesis =>
      obtain ⟨first, restOrdered⟩ := ordered_cons.mp ordered
      rcases List.mem_cons.mp member with same | later
      · cases same
        simp [get?]
      · rw [get?, if_neg (ne_of_before (first _ later))]
        exact inductionHypothesis restOrdered later

theorem mem_keys_iff {key : String} {table : Table α} :
    key ∈ table.keys ↔ (table.get? key).isSome := by
  constructor
  · intro member
    cases found : table.get? key with
    | some value => rfl
    | none =>
        obtain ⟨entry, entryMember, same⟩ := List.mem_map.mp member
        induction table with
        | nil => cases entryMember
        | cons head rest inductionHypothesis =>
            obtain ⟨candidate, value⟩ := head
            rw [get?] at found
            split at found
            · cases found
            · rename_i differs
              rcases List.mem_cons.mp entryMember with first | later
              · subst first
                exact absurd same differs
              · exact inductionHypothesis (List.mem_map.mpr ⟨entry, later, same⟩) found later
  · intro found
    obtain ⟨value, isValue⟩ := Option.isSome_iff_exists.mp found
    exact List.mem_map.mpr ⟨_, mem_of_get? isValue, rfl⟩

theorem get?_insert (key other : String) (value : α) (table : Table α) :
    (table.insert key value).get? other = if other = key then some value else table.get? other := by
  by_cases same : other = key
  · subst same
    rw [if_pos rfl, get?_insert_self]
  · rw [if_neg same, get?_insert_of_ne same]

/-- What stands in a table once a new key has a value. -/
theorem get?_insert_of_none {key other : String} {found : α} {table : Table α}
    (isNew : table.get? key = none) (value : α) :
    (table.insert key value).get? other = some found ↔
      (other = key ∧ found = value) ∨ table.get? other = some found := by
  rw [get?_insert]
  split
  · rename_i same
    rw [same, isNew]
    simp [eq_comm]
  · rename_i differs
    simp [differs]

theorem mem_insert {key : String} {value : α} {table : Table α} {entry : String × α}
    (member : entry ∈ table.insert key value) : entry = (key, value) ∨ entry ∈ table := by
  induction table with
  | nil => simpa [insert] using member
  | cons head rest inductionHypothesis =>
      obtain ⟨candidate, old⟩ := head
      rw [insert] at member
      split at member
      · rcases List.mem_cons.mp member with first | later
        · exact Or.inl first
        · exact Or.inr (List.mem_cons_of_mem _ later)
      · split at member
        · exact List.mem_cons.mp member
        · rcases List.mem_cons.mp member with first | later
          · exact Or.inr (by simp [first])
          · exact (inductionHypothesis later).imp_right (List.mem_cons_of_mem _)

theorem Ordered.insert {table : Table α} (ordered : Ordered table) (key : String) (value : α) :
    Ordered (table.insert key value) := by
  induction table with
  | nil => exact List.pairwise_singleton _ _
  | cons head rest inductionHypothesis =>
      obtain ⟨candidate, old⟩ := head
      obtain ⟨first, restOrdered⟩ := ordered_cons.mp ordered
      rw [Table.insert]
      split
      · rename_i same
        subst same
        exact ordered_cons.mpr ⟨first, restOrdered⟩
      · rename_i differs
        split
        · rename_i before
          refine ordered_cons.mpr ⟨fun other member => ?_, ordered⟩
          rcases List.mem_cons.mp member with isHead | later
          · rw [isHead]
            exact before
          · exact String.lt_trans before (first other later)
        · rename_i notBefore
          refine ordered_cons.mpr ⟨fun other member => ?_, inductionHypothesis restOrdered⟩
          rcases mem_insert member with isNew | later
          · rw [isNew]
            exact lt_of_not_before differs notBefore
          · exact first other later

theorem insert_of_last {key : String} {value : α} {table : Table α}
    (last : ∀ entry ∈ table, entry.1 < key) : table.insert key value = table ++ [(key, value)] := by
  induction table with
  | nil => rfl
  | cons head rest inductionHypothesis =>
      obtain ⟨candidate, old⟩ := head
      have before : candidate < key := last (candidate, old) (by simp)
      have differs : ¬ key = candidate := (ne_of_before before).symm
      rw [Table.insert, if_neg differs, if_neg (String.lt_asymm before),
        inductionHypothesis fun entry member => last entry (by simp [member])]
      rfl

/-! ## Removal -/

theorem mem_of_mem_erase {key : String} {table : Table α} {entry : String × α}
    (member : entry ∈ table.erase key) : entry ∈ table := by
  induction table with
  | nil => cases member
  | cons head rest inductionHypothesis =>
      rw [erase] at member
      split at member
      · exact List.mem_cons_of_mem _ member
      · rcases List.mem_cons.mp member with first | later
        · simp [first]
        · exact List.mem_cons_of_mem _ (inductionHypothesis later)

theorem Ordered.erase {table : Table α} (ordered : Ordered table) (key : String) :
    Ordered (table.erase key) := by
  induction table with
  | nil => exact List.Pairwise.nil
  | cons head rest inductionHypothesis =>
      obtain ⟨first, restOrdered⟩ := ordered_cons.mp ordered
      rw [Table.erase]
      split
      · exact restOrdered
      · exact ordered_cons.mpr
          ⟨fun other member => first other (mem_of_mem_erase member),
            inductionHypothesis restOrdered⟩

theorem get?_erase {table : Table α} (ordered : Ordered table) (key other : String) :
    (table.erase key).get? other = if other = key then none else table.get? other := by
  induction table with
  | nil => simp [erase, get?]
  | cons head rest inductionHypothesis =>
      obtain ⟨candidate, old⟩ := head
      obtain ⟨first, restOrdered⟩ := ordered_cons.mp ordered
      rw [erase]
      split
      · rename_i same
        subst same
        by_cases isKey : other = candidate
        · subst isKey
          rw [if_pos rfl]
          exact get?_eq_none fun entry member => (ne_of_before (first entry member)).symm
        · rw [if_neg isKey, get?, if_neg fun same => isKey same.symm]
      · rename_i differs
        rw [get?, inductionHypothesis restOrdered, get?]
        split
        · rename_i same
          subst same
          rw [if_neg differs]
        · rfl

/-! ## Ordered tables as functions -/

/-- An ordered table is determined by what stands under each key. -/
theorem Ordered.ext {left right : Table α} (leftOrdered : Ordered left)
    (rightOrdered : Ordered right) (same : ∀ key, left.get? key = right.get? key) :
    left = right := by
  induction left generalizing right with
  | nil =>
      cases right with
      | nil => rfl
      | cons entry rest =>
          have found := same entry.1
          simp [get?] at found
  | cons leftEntry leftRest inductionHypothesis =>
      obtain ⟨leftKey, leftValue⟩ := leftEntry
      obtain ⟨leftFirst, leftRestOrdered⟩ := ordered_cons.mp leftOrdered
      cases right with
      | nil =>
          have found := same leftKey
          simp [get?] at found
      | cons rightEntry rightRest =>
          obtain ⟨rightKey, rightValue⟩ := rightEntry
          obtain ⟨rightFirst, rightRestOrdered⟩ := ordered_cons.mp rightOrdered
          -- Each head is found in the other table, so neither key is below the other.
          have sameKey : leftKey = rightKey := by
            have inRight : (rightKey, rightValue) ∈ (leftKey, leftValue) :: leftRest :=
              mem_of_get? (by rw [same, get?, if_pos rfl])
            have inLeft : (leftKey, leftValue) ∈ (rightKey, rightValue) :: rightRest :=
              mem_of_get? (by rw [← same, get?, if_pos rfl])
            rcases List.mem_cons.mp inLeft with first | later
            · exact congrArg Prod.fst first
            · rcases List.mem_cons.mp inRight with first | laterToo
              · exact (congrArg Prod.fst first).symm
              · exact absurd (leftFirst _ laterToo) (String.lt_asymm (rightFirst _ later))
          subst sameKey
          have sameValue := same leftKey
          rw [get?, get?, if_pos rfl, if_pos rfl] at sameValue
          cases sameValue
          refine congrArg _ (inductionHypothesis leftRestOrdered rightRestOrdered fun key => ?_)
          by_cases isKey : leftKey = key
          · subst isKey
            rw [get?_eq_none fun entry member => (ne_of_before (leftFirst entry member)).symm,
              get?_eq_none fun entry member => (ne_of_before (rightFirst entry member)).symm]
          · have below := same key
            rwa [get?, get?, if_neg isKey, if_neg isKey] at below

/-- Ordered tables with the same entries are the same. -/
theorem Ordered.ext_mem {left right : Table α} (leftOrdered : Ordered left)
    (rightOrdered : Ordered right) (same : ∀ entry, entry ∈ left ↔ entry ∈ right) : left = right := by
  refine leftOrdered.ext rightOrdered fun key => Option.ext fun value => ?_
  constructor
  · intro found
    exact get?_of_mem rightOrdered ((same _).mp (mem_of_get? found))
  · intro found
    exact get?_of_mem leftOrdered ((same _).mpr (mem_of_get? found))

/-- Looking up, in turn, the keys of the wanted entries of a table in another table whose keys are
among them gives a part of that other table, in its order. -/
theorem filterMap_get?_eq {whole : Table β} {table : Table α} (wholeOrdered : Ordered whole)
    (ordered : Ordered table) (within : ∀ entry ∈ table, (whole.get? entry.1).isSome)
    (wanted : β → Bool) :
    (whole.filterMap fun entry => if wanted entry.2 then table.get? entry.1 else none) =
      values (table.filter fun entry => (whole.get? entry.1).any wanted) := by
  let pick := fun entry : String × β =>
    if wanted entry.2 then (table.get? entry.1).map (Prod.mk entry.1) else none
  have picked : ∀ {entry found}, pick entry = some found ↔
      wanted entry.2 = true ∧ found.1 = entry.1 ∧ table.get? entry.1 = some found.2 := by
    intro entry found
    simp only [pick]
    split
    · rename_i isWanted
      rw [Option.map_eq_some_iff]
      constructor
      · rintro ⟨value, isFound, rfl⟩
        exact ⟨isWanted, rfl, isFound⟩
      · rintro ⟨-, sameKey, isFound⟩
        exact ⟨found.2, isFound, Prod.ext sameKey.symm rfl⟩
    · rename_i unwanted
      exact ⟨nofun, fun isWanted => absurd isWanted.1 unwanted⟩
  have pickedValues : (whole.filterMap fun entry =>
      if wanted entry.2 then table.get? entry.1 else none) = values (whole.filterMap pick) := by
    rw [values, List.map_filterMap]
    refine congrArg (fun change => List.filterMap change whole) (funext fun entry => ?_)
    simp only [pick]
    split
    · cases table.get? entry.1 <;> rfl
    · rfl
  have pickedOrdered : Ordered (whole.filterMap pick) := by
    rw [Ordered, List.pairwise_filterMap]
    refine List.Pairwise.imp (fun before one isOne other isOther => ?_) wholeOrdered
    rw [(picked.mp isOne).2.1, (picked.mp isOther).2.1]
    exact before
  rw [pickedValues]
  refine congrArg values (pickedOrdered.ext_mem (List.Pairwise.filter _ ordered) fun entry => ?_)
  rw [List.mem_filterMap, List.mem_filter]
  constructor
  · rintro ⟨source, member, isPicked⟩
    obtain ⟨isWanted, sameKey, isFound⟩ := picked.mp isPicked
    have isSource : whole.get? entry.1 = some source.2 := by
      rw [sameKey]
      exact get?_of_mem wholeOrdered member
    rw [← sameKey] at isFound
    refine ⟨mem_of_get? isFound, ?_⟩
    rw [isSource]
    exact isWanted
  · rintro ⟨member, isWanted⟩
    obtain ⟨source, isSource⟩ := Option.isSome_iff_exists.mp (within entry member)
    rw [isSource] at isWanted
    exact ⟨(entry.1, source), mem_of_get? isSource,
      picked.mpr ⟨isWanted, rfl, get?_of_mem ordered member⟩⟩

theorem insertAll_of_ordered {table entries : Table α} (ordered : Ordered (table ++ entries)) :
    table.insertAll entries = table ++ entries := by
  induction entries generalizing table with
  | nil => simp [insertAll]
  | cons entry rest inductionHypothesis =>
      have last : ∀ other ∈ table, other.1 < entry.1 := fun other member =>
        (List.pairwise_append.mp ordered).2.2 other member entry (by simp)
      have moved : Ordered ((table ++ [entry]) ++ rest) := by
        rw [List.append_assoc]
        exact ordered
      have step := inductionHypothesis moved
      rw [List.append_assoc] at step
      rw [insertAll, List.foldl_cons, insert_of_last last]
      exact step

/-- An ordered table is the table of its own entries. -/
theorem ofEntries_of_ordered {table : Table α} (ordered : Ordered table) :
    ofEntries table = table :=
  @insertAll_of_ordered _ [] _ ordered

theorem Ordered.insertAll {table : Table α} (ordered : Ordered table)
    (entries : List (String × α)) : Ordered (table.insertAll entries) := by
  induction entries generalizing table with
  | nil => exact ordered
  | cons entry rest inductionHypothesis => exact inductionHypothesis (ordered.insert _ _)

theorem Ordered.eraseAll {table : Table α} (ordered : Ordered table) (gone : List String) :
    Ordered (table.eraseAll gone) := by
  induction gone generalizing table with
  | nil => exact ordered
  | cons key rest inductionHypothesis => exact inductionHypothesis (ordered.erase _)

theorem mem_insertAll {table : Table α} {entries : List (String × α)} {entry : String × α}
    (member : entry ∈ table.insertAll entries) : entry ∈ entries ∨ entry ∈ table := by
  induction entries generalizing table with
  | nil => exact Or.inr member
  | cons head rest inductionHypothesis =>
      rcases inductionHypothesis member with later | before
      · exact Or.inl (List.mem_cons_of_mem _ later)
      · rcases mem_insert before with isNew | old
        · exact Or.inl (by simp [isNew])
        · exact Or.inr old

theorem length_insert_le (key : String) (value : α) (table : Table α) :
    (table.insert key value).length ≤ table.length + 1 := by
  induction table with
  | nil => exact Nat.le_refl 1
  | cons entry rest inductionHypothesis =>
      unfold insert
      split
      · simp
      · split
        · simp
        · simpa using inductionHypothesis

theorem length_insertAll_le (table : Table α) (entries : List (String × α)) :
    (table.insertAll entries).length ≤ table.length + entries.length := by
  induction entries generalizing table with
  | nil => exact Nat.le_refl _
  | cons entry rest inductionHypothesis =>
      have one := length_insert_le entry.1 entry.2 table
      have others := inductionHypothesis (table.insert entry.1 entry.2)
      rw [List.length_cons]
      exact Nat.le_trans others (by omega)

theorem mem_of_mem_eraseAll {table : Table α} {gone : List String} {entry : String × α}
    (member : entry ∈ table.eraseAll gone) : entry ∈ table := by
  induction gone generalizing table with
  | nil => exact member
  | cons key rest inductionHypothesis => exact mem_of_mem_erase (inductionHypothesis member)

theorem get?_eraseAll {table : Table α} (ordered : Ordered table) (gone : List String)
    (key : String) :
    (table.eraseAll gone).get? key = if key ∈ gone then none else table.get? key := by
  induction gone generalizing table with
  | nil => rfl
  | cons first rest inductionHypothesis =>
      have goesOn : table.eraseAll (first :: rest) = (table.erase first).eraseAll rest := rfl
      rw [goesOn, inductionHypothesis (ordered.erase first), get?_erase ordered]
      by_cases isFirst : key = first
      · simp [isFirst]
      · by_cases isRest : key ∈ rest
        · simp [isRest]
        · simp [isFirst, isRest]

theorem get?_insertAll_cases {key : String} {value : α} {table : Table α}
    {entries : List (String × α)} (found : (table.insertAll entries).get? key = some value) :
    (key, value) ∈ entries ∨ table.get? key = some value := by
  induction entries generalizing table with
  | nil => exact Or.inr found
  | cons head rest inductionHypothesis =>
      rcases inductionHypothesis found with later | before
      · exact Or.inl (List.mem_cons_of_mem _ later)
      · rw [get?_insert] at before
        split at before
        · rename_i isHead
          cases before
          exact Or.inl (by simp [isHead])
        · exact Or.inr before

/-! ## Keys -/

theorem contains_iff {key : String} {table : Table α} :
    table.contains key = true ↔ ∃ value, table.get? key = some value :=
  Option.isSome_iff_exists

/-- The first value under a key stays. -/
theorem get?_insertNew (key other : String) (value : α) (table : Table α) :
    (table.insertNew key value).get? other =
      if other = key then (table.get? other).or (some value) else table.get? other := by
  rw [insertNew]
  by_cases known : table.contains key = true
  · rw [if_pos known]
    split
    · rename_i same
      subst same
      obtain ⟨old, found⟩ := contains_iff.mp known
      rw [found, Option.some_or]
    · rfl
  · have absent : table.get? key = none := by simpa [contains] using known
    rw [if_neg known, get?_insert]
    split
    · rename_i same
      rw [same, absent, Option.none_or]
    · rfl

theorem contains_insert_self (key : String) (value : α) (table : Table α) :
    (table.insert key value).contains key = true := by
  rw [contains, get?_insert_self]
  rfl

theorem contains_insert {key other : String} {table : Table α}
    (known : table.contains other = true) (value : α) :
    (table.insert key value).contains other = true := by
  rw [contains, get?_insert]
  split
  · rfl
  · exact known

theorem contains_insertAll {key : String} {table : Table α} {entries : List (String × α)}
    (known : table.contains key = true ∨ ∃ value, (key, value) ∈ entries) :
    (table.insertAll entries).contains key = true := by
  induction entries generalizing table with
  | nil => exact known.resolve_right nofun
  | cons head rest inductionHypothesis =>
      refine inductionHypothesis ?_
      rcases known with old | ⟨value, member⟩
      · exact Or.inl (contains_insert old head.2)
      · rcases List.mem_cons.mp member with rfl | later
        · exact Or.inl (contains_insert_self key value table)
        · exact Or.inr ⟨value, later⟩

/-! ## Change of values -/

theorem get?_mapValues (transform : α → β) (key : String) (table : Table α) :
    (table.mapValues transform).get? key = (table.get? key).map transform := by
  induction table with
  | nil => rfl
  | cons entry rest inductionHypothesis =>
      change get? key ((entry.1, transform entry.2) :: mapValues transform rest) = _
      rw [get?, get?, inductionHypothesis]
      split <;> rfl

theorem Ordered.mapValues {table : Table α} (ordered : Ordered table) (transform : α → β) :
    Ordered (table.mapValues transform) :=
  List.pairwise_map.mpr ordered

theorem mapValues_insert (change : α → β) (key : String) (value : α) (table : Table α) :
    (table.insert key value).mapValues change =
      (table.mapValues change).insert key (change value) := by
  induction table with
  | nil => rfl
  | cons entry rest inductionHypothesis =>
      obtain ⟨candidate, old⟩ := entry
      unfold insert
      by_cases same : key = candidate
      · rw [if_pos same]
        simp [mapValues, same]
      · rw [if_neg same]
        by_cases before : key < candidate
        · rw [if_pos before]
          simp [mapValues, same, before]
        · rw [if_neg before]
          simp only [mapValues] at inductionHypothesis
          simp [mapValues, same, before, inductionHypothesis]

theorem mapValues_erase (change : α → β) (key : String) (table : Table α) :
    (table.erase key).mapValues change = (table.mapValues change).erase key := by
  induction table with
  | nil => rfl
  | cons entry rest inductionHypothesis =>
      obtain ⟨candidate, value⟩ := entry
      unfold erase
      by_cases same : candidate = key
      · rw [if_pos same]
        simp [mapValues, same]
      · rw [if_neg same]
        simp only [mapValues] at inductionHypothesis
        simp [mapValues, same, inductionHypothesis]

theorem mapValues_insertAll (change : α → β) (table : Table α) (entries : List (String × α)) :
    (table.insertAll entries).mapValues change =
      (table.mapValues change).insertAll (entries.map fun entry => (entry.1, change entry.2)) := by
  induction entries generalizing table with
  | nil => rfl
  | cons entry rest inductionHypothesis =>
      rw [insertAll, List.foldl_cons, ← insertAll, inductionHypothesis, mapValues_insert]
      rfl

theorem mapValues_eraseAll (change : α → β) (table : Table α) (gone : List String) :
    (table.eraseAll gone).mapValues change = (table.mapValues change).eraseAll gone := by
  induction gone generalizing table with
  | nil => rfl
  | cons key rest inductionHypothesis =>
      rw [eraseAll, List.foldl_cons, ← eraseAll, inductionHypothesis, mapValues_erase]
      rfl

theorem keys_mapValues (change : α → β) (table : Table α) :
    (table.mapValues change).keys = table.keys := by
  rw [keys, keys, mapValues, List.map_map]
  rfl

end Table

namespace IdSet

theorem insert_of_last {id : String} {set : IdSet} (last : ∀ other ∈ set, other < id) :
    insert id set = set ++ [id] := by
  induction set with
  | nil => rfl
  | cons candidate rest inductionHypothesis =>
      have before : candidate < id := last candidate (by simp)
      have differs : ¬ id = candidate := (ne_of_before before).symm
      rw [insert, if_neg differs, if_neg (String.lt_asymm before),
        inductionHypothesis fun other member => last other (by simp [member])]
      rfl

private theorem foldl_insert_of_ascending {set ids : IdSet}
    (ascending : List.Pairwise (· < ·) (set ++ ids)) :
    ids.foldl (fun current id => insert id current) set = set ++ ids := by
  induction ids generalizing set with
  | nil => simp
  | cons id rest inductionHypothesis =>
      have last : ∀ other ∈ set, other < id := fun other member =>
        (List.pairwise_append.mp ascending).2.2 other member id (by simp)
      have moved : List.Pairwise (· < ·) ((set ++ [id]) ++ rest) := by
        rw [List.append_assoc]
        exact ascending
      have step := inductionHypothesis moved
      rw [List.append_assoc] at step
      rw [List.foldl_cons, insert_of_last last]
      exact step

theorem ascending_insert {id : String} {set : IdSet} (ascending : List.Pairwise (· < ·) set) :
    List.Pairwise (· < ·) (insert id set) := by
  induction set with
  | nil => exact List.pairwise_singleton _ _
  | cons candidate rest inductionHypothesis =>
      obtain ⟨before, restAscending⟩ := List.pairwise_cons.mp ascending
      unfold insert
      split
      · exact ascending
      · rename_i differs
        split
        · rename_i smaller
          refine List.pairwise_cons.mpr ⟨fun other member => ?_, ascending⟩
          rcases List.mem_cons.mp member with rfl | later
          · exact smaller
          · exact String.lt_trans smaller (before other later)
        · rename_i notSmaller
          refine List.pairwise_cons.mpr ⟨fun other member => ?_, inductionHypothesis restAscending⟩
          rcases (mem_insert rest).mp member with rfl | later
          · exact lt_of_not_before differs notSmaller
          · exact before other later

private theorem foldl_insert_spec (ids : List String) (set : IdSet) :
    (List.Pairwise (· < ·) set →
        List.Pairwise (· < ·) (ids.foldl (fun current id => insert id current) set)) ∧
      ∀ other, other ∈ ids.foldl (fun current id => insert id current) set ↔
        other ∈ ids ∨ other ∈ set := by
  induction ids generalizing set with
  | nil => simp
  | cons id rest inductionHypothesis =>
      obtain ⟨keeps, members⟩ := inductionHypothesis (insert id set)
      refine ⟨fun ascending => keeps (ascending_insert ascending), fun other => ?_⟩
      rw [List.foldl_cons, members, mem_insert, List.mem_cons, ← or_assoc, or_comm (a := other ∈ rest)]

theorem ascending_ofList (ids : List String) : List.Pairwise (· < ·) (ofList ids) :=
  (foldl_insert_spec ids []).1 List.Pairwise.nil

theorem mem_ofList {ids : List String} {id : String} : id ∈ ofList ids ↔ id ∈ ids := by
  rw [ofList, (foldl_insert_spec ids []).2 id]
  simp

theorem length_insert_le (id : String) (set : IdSet) : (insert id set).length ≤ set.length + 1 := by
  induction set with
  | nil => exact Nat.le_refl 1
  | cons candidate rest inductionHypothesis =>
      unfold insert
      split
      · simp
      · split
        · simp
        · simpa using inductionHypothesis

/-- A set has no more ids than the list of which it is made. -/
theorem length_ofList_le (ids : List String) : (ofList ids).length ≤ ids.length := by
  have grows : ∀ (ids : List String) (set : IdSet),
      (ids.foldl (fun current id => insert id current) set).length ≤ set.length + ids.length := by
    intro ids
    induction ids with
    | nil => exact fun set => Nat.le_refl _
    | cons id rest inductionHypothesis =>
        intro set
        have one := length_insert_le id set
        have others := inductionHypothesis (insert id set)
        rw [List.foldl_cons, List.length_cons]
        omega
  simpa [ofList] using grows ids []

/-- A set in ascending order is the set of its own ids. -/
theorem ofList_of_ascending {set : IdSet} (ascending : List.Pairwise (· < ·) set) :
    ofList set = set :=
  @foldl_insert_of_ascending [] _ ascending

end IdSet

end GraphCheckpoint
