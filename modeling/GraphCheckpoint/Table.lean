/-!
Contract: tables keyed by text and sets of ids, kept in the order of their keys.

Owns:
- `Table`, an association list in ascending key order, and its operations;
- `IdSet`, an ascending list of ids;
- the predicate `Ordered` that every operation here keeps.

Does not own: what is stored under a key.

Keys are compared by code points, which is also the order of their UTF-8 bytes.
-/

namespace GraphCheckpoint

/-- Entries in ascending key order, at most one to a key. -/
abbrev Table (α : Type) := List (String × α)

namespace Table

variable {α β : Type}

/-- Every key is smaller than all keys after it. -/
def Ordered (table : Table α) : Prop :=
  table.Pairwise (fun left right => left.1 < right.1)

/-- The value under a key. -/
def get? (key : String) : Table α → Option α
  | [] => none
  | (candidate, value) :: rest =>
      if candidate = key then some value else get? key rest

def contains (key : String) (table : Table α) : Bool :=
  (table.get? key).isSome

/-- Sets the value under a key, in its place in the order. -/
def insert (key : String) (value : α) : Table α → Table α
  | [] => [(key, value)]
  | (candidate, old) :: rest =>
      if key = candidate then (key, value) :: rest
      else if key < candidate then (key, value) :: (candidate, old) :: rest
      else (candidate, old) :: insert key value rest

/-- Sets the value under a key only where the key is new. -/
def insertNew (key : String) (value : α) (table : Table α) : Table α :=
  if table.contains key then table else table.insert key value

/-- Removes the entry under a key. -/
def erase (key : String) : Table α → Table α
  | [] => []
  | (candidate, value) :: rest =>
      if candidate = key then rest else (candidate, value) :: erase key rest

def keys (table : Table α) : List String := List.map Prod.fst table

def values (table : Table α) : List α := List.map Prod.snd table

/-- The table of the given entries; the last entry of a repeated key counts. -/
def ofEntries (entries : List (String × α)) : Table α :=
  entries.foldl (fun table entry => table.insert entry.1 entry.2) []

/-- Adds the entries in turn; the last entry of a repeated key counts. -/
def insertAll (table : Table α) (entries : List (String × α)) : Table α :=
  entries.foldl (fun current entry => current.insert entry.1 entry.2) table

/-- Removes the entries under all the given keys. -/
def eraseAll (table : Table α) (gone : List String) : Table α :=
  gone.foldl (fun current key => current.erase key) table

/-- Applies a function to every value. -/
def mapValues (transform : α → β) (table : Table α) : Table β :=
  List.map (fun entry => (entry.1, transform entry.2)) table

theorem get?_insert_self (key : String) (value : α) (table : Table α) :
    (table.insert key value).get? key = some value := by
  induction table with
  | nil => simp [insert, get?]
  | cons entry rest inductionHypothesis =>
      obtain ⟨candidate, old⟩ := entry
      unfold insert
      split
      · simp [get?]
      · split
        · simp [get?]
        · rename_i differs _
          have flipped : ¬ candidate = key := fun same => differs same.symm
          simp [get?, flipped, inductionHypothesis]

theorem get?_insert_of_ne {key other : String} (differs : other ≠ key) (value : α)
    (table : Table α) :
    (table.insert key value).get? other = table.get? other := by
  have flipped : ¬ key = other := fun same => differs same.symm
  induction table with
  | nil => simp [insert, get?, flipped]
  | cons entry rest inductionHypothesis =>
      obtain ⟨candidate, old⟩ := entry
      unfold insert
      split
      · rename_i same
        subst same
        simp [get?, flipped]
      · split
        · simp [get?, flipped]
        · simp [get?, inductionHypothesis]

end Table

/-- Ids in ascending order, each once. -/
abbrev IdSet := List String

namespace IdSet

/-- Adds an id in its place in the order. -/
def insert (id : String) : IdSet → IdSet
  | [] => [id]
  | candidate :: rest =>
      if id = candidate then candidate :: rest
      else if id < candidate then id :: candidate :: rest
      else candidate :: insert id rest

/-- The set of the listed ids. -/
def ofList (ids : List String) : IdSet :=
  ids.foldl (fun set id => insert id set) []

theorem mem_insert {id other : String} (set : IdSet) :
    other ∈ insert id set ↔ other = id ∨ other ∈ set := by
  induction set with
  | nil => simp [insert]
  | cons candidate rest inductionHypothesis =>
      unfold insert
      split
      · rename_i same
        subst same
        simp
      · split
        · simp
        · simp only [List.mem_cons, inductionHypothesis]
          constructor
          · rintro (first | second | third)
            · exact Or.inr (Or.inl first)
            · exact Or.inl second
            · exact Or.inr (Or.inr third)
          · rintro (first | second | third)
            · exact Or.inr (Or.inl first)
            · exact Or.inl second
            · exact Or.inr (Or.inr third)

end IdSet

end GraphCheckpoint
