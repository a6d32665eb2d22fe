import GraphCheckpoint.Proofs.Live.Heap

/-!
Contract: which locations the walk through a hierarchy finds.

Owns:
- `Heap.Below`, the locations that children links lead to;
- what the two walks leave unvisited;
- that the hierarchy of a location holds locations only, and everything below the location.

Does not own: the links.

The walks compare ids. So a closure that speaks of ids holds of every heap, and one that speaks of
objects holds where no two locations share an id.
-/

namespace GraphCheckpoint.Heap

variable {heap : Heap} {x y root : Address} {ids unvisited : List String}

/-- A location that children links lead to, in any number of steps. -/
inductive Below (heap : Heap) (root : Address) : Address → Prop where
  | root : Below heap root root
  | child {x y : Address} (below : Below heap root x) (isChild : y ∈ heap.childLocations x) :
      Below heap root y

/-- Locations are the children of their parents, and of no others. -/
def Forest (heap : Heap) : Prop :=
  ∀ x y, y ∈ heap.childLocations x ↔ heap.parentLocation? y = some x

/-- Links between locations lead to locations. -/
structure LinksLocations (heap : Heap) : Prop where
  children : ∀ {x y}, y ∈ heap.childLocations x → ∃ id, heap.Holds ⟨.location, id⟩ y
  parents : ∀ {x y}, heap.parentLocation? x = some y → ∃ id, heap.Holds ⟨.location, id⟩ y

theorem Tidy.linksLocations (tidy : heap.Tidy) : heap.LinksLocations where
  children := tidy.holds_of_mem_childLocations
  parents := tidy.holds_of_parentLocation?

/-- No two locations share an id. -/
def DistinctLocations (heap : Heap) : Prop :=
  ∀ id x y, heap.Holds ⟨.location, id⟩ x → heap.Holds ⟨.location, id⟩ y → x = y

theorem distinctLocations_empty : empty.DistinctLocations := by
  rintro id x y ⟨object, isObject, -⟩
  rw [object?_empty] at isObject
  cases isObject

theorem forest_empty : empty.Forest := by
  intro x y
  rw [childLocations_eq, parentLocation?_eq, locationLinks?, locationLinks?, object?_empty,
    object?_empty]
  simp

/-! ## Ids that are left -/

theorem hasIdIn_iff :
    heap.hasIdIn ids x = true ↔ ∃ object, heap.object? x = some object ∧ object.id ∈ ids := by
  unfold hasIdIn
  cases heap.object? x <;> simp

theorem hasIdIn_nil : heap.hasIdIn [] x = false := by
  rw [Bool.eq_false_iff]
  exact fun hasId => nomatch (hasIdIn_iff.mp hasId).choose_spec.2

theorem hasIdIn_eq_false_iff {object : LiveObject} (isObject : heap.object? x = some object) :
    heap.hasIdIn ids x = false ↔ object.id ∉ ids := by
  unfold hasIdIn
  rw [isObject]
  simp

theorem hasIdIn_eq_false_of_subset {few : List String} (subset : ∀ id ∈ few, id ∈ ids)
    (visited : heap.hasIdIn ids x = false) : heap.hasIdIn few x = false := by
  refine Bool.eq_false_iff.mpr fun hasId => Bool.eq_false_iff.mp visited ?_
  obtain ⟨object, isObject, member⟩ := hasIdIn_iff.mp hasId
  exact hasIdIn_iff.mpr ⟨object, isObject, subset _ member⟩

theorem mem_idsWithout {object : LiveObject} (isObject : heap.object? x = some object)
    {id : String} : id ∈ heap.idsWithout ids x ↔ id ∈ ids ∧ id ≠ object.id := by
  rw [idsWithout, isObject]
  simp

theorem length_idsWithout_lt (hasId : heap.hasIdIn ids x = true) :
    (heap.idsWithout ids x).length < ids.length := by
  obtain ⟨object, isObject, member⟩ := hasIdIn_iff.mp hasId
  rw [idsWithout, isObject]
  exact List.length_filter_lt_length_iff_exists.mpr ⟨object.id, member, by simp⟩

/-! ## The walk down -/

private theorem dropWhile_cases (skip : Address → Bool) (pending : List Address) :
    (pending.dropWhile skip = [] ∧ ∀ x ∈ pending, skip x = true) ∨
      ∃ passed next others, pending = passed ++ next :: others ∧
        pending.dropWhile skip = next :: others ∧ (∀ x ∈ passed, skip x = true) ∧
          skip next = false := by
  induction pending with
  | nil => exact Or.inl ⟨rfl, nofun⟩
  | cons first rest inductionHypothesis =>
      cases skipped : skip first with
      | false =>
          refine Or.inr ⟨[], first, rest, rfl, ?_, nofun, skipped⟩
          rw [List.dropWhile_cons, skipped]
          rfl
      | true =>
          have goesOn : (first :: rest).dropWhile skip = rest.dropWhile skip := by
            rw [List.dropWhile_cons, skipped]
            rfl
          rw [goesOn]
          rcases inductionHypothesis with ⟨isEmpty, all⟩ | ⟨passed, next, others, isRest, isDrop, all, found⟩
          · refine Or.inl ⟨isEmpty, fun x member => ?_⟩
            rcases List.mem_cons.mp member with rfl | later
            · exact skipped
            · exact all x later
          · refine Or.inr ⟨first :: passed, next, others, by rw [isRest]; rfl, isDrop, ?_, found⟩
            intro x member
            rcases List.mem_cons.mp member with rfl | later
            · exact skipped
            · exact all x later

/-- What the walk down takes of the pending locations, and what it leaves unvisited. -/
structure Descent (heap : Heap) (unvisited : List String) (pending taken : List Address)
    (left : List String) : Prop where
  subset : ∀ id ∈ left, id ∈ unvisited
  used : ∀ id ∈ unvisited, id ∉ left →
    ∃ x ∈ taken, ∃ object, heap.object? x = some object ∧ object.id = id
  pendingVisited : ∀ x ∈ pending, heap.hasIdIn left x = false
  childrenVisited : ∀ x ∈ taken, ∀ y ∈ heap.childLocations x, heap.hasIdIn left y = false
  origin : ∀ x ∈ taken, x ∈ pending ∨ ∃ y ∈ taken, x ∈ heap.childLocations y
  least : ∀ P : Address → Prop, (∀ x ∈ pending, P x) →
    (∀ x y, P x → y ∈ heap.childLocations x → P y) → ∀ x ∈ taken, P x

theorem Descent.stop {pending : List Address}
    (visited : ∀ x ∈ pending, heap.hasIdIn unvisited x = false) :
    Descent heap unvisited pending [] unvisited where
  subset := fun _ => id
  used := fun _ member left => absurd member left
  pendingVisited := visited
  childrenVisited := nofun
  origin := nofun
  least := nofun

/-- The walk passes over what has been visited, takes the next location, and goes on with its children
and with the others. -/
theorem Descent.take {passed others taken : List Address} {next : Address} {left : List String}
    (all : ∀ x ∈ passed, heap.hasIdIn unvisited x = false)
    (hasId : heap.hasIdIn unvisited next = true)
    (deeper : Descent heap (heap.idsWithout unvisited next)
      ((heap.childLocations next).reverse ++ others) taken left) :
    Descent heap unvisited (passed ++ next :: others) (next :: taken) left := by
  obtain ⟨object, isObject, -⟩ := hasIdIn_iff.mp hasId
  have subset : ∀ id ∈ left, id ∈ unvisited := fun id member =>
    ((mem_idsWithout isObject).mp (deeper.subset id member)).1
  refine ⟨subset, ?_, ?_, ?_, ?_, ?_⟩
  · intro id member notLeft
    by_cases isNext : id = object.id
    · exact ⟨next, List.mem_cons_self, object, isObject, isNext.symm⟩
    · obtain ⟨x, isTaken, hasObject⟩ :=
        deeper.used id ((mem_idsWithout isObject).mpr ⟨member, isNext⟩) notLeft
      exact ⟨x, List.mem_cons_of_mem _ isTaken, hasObject⟩
  · intro x member
    rw [List.mem_append, List.mem_cons] at member
    rcases member with wasPassed | rfl | later
    · exact hasIdIn_eq_false_of_subset subset (all x wasPassed)
    · rw [hasIdIn_eq_false_iff isObject]
      exact fun isLeft => ((mem_idsWithout isObject).mp (deeper.subset _ isLeft)).2 rfl
    · exact deeper.pendingVisited x (List.mem_append_right _ later)
  · intro x member y isChild
    rcases List.mem_cons.mp member with rfl | later
    · exact deeper.pendingVisited y (by simp [isChild])
    · exact deeper.childrenVisited x later y isChild
  · intro x member
    rcases List.mem_cons.mp member with rfl | later
    · exact Or.inl (by simp)
    · rcases deeper.origin x later with fromPending | ⟨y, isTaken, isChild⟩
      · rcases List.mem_append.mp fromPending with isChild | isOther
        · exact Or.inr ⟨next, List.mem_cons_self, by simpa using isChild⟩
        · exact Or.inl (by simp [isOther])
      · exact Or.inr ⟨y, List.mem_cons_of_mem _ isTaken, isChild⟩
  · intro P ofPending ofChildren x member
    have ofNext : P next := ofPending next (by simp)
    rcases List.mem_cons.mp member with rfl | later
    · exact ofNext
    · refine deeper.least P (fun y isNow => ?_) ofChildren x later
      rcases List.mem_append.mp isNow with isChild | isOther
      · exact ofChildren next y ofNext (by simpa using isChild)
      · exact ofPending y (by simp [isOther])

/-- The walk goes on until nothing that is pending is unvisited: the budget is never short of the
ids that are left. -/
theorem descent_descend {budget : Nat} {pending : List Address}
    (enough : unvisited.length ≤ budget) :
    Descent heap unvisited pending (heap.descend budget unvisited pending).1
      (heap.descend budget unvisited pending).2 := by
  induction budget generalizing unvisited pending with
  | zero =>
      have noneLeft : unvisited = [] := List.eq_nil_of_length_eq_zero (Nat.le_zero.mp enough)
      subst noneLeft
      exact .stop fun x _ => hasIdIn_nil
  | succ budget inductionHypothesis =>
      rcases dropWhile_cases (fun address => !heap.hasIdIn unvisited address) pending with
        ⟨isEmpty, all⟩ | ⟨passed, next, others, isPending, isDrop, all, found⟩
      · simp only [descend, isEmpty]
        exact .stop fun x member => by simpa using all x member
      · have hasId : heap.hasIdIn unvisited next = true := by simpa using found
        have fewer := length_idsWithout_lt hasId
        simp only [descend, isDrop]
        rw [isPending]
        exact .take (fun x member => by simpa using all x member) hasId
          (inductionHypothesis (by omega))

/-! ## The walk up -/

/-- Two objects with one id. -/
def SameId (heap : Heap) (x y : Address) : Prop :=
  ∃ object other, heap.object? x = some object ∧ heap.object? y = some other ∧ object.id = other.id

theorem SameId.eq (same : heap.SameId x y) (distinct : heap.DistinctLocations) {xId yId : String}
    (xHolds : heap.Holds ⟨.location, xId⟩ x) (yHolds : heap.Holds ⟨.location, yId⟩ y) : x = y := by
  obtain ⟨object, other, isObject, isOther, sameId⟩ := same
  obtain ⟨xObject, isX, xKey⟩ := xHolds
  obtain ⟨yObject, isY, yKey⟩ := yHolds
  rw [isObject] at isX
  rw [isOther] at isY
  cases isX
  cases isY
  have isId : xId = yId :=
    (congrArg ObjectKey.id xKey).symm.trans (sameId.trans (congrArg ObjectKey.id yKey))
  exact distinct yId x y ⟨object, isObject, isId ▸ xKey⟩ ⟨other, isOther, yKey⟩

theorem hasIdIn_of_idsWithout (visited : heap.hasIdIn (heap.idsWithout unvisited x) y = false)
    (hasId : heap.hasIdIn unvisited x = true) :
    heap.hasIdIn unvisited y = false ∨ heap.SameId x y := by
  obtain ⟨object, isObject, -⟩ := hasIdIn_iff.mp hasId
  cases isOther : heap.object? y with
  | none => exact Or.inl (by rw [hasIdIn, isOther])
  | some other =>
      rw [hasIdIn_eq_false_iff isOther, mem_idsWithout isObject] at visited
      rw [hasIdIn_eq_false_iff isOther]
      by_cases member : other.id ∈ unvisited
      · refine Or.inr ⟨object, other, isObject, isOther, Decidable.byContradiction fun differs => ?_⟩
        exact visited ⟨member, fun same => differs same.symm⟩
      · exact Or.inl member

/-- What the walk up takes. -/
structure Ascent (heap : Heap) (unvisited : List String) (start : Option Address)
    (taken : List Address) : Prop where
  startVisited : ∀ q, start = some q → q ∈ taken ∨ heap.hasIdIn unvisited q = false
  least : ∀ P : Address → Prop, (∀ x, start = some x → P x) →
    (∀ x y, P x → heap.parentLocation? x = some y → P y) → ∀ x ∈ taken, P x
  parentVisited : ∀ x ∈ taken, ∀ q, heap.parentLocation? x = some q →
    q ∈ taken ∨ heap.hasIdIn unvisited q = false ∨ ∃ y ∈ taken, heap.SameId y q

theorem Ascent.stop {start : Option Address}
    (visited : ∀ q, start = some q → heap.hasIdIn unvisited q = false) :
    Ascent heap unvisited start [] where
  startVisited := fun q isStart => Or.inr (visited q isStart)
  least := nofun
  parentVisited := nofun

/-- The walk takes a location that is left, and goes on with its parent. -/
theorem Ascent.take {next : Address} {taken : List Address}
    (hasId : heap.hasIdIn unvisited next = true)
    (higher : Ascent heap (heap.idsWithout unvisited next) (heap.parentLocation? next) taken) :
    Ascent heap unvisited (some next) (next :: taken) := by
  -- What the rest of the walk holds for visited is visited before, or is `next`.
  have earlier : ∀ q, heap.hasIdIn (heap.idsWithout unvisited next) q = false →
      heap.hasIdIn unvisited q = false ∨ ∃ y ∈ next :: taken, heap.SameId y q := by
    intro q visited
    exact (hasIdIn_of_idsWithout visited hasId).imp id fun same => ⟨next, List.mem_cons_self, same⟩
  refine ⟨?_, ?_, ?_⟩
  · intro q isNext
    cases isNext
    exact Or.inl List.mem_cons_self
  · intro P ofStart ofParents x member
    rcases List.mem_cons.mp member with rfl | later
    · exact ofStart x rfl
    · exact higher.least P (fun y => ofParents next y (ofStart next rfl)) ofParents x later
  · intro x member q isParent
    rcases List.mem_cons.mp member with rfl | later
    · rcases higher.startVisited q isParent with isTaken | visited
      · exact Or.inl (List.mem_cons_of_mem _ isTaken)
      · exact Or.inr (earlier q visited)
    · rcases higher.parentVisited x later q isParent with isTaken | visited | ⟨y, isTaken, same⟩
      · exact Or.inl (List.mem_cons_of_mem _ isTaken)
      · exact Or.inr (earlier q visited)
      · exact Or.inr (Or.inr ⟨y, List.mem_cons_of_mem _ isTaken, same⟩)

/-- The walk up goes on until it comes to an id that is not left. -/
theorem ascent_ascend {budget : Nat} {start : Option Address}
    (enough : unvisited.length ≤ budget) :
    Ascent heap unvisited start (heap.ascend budget unvisited start) := by
  induction budget generalizing unvisited start with
  | zero =>
      have noneLeft : unvisited = [] := List.eq_nil_of_length_eq_zero (Nat.le_zero.mp enough)
      subst noneLeft
      exact .stop fun q _ => hasIdIn_nil
  | succ budget inductionHypothesis =>
      cases start with
      | none => exact .stop nofun
      | some next =>
          rw [ascend]
          split
          · rename_i hasId
            have fewer := length_idsWithout_lt hasId
            exact .take hasId (inductionHypothesis (by omega))
          · rename_i visited
            refine .stop fun q isNext => ?_
            cases isNext
            exact Bool.eq_false_iff.mpr visited

/-! ## The hierarchy -/

theorem mem_locationIds {id : String} (holds : heap.Holds ⟨.location, id⟩ x) :
    id ∈ heap.locationIds := by
  obtain ⟨object, isObject, isKey⟩ := holds
  have isKind : object.kind = .location := congrArg ObjectKey.kind isKey
  have isId : object.id = id := congrArg ObjectKey.id isKey
  have isEntry : heap.objects[x.index]? = some (some object) := Option.join_eq_some_iff.mp isObject
  have member : some object ∈ heap.objects.toList :=
    Array.mem_toList_iff.mpr (Array.mem_of_getElem? isEntry)
  rw [locationIds, List.mem_eraseDups, List.mem_filterMap]
  exact ⟨some object, member, by simp [isKind, isId]⟩

/-- The walk down from a location, over the ids of all locations. -/
def walkDown (heap : Heap) (root : Address) : List Address × List String :=
  heap.descend heap.locationIds.length heap.locationIds [root]

/-- The walk up from the parent of a location, over the ids that the walk down has left. -/
def walkUp (heap : Heap) (root : Address) : List Address :=
  heap.ascend (heap.walkDown root).2.length (heap.walkDown root).2 (heap.parentLocation? root)

theorem mem_locationsInHierarchy :
    x ∈ heap.locationsInHierarchy root ↔ x ∈ (heap.walkDown root).1 ∨ x ∈ heap.walkUp root :=
  List.mem_append

theorem descent_walkDown (heap : Heap) (root : Address) :
    Descent heap heap.locationIds [root] (heap.walkDown root).1 (heap.walkDown root).2 :=
  descent_descend (Nat.le_refl _)

theorem ascent_walkUp (heap : Heap) (root : Address) :
    Ascent heap (heap.walkDown root).2 (heap.parentLocation? root) (heap.walkUp root) :=
  ascent_ascend (Nat.le_refl _)

section Hierarchy

variable (links : heap.LinksLocations) {rootId : String} (isRoot : heap.Holds ⟨.location, rootId⟩ root)

include links isRoot

theorem holds_of_mem_walkDown (member : x ∈ (heap.walkDown root).1) :
    ∃ id, heap.Holds ⟨.location, id⟩ x := by
  refine (descent_walkDown heap root).least (fun y => ∃ id, heap.Holds ⟨.location, id⟩ y)
    (fun y isPending => ?_) (fun y z _ isChild => ?_) x member
  · rw [List.mem_singleton.mp isPending]
    exact ⟨rootId, isRoot⟩
  · exact links.children isChild

/-- The hierarchy of a location holds locations only. -/
theorem holds_of_mem_locationsInHierarchy (member : x ∈ heap.locationsInHierarchy root) :
    ∃ id, heap.Holds ⟨.location, id⟩ x := by
  rcases mem_locationsInHierarchy.mp member with below | above
  · exact holds_of_mem_walkDown links isRoot below
  · exact (ascent_walkUp heap root).least (fun y => ∃ id, heap.Holds ⟨.location, id⟩ y)
      (fun y => links.parents)
      (fun y z _ => links.parents) x above

/-- What the walk down leaves no id of, it has taken a location of that id for. -/
theorem exists_mem_walkDown {id : String} (holds : heap.Holds ⟨.location, id⟩ y)
    (visited : heap.hasIdIn (heap.walkDown root).2 y = false) :
    ∃ x ∈ (heap.walkDown root).1, heap.Holds ⟨.location, id⟩ x := by
  obtain ⟨object, isObject, isKey⟩ := holds
  have isId : object.id = id := congrArg ObjectKey.id isKey
  have notLeft : id ∉ (heap.walkDown root).2 :=
    isId ▸ (hasIdIn_eq_false_iff isObject).mp visited
  obtain ⟨x, taken, found, isFound, foundId⟩ :=
    (descent_walkDown heap root).used id (mem_locationIds ⟨object, isObject, isKey⟩) notLeft
  obtain ⟨other, same, isSame, sameKey⟩ := holds_of_mem_walkDown links isRoot taken
  rw [isFound] at isSame
  cases isSame
  have sameId : found.id = other := congrArg ObjectKey.id sameKey
  rw [← sameId, foundId] at sameKey
  exact ⟨x, taken, found, isFound, sameKey⟩

/-- The hierarchy of a location has a location of its id. -/
theorem exists_root_mem_locationsInHierarchy :
    ∃ x ∈ heap.locationsInHierarchy root, heap.Holds ⟨.location, rootId⟩ x := by
  obtain ⟨x, taken, holds⟩ := exists_mem_walkDown links isRoot isRoot
    ((descent_walkDown heap root).pendingVisited root List.mem_cons_self)
  exact ⟨x, mem_locationsInHierarchy.mpr (Or.inl taken), holds⟩

variable (distinct : heap.DistinctLocations)

include distinct

theorem mem_walkDown_of_visited {id : String} (holds : heap.Holds ⟨.location, id⟩ y)
    (visited : heap.hasIdIn (heap.walkDown root).2 y = false) : y ∈ (heap.walkDown root).1 := by
  obtain ⟨x, taken, holdsToo⟩ := exists_mem_walkDown links isRoot holds visited
  exact distinct _ _ _ holdsToo holds ▸ taken

theorem mem_walkDown_of_below (below : heap.Below root x) : x ∈ (heap.walkDown root).1 := by
  induction below with
  | root =>
      exact mem_walkDown_of_visited links isRoot distinct isRoot
        ((descent_walkDown heap root).pendingVisited root List.mem_cons_self)
  | @child x y _ isChild inductionHypothesis =>
      obtain ⟨id, holds⟩ := links.children isChild
      exact mem_walkDown_of_visited links isRoot distinct holds
        ((descent_walkDown heap root).childrenVisited x inductionHypothesis y isChild)

end Hierarchy

end GraphCheckpoint.Heap
