import GraphCheckpoint.Proofs.Live.Hierarchy

/-!
Contract: what the operations of a heap leave of the roles of its objects.

Owns:
- `LiveObject.role`, the parts of an object that linking and setting values do not touch;
- `Heap.SameRoles`, the operations that leave all roles as they are;
- `Heap.Spares`, the operations that concern no objects but the listed ones;
- `Heap.Watched`, the objects that have a listener, and `Heap.Ordinary`, the heaps whose objects all
  give their records;
- that linking keeps locations apart, and each below one other at most.

Does not own: what a listener does with a report.
-/

namespace GraphCheckpoint

/-- What an object is and how it behaves, whatever its state. -/
def LiveObject.role (object : LiveObject) : ObjectKey × Option ListenerRef × Behaviour :=
  (object.key, object.listener, object.behaviour)

namespace Heap

variable {heap before after : Heap} {x address : Address}

/-- The object has a listener. -/
def Watched (heap : Heap) (address : Address) : Prop :=
  ∃ object, heap.object? address = some object ∧ object.listener.isSome = true

theorem not_watched_empty : ¬ empty.Watched x := by
  rintro ⟨object, isObject, -⟩
  rw [object?_empty] at isObject
  cases isObject

/-- Every object records its state. -/
def Ordinary (heap : Heap) : Prop :=
  ∀ address object, heap.object? address = some object → object.behaviour = .ordinary

/-- All objects keep their roles, and there are no others. -/
def SameRoles (before after : Heap) : Prop :=
  ∀ x, (after.object? x).map LiveObject.role = (before.object? x).map LiveObject.role

theorem SameRoles.refl (heap : Heap) : SameRoles heap heap := fun _ => rfl

theorem SameRoles.symm (same : SameRoles before after) : SameRoles after before :=
  fun x => (same x).symm

theorem SameRoles.trans {between : Heap} (first : SameRoles before between)
    (second : SameRoles between after) : SameRoles before after :=
  fun x => (second x).trans (first x)

/-- An object has one of the same role in the other heap. -/
theorem SameRoles.exists_object (same : SameRoles before after) {object : LiveObject}
    (isObject : before.object? x = some object) :
    ∃ other, after.object? x = some other ∧ other.role = object.role := by
  have found := same x
  rw [isObject] at found
  exact Option.map_eq_some_iff.mp found

theorem SameRoles.extends_holds (same : SameRoles before after) {key : ObjectKey}
    (holds : before.Holds key x) : after.Holds key x := by
  obtain ⟨object, isObject, isKey⟩ := holds
  obtain ⟨other, isOther, sameRole⟩ := same.exists_object isObject
  exact ⟨other, isOther, (congrArg Prod.fst sameRole).trans isKey⟩

theorem SameRoles.holds_iff (same : SameRoles before after) {key : ObjectKey} :
    after.Holds key x ↔ before.Holds key x :=
  ⟨same.symm.extends_holds, same.extends_holds⟩

private theorem SameRoles.watched (same : SameRoles before after) (watched : before.Watched x) :
    after.Watched x := by
  obtain ⟨object, isObject, listens⟩ := watched
  obtain ⟨other, isOther, sameRole⟩ := same.exists_object isObject
  have sameListener : other.listener = object.listener :=
    congrArg (fun role => role.2.1) sameRole
  exact ⟨other, isOther, sameListener ▸ listens⟩

theorem SameRoles.watched_iff (same : SameRoles before after) :
    after.Watched x ↔ before.Watched x :=
  ⟨SameRoles.watched same.symm, SameRoles.watched same⟩

theorem SameRoles.ordinary (same : SameRoles before after) (ordinary : before.Ordinary) :
    after.Ordinary := by
  intro address object isObject
  obtain ⟨other, isOther, sameRole⟩ := same.symm.exists_object isObject
  have sameBehaviour : other.behaviour = object.behaviour :=
    congrArg (fun role => role.2.2) sameRole
  exact sameBehaviour ▸ ordinary address other isOther

/-! ## Operations that leave all roles as they are -/

theorem sameRoles_update {change : LiveObject → LiveObject}
    (keeps : ∀ object, (change object).role = object.role) :
    SameRoles heap (heap.update address change) := by
  intro x
  rw [object?_update]
  split
  · cases heap.object? x with
    | none => rfl
    | some object => exact congrArg some (keeps object)
  · rfl

theorem sameRoles_referenceTo (object : LiveObject) :
    SameRoles heap (heap.referenceTo address object).2 :=
  fun _ => rfl

theorem role_mapEntityLinks (change : EntityLinks → EntityLinks) (object : LiveObject) :
    (object.mapEntityLinks change).role = object.role := by
  rw [LiveObject.role, keepsKey_mapEntityLinks change object]
  unfold LiveObject.mapEntityLinks
  split <;> rfl

theorem role_mapLocationLinks (change : LocationLinks → LocationLinks) (object : LiveObject) :
    (object.mapLocationLinks change).role = object.role := by
  rw [LiveObject.role, keepsKey_mapLocationLinks change object]
  unfold LiveObject.mapLocationLinks
  split <;> rfl

theorem sameRoles_appendReference (owner target : Address)
    (place : Handle → EntityLinks → EntityLinks) :
    SameRoles heap (heap.appendReference owner target place) := by
  rw [appendReference]
  split
  · rename_i object _
    exact (@sameRoles_referenceTo heap target object).trans
      (sameRoles_update (role_mapEntityLinks _))
  · exact .refl heap

theorem sameRoles_addChildEntity (parent child : Address) :
    SameRoles heap (heap.addChildEntity parent child) := by
  rw [addChildEntity]
  split
  · rename_i object _ _
    exact (@sameRoles_referenceTo heap child object).trans ((sameRoles_update (role_mapEntityLinks _)).trans
      (sameRoles_update (role_mapEntityLinks _)))
  · exact .refl heap

theorem sameRoles_addChildLocation (parent child : Address) :
    SameRoles heap (heap.addChildLocation parent child) := by
  rw [addChildLocation]
  split
  · rename_i object _ _
    exact (@sameRoles_referenceTo heap child object).trans ((sameRoles_update (role_mapLocationLinks _)).trans
      (sameRoles_update (role_mapLocationLinks _)))
  · exact .refl heap

/-! ## Objects that an operation does not concern -/

/-- All objects but the listed ones are as they were. -/
def Spares (concerned : List Address) (before after : Heap) : Prop :=
  ∀ x ∉ concerned, after.object? x = before.object? x

theorem Spares.refl (concerned : List Address) (heap : Heap) : Spares concerned heap heap :=
  fun _ _ => rfl

theorem Spares.trans {concerned : List Address} {between : Heap}
    (first : Spares concerned before between) (second : Spares concerned between after) :
    Spares concerned before after :=
  fun x others => (second x others).trans (first x others)

theorem spares_update {concerned : List Address} (isConcerned : address ∈ concerned)
    (change : LiveObject → LiveObject) : Spares concerned heap (heap.update address change) := by
  intro x others
  rw [object?_update, if_neg]
  rintro rfl
  exact others isConcerned

theorem spares_appendReference (owner target : Address)
    (place : Handle → EntityLinks → EntityLinks) :
    Spares [owner] heap (heap.appendReference owner target place) := by
  rw [appendReference]
  split
  · rename_i object _
    exact @spares_update (heap.referenceTo target object).2 owner [owner] List.mem_cons_self _
  · exact .refl [owner] heap

theorem spares_addChildEntity (parent child : Address) :
    Spares [parent, child] heap (heap.addChildEntity parent child) := by
  rw [addChildEntity]
  split
  · rename_i object _ _
    have referred : Spares [parent, child] heap (heap.referenceTo child object).2 := fun _ _ => rfl
    exact referred.trans ((spares_update (by simp) _).trans (spares_update (by simp) _))
  · exact .refl _ heap

theorem spares_addChildLocation (parent child : Address) :
    Spares [parent, child] heap (heap.addChildLocation parent child) := by
  rw [addChildLocation]
  split
  · rename_i object _ _
    have referred : Spares [parent, child] heap (heap.referenceTo child object).2 := fun _ _ => rfl
    exact referred.trans ((spares_update (by simp) _).trans (spares_update (by simp) _))
  · exact .refl _ heap

/-! ## Links between places under them -/

theorem samePlaces_refl (heap : Heap) : SamePlaces heap heap :=
  samePlaces_of_links (.refl heap) (fun _ => rfl) fun _ => rfl

theorem samePlaces_appendReference (owner target : Address)
    {place : Handle → EntityLinks → EntityLinks}
    (keeps : ∀ handle links, (place handle links).locations = links.locations) :
    SamePlaces heap (heap.appendReference owner target place) := by
  rw [appendReference]
  split
  · rename_i object _
    exact (@samePlaces_referenceTo heap target object).trans
      (samePlaces_update (keepsPlaces_mapEntityLinks (keeps _)))
  · exact samePlaces_refl heap

theorem samePlaces_addChildEntity (parent child : Address) :
    SamePlaces heap (heap.addChildEntity parent child) := by
  rw [addChildEntity]
  split
  · rename_i object _ _
    refine (@samePlaces_referenceTo heap child object).trans
      ((samePlaces_update (keepsPlaces_mapEntityLinks ?_)).trans
        (samePlaces_update (keepsPlaces_mapEntityLinks ?_)))
    · exact fun _ => rfl
    · exact fun _ => rfl
  · exact samePlaces_refl heap

/-! ## The tree of locations -/

theorem DistinctLocations.sameRoles (distinct : before.DistinctLocations)
    (same : SameRoles before after) : after.DistinctLocations :=
  fun id x y holds holdsToo =>
    distinct id x y (same.holds_iff.mp holds) (same.holds_iff.mp holdsToo)

theorem holds_create {object : LiveObject} {key : ObjectKey}
    (holds : (heap.create object).2.Holds key x) :
    heap.Holds key x ∨ (x.index = heap.objects.size ∧ object.key = key) := by
  obtain ⟨found, isFound, isKey⟩ := holds
  rw [object?_create] at isFound
  split at isFound
  · rename_i isLast
    cases isFound
    exact Or.inr ⟨isLast, isKey⟩
  · exact Or.inl ⟨found, isFound, isKey⟩

theorem watched_create {old : LiveObject} (isOld : heap.object? x = some old) (object : LiveObject) :
    (heap.create object).2.Watched x ↔ heap.Watched x := by
  rw [Watched, Watched, object?_create_of_some object isOld, isOld]

/-- A new location under a new id leaves locations apart. -/
theorem DistinctLocations.create (distinct : heap.DistinctLocations) {object : LiveObject}
    (fresh : object.kind = .location → object.id ∉ heap.locationIds) :
    (heap.create object).2.DistinctLocations := by
  have isFresh : ∀ {id y}, heap.Holds ⟨.location, id⟩ y → object.key ≠ ⟨.location, id⟩ := by
    intro id y holds isKey
    have isId : object.id = id := congrArg ObjectKey.id isKey
    exact fresh (congrArg ObjectKey.kind isKey) (isId ▸ mem_locationIds holds)
  intro id x y xHolds yHolds
  rcases holds_create xHolds with xOld | ⟨xLast, isKey⟩
  · rcases holds_create yHolds with yOld | ⟨-, isKey⟩
    · exact distinct id x y xOld yOld
    · exact absurd isKey (isFresh xOld)
  · rcases holds_create yHolds with yOld | ⟨yLast, -⟩
    · exact absurd isKey (isFresh yOld)
    · cases x
      cases y
      exact congrArg Address.mk (xLast.trans yLast.symm)

theorem Forest.samePlaces (forest : before.Forest) (tidy : before.Tidy)
    (same : SamePlaces before after) : after.Forest := by
  intro x y
  rw [same.children tidy, same.parents tidy]
  exact forest x y

/-- A location that is below no other may be linked below one. -/
theorem Forest.links {parent child : Address} (forest : before.Forest) (tidy : before.Tidy)
    (links : Links parent child before after) (isRoot : before.parentLocation? child = none) :
    after.Forest := by
  intro x y
  rw [links.children tidy, links.parents tidy]
  by_cases isChild : y = child
  · subst isChild
    have notBelow : y ∉ before.childLocations x := by
      intro isBelow
      rw [(forest x y).mp isBelow] at isRoot
      cases isRoot
    simp [notBelow, eq_comm]
  · rw [if_neg isChild, ← forest x y]
    simp [isChild]

end Heap

end GraphCheckpoint
