import GraphCheckpoint.Live.Hierarchy

/-!
Contract: what the operations of a heap leave of its objects and of the links between locations.

Owns:
- `Heap.Holds`, the kind and id of an object at an address;
- `Heap.Tidy`, the heaps whose links between places lead to what they name;
- `Heap.Extends`, growth that keeps every reference and every object;
- the children, the parent and the places of an object after each operation.

Does not own: walks along the links.

Links are appended and never taken away, and a slot is bound when it is made; so what a link leads to
is settled by the operation that made it.
-/

namespace GraphCheckpoint.Heap

variable {heap before after : Heap} {x y address : Address} {handle : Handle}

/-! ## Objects -/

/-- An object of this kind and id lives at the address. -/
def Holds (heap : Heap) (key : ObjectKey) (address : Address) : Prop :=
  ∃ object, heap.object? address = some object ∧ object.key = key

theorem Holds.key_unique {key other : ObjectKey} (holds : heap.Holds key x)
    (alsoHolds : heap.Holds other x) : key = other := by
  obtain ⟨object, isObject, rfl⟩ := holds
  obtain ⟨same, isSame, rfl⟩ := alsoHolds
  rw [isObject] at isSame
  cases isSame
  rfl

theorem object?_empty (x : Address) : empty.object? x = none := by
  rw [object?, empty]
  simp

theorem object?_create (object : LiveObject) :
    (heap.create object).2.object? x =
      if x.index = heap.objects.size then some object else heap.object? x := by
  simp only [create, object?, Array.getElem?_push]
  split <;> rfl

theorem object?_create_of_some (object : LiveObject) {old : LiveObject}
    (isOld : heap.object? x = some old) : (heap.create object).2.object? x = some old := by
  rw [object?_create, if_neg, isOld]
  intro isLast
  rw [object?, isLast, Array.getElem?_eq_none (Nat.le_refl _)] at isOld
  cases isOld

theorem object?_update (change : LiveObject → LiveObject) :
    (heap.update address change).object? x =
      if x = address then (heap.object? x).map change else heap.object? x := by
  have sameIndex : (address.index = x.index) ↔ x = address := by
    cases x
    cases address
    simp [eq_comm]
  simp only [update, object?, Array.getElem?_modify, sameIndex]
  split
  · cases heap.objects[x.index]? <;> rfl
  · rfl

theorem target?_allocate {id : String} {declaredType : Option String} {target : Option Address}
    {slots : Slots} (isBound : slots.target? handle = some x) :
    (slots.allocate id declaredType target).2.target? handle = some x := by
  have inRange : handle.slot < slots.bindings.size := by
    refine Nat.not_le.mp fun outside => ?_
    rw [Slots.target?, Array.getElem?_eq_none outside] at isBound
    cases isBound
  rw [Slots.target?] at isBound ⊢
  rw [Slots.allocate, Array.getElem?_push, if_neg (Nat.ne_of_lt inRange)]
  exact isBound

theorem target?_allocate_new (id : String) (declaredType : Option String)
    (target : Option Address) (slots : Slots) :
    (slots.allocate id declaredType target).2.target?
      (slots.allocate id declaredType target).1 = target := by
  simp [Slots.target?, Slots.allocate]

/-! ## Growth -/

/-- Every reference leads where it led, and every object keeps its kind and id. -/
structure Extends (before after : Heap) : Prop where
  targets : ∀ handle address, before.target? handle = some address →
    after.target? handle = some address
  holds : ∀ key address, before.Holds key address → after.Holds key address

theorem Extends.refl (heap : Heap) : heap.Extends heap := ⟨fun _ _ => id, fun _ _ => id⟩

theorem Extends.trans {between : Heap} (first : before.Extends between)
    (second : between.Extends after) : before.Extends after where
  targets := fun handle address leads => second.targets _ _ (first.targets handle address leads)
  holds := fun key address holds => second.holds _ _ (first.holds key address holds)

theorem extends_create (object : LiveObject) : heap.Extends (heap.create object).2 where
  targets := fun _ _ => id
  holds := by
    rintro key address ⟨old, isOld, rfl⟩
    exact ⟨old, object?_create_of_some object isOld, rfl⟩

/-- A change that lets objects keep their kind and id. -/
def KeepsKey (change : LiveObject → LiveObject) : Prop := ∀ object, (change object).key = object.key

theorem extends_update {change : LiveObject → LiveObject} (keeps : KeepsKey change) :
    heap.Extends (heap.update address change) where
  targets := fun _ _ => id
  holds := by
    rintro key place ⟨old, isOld, rfl⟩
    by_cases same : place = address
    · refine ⟨change old, ?_, keeps old⟩
      rw [object?_update, if_pos same, isOld]
      rfl
    · refine ⟨old, ?_, rfl⟩
      rw [object?_update, if_neg same, isOld]

theorem extends_referenceTo (object : LiveObject) :
    heap.Extends (heap.referenceTo address object).2 where
  targets := fun handle x leads =>
    @target?_allocate x handle object.id (some object.typeName) (some address) heap.slots leads
  holds := fun _ _ => id

theorem target?_referenceTo (object : LiveObject) :
    (heap.referenceTo address object).2.target? (heap.referenceTo address object).1 =
      some address := target?_allocate_new _ _ _ _

/-! ## Links between places -/

/-- The links of the location at an address. -/
def locationLinks? (heap : Heap) (address : Address) : Option LocationLinks :=
  (heap.object? address).bind LiveObject.locationLinks?

/-- The references of the entity at an address to its places. -/
def places (heap : Heap) (address : Address) : List Handle :=
  (((heap.object? address).bind LiveObject.entityLinks?).map EntityLinks.locations).getD []

theorem childLocations_eq :
    heap.childLocations x =
      ((heap.locationLinks? x).map fun links => links.children.filterMap heap.target?).getD [] := by
  unfold childLocations locationLinks?
  cases (heap.object? x).bind LiveObject.locationLinks? <;> rfl

theorem parentLocation?_eq :
    heap.parentLocation? x =
      ((heap.locationLinks? x).bind LocationLinks.parent).bind heap.follow? := by
  unfold parentLocation? locationLinks?
  cases (heap.object? x).bind LiveObject.locationLinks? <;> rfl

theorem deployedAt_eq : heap.deployedAt x = (heap.places x).filterMap heap.target? := by
  unfold deployedAt places
  cases (heap.object? x).bind LiveObject.entityLinks? <;> rfl

/-- Links between places lead to locations with the ids that they name. -/
structure Tidy (heap : Heap) : Prop where
  children : ∀ {x links handle}, heap.locationLinks? x = some links → handle ∈ links.children →
    ∃ y, heap.target? handle = some y ∧ heap.Holds ⟨.location, handle.id⟩ y
  parents : ∀ {x links link}, heap.locationLinks? x = some links → links.parent = some link →
    ∃ y, link.target = some y ∧ heap.Holds ⟨.location, link.id⟩ y
  places : ∀ {x handle}, handle ∈ heap.places x →
    ∃ y, heap.target? handle = some y ∧ heap.Holds ⟨.location, handle.id⟩ y

theorem tidy_empty : empty.Tidy := by
  refine ⟨fun found => ?_, fun found => ?_, fun member => ?_⟩
  · rw [locationLinks?, object?_empty] at found
    cases found
  · rw [locationLinks?, object?_empty] at found
    cases found
  · rw [places, object?_empty] at member
    cases member

theorem follow?_of_holds {link : WeakLink} {key : ObjectKey} (leads : link.target = some y)
    (holds : heap.Holds key y) : heap.follow? link = some y := by
  obtain ⟨object, isObject, -⟩ := holds
  rw [follow?, leads, Option.filter_some, isObject]
  rfl

section Tidy

variable (tidy : heap.Tidy)

include tidy

theorem Tidy.holds_of_mem_childLocations (isChild : y ∈ heap.childLocations x) :
    ∃ id, heap.Holds ⟨.location, id⟩ y := by
  rw [childLocations_eq] at isChild
  cases found : heap.locationLinks? x with
  | none =>
      rw [found] at isChild
      cases isChild
  | some links =>
      rw [found] at isChild
      obtain ⟨handle, member, leads⟩ := List.mem_filterMap.mp isChild
      obtain ⟨target, leadsTo, holds⟩ := tidy.children found member
      rw [leads] at leadsTo
      cases leadsTo
      exact ⟨handle.id, holds⟩

theorem Tidy.holds_of_parentLocation? (isParent : heap.parentLocation? x = some y) :
    ∃ id, heap.Holds ⟨.location, id⟩ y := by
  rw [parentLocation?_eq] at isParent
  obtain ⟨link, hasLink, leads⟩ := Option.bind_eq_some_iff.mp isParent
  obtain ⟨links, found, isLink⟩ := Option.bind_eq_some_iff.mp hasLink
  obtain ⟨target, leadsTo, holds⟩ := tidy.parents found isLink
  rw [follow?_of_holds leadsTo holds] at leads
  cases leads
  exact ⟨link.id, holds⟩

theorem Tidy.holds_of_mem_deployedAt (isPlace : y ∈ heap.deployedAt x) :
    ∃ id, heap.Holds ⟨.location, id⟩ y := by
  rw [deployedAt_eq] at isPlace
  obtain ⟨handle, member, leads⟩ := List.mem_filterMap.mp isPlace
  obtain ⟨target, leadsTo, holds⟩ := tidy.places member
  rw [leads] at leadsTo
  cases leadsTo
  exact ⟨handle.id, holds⟩

end Tidy

section Same

variable (tidy : before.Tidy) (growth : before.Extends after)

include growth

theorem filterMap_target?_same {handles : List Handle}
    (lead : ∀ handle ∈ handles, ∃ y, before.target? handle = some y) :
    handles.filterMap after.target? = handles.filterMap before.target? := by
  induction handles with
  | nil => rfl
  | cons handle rest inductionHypothesis =>
      obtain ⟨y, leads⟩ := lead handle (by simp)
      rw [List.filterMap_cons_some leads, List.filterMap_cons_some (growth.targets handle y leads),
        inductionHypothesis fun other member => lead other (by simp [member])]

include tidy

theorem childLocations_same (same : after.locationLinks? x = before.locationLinks? x) :
    after.childLocations x = before.childLocations x := by
  rw [childLocations_eq, childLocations_eq, same]
  cases found : before.locationLinks? x with
  | none => rfl
  | some links =>
      exact filterMap_target?_same growth fun handle member =>
        (tidy.children found member).imp fun _ leads => leads.1

theorem parentLocation?_same (same : after.locationLinks? x = before.locationLinks? x) :
    after.parentLocation? x = before.parentLocation? x := by
  rw [parentLocation?_eq, parentLocation?_eq, same]
  cases found : before.locationLinks? x with
  | none => rfl
  | some links =>
      cases isParent : links.parent with
      | none =>
          rw [Option.bind_some, isParent]
          rfl
      | some link =>
          obtain ⟨y, leads, holds⟩ := tidy.parents found isParent
          rw [Option.bind_some, isParent, Option.bind_some, Option.bind_some,
            follow?_of_holds leads holds, follow?_of_holds leads (growth.holds _ _ holds)]

theorem deployedAt_same (same : after.places x = before.places x) :
    after.deployedAt x = before.deployedAt x := by
  rw [deployedAt_eq, deployedAt_eq, same]
  exact filterMap_target?_same growth fun handle member =>
    (tidy.places member).imp fun _ leads => leads.1

end Same

/-- A heap stays tidy when every new link between places leads to what it names. -/
theorem Tidy.grow (tidy : before.Tidy) (growth : before.Extends after)
    (children : ∀ {x links handle}, after.locationLinks? x = some links → handle ∈ links.children →
      (∃ old, before.locationLinks? x = some old ∧ handle ∈ old.children) ∨
        ∃ y, after.target? handle = some y ∧ after.Holds ⟨.location, handle.id⟩ y)
    (parents : ∀ {x links link}, after.locationLinks? x = some links → links.parent = some link →
      (∃ old, before.locationLinks? x = some old ∧ old.parent = some link) ∨
        ∃ y, link.target = some y ∧ after.Holds ⟨.location, link.id⟩ y)
    (places : ∀ {x handle}, handle ∈ after.places x → handle ∈ before.places x ∨
      ∃ y, after.target? handle = some y ∧ after.Holds ⟨.location, handle.id⟩ y) :
    after.Tidy where
  children := by
    intro x links handle found member
    rcases children found member with ⟨old, wasFound, wasMember⟩ | new
    · obtain ⟨y, leads, holds⟩ := tidy.children wasFound wasMember
      exact ⟨y, growth.targets _ _ leads, growth.holds _ _ holds⟩
    · exact new
  parents := by
    intro x links link found isParent
    rcases parents found isParent with ⟨old, wasFound, wasParent⟩ | new
    · obtain ⟨y, leads, holds⟩ := tidy.parents wasFound wasParent
      exact ⟨y, leads, growth.holds _ _ holds⟩
    · exact new
  places := by
    intro x handle member
    rcases places member with wasMember | new
    · obtain ⟨y, leads, holds⟩ := tidy.places wasMember
      exact ⟨y, growth.targets _ _ leads, growth.holds _ _ holds⟩
    · exact new

/-! ## Operations that leave the links between places alone -/

/-- All objects keep their links between places; new objects have none. -/
structure SamePlaces (before after : Heap) : Prop where
  growth : before.Extends after
  tidy : before.Tidy → after.Tidy
  children : before.Tidy → ∀ x, after.childLocations x = before.childLocations x
  parents : before.Tidy → ∀ x, after.parentLocation? x = before.parentLocation? x
  deployed : before.Tidy → ∀ x, after.deployedAt x = before.deployedAt x

theorem samePlaces_of_links (growth : before.Extends after)
    (links : ∀ x, after.locationLinks? x = before.locationLinks? x)
    (places : ∀ x, after.places x = before.places x) : SamePlaces before after where
  growth := growth
  tidy := by
    intro tidy
    refine tidy.grow growth ?_ ?_ ?_
    · intro x links' handle found member
      exact Or.inl ⟨links', (links x).symm.trans found, member⟩
    · intro x links' link found isParent
      exact Or.inl ⟨links', (links x).symm.trans found, isParent⟩
    · intro x handle member
      exact Or.inl (places x ▸ member)
  children := fun tidy x => childLocations_same tidy growth (links x)
  parents := fun tidy x => parentLocation?_same tidy growth (links x)
  deployed := fun tidy x => deployedAt_same tidy growth (places x)

theorem SamePlaces.trans {between : Heap} (first : SamePlaces before between)
    (second : SamePlaces between after) : SamePlaces before after where
  growth := first.growth.trans second.growth
  tidy := fun tidy => second.tidy (first.tidy tidy)
  children := fun tidy x =>
    (second.children (first.tidy tidy) x).trans (first.children tidy x)
  parents := fun tidy x => (second.parents (first.tidy tidy) x).trans (first.parents tidy x)
  deployed := fun tidy x => (second.deployed (first.tidy tidy) x).trans (first.deployed tidy x)

/-- A change that lets objects keep their kind, their id and their links between places. -/
structure KeepsPlaces (change : LiveObject → LiveObject) : Prop where
  key : KeepsKey change
  locationLinks : ∀ object, (change object).locationLinks? = object.locationLinks?
  places : ∀ object, (change object).entityLinks?.map EntityLinks.locations =
    object.entityLinks?.map EntityLinks.locations

theorem samePlaces_update {change : LiveObject → LiveObject} (keeps : KeepsPlaces change) :
    SamePlaces heap (heap.update address change) := by
  refine samePlaces_of_links (extends_update keeps.key) (fun x => ?_) (fun x => ?_)
  · rw [locationLinks?, locationLinks?, object?_update]
    split
    · cases heap.object? x with
      | none => rfl
      | some object => exact keeps.locationLinks object
    · rfl
  · rw [places, places, object?_update]
    split
    · cases heap.object? x with
      | none => rfl
      | some object => exact congrArg (fun found => Option.getD found []) (keeps.places object)
    · rfl

theorem samePlaces_referenceTo (object : LiveObject) :
    SamePlaces heap (heap.referenceTo address object).2 :=
  samePlaces_of_links (extends_referenceTo object) (fun _ => rfl) fun _ => rfl

theorem keepsPlaces_mapEntityLinks {change : EntityLinks → EntityLinks}
    (keeps : ∀ links, (change links).locations = links.locations) :
    KeepsPlaces (LiveObject.mapEntityLinks change) where
  key := by
    intro object
    unfold LiveObject.mapEntityLinks LiveObject.key LiveObject.kind LiveObject.id
    cases isState : object.state <;> simp [isState]
  locationLinks := by
    intro object
    unfold LiveObject.mapEntityLinks LiveObject.locationLinks?
    cases isState : object.state <;> simp [isState]
  places := by
    intro object
    unfold LiveObject.mapEntityLinks LiveObject.entityLinks?
    cases isState : object.state <;> simp [isState, keeps]

/-- A new object has no links. -/
theorem samePlaces_create (kind : ObjectKind) (id typeName : String) :
    SamePlaces heap (heap.create (.blank kind id typeName)).2 := by
  have growth : heap.Extends (heap.create (.blank kind id typeName)).2 := extends_create _
  have links : ∀ x links,
      (heap.create (.blank kind id typeName)).2.locationLinks? x = some links →
        heap.locationLinks? x = some links ∨ links = ⟨none, []⟩ := by
    intro x links found
    rw [locationLinks?, object?_create] at found
    split at found
    · cases kind <;> cases found
      exact Or.inr rfl
    · exact Or.inl found
  have noLinks : ∀ {x}, x.index = heap.objects.size → heap.object? x = none := by
    intro x isLast
    rw [object?, isLast, Array.getElem?_eq_none (Nat.le_refl _)]
    rfl
  refine {
    growth := growth
    tidy := fun tidy => tidy.grow growth ?_ ?_ ?_
    children := fun tidy x => ?_
    parents := fun tidy x => ?_
    deployed := fun tidy x => ?_ }
  · intro x found handle isFound member
    rcases links x found isFound with old | new
    · exact Or.inl ⟨found, old, member⟩
    · subst new
      cases member
  · intro x found link isFound isParent
    rcases links x found isFound with old | new
    · exact Or.inl ⟨found, old, isParent⟩
    · subst new
      cases isParent
  · intro x handle member
    rw [places, object?_create] at member
    split at member
    · cases kind <;> cases member
    · exact Or.inl member
  · by_cases isLast : x.index = heap.objects.size
    · rw [childLocations_eq, childLocations_eq, locationLinks?, locationLinks?, object?_create,
        if_pos isLast, noLinks isLast]
      cases kind <;> rfl
    · refine childLocations_same tidy growth ?_
      rw [locationLinks?, object?_create, if_neg isLast, locationLinks?]
  · by_cases isLast : x.index = heap.objects.size
    · rw [parentLocation?_eq, parentLocation?_eq, locationLinks?, locationLinks?, object?_create,
        if_pos isLast, noLinks isLast]
      cases kind <;> rfl
    · refine parentLocation?_same tidy growth ?_
      rw [locationLinks?, object?_create, if_neg isLast, locationLinks?]
  · by_cases isLast : x.index = heap.objects.size
    · rw [deployedAt_eq, deployedAt_eq, places, places, object?_create, if_pos isLast,
        noLinks isLast]
      cases kind <;> rfl
    · refine deployedAt_same tidy growth ?_
      rw [places, object?_create, if_neg isLast, places]

/-! ## Operations that add a link -/

/-- Only one object gets further places. -/
structure Deploys (owner : Address) (before after : Heap) : Prop where
  growth : before.Extends after
  tidy : before.Tidy → after.Tidy
  children : before.Tidy → ∀ x, after.childLocations x = before.childLocations x
  parents : before.Tidy → ∀ x, after.parentLocation? x = before.parentLocation? x
  elsewhere : before.Tidy → ∀ x, x ≠ owner → after.deployedAt x = before.deployedAt x
  still : before.Tidy → ∀ x place, place ∈ before.deployedAt x → place ∈ after.deployedAt x

theorem SamePlaces.deploys (same : SamePlaces before after) (owner : Address) :
    Deploys owner before after where
  growth := same.growth
  tidy := same.tidy
  children := same.children
  parents := same.parents
  elsewhere := fun tidy x _ => same.deployed tidy x
  still := fun tidy x _ member => same.deployed tidy x ▸ member

theorem holds_location {object : LiveObject} (isObject : heap.object? x = some object)
    (isLocation : object.kind = .location) : heap.Holds ⟨.location, object.id⟩ x := by
  refine ⟨object, isObject, ?_⟩
  rw [LiveObject.key, isLocation]

theorem keepsKey_mapEntityLinks (change : EntityLinks → EntityLinks) :
    KeepsKey (LiveObject.mapEntityLinks change) := by
  intro object
  unfold LiveObject.mapEntityLinks LiveObject.key LiveObject.kind LiveObject.id
  cases isState : object.state <;> simp [isState]

theorem keepsKey_mapLocationLinks (change : LocationLinks → LocationLinks) :
    KeepsKey (LiveObject.mapLocationLinks change) := by
  intro object
  unfold LiveObject.mapLocationLinks LiveObject.key LiveObject.kind LiveObject.id
  cases isState : object.state <;> simp [isState]

theorem locationLinks?_mapEntityLinks (change : EntityLinks → EntityLinks) :
    (heap.update address (LiveObject.mapEntityLinks change)).locationLinks? x =
      heap.locationLinks? x := by
  rw [locationLinks?, locationLinks?, object?_update]
  split
  · cases heap.object? x with
    | none => rfl
    | some object =>
        unfold LiveObject.mapEntityLinks LiveObject.locationLinks?
        cases isState : object.state <;> simp [isState]
  · rfl

theorem locationLinks?_mapLocationLinks (change : LocationLinks → LocationLinks) :
    (heap.update address (LiveObject.mapLocationLinks change)).locationLinks? x =
      if x = address then (heap.locationLinks? x).map change else heap.locationLinks? x := by
  rw [locationLinks?, locationLinks?, object?_update]
  split
  · cases heap.object? x with
    | none => rfl
    | some object =>
        unfold LiveObject.mapLocationLinks LiveObject.locationLinks?
        cases isState : object.state <;> simp [isState]
  · rfl

theorem places_mapLocationLinks (change : LocationLinks → LocationLinks) :
    (heap.update address (LiveObject.mapLocationLinks change)).places x = heap.places x := by
  rw [places, places, object?_update]
  split
  · cases heap.object? x with
    | none => rfl
    | some object =>
        unfold LiveObject.mapLocationLinks LiveObject.entityLinks?
        cases isState : object.state <;> simp [isState]
  · rfl

theorem places_mapEntityLinks (change : EntityLinks → EntityLinks) {added : List Handle}
    (appends : ∀ links, (change links).locations = links.locations ++ added) :
    (heap.update address (LiveObject.mapEntityLinks change)).places x = heap.places x ∨
      (x = address ∧ (heap.update address (LiveObject.mapEntityLinks change)).places x =
        heap.places x ++ added) := by
  rw [places, places, object?_update]
  split
  · rename_i same
    cases heap.object? x with
    | none => exact Or.inl rfl
    | some object =>
        unfold LiveObject.mapEntityLinks LiveObject.entityLinks?
        cases isState : object.state with
        | entity links =>
            refine Or.inr ⟨same, ?_⟩
            simp [isState, appends]
        | location links => exact Or.inl (by simp [isState])
        | policy flags => exact Or.inl (by simp [isState])
  · exact Or.inl rfl

/-- An entity gets one more place. -/
theorem deploys_addLocation {owner target : Address} {object : LiveObject}
    (isObject : heap.object? target = some object) (isLocation : object.kind = .location) :
    Deploys owner heap (heap.addLocation owner target) := by
  have isAdded : heap.addLocation owner target =
      (heap.referenceTo target object).2.update owner (LiveObject.mapEntityLinks fun links =>
        { links with locations := links.locations ++ [(heap.referenceTo target object).1] }) := by
    rw [addLocation, appendReference, isObject]
  have growth : heap.Extends (heap.addLocation owner target) := by
    rw [isAdded]
    exact (extends_referenceTo object).trans (extends_update (keepsKey_mapEntityLinks _))
  have links : ∀ x, (heap.addLocation owner target).locationLinks? x = heap.locationLinks? x := by
    intro x
    rw [isAdded, locationLinks?_mapEntityLinks]
    rfl
  have leads : (heap.addLocation owner target).target? (heap.referenceTo target object).1 =
      some target := by
    rw [isAdded]
    exact target?_referenceTo object
  have appended : ∀ x, (heap.addLocation owner target).places x = heap.places x ∨
      (x = owner ∧ (heap.addLocation owner target).places x =
        heap.places x ++ [(heap.referenceTo target object).1]) := by
    intro x
    rw [isAdded]
    exact places_mapEntityLinks _ fun _ => rfl
  refine {
    growth := growth
    tidy := fun tidy => tidy.grow growth ?_ ?_ ?_
    children := fun tidy x => childLocations_same tidy growth (links x)
    parents := fun tidy x => parentLocation?_same tidy growth (links x)
    elsewhere := fun tidy x differs => deployedAt_same tidy growth ?_
    still := fun tidy x place member => ?_ }
  · intro x found handle isFound member
    exact Or.inl ⟨found, links x ▸ isFound, member⟩
  · intro x found link isFound isParent
    exact Or.inl ⟨found, links x ▸ isFound, isParent⟩
  · intro x handle member
    rcases appended x with same | ⟨-, longer⟩
    · exact Or.inl (same ▸ member)
    · rw [longer, List.mem_append, List.mem_singleton] at member
      refine member.imp id fun isNew => ⟨target, ?_, ?_⟩
      · rw [isNew]
        exact leads
      · rw [isNew]
        exact growth.holds _ _ (holds_location isObject isLocation)
  · exact (appended x).resolve_right fun longer => differs longer.1
  · rcases appended x with same | ⟨-, longer⟩
    · rw [deployedAt_same tidy growth same]
      exact member
    · rw [deployedAt_eq, longer, List.filterMap_append]
      refine List.mem_append_left _ ?_
      rw [filterMap_target?_same growth fun handle isPlace =>
        (tidy.places isPlace).imp fun _ found => found.1, ← deployedAt_eq]
      exact member

/-- A location is linked below another. -/
structure Links (parent child : Address) (before after : Heap) : Prop where
  growth : before.Extends after
  tidy : before.Tidy → after.Tidy
  children : before.Tidy → ∀ x y, y ∈ after.childLocations x ↔
    y ∈ before.childLocations x ∨ (x = parent ∧ y = child)
  parents : before.Tidy → ∀ x,
    after.parentLocation? x = if x = child then some parent else before.parentLocation? x
  deployed : before.Tidy → ∀ x, after.deployedAt x = before.deployedAt x

theorem locationLinks?_of_location {object : LiveObject} (isObject : heap.object? x = some object)
    (isLocation : object.kind = .location) : ∃ links, heap.locationLinks? x = some links := by
  rw [locationLinks?, isObject, Option.bind_some, LiveObject.locationLinks?]
  unfold LiveObject.kind at isLocation
  cases isState : object.state with
  | location links => exact ⟨links, rfl⟩
  | entity links =>
      rw [isState] at isLocation
      cases isLocation
  | policy flags =>
      rw [isState] at isLocation
      cases isLocation

/-- What the places refer to once a child has been appended to one of them, with a link back. -/
structure Joined (parent child : Address) (handle : Handle) (back : WeakLink)
    (before after : Heap) : Prop where
  growth : before.Extends after
  leads : after.target? handle = some child
  childHolds : after.Holds ⟨.location, handle.id⟩ child
  leadsBack : back.target = some parent
  parentHolds : after.Holds ⟨.location, back.id⟩ parent
  links : ∀ x, after.locationLinks? x = (before.locationLinks? x).map fun links =>
    ⟨if x = child then some back else links.parent,
      if x = parent then links.children ++ [handle] else links.children⟩
  places : ∀ x, after.places x = before.places x
  parentLinks : ∃ links, before.locationLinks? parent = some links
  childLinks : ∃ links, before.locationLinks? child = some links

section Joined

variable {parent child : Address} {back : WeakLink}
  (joined : Joined parent child handle back before after) (tidy : before.Tidy)

include joined tidy

theorem Joined.staysTidy : after.Tidy := by
  refine tidy.grow joined.growth ?_ ?_ fun member => Or.inl (joined.places _ ▸ member)
  · intro x found other isFound member
    rw [joined.links x, Option.map_eq_some_iff] at isFound
    obtain ⟨old, isOld, rfl⟩ := isFound
    by_cases isParent : x = parent
    · simp only [if_pos isParent, List.mem_append, List.mem_singleton] at member
      refine member.imp (fun wasMember => ⟨old, isOld, wasMember⟩) fun isNew => ?_
      rw [isNew]
      exact ⟨child, joined.leads, joined.childHolds⟩
    · simp only [if_neg isParent] at member
      exact Or.inl ⟨old, isOld, member⟩
  · intro x found link isFound hasParent
    rw [joined.links x, Option.map_eq_some_iff] at isFound
    obtain ⟨old, isOld, rfl⟩ := isFound
    by_cases isChild : x = child
    · simp only [if_pos isChild, Option.some.injEq] at hasParent
      subst hasParent
      exact Or.inr ⟨parent, joined.leadsBack, joined.parentHolds⟩
    · simp only [if_neg isChild] at hasParent
      exact Or.inl ⟨old, isOld, hasParent⟩

theorem Joined.mem_childLocations :
    y ∈ after.childLocations x ↔ y ∈ before.childLocations x ∨ (x = parent ∧ y = child) := by
  rw [childLocations_eq, childLocations_eq, joined.links x]
  cases isOld : before.locationLinks? x with
  | none =>
      have notParent : x ≠ parent := by
        rintro rfl
        obtain ⟨links, hasLinks⟩ := joined.parentLinks
        rw [hasLinks] at isOld
        cases isOld
      simp [notParent]
  | some old =>
      have still := filterMap_target?_same joined.growth fun other member =>
        (tidy.children isOld member).imp fun _ found => found.1
      by_cases isParent : x = parent
      · simp only [isParent, reduceIte, Option.map_some, Option.getD_some, List.filterMap_append,
          still, List.filterMap_cons_some joined.leads, List.filterMap_nil, List.mem_append,
          List.mem_singleton, true_and]
      · simp only [isParent, reduceIte, Option.map_some, Option.getD_some, still, false_and,
          or_false]

theorem Joined.parentLocation?_eq :
    after.parentLocation? x = if x = child then some parent else before.parentLocation? x := by
  rw [Heap.parentLocation?_eq, Heap.parentLocation?_eq, joined.links x]
  by_cases isChild : x = child
  · obtain ⟨links, hasLinks⟩ := joined.childLinks
    simp only [isChild, hasLinks, reduceIte, Option.map_some, Option.bind_some]
    exact follow?_of_holds joined.leadsBack joined.parentHolds
  · rw [if_neg isChild]
    cases isOld : before.locationLinks? x with
    | none => rfl
    | some old =>
        simp only [if_neg isChild, Option.map_some, Option.bind_some]
        cases hasParent : old.parent with
        | none => rfl
        | some link =>
            obtain ⟨y, leadsTo, holds⟩ := tidy.parents isOld hasParent
            rw [Option.bind_some, Option.bind_some, follow?_of_holds leadsTo holds,
              follow?_of_holds leadsTo (joined.growth.holds _ _ holds)]

end Joined

theorem Joined.isLink {parent child : Address} {back : WeakLink}
    (joined : Joined parent child handle back before after) : Links parent child before after where
  growth := joined.growth
  tidy := joined.staysTidy
  children := fun tidy _ _ => joined.mem_childLocations tidy
  parents := fun tidy _ => joined.parentLocation?_eq tidy
  deployed := fun tidy x => deployedAt_same tidy joined.growth (joined.places x)

theorem joined_addChildLocation {parent child : Address} {parentObject childObject : LiveObject}
    (isParent : heap.object? parent = some parentObject)
    (parentIsLocation : parentObject.kind = .location)
    (isChild : heap.object? child = some childObject)
    (childIsLocation : childObject.kind = .location) :
    Joined parent child (heap.referenceTo child childObject).1 (linkTo parent parentObject) heap
      (heap.addChildLocation parent child) := by
  let handle := (heap.referenceTo child childObject).1
  have isLinked : heap.addChildLocation parent child =
      (((heap.referenceTo child childObject).2.update child (LiveObject.mapLocationLinks fun links =>
        { links with parent := some (linkTo parent parentObject) })).update parent
          (LiveObject.mapLocationLinks fun links =>
            { links with children := links.children ++ [handle] })) := by
    rw [addChildLocation, isParent, isChild]
  have growth : heap.Extends (heap.addChildLocation parent child) := by
    rw [isLinked]
    exact (extends_referenceTo childObject).trans
      ((extends_update (keepsKey_mapLocationLinks _)).trans
        (extends_update (keepsKey_mapLocationLinks _)))
  refine {
    growth := growth
    leads := ?_
    childHolds := growth.holds _ _ (holds_location isChild childIsLocation)
    leadsBack := rfl
    parentHolds := growth.holds _ _ (holds_location isParent parentIsLocation)
    links := fun x => ?_
    places := fun x => ?_
    parentLinks := locationLinks?_of_location isParent parentIsLocation
    childLinks := locationLinks?_of_location isChild childIsLocation }
  · rw [isLinked]
    exact target?_referenceTo childObject
  · have unchanged : (heap.referenceTo child childObject).2.locationLinks? x =
        heap.locationLinks? x := rfl
    rw [isLinked, locationLinks?_mapLocationLinks, locationLinks?_mapLocationLinks, unchanged]
    cases heap.locationLinks? x with
    | none => split <;> split <;> rfl
    | some links => split <;> split <;> rfl
  · rw [isLinked, places_mapLocationLinks, places_mapLocationLinks]
    rfl

theorem links_addChildLocation {parent child : Address} {parentObject childObject : LiveObject}
    (isParent : heap.object? parent = some parentObject)
    (parentIsLocation : parentObject.kind = .location)
    (isChild : heap.object? child = some childObject)
    (childIsLocation : childObject.kind = .location) :
    Links parent child heap (heap.addChildLocation parent child) :=
  (joined_addChildLocation isParent parentIsLocation isChild childIsLocation).isLink

end GraphCheckpoint.Heap
