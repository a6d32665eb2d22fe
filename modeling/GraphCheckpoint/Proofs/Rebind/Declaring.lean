import GraphCheckpoint.Proofs.Rebind.Loading

/-!
Contract: which types the references of rebuilt objects declare, and to what they lead.

Owns:
- `Heap.pointers`, by which an object leads to others, and `Heap.Reaches`, all that is reached from a
  rebuilt graph;
- `Pass.Truthful`, what a pass keeps whatever the graph is: slots lead only to objects that were made
  for the records of their ids, and the objects made refer to others through the arena alone;
- `Heap.Declares`, that the pointers of these objects say what was said first of their ids;
- that a pass over loaded records fails for no declared type, or leaves such a heap.

Does not own: which passes succeed.

A record is compared with the earlier mentions of its id by its kind alone. So the type that a pointer
declares is that of the earliest mention, and the type of the object that it leads to is that of the
record, and nothing ties the one to the other.
-/

namespace GraphCheckpoint

open GraphCheckpoint.Encoding

variable {graph : Graph LiveValue} {heap : Heap} {base : Nat} {entries : Table ArenaEntry}
  {registry : Registry} {strictness : TypeResolution} {kind : ObjectKind} {id key : String}
  {address : Address} {mentions records : List Mention}

/-! ## Pointers -/

namespace Heap

/-- By which an object leads to others: as what each of them is mentioned, and where it is. -/
def pointers (heap : Heap) (object : LiveObject) : List (Mention × Option Address) :=
  (object.handles.map fun reference =>
    (⟨reference.1, reference.2.id, reference.2.declaredType⟩, heap.target? reference.2)) ++
  object.backLinks.map fun link =>
    (⟨link.1, link.2.id, link.2.declaredType⟩, heap.follow? link.2)

/-- The object at an address is rebuilt, or a pointer of such an object leads to it, and so on. -/
inductive Reaches (heap : Heap) (outcome : RebindOutcome) : Address → Prop
  | rebuilt {kind : ObjectKind} {id : String} {address : Address}
      (isBuilt : (outcome.objects kind).get? id = some address) : Reaches heap outcome address
  | pointer {address target : Address} {object : LiveObject} {pointer : Mention × Option Address}
      (isReached : Reaches heap outcome address) (isObject : heap.object? address = some object)
      (isPointer : pointer ∈ heap.pointers object) (leads : pointer.2 = some target) :
      Reaches heap outcome target

/-- From an address on, every pointer of an object is as the earliest mention of its id, and the
objects that it leads to lie there too and are as the record of the id mentions them. -/
def Declares (mentions records : List Mention) (base : Nat) (heap : Heap) : Prop :=
  ∀ address object, base ≤ address.index → heap.object? address = some object →
    ∀ pointer ∈ heap.pointers object,
      Mention.earliest? mentions pointer.1.id = some pointer.1 ∧
      ∀ target, pointer.2 = some target → base ≤ target.index ∧
        ∀ other, heap.object? target = some other →
          other.key = ⟨pointer.1.kind, pointer.1.id⟩ ∧
          ⟨pointer.1.kind, pointer.1.id, some other.typeName⟩ ∈ records

/-- What is reached from rebuilt objects lies where they lie. -/
theorem Declares.le_of_reaches {outcome : RebindOutcome} (declares : heap.Declares mentions records base)
    (built : ∀ kind id address, (outcome.objects kind).get? id = some address → base ≤ address.index)
    (isReached : heap.Reaches outcome address) : base ≤ address.index := by
  induction isReached with
  | rebuilt isBuilt => exact built _ _ _ isBuilt
  | pointer _ isObject isPointer leads isLater =>
      exact ((declares _ _ isLater isObject _ isPointer).2 _ leads).1

section Dropping

variable {after : Heap} (sameTargets : ∀ handle, after.target? handle = heap.target? handle)
  (noneMade : ∀ address object, after.object? address = some object →
    heap.object? address = some object)

include sameTargets noneMade

/-- Where objects have been dropped, a pointer leads where it led, or nowhere. -/
theorem pointer_of_dropped {object : LiveObject} {pointer : Mention × Option Address}
    (isPointer : pointer ∈ after.pointers object) :
    ∃ old ∈ heap.pointers object, old.1 = pointer.1 ∧
      ∀ target, pointer.2 = some target → old.2 = some target := by
  rcases List.mem_append.mp isPointer with isHandle | isLink
  · obtain ⟨reference, member, rfl⟩ := List.mem_map.mp isHandle
    refine ⟨_, List.mem_append_left _ (List.mem_map_of_mem member), rfl, fun target leads => ?_⟩
    exact (sameTargets reference.2).symm.trans leads
  · obtain ⟨link, member, rfl⟩ := List.mem_map.mp isLink
    refine ⟨_, List.mem_append_right _ (List.mem_map_of_mem member), rfl, fun target leads => ?_⟩
    obtain ⟨isTarget, isAlive⟩ := Option.filter_eq_some_iff.mp leads
    obtain ⟨other, isOther⟩ := Option.isSome_iff_exists.mp isAlive
    refine Option.filter_eq_some_iff.mpr ⟨isTarget, ?_⟩
    rw [noneMade _ _ isOther]
    rfl

/-- What is still reached was reached before. -/
theorem Reaches.of_dropped {outcome : RebindOutcome} (isReached : after.Reaches outcome address) :
    heap.Reaches outcome address := by
  induction isReached with
  | rebuilt isBuilt => exact .rebuilt isBuilt
  | pointer _ isObject isPointer leads wasReached =>
      obtain ⟨old, isOld, -, led⟩ := pointer_of_dropped sameTargets noneMade isPointer
      exact .pointer wasReached (noneMade _ _ isObject) isOld (led _ leads)

end Dropping

end Heap

/-! ## Objects of records -/

/-- An object of the kind, the id and the type of a record has been made at an address, behind those
that there were before. -/
structure MadeFor (graph : Graph LiveValue) (base : Nat) (heap : Heap) (kind : ObjectKind) (id : String)
    (address : Address) : Prop where
  isNew : base ≤ address.index
  made : ∃ object, heap.object? address = some object ∧ object.key = ⟨kind, id⟩ ∧
    ⟨kind, id, some object.typeName⟩ ∈ graph.mentions

/-- What is found where an object was made for a record is as the record says. -/
theorem MadeFor.isAsRecorded (made : MadeFor graph base heap kind id address) :
    base ≤ address.index ∧ ∀ other, heap.object? address = some other →
      other.key = ⟨kind, id⟩ ∧ ⟨kind, id, some other.typeName⟩ ∈ graph.mentions := by
  obtain ⟨isNew, object, isObject, isKey, isMentioned⟩ := made
  refine ⟨isNew, fun other isOther => ?_⟩
  cases isObject.symm.trans isOther
  exact ⟨isKey, isMentioned⟩

/-- What has been made for a record stays so. -/
def StaysMade (graph : Graph LiveValue) (base : Nat) (before after : Heap) : Prop :=
  ∀ kind id address, MadeFor graph base before kind id address →
    MadeFor graph base after kind id address

theorem StaysMade.trans {first second third : Heap} (early : StaysMade graph base first second)
    (late : StaysMade graph base second third) : StaysMade graph base first third :=
  fun kind id address made => late kind id address (early kind id address made)

/-- A blank object is made for a record. -/
theorem madeFor_withBuilt {typeName : String} (isLater : base ≤ heap.objects.size)
    (isMentioned : ⟨kind, key, some typeName⟩ ∈ graph.mentions) (slot : Nat) :
    MadeFor graph base (heap.withBuilt (LiveObject.blank kind key typeName) slot) kind key
      ⟨heap.objects.size⟩ := by
  refine ⟨isLater, _, (Heap.object?_withBuilt _ _ _).trans (if_pos rfl), ?_, isMentioned⟩
  cases kind <;> rfl

theorem staysMade_withBuilt (graph : Graph LiveValue) (base : Nat) (heap : Heap)
    (object : LiveObject) (slot : Nat) : StaysMade graph base heap (heap.withBuilt object slot) := by
  rintro kind id address ⟨isNew, old, isOld, isMade⟩
  exact ⟨isNew, old, Heap.object?_create_of_some object isOld, isMade⟩

/-- What was made stays so where one of the objects keeps its key and its type. -/
theorem MadeFor.staysMade_update (made : MadeFor graph base heap kind id address)
    {change : LiveObject → LiveObject}
    (keeps : ∀ object, object.key = ⟨kind, id⟩ →
      (change object).key = ⟨kind, id⟩ ∧ (change object).typeName = object.typeName) :
    StaysMade graph base heap (heap.update address change) := by
  obtain ⟨-, old, isOld, isKey, -⟩ := made
  rintro other key place ⟨isLater, object, isObject, isOther, isMentioned⟩
  refine ⟨isLater, ?_⟩
  rw [Heap.object?_update]
  split
  · rename_i same
    subst same
    cases isOld.symm.trans isObject
    cases isKey.symm.trans isOther
    obtain ⟨sameKey, sameType⟩ := keeps old isKey
    exact ⟨_, by rw [isOld]; rfl, sameKey, sameType ▸ isMentioned⟩
  · exact ⟨object, isObject, isOther, isMentioned⟩

/-- The arena has this reference for its id, as one of the kind. -/
def Known (entries : Table ArenaEntry) (kind : ObjectKind) (handle : Handle) : Prop :=
  ∃ recorded, entries.get? handle.id = some ⟨kind, handle, recorded⟩

/-- A link back was made of a reference of the arena, and leads, if anywhere, to the object made for
the record of its id. -/
def LinksBy (graph : Graph LiveValue) (base : Nat) (entries : Table ArenaEntry) (heap : Heap)
    (kind : ObjectKind) (link : WeakLink) : Prop :=
  ∃ handle, Known entries kind handle ∧ handle.id = link.id ∧
    handle.declaredType = link.declaredType ∧
    ∀ address, link.target = some address → MadeFor graph base heap kind link.id address

/-- An object refers to others through the arena alone. -/
structure RefersBy (graph : Graph LiveValue) (base : Nat) (entries : Table ArenaEntry) (heap : Heap)
    (object : LiveObject) : Prop where
  handles : ∀ reference ∈ object.handles, Known entries reference.1 reference.2
  backLinks : ∀ link ∈ object.backLinks, LinksBy graph base entries heap link.1 link.2

theorem RefersBy.stays {after : Heap} {object : LiveObject}
    (refers : RefersBy graph base entries heap object) (stays : StaysMade graph base heap after) :
    RefersBy graph base entries after object where
  handles := refers.handles
  backLinks := by
    intro link member
    obtain ⟨handle, known, sameId, sameType, leads⟩ := refers.backLinks link member
    exact ⟨handle, known, sameId, sameType, fun address isTarget =>
      stays _ _ _ (leads address isTarget)⟩

theorem refersBy_blank (typeName : String) :
    RefersBy graph base entries heap (LiveObject.blank kind id typeName) where
  handles := by cases kind <;> nofun
  backLinks := by cases kind <;> nofun

section Restored

variable {object : LiveObject}

theorem refersBy_entity {links : EntityLinks} (isEntity : object.state = .entity links)
    (values : ∀ reference ∈ object.common.references Value.referencesOfEntries,
      Known entries reference.1 reference.2)
    (children : ∀ handle ∈ links.children, Known entries .entity handle)
    (locations : ∀ handle ∈ links.locations, Known entries .location handle)
    (policies : ∀ handle ∈ links.policies, Known entries .policy handle)
    (enrichers : ∀ handle ∈ links.enrichers, Known entries .policy handle)
    (parent : ∀ link ∈ links.parent, LinksBy graph base entries heap .entity link)
    (application : ∀ link ∈ links.application, LinksBy graph base entries heap .entity link) :
    RefersBy graph base entries heap object where
  handles := by
    intro reference member
    simp only [LiveObject.handles, LiveObject.linked, LiveObject.inValues, LiveObject.flags, isEntity,
      Value.referencesOfEntries, List.append_nil, List.mem_append, List.mem_map] at member
    rcases member with (((⟨handle, isChild, rfl⟩ | ⟨handle, isLocation, rfl⟩) |
      ⟨handle, isPolicy, rfl⟩) | ⟨handle, isEnricher, rfl⟩) | isValue
    · exact children handle isChild
    · exact locations handle isLocation
    · exact policies handle isPolicy
    · exact enrichers handle isEnricher
    · exact values reference isValue
  backLinks := by
    intro link member
    simp only [LiveObject.backLinks, isEntity, List.mem_append, List.mem_map,
      Option.mem_toList] at member
    rcases member with ⟨back, isParent, rfl⟩ | ⟨back, isApplication, rfl⟩
    · exact parent back isParent
    · exact application back isApplication

theorem refersBy_location {links : LocationLinks} (isLocation : object.state = .location links)
    (values : ∀ reference ∈ object.common.references Value.referencesOfEntries,
      Known entries reference.1 reference.2)
    (children : ∀ handle ∈ links.children, Known entries .location handle)
    (parent : ∀ link ∈ links.parent, LinksBy graph base entries heap .location link) :
    RefersBy graph base entries heap object where
  handles := by
    intro reference member
    simp only [LiveObject.handles, LiveObject.linked, LiveObject.inValues, LiveObject.flags,
      isLocation, Value.referencesOfEntries, List.append_nil, List.mem_append, List.mem_map] at member
    rcases member with ⟨handle, isChild, rfl⟩ | isValue
    · exact children handle isChild
    · exact values reference isValue
  backLinks := by
    intro link member
    simp only [LiveObject.backLinks, isLocation, List.mem_map, Option.mem_toList] at member
    obtain ⟨back, isParent, rfl⟩ := member
    exact parent back isParent

theorem refersBy_policy {flags : Table LiveValue} (isPolicy : object.state = .policy flags)
    (values : ∀ reference ∈ object.common.references Value.referencesOfEntries ++
      Value.referencesOfEntries flags, Known entries reference.1 reference.2) :
    RefersBy graph base entries heap object where
  handles := by
    intro reference member
    simp only [LiveObject.handles, LiveObject.linked, LiveObject.inValues, LiveObject.flags,
      isPolicy, List.nil_append] at member
    exact values reference member
  backLinks := by
    intro link member
    simp only [LiveObject.backLinks, isPolicy] at member
    cases member

end Restored

/-! ## Failures -/

namespace Failure

/-- The failure does not say that types or kinds differ. -/
def IsNoMismatch : Failure → Prop
  | .typeMismatch _ => False
  | _ => True

/-- If the failure says that types or kinds differ, then it says that a mention is of another kind than
the earliest one of its id. -/
def OnlyKindsDiffer (mentions : List Mention) (failure : Failure) : Prop :=
  ∀ detail, failure = .typeMismatch detail →
    ∃ mention ∈ mentions, ∃ earliest, Mention.earliest? mentions mention.id = some earliest ∧
      earliest.kind ≠ mention.kind ∧ failure = kindClash mention.id earliest.kind mention.kind

theorem IsNoMismatch.onlyKindsDiffer {failure : Failure} (noMismatch : failure.IsNoMismatch) :
    failure.OnlyKindsDiffer mentions := by
  rintro detail rfl
  exact noMismatch.elim

end Failure

namespace Arena

variable {arena : Arena}

/-- A slot that gets bound is that of an entry. -/
theorem bind_ends (arena : Arena) (kind : ObjectKind) (id : String) (address : Address) :
    (∃ failure, arena.bind kind id address = .error failure ∧ failure.isTypeNotFound = false ∧
        failure.IsNoMismatch) ∨
      ∃ handle, arena.entries.get? id = some ⟨kind, handle, true⟩ ∧
        arena.bind kind id address = .ok { arena with
          heap := { arena.heap with
            slots := ⟨arena.heap.slots.bindings.setIfInBounds handle.slot (some address)⟩ } } := by
  rcases arena.bind_cases kind id address with fails | ⟨_, fails⟩ | ⟨handle, isMet, -, binds⟩
  · exact Or.inl ⟨_, fails, rfl, trivial⟩
  · exact Or.inl ⟨_, fails, rfl, trivial⟩
  · exact Or.inr ⟨handle, isMet, binds⟩

theorem checkReferences_ends (arena : Arena) :
    (∃ failure, arena.checkReferences = .error failure ∧ failure.IsNoMismatch) ∨
      arena.checkReferences = .ok () := by
  rw [Arena.checkReferences]
  cases leastKey arena.missing with
  | none => exact Or.inr rfl
  | some key => exact Or.inl ⟨_, rfl, trivial⟩

end Arena

/-! ## What a pass keeps -/

variable {arena : Arena}

/-- The ids are those that were met before the pass; the slot of an id leads, if anywhere, to the object
that was made for its record; all objects made behave ordinarily, and refer to others through the
arena. -/
structure Truthful (graph : Graph LiveValue) (base : Nat) (entries : Table ArenaEntry)
    (arena : Arena) : Prop where
  sameEntries : arena.entries = entries
  isLater : base ≤ arena.heap.objects.size
  inRange : ∀ id entry, entries.get? id = some entry →
    entry.handle.slot < arena.heap.slots.bindings.size
  leads : ∀ id entry address, entries.get? id = some entry →
    arena.heap.target? entry.handle = some address →
      MadeFor graph base arena.heap entry.kind id address
  objects : ∀ address object, base ≤ address.index →
    arena.heap.object? address = some object →
      object.behaviour = .ordinary ∧ RefersBy graph base entries arena.heap object

/-- Nothing has been made or bound where the arena is pristine. -/
theorem truthful_of_pristine (pristine : arena.Pristine heap) :
    Truthful graph heap.objects.size arena.entries arena where
  sameEntries := rfl
  isLater := Nat.le_of_eq (congrArg Array.size pristine.objects).symm
  inRange := pristine.inRange
  leads := by
    intro id entry address isEntry isTarget
    rw [pristine.unbound id entry isEntry] at isTarget
    cases isTarget
  objects := by
    intro address object isLater isObject
    rw [Heap.object?, pristine.objects, Array.getElem?_eq_none isLater] at isObject
    cases isObject

section Keeping

variable (truthful : Truthful graph base entries arena)

include truthful

theorem Truthful.linksBy {handle : Handle} (known : Known entries kind handle) :
    LinksBy graph base entries arena.heap kind (arena.heap.downgrade handle) := by
  obtain ⟨recorded, isEntry⟩ := known
  exact ⟨handle, ⟨recorded, isEntry⟩, rfl, rfl, fun address isTarget =>
    truthful.leads handle.id _ address isEntry isTarget⟩

/-- The object of a record is built, and the slot of its id bound to it. -/
theorem Truthful.withBuilt (apart : Apart entries) {handle : Handle} {typeName : String}
    (isEntry : entries.get? key = some ⟨kind, handle, true⟩)
    (isMentioned : ⟨kind, key, some typeName⟩ ∈ graph.mentions) :
    Truthful graph base entries
      ⟨entries, arena.heap.withBuilt (LiveObject.blank kind key typeName) handle.slot⟩ := by
  have stays := staysMade_withBuilt graph base arena.heap (LiveObject.blank kind key typeName)
    handle.slot
  refine {
    sameEntries := rfl
    isLater := ?_
    inRange := fun id entry found => ?_
    leads := fun id entry address found isTarget => ?_
    objects := fun address object isNew isObject => ?_ }
  · change base ≤ (arena.heap.objects.push _).size
    rw [Array.size_push]
    exact Nat.le_succ_of_le truthful.isLater
  · rw [Heap.size_bindings_withBuilt]
    exact truthful.inRange id entry found
  · rw [Heap.target?_withBuilt (truthful.inRange key _ isEntry)] at isTarget
    split at isTarget
    · rename_i sameSlot
      -- No other id has this slot.
      obtain rfl := apart.distinct id key entry _ found isEntry sameSlot
      cases found.symm.trans isEntry
      cases isTarget
      exact madeFor_withBuilt truthful.isLater isMentioned handle.slot
    · exact stays _ _ _ (truthful.leads id entry address found isTarget)
  · rw [Heap.object?_withBuilt] at isObject
    split at isObject
    · cases isObject
      exact ⟨rfl, refersBy_blank typeName⟩
    · obtain ⟨isOrdinary, refers⟩ := truthful.objects address object isNew isObject
      exact ⟨isOrdinary, refers.stays stays⟩

/-- The object that was made for a record is changed, but for its key and its type. -/
theorem Truthful.update (made : MadeFor graph base arena.heap kind id address)
    (change : Heap → LiveObject → LiveObject)
    (keeps : ∀ object, object.key = ⟨kind, id⟩ → (change arena.heap object).key = ⟨kind, id⟩ ∧
      (change arena.heap object).typeName = object.typeName ∧
      (change arena.heap object).behaviour = object.behaviour)
    (refers : ∀ object,
      RefersBy graph base entries arena.heap (change arena.heap object)) :
    Truthful graph base entries
      { arena with heap := arena.heap.update address (change arena.heap) } := by
  have stays := made.staysMade_update fun object isKey =>
    ⟨(keeps object isKey).1, (keeps object isKey).2.1⟩
  obtain ⟨isNew, old, isOld, isKey, -⟩ := made
  refine {
    sameEntries := truthful.sameEntries
    isLater := ?_
    inRange := truthful.inRange
    leads := fun id entry place isEntry isTarget =>
      stays _ _ _ (truthful.leads id entry place isEntry isTarget)
    objects := fun place object isLater isObject => ?_ }
  · change base ≤ (arena.heap.objects.modify _ _).size
    rw [Array.size_modify]
    exact truthful.isLater
  · change Heap.object? (arena.heap.update address _) place = some object at isObject
    rw [Heap.object?_update] at isObject
    split at isObject
    · rename_i same
      subst same
      rw [isOld] at isObject
      cases isObject
      have wasOrdinary := (truthful.objects _ _ isNew isOld).1
      exact ⟨(keeps old isKey).2.2.trans wasOrdinary, (refers old).stays stays⟩
    · obtain ⟨isOrdinary, refersOld⟩ := truthful.objects place object isLater isObject
      exact ⟨isOrdinary, refersOld.stays stays⟩

/-- The references of an arena declare what was said first of their ids. -/
theorem Truthful.declares (recalls : arena.Recalls mentions) :
    arena.heap.Declares mentions graph.mentions base := by
  intro address object isLater isObject pointer isPointer
  obtain ⟨-, refers⟩ := truthful.objects address object isLater isObject
  have earliest : ∀ kind handle, Known entries kind handle →
      Mention.earliest? mentions handle.id = some ⟨kind, handle.id, handle.declaredType⟩ := by
    rintro kind handle ⟨recorded, isEntry⟩
    rw [← truthful.sameEntries] at isEntry
    exact recalls.earliest isEntry
  rcases List.mem_append.mp isPointer with isHandle | isLink
  · obtain ⟨reference, member, rfl⟩ := List.mem_map.mp isHandle
    have known := refers.handles reference member
    refine ⟨earliest _ _ known, fun target leads => ?_⟩
    obtain ⟨recorded, isEntry⟩ := known
    exact (truthful.leads _ _ target isEntry leads).isAsRecorded
  · obtain ⟨link, member, rfl⟩ := List.mem_map.mp isLink
    obtain ⟨handle, known, sameId, sameType, made⟩ := refers.backLinks link member
    have isEarliest := earliest _ _ known
    rw [sameId, sameType] at isEarliest
    refine ⟨isEarliest, fun target leads => ?_⟩
    exact (made target (Option.filter_eq_some_iff.mp leads).1).isAsRecorded

end Keeping

namespace Pass

variable {state : PassState}

/-- The part of a pass stays truthful if it succeeds, and what was made stays so; it fails for no type
or kind. -/
def Stays {α : Type} (graph : Graph LiveValue) (base : Nat) (entries : Table ArenaEntry)
    (state : PassState) (part : Pass α) (holds : α → Heap → Prop) : Prop :=
  Ends part state Failure.IsNoMismatch fun result after => Truthful graph base entries after.arena ∧
    StaysMade graph base state.arena.heap after.arena.heap ∧ holds result after.arena.heap

/-! ## Building -/

section Building

variable (basic : registry.Basic) (apart : Apart entries)
  (truthful : Truthful graph base entries state.arena)

include basic apart truthful

/-- The object of a record of a registered type is built, unless its slot cannot be bound. -/
theorem build_stays {typeName : String} (isMentioned : ⟨kind, key, some typeName⟩ ∈ graph.mentions)
    (isType : registry.contains kind typeName = true) :
    Ends (build registry kind key typeName) state
      (fun failure => failure.isTypeNotFound = false ∧ failure.IsNoMismatch)
      fun address after => Truthful graph base entries after.arena ∧
        StaysMade graph base state.arena.heap after.arena.heap ∧
        MadeFor graph base after.arena.heap kind key address := by
  rcases (made kind key typeName state).bind_ends kind key (newAddress state) with
    ⟨failure, fails, noMismatch⟩ | ⟨handle, isEntry, binds⟩
  · obtain ⟨remembered, ran⟩ := build_of_bind basic isType fails
    exact .of_error ran noMismatch
  · obtain ⟨remembered, ran⟩ := build_of_bind basic isType binds
    obtain rfl := truthful.sameEntries
    exact .of_ok ran ⟨truthful.withBuilt apart isEntry isMentioned, staysMade_withBuilt _ _ _ _ _,
      madeFor_withBuilt truthful.isLater isMentioned handle.slot⟩

/-- An object is built, or its type is not registered and it is passed over. -/
theorem buildOrSkip_stays {record : ObjectMemento LiveValue}
    (isMentioned : ⟨record.kind, key, some record.typeName⟩ ∈ graph.mentions) :
    Stays graph base entries state (buildOrSkip registry strictness key record) fun built heap =>
      ∀ address ∈ built, MadeFor graph base heap record.kind key address := by
  rw [Stays]
  cases isType : registry.contains record.kind record.typeName with
  | false =>
      cases strictness with
      | lenient => exact .of_ok (buildOrSkip_lenient isType) ⟨truthful, fun _ _ _ => id, nofun⟩
      | strict => exact .of_error (buildOrSkip_strict isType) trivial
  | true =>
      rcases build_stays basic apart truthful isMentioned isType with
        ⟨failure, after, ran, notUnknown, noMismatch⟩ | ⟨address, after, ran, afterTruthful, stays, made⟩
      · exact .of_error (buildOrSkip_failed ran notUnknown) noMismatch
      · refine .of_ok (buildOrSkip_built ran) ⟨afterTruthful, stays, ?_⟩
        rintro _ ⟨⟩
        exact made

/-- The objects of a kind are built. -/
theorem buildKind_stays (kind : ObjectKind) :
    Stays graph base entries state (buildKind registry strictness graph kind) fun table heap =>
      ∀ id address, table.get? id = some address → MadeFor graph base heap kind id address := by
  rw [Stays, buildKind]
  refine Ends.bind (ends_mapM (graph.records kind)
    (fun _ results (next : PassState) => Truthful graph base entries next.arena ∧
      StaysMade graph base state.arena.heap next.arena.heap ∧
      ∀ key address, (Table.ofEntries (results.filterMap id)).get? key = some address →
        MadeFor graph base next.arena.heap kind key address)
    (fun done results entry rest next isWhole held => ?_) ⟨truthful, fun _ _ _ => id, nofun⟩)
    fun results after held => .of_ok rfl held
  obtain ⟨nextTruthful, nextStays, built⟩ := held
  have member : entry ∈ graph.records kind := by
    rw [isWhole]
    simp
  have isKind : entry.2.kind = kind := Graph.kind_of_mem_records member
  have isMentioned : ⟨entry.2.kind, entry.1, some entry.2.typeName⟩ ∈ graph.mentions := by
    rw [isKind]
    exact List.mem_flatMap.mpr ⟨kind, kind.mem_rebindOrder, List.mem_map_of_mem member⟩
  refine (buildOrSkip_stays basic apart nextTruthful isMentioned).bind fun result after held => ?_
  obtain ⟨afterTruthful, afterStays, made⟩ := held
  refine .of_ok rfl ⟨afterTruthful, nextStays.trans afterStays, fun key address isBuilt => ?_⟩
  cases result with
  | none =>
      simp only [Option.map_none, List.filterMap_append, List.filterMap_cons, id,
        List.filterMap_nil, List.append_nil] at isBuilt
      exact afterStays _ _ _ (built key address isBuilt)
  | some last =>
      have isInsert : Table.ofEntries ((results ++ [some (entry.1, last)]).filterMap id) =
          (Table.ofEntries (results.filterMap id)).insert entry.1 last := by
        simp [Table.ofEntries]
      rw [Option.map_some, isInsert, Table.get?_insert] at isBuilt
      split at isBuilt
      · rename_i same
        cases isBuilt
        rw [same, ← isKind]
        exact made _ rfl
      · exact afterStays _ _ _ (built key address isBuilt)

end Building

/-! ## Rebuilding -/

section Rebuilding

variable (apart : Apart entries) (truthful : Truthful graph base entries state.arena)

include apart truthful

theorem reference_known (kind : ObjectKind) (id : String) :
    Ends (reference kind id) state Failure.IsNoMismatch fun handle after =>
      after = state ∧ Known entries kind handle := by
  have ran := reference_eq kind id state
  rcases state.arena.reference_cases kind id with ⟨fails, -⟩ | ⟨handle, isReference, isEntry⟩
  · rw [fails] at ran
    exact .of_error ran trivial
  · refine .of_ok (isReference ▸ ran) ⟨rfl, true, ?_⟩
    rw [truthful.sameEntries] at isEntry
    rw [apart.named id _ isEntry]
    exact isEntry

theorem references_known (kind : ObjectKind) (ids : List String) :
    Ends (ids.mapM (reference kind)) state Failure.IsNoMismatch fun handles after =>
      after = state ∧ ∀ handle ∈ handles, Known entries kind handle := by
  refine ends_mapM ids
    (fun _ handles after => after = state ∧ ∀ handle ∈ handles, Known entries kind handle)
    (fun _ handles id _ after _ held => ?_) ⟨rfl, fun _ member => absurd member List.not_mem_nil⟩
  obtain ⟨rfl, known⟩ := held
  refine (reference_known apart truthful kind id).imp (fun _ noMismatch => noMismatch)
    fun handle after found => ⟨found.1, fun other member => ?_⟩
  rcases List.mem_append.mp member with isEarlier | isLast
  · exact known other isEarlier
  · rw [List.mem_singleton.mp isLast]
    exact found.2

theorem backReference_known (kind : ObjectKind) (back : Option String) :
    Ends (back.mapM (reference kind)) state Failure.IsNoMismatch fun handle after =>
      after = state ∧ ∀ link ∈ handle.map state.arena.heap.downgrade,
        LinksBy graph base entries state.arena.heap kind link := by
  cases back with
  | none => exact .of_ok rfl ⟨rfl, nofun⟩
  | some id =>
      refine Ends.bind_reads (reference_known apart truthful kind id) fun handle known =>
        .of_ok rfl ⟨rfl, ?_⟩
      rintro _ ⟨⟩
      exact truthful.linksBy known

/-- An object made for a record gets the state that the record says. -/
theorem restore_stays {record : ObjectMemento LiveValue}
    (made : MadeFor graph base state.arena.heap record.kind id address)
    (values : ∀ reference ∈ record.valueReferences Value.referencesOfEntries,
      Known entries reference.1 reference.2) :
    Stays graph base entries state (restore address record) fun _ _ => True := by
  have updates : ∀ (change : Heap → LiveObject → LiveObject),
      (∀ object, object.key = ⟨record.kind, id⟩ →
        (change state.arena.heap object).key = ⟨record.kind, id⟩ ∧
        (change state.arena.heap object).typeName = object.typeName ∧
        (change state.arena.heap object).behaviour = object.behaviour) →
      (∀ object, RefersBy graph base entries state.arena.heap (change state.arena.heap object)) →
      Stays graph base entries state (mapHeap fun heap => heap.update address (change heap))
        fun _ _ => True := by
    intro change keeps refers
    have stays := made.staysMade_update fun object isKey =>
      ⟨(keeps object isKey).1, (keeps object isKey).2.1⟩
    exact .of_ok rfl ⟨truthful.update made change keeps refers, stays, trivial⟩
  cases record with
  | entity record =>
      rw [restore]
      refine (backReference_known apart truthful .entity record.parent).bind_reads fun _ parent => ?_
      refine (backReference_known apart truthful .entity record.application).bind_reads
        fun _ application => ?_
      refine (references_known apart truthful .entity record.children).bind_reads
        fun _ children => ?_
      refine (references_known apart truthful .location record.locations).bind_reads
        fun _ locations => ?_
      refine (references_known apart truthful .policy record.policies).bind_reads
        fun _ policies => ?_
      refine (references_known apart truthful .policy record.enrichers).bind_reads
        fun _ enrichers => ?_
      refine updates _ (fun object isKey => ⟨?_, rfl, rfl⟩) fun object => ?_
      · exact congrArg (fun key => ObjectKey.mk .entity key.id) isKey
      · exact refersBy_entity rfl values children locations policies enrichers parent application
  | location record =>
      rw [restore]
      refine (backReference_known apart truthful .location record.parent).bind_reads fun _ parent => ?_
      refine (references_known apart truthful .location record.children).bind_reads
        fun _ children => ?_
      refine updates _ (fun object isKey => ⟨?_, rfl, rfl⟩) fun object => ?_
      · exact congrArg (fun key => ObjectKey.mk .location key.id) isKey
      · exact refersBy_location rfl values children parent
  | policy record =>
      rw [restore]
      refine updates _ (fun object isKey => ⟨?_, rfl, rfl⟩) fun object => ?_
      · exact congrArg (fun key => ObjectKey.mk .policy key.id) isKey
      · exact refersBy_policy rfl values

/-- The objects of a kind get the state that their records say. -/
theorem reconstructKind_stays (registry : Registry) (kind : ObjectKind) {built : Built}
    (made : ∀ id address, built.get? id = some address →
      MadeFor graph base state.arena.heap kind id address)
    (values : ∀ kind, ∀ entry ∈ graph.records kind,
      ∀ reference ∈ entry.2.valueReferences Value.referencesOfEntries,
        Known entries reference.1 reference.2) :
    Stays graph base entries state (reconstructKind registry graph kind built) fun _ _ => True := by
  refine Ends.imp (ends_forM (graph.records kind)
    (fun _ (next : PassState) => Truthful graph base entries next.arena ∧
      StaysMade graph base state.arena.heap next.arena.heap)
    (fun done entry rest next isWhole held => ?_) ⟨truthful, fun _ _ _ => id⟩)
    (fun _ noMismatch => noMismatch) fun _ after held => ⟨held.1, held.2, trivial⟩
  obtain ⟨nextTruthful, nextStays⟩ := held
  have member : entry ∈ graph.records kind := by
    rw [isWhole]
    simp
  cases isBuilt : built.get? entry.1 with
  | none =>
      simp only [isBuilt]
      exact .of_ok rfl ⟨nextTruthful, nextStays⟩
  | some address =>
      have isMade := nextStays _ _ _ (made _ _ isBuilt)
      obtain ⟨isNew, object, isObject, -⟩ := id isMade
      have isOrdinary := (nextTruthful.objects address object isNew isObject).1
      rw [← Graph.kind_of_mem_records member] at isMade
      simp only [isBuilt]
      refine .step (rfl : Pass.arena next = (.ok next.arena, next)) ?_
      rw [isObject]
      simp only [isOrdinary]
      refine (restore_stays apart nextTruthful isMade (values kind entry member)).imp
        (fun _ noMismatch => noMismatch) fun _ after held => ⟨held.1, nextStays.trans held.2.1⟩

end Rebuilding

/-! ## A whole pass -/

/-- A pass fails for no type or kind, or leaves a truthful arena and objects made for their records. -/
theorem hydrate_stays (strictness : TypeResolution) (basic : registry.Basic) (apart : Apart entries)
    (truthful : Truthful graph base entries state.arena)
    (values : ∀ kind, ∀ entry ∈ graph.records kind,
      ∀ reference ∈ entry.2.valueReferences Value.referencesOfEntries,
        Known entries reference.1 reference.2) :
    Stays graph base entries state (hydrate registry strictness graph) fun outcome heap =>
      ∀ kind id address, (outcome.objects kind).get? id = some address →
        MadeFor graph base heap kind id address := by
  rw [Stays, hydrate]
  refine .step (rfl : Pass.arena state = (.ok state.arena, state)) ?_
  rcases state.arena.checkReferences_ends with ⟨failure, fails, noMismatch⟩ | passes
  · exact .of_error (bind_error ((lift_run _).trans (by rw [fails]))) noMismatch
  refine .step ((lift_run _).trans (by rw [passes])) ?_
  refine (buildKind_stays basic apart truthful .location).bind fun locations first held => ?_
  obtain ⟨firstTruthful, toFirst, locationsMade⟩ := held
  refine (buildKind_stays basic apart firstTruthful .entity).bind fun entities second held => ?_
  obtain ⟨secondTruthful, toSecond, entitiesMade⟩ := held
  refine (buildKind_stays basic apart secondTruthful .policy).bind fun policies third held => ?_
  obtain ⟨thirdTruthful, toThird, policiesMade⟩ := held
  -- What was made of a kind is carried through all that comes before it is restored, and after.
  have locationsStay := toSecond.trans toThird
  refine (reconstructKind_stays apart thirdTruthful registry .location
    (fun id address isBuilt => locationsStay _ _ _ (locationsMade id address isBuilt)) values).bind
      fun _ fourth held => ?_
  obtain ⟨fourthTruthful, toFourth, -⟩ := held
  have entitiesStay := toThird.trans toFourth
  refine (reconstructKind_stays apart fourthTruthful registry .entity
    (fun id address isBuilt => entitiesStay _ _ _ (entitiesMade id address isBuilt)) values).bind
      fun _ fifth held => ?_
  obtain ⟨fifthTruthful, toFifth, -⟩ := held
  have policiesStay := toFourth.trans toFifth
  refine (reconstructKind_stays apart fifthTruthful registry .policy
    (fun id address isBuilt => policiesStay _ _ _ (policiesMade id address isBuilt)) values).bind
      fun _ last held => ?_
  obtain ⟨lastTruthful, toLast, -⟩ := held
  refine .of_ok rfl ⟨lastTruthful, (((((toFirst.trans toSecond).trans toThird).trans toFourth).trans
    toFifth).trans toLast), fun kind id address isBuilt => ?_⟩
  cases kind with
  | location =>
      have stays := (locationsStay.trans toFourth).trans (toFifth.trans toLast)
      exact stays _ _ _ (locationsMade id address isBuilt)
  | entity =>
      have stays := entitiesStay.trans (toFifth.trans toLast)
      exact stays _ _ _ (entitiesMade id address isBuilt)
  | policy =>
      have stays := policiesStay.trans toLast
      exact stays _ _ _ (policiesMade id address isBuilt)

/-! ## Registration and the pass behind it -/

/-- Records are registered as further mentions of their ids, and if their types are refused, then for
kinds that differ. -/
theorem registerAll_recalls (recalls : state.arena.Recalls mentions)
    (pristine : state.arena.Pristine heap) :
    Ends (registerAll graph) state (Failure.OnlyKindsDiffer (mentions ++ graph.mentions))
      fun _ after => after.arena.Recalls (mentions ++ graph.mentions) ∧
        after.arena.Pristine heap ∧ state.arena.Grown after.arena := by
  refine Ends.imp (registerAll_ends_of graph
    (fun done arena => arena.Recalls (mentions ++ done) ∧ arena.Pristine heap ∧
      state.arena.Grown arena)
    (fun done kind id typeName rest arena isWhole held => ?_)
    ⟨by rwa [List.append_nil], pristine, Arena.Grown.refl _⟩)
    (fun _ noMismatch => noMismatch) fun _ after held => held.2
  obtain ⟨recalls, pristine, grown⟩ := held
  rcases recalls.register kind id typeName with ⟨failure, refused, differs⟩ | ⟨after, ran, recalled⟩
  · refine Or.inl ⟨failure, refused, fun detail isMismatch => ?_⟩
    obtain ⟨earliest, isEarliest, otherKind, isClash⟩ := differs detail isMismatch
    refine ⟨⟨kind, id, some typeName⟩, by simp [isWhole], earliest, ?_, otherKind, isClash⟩
    rw [isWhole, ← List.append_assoc, Mention.earliest?_append, isEarliest]
    rfl
  · rw [List.append_assoc] at recalled
    exact Or.inr ⟨after, ran, recalled, pristine.register ran,
      grown.trans (Arena.grown_register ran)⟩

/-- The records of a loaded graph are registered and rebuilt, and its mentions declare the types; or
this fails, and if types are refused, then for kinds that differ. -/
theorem rebuilding_declares (strictness : TypeResolution) (basic : registry.Basic)
    (recalls : state.arena.Recalls mentions) (pristine : state.arena.Pristine heap)
    (values : ∀ kind, ∀ entry ∈ graph.records kind,
      ∀ reference ∈ entry.2.valueReferences Value.referencesOfEntries,
        state.arena.Knows reference.1 reference.2.id reference.2) :
    Ends (do registerAll graph; hydrate registry strictness graph) state
      (Failure.OnlyKindsDiffer (mentions ++ graph.mentions))
      fun outcome after =>
        after.arena.heap.Declares (mentions ++ graph.mentions) graph.mentions heap.objects.size ∧
        ∀ kind id address, (outcome.objects kind).get? id = some address →
          MadeFor graph heap.objects.size after.arena.heap kind id address := by
  refine (registerAll_recalls recalls pristine).bind fun _ registered held => ?_
  obtain ⟨recalled, stillPristine, grown⟩ := held
  refine (hydrate_stays strictness basic stillPristine.apart (truthful_of_pristine stillPristine)
    fun kind entry member reference inRecord =>
      grown _ _ _ (values kind entry member reference inRecord)).imp
    (fun _ noMismatch => noMismatch.onlyKindsDiffer)
    fun outcome after held => ?_
  obtain ⟨truthful, -, made⟩ := held
  refine ⟨truthful.declares fun id => ?_, made⟩
  rw [truthful.sameEntries]
  exact recalled id

end Pass

end GraphCheckpoint
