import GraphCheckpoint.Proofs.Live.Linking
import GraphCheckpoint.Proofs.Live.Roles

/-!
Contract: which application an entity records once trees of entities have been put together.

Owns:
- `Heap.Orderly`, the links between fresh entities that keep to trees;
- what a link changes of the way up from an entity, and where each entity stands after all links;
- what each entity records of its application, and when that is the top of its tree.

Does not own: trees of links without a heap, or how a record is written.

The application is copied when a link is made, and stays when something further up is linked. So the
order of the links tells what is recorded, and not only the trees that they make.
-/

namespace GraphCheckpoint

theorem LiveObject.entityLinks?_eq_some_iff {object : LiveObject} {links : EntityLinks} :
    object.entityLinks? = some links ↔ object.state = .entity links := by
  unfold LiveObject.entityLinks?
  cases object.state <;> simp

theorem LiveObject.kind_eq_entity_iff {object : LiveObject} :
    object.kind = .entity ↔ ∃ links, object.entityLinks? = some links := by
  unfold LiveObject.kind LiveObject.entityLinks?
  cases object.state <;> simp

namespace Heap

open Linking

variable {heap before after : Heap} {links : List (Address × Address)}
  {parent child owner top x y address : Address}

/-- Links entities in turn, each child below its parent. -/
def linkAll (links : List (Address × Address)) (heap : Heap) : Heap :=
  links.foldl (fun heap link => heap.addChildEntity link.1 link.2) heap

theorem linkAll_concat : heap.linkAll (links ++ [(parent, child)]) =
    (heap.linkAll links).addChildEntity parent child := by
  rw [linkAll, List.foldl_append]
  rfl

/-- The links of the entity at an address. -/
def entityLinks? (heap : Heap) (address : Address) : Option EntityLinks :=
  (heap.object? address).bind LiveObject.entityLinks?

def parentLink? (heap : Heap) (address : Address) : Option WeakLink :=
  (heap.entityLinks? address).bind EntityLinks.parent

def applicationLink? (heap : Heap) (address : Address) : Option WeakLink :=
  (heap.entityLinks? address).bind EntityLinks.application

/-- The live parent of an entity. -/
def parentEntity? (heap : Heap) (address : Address) : Option Address :=
  (heap.parentLink? address).bind heap.follow?

/-- The live application of an entity. -/
def applicationEntity? (heap : Heap) (address : Address) : Option Address :=
  (heap.applicationLink? address).bind heap.follow?

/-- An entity that records its state and that nothing has been linked to yet. -/
def Fresh (heap : Heap) (x : Address) : Prop :=
  ∃ object, heap.object? x = some object ∧ object.entityLinks? = some .none ∧
    object.behaviour = .ordinary

/-- The second entity is the first, or one of its ancestors. -/
def Ancestor (heap : Heap) : Address → Address → Prop :=
  Relation.ReflTransGen fun child parent => heap.parentEntity? child = some parent

/-- The entity without a parent that parents lead to. -/
def TopOf (heap : Heap) (x top : Address) : Prop :=
  heap.Ancestor x top ∧ heap.parentEntity? top = none

/-- Links between fresh entities, each made while the child has no parent and is neither the new
parent nor one of its ancestors. -/
inductive Orderly (heap : Heap) : List (Address × Address) → Prop where
  | none : Orderly heap []
  | link {links : List (Address × Address)} {parent child : Address} (orderly : Orderly heap links)
      (isParent : heap.Fresh parent) (isChild : heap.Fresh child)
      (noParent : (heap.linkAll links).parentEntity? child = none)
      (notAbove : ¬ (heap.linkAll links).Ancestor parent child) :
      Orderly heap (links ++ [(parent, child)])

/-! ## One link -/

theorem entityLinks?_mapEntityLinks (change : EntityLinks → EntityLinks) :
    (heap.update address (LiveObject.mapEntityLinks change)).entityLinks? x =
      if x = address then (heap.entityLinks? x).map change else heap.entityLinks? x := by
  rw [entityLinks?, entityLinks?, object?_update]
  split
  · cases heap.object? x with
    | none => rfl
    | some object =>
        change (object.mapEntityLinks change).entityLinks? = object.entityLinks?.map change
        unfold LiveObject.mapEntityLinks LiveObject.entityLinks?
        cases isState : object.state <;> simp [isState]
  · rfl

theorem exists_entityLinks? {id : String} (holds : heap.Holds ⟨.entity, id⟩ x) :
    ∃ links, heap.entityLinks? x = some links := by
  obtain ⟨object, isObject, isKey⟩ := holds
  rw [entityLinks?, isObject, Option.bind_some]
  exact LiveObject.kind_eq_entity_iff.mp (congrArg ObjectKey.kind isKey)

section Link

variable {parentObject : LiveObject} {id : String}
  (isParent : heap.object? parent = some parentObject)
  (isChild : heap.Holds ⟨.entity, id⟩ child)

include isParent isChild

/-- A link changes the links of its child and of its parent; up, those of its child alone. -/
theorem entityLinks?_addChildEntity (x : Address) : ∃ handle,
    (heap.addChildEntity parent child).entityLinks? x = (heap.entityLinks? x).map fun links =>
      { links with
        parent := if x = child then some (linkTo parent parentObject) else links.parent
        application :=
          if x = child then
            some ((heap.applicationLink? parent).getD (linkTo parent parentObject))
          else links.application
        children := if x = parent then links.children ++ [handle] else links.children } := by
  obtain ⟨childObject, isObject, -⟩ := isChild
  have sameApplication : parentObject.entityLinks?.bind EntityLinks.application =
      heap.applicationLink? parent := by
    rw [applicationLink?, entityLinks?, isParent, Option.bind_some]
  have unchanged : (heap.referenceTo child childObject).2.entityLinks? x = heap.entityLinks? x :=
    rfl
  refine ⟨(heap.referenceTo child childObject).1, ?_⟩
  simp only [addChildEntity, isParent, isObject, sameApplication]
  rw [entityLinks?_mapEntityLinks, entityLinks?_mapEntityLinks, unchanged]
  cases heap.entityLinks? x with
  | none => split <;> split <;> rfl
  | some links => by_cases x = parent <;> by_cases x = child <;> simp_all

theorem parentLink?_addChildEntity : (heap.addChildEntity parent child).parentLink? x =
    if x = child then some (linkTo parent parentObject) else heap.parentLink? x := by
  obtain ⟨handle, isLinked⟩ := entityLinks?_addChildEntity isParent isChild x
  obtain ⟨links, hasLinks⟩ := exists_entityLinks? isChild
  rw [parentLink?, isLinked]
  by_cases same : x = child
  · simp [same, hasLinks]
  · simp only [if_neg same, Option.bind_map]
    rfl

theorem applicationLink?_addChildEntity :
    (heap.addChildEntity parent child).applicationLink? x =
      if x = child then some ((heap.applicationLink? parent).getD (linkTo parent parentObject))
      else heap.applicationLink? x := by
  obtain ⟨handle, isLinked⟩ := entityLinks?_addChildEntity isParent isChild x
  obtain ⟨links, hasLinks⟩ := exists_entityLinks? isChild
  unfold applicationLink?
  rw [isLinked]
  by_cases same : x = child
  · simp [applicationLink?, same, hasLinks]
  · simp only [if_neg same, Option.bind_map]
    rfl

end Link

/-! ## All links -/

theorem sameRoles_linkAll (links : List (Address × Address)) (heap : Heap) :
    SameRoles heap (heap.linkAll links) := by
  induction links generalizing heap with
  | nil => exact .refl heap
  | cons link rest inductionHypothesis =>
      exact (sameRoles_addChildEntity link.1 link.2).trans (inductionHypothesis _)

/-- The weak link leads to the entity at the address, and names it. -/
def Names (heap : Heap) (link : WeakLink) (address : Address) : Prop :=
  link.target = some address ∧ heap.Holds ⟨.entity, link.id⟩ address

theorem Names.follow? {link : WeakLink} (names : heap.Names link address) :
    heap.follow? link = some address :=
  follow?_of_holds names.1 names.2

theorem Names.sameRoles {link : WeakLink} (names : before.Names link address)
    (same : SameRoles before after) : after.Names link address :=
  ⟨names.1, same.extends_holds names.2⟩

/-- What the way up from an entity begins with, by the links that were made. -/
inductive Stands (heap : Heap) (links : List (Address × Address)) (x : Address) : Prop where
  | top (isTop : IsTop links x) (noParent : heap.parentLink? x = none)
      (noApplication : heap.applicationLink? x = none)
  | below {parent owner : Address} {back application : WeakLink} (isLink : (parent, x) ∈ links)
      (joins : Joins links x owner) (isBack : heap.parentLink? x = some back)
      (names : heap.Names back parent) (isApplication : heap.applicationLink? x = some application)
      (namesOwner : heap.Names application owner)

theorem Fresh.holds (isFresh : heap.Fresh x) : ∃ id, heap.Holds ⟨.entity, id⟩ x := by
  obtain ⟨object, isObject, hasLinks, -⟩ := isFresh
  have isEntity : object.kind = .entity := LiveObject.kind_eq_entity_iff.mpr ⟨_, hasLinks⟩
  exact ⟨object.id, object, isObject, congrArg (ObjectKey.mk · object.id) isEntity⟩

theorem Fresh.stands (isFresh : heap.Fresh x) : heap.Stands [] x := by
  obtain ⟨object, isObject, hasLinks, -⟩ := isFresh
  have isNone : heap.entityLinks? x = some .none := by
    rw [entityLinks?, isObject, Option.bind_some, hasLinks]
  refine .top (fun _ => nofun) ?_ ?_
  · rw [parentLink?, isNone]
    rfl
  · rw [applicationLink?, isNone]
    rfl

theorem Stands.parentEntity?_eq_some_iff (grown : Grown links) (stands : heap.Stands links x) :
    heap.parentEntity? x = some y ↔ (y, x) ∈ links := by
  cases stands with
  | top isTop noParent _ =>
      rw [parentEntity?, noParent]
      exact iff_of_false nofun (isTop y)
  | below isLink _ isBack names _ _ =>
      rw [parentEntity?, isBack, Option.bind_some, names.follow?, Option.some_inj]
      exact ⟨fun same => same ▸ isLink, fun isToo => (grown.parent_unique isLink isToo).symm⟩

theorem Stands.parentEntity?_eq_none_iff (stands : heap.Stands links x) :
    heap.parentEntity? x = none ↔ IsTop links x := by
  cases stands with
  | top isTop noParent _ =>
      rw [parentEntity?, noParent]
      exact iff_of_true rfl isTop
  | @below parent _ _ _ isLink _ isBack names _ _ =>
      rw [parentEntity?, isBack, Option.bind_some, names.follow?]
      exact iff_of_false nofun fun isTop => isTop parent isLink

theorem Stands.applicationEntity?_eq (stands : heap.Stands links x)
    (isLink : (parent, x) ∈ links) :
    ∃ owner link, heap.applicationEntity? x = some owner ∧ Joins links x owner ∧
      heap.applicationLink? x = some link ∧ heap.Names link owner := by
  cases stands with
  | top isTop _ _ => exact absurd isLink (isTop parent)
  | @below _ owner _ link _ joins _ _ isApplication namesOwner =>
      refine ⟨owner, link, ?_, joins, isApplication, namesOwner⟩
      rw [applicationEntity?, isApplication, Option.bind_some, namesOwner.follow?]

/-- One more link leaves everything standing where the links say. -/
theorem Stands.addChildEntity {parentId childId : String} (grown : Grown links)
    (isTop : IsTop links child) (differs : parent ≠ child)
    (isParent : heap.Holds ⟨.entity, parentId⟩ parent)
    (isChild : heap.Holds ⟨.entity, childId⟩ child) (parentStands : heap.Stands links parent)
    (stands : heap.Stands links x) :
    (heap.addChildEntity parent child).Stands (links ++ [(parent, child)]) x := by
  have same : SameRoles heap (heap.addChildEntity parent child) := sameRoles_addChildEntity _ _
  obtain ⟨parentObject, isObject, isKey⟩ := isParent
  have isBack := @parentLink?_addChildEntity heap parent child x _ _ isObject isChild
  have isApplication := @applicationLink?_addChildEntity heap parent child x _ _ isObject isChild
  by_cases isNew : x = child
  · subst isNew
    rw [if_pos rfl] at isBack isApplication
    have isLink : (parent, x) ∈ links ++ [(parent, x)] := by simp
    have isId : parentObject.id = parentId := congrArg ObjectKey.id isKey
    have namesParent : (heap.addChildEntity parent x).Names (linkTo parent parentObject) parent :=
      ⟨rfl, same.extends_holds
        ⟨parentObject, isObject, isKey.trans (congrArg (ObjectKey.mk .entity) isId.symm)⟩⟩
    cases parentStands with
    | top parentIsTop _ noApplication =>
        rw [noApplication, Option.getD_none] at isApplication
        have isLast : IsTop (links ++ [(parent, x)]) parent :=
          isTop_concat.mpr ⟨parentIsTop, differs⟩
        exact .below isLink (.parent isLink (Or.inr isLast)) isBack namesParent isApplication
          namesParent
    | below _ joins _ _ hasApplication namesOwner =>
        rw [hasApplication, Option.getD_some] at isApplication
        have inTime : ¬ Overtaken (links ++ [(parent, x)]) x := by
          rw [overtaken_concat, not_or]
          exact ⟨fun overtaken => not_isTop_of_overtaken overtaken isTop, isTop x⟩
        exact .below isLink (.above isLink inTime (joins.concat grown isTop)) isBack namesParent
          isApplication (namesOwner.sameRoles same)
  · rw [if_neg isNew] at isBack isApplication
    cases stands with
    | top isOldTop noParent noApplication =>
        exact .top (isTop_concat.mpr ⟨isOldTop, isNew⟩) (isBack.trans noParent)
          (isApplication.trans noApplication)
    | below isLink joins hadBack names hadApplication namesOwner =>
        exact .below (List.mem_append_left _ isLink) (joins.concat grown isTop)
          (isBack.trans hadBack) (names.sameRoles same) (isApplication.trans hadApplication)
          (namesOwner.sameRoles same)

theorem Orderly.fresh (orderly : heap.Orderly links) (isLink : (parent, child) ∈ links) :
    heap.Fresh parent ∧ heap.Fresh child := by
  induction orderly with
  | none => cases isLink
  | link _ isParent isChild _ _ inductionHypothesis =>
      rcases List.mem_append.mp isLink with isOld | isNew
      · exact inductionHypothesis isOld
      · cases List.mem_singleton.mp isNew
        exact ⟨isParent, isChild⟩

theorem Orderly.fresh_of_upward (orderly : heap.Orderly links) (isFresh : heap.Fresh x)
    (upward : Upward links x y) : heap.Fresh y := by
  rcases Relation.ReflTransGen.cases_tail upward with rfl | ⟨_, -, isLink⟩
  · exact isFresh
  · exact (orderly.fresh isLink).1

/-- Parents lead up as the links do. -/
theorem Orderly.ancestor_iff (orderly : heap.Orderly links) (grown : Grown links)
    (stands : ∀ x, heap.Fresh x → (heap.linkAll links).Stands links x) (isFresh : heap.Fresh x) :
    (heap.linkAll links).Ancestor x y ↔ Upward links x y := by
  have parentOf : ∀ {z w}, Upward links x z →
      ((heap.linkAll links).parentEntity? z = some w ↔ (w, z) ∈ links) := fun upward =>
    (stands _ (orderly.fresh_of_upward isFresh upward)).parentEntity?_eq_some_iff grown
  constructor
  · intro ancestor
    induction ancestor with
    | refl => exact .refl
    | tail _ isParent inductionHypothesis =>
        exact .tail inductionHypothesis ((parentOf inductionHypothesis).mp isParent)
  · intro upward
    induction upward with
    | refl => exact .refl
    | tail above isLink inductionHypothesis =>
        exact .tail inductionHypothesis ((parentOf above).mpr isLink)

/-- The rules of linking keep to trees, and each entity stands where the links say. -/
theorem Orderly.grown_and_stands (orderly : heap.Orderly links) :
    Grown links ∧ ∀ x, heap.Fresh x → (heap.linkAll links).Stands links x := by
  induction orderly with
  | none => exact ⟨.none, fun x isFresh => isFresh.stands⟩
  | @link links parent child orderly isParent isChild noParent notAbove inductionHypothesis =>
      obtain ⟨grown, stands⟩ := inductionHypothesis
      have isTop : IsTop links child := (stands child isChild).parentEntity?_eq_none_iff.mp noParent
      have apart : ¬ Upward links parent child := fun upward =>
        notAbove ((orderly.ancestor_iff grown stands isParent).mpr upward)
      have differs : parent ≠ child := fun same => apart (same ▸ .refl)
      have same := sameRoles_linkAll links heap
      obtain ⟨parentId, parentHolds⟩ := isParent.holds
      obtain ⟨childId, childHolds⟩ := isChild.holds
      refine ⟨.link grown isTop apart, fun x isFresh => ?_⟩
      rw [linkAll_concat]
      exact Stands.addChildEntity grown isTop differs (same.extends_holds parentHolds)
        (same.extends_holds childHolds) (stands parent isParent) (stands x isFresh)

/-! ## What is recorded -/

/-- What an entity records of the tree in which it stands. -/
structure Recorded (heap : Heap) (links : List (Address × Address)) (x : Address)
    (record : EntityMemento LiveValue) (top : Address) : Prop where
  recorded : heap.memento? x = some (.ok (.entity record))
  isTop : heap.TopOf x top
  unique : ∀ other, heap.TopOf x other → other = top
  /-- The tops are the applications, and nothing else is. -/
  applications : record.isApplication = true ↔ top = x
  /-- What is below another records the application that it has by the order of the links. -/
  joins : top ≠ x → ∃ owner id, record.application = some id ∧ heap.Holds ⟨.entity, id⟩ owner ∧
    heap.applicationEntity? x = some owner ∧ Joins links x owner ∧
      (owner = top ↔ ∀ y, heap.Ancestor x y → ¬ Overtaken links y)
  /-- Where ids tell entities apart, that is the id of the top unless something is overtaken. -/
  lawful : ∀ id, heap.Holds ⟨.entity, id⟩ top → top ≠ x →
    (∀ other, heap.Holds ⟨.entity, id⟩ other → other = top) →
      (record.application = some id ↔ ∀ y, heap.Ancestor x y → ¬ Overtaken links y)

/-- The application of the entity is the top of its tree, unless it is the top itself. -/
def OwnedByTop (heap : Heap) (x : Address) : Prop :=
  ∀ top, heap.TopOf x top → top ≠ x → heap.applicationEntity? x = some top

/-- A fresh entity records its links, however it has been linked since. -/
theorem Fresh.exists_memento (isFresh : before.Fresh x) (same : SameRoles before after) :
    ∃ record, after.memento? x = some (.ok (.entity record)) ∧
      record.parent = (after.parentLink? x).map WeakLink.id ∧
      record.application = (after.applicationLink? x).map WeakLink.id := by
  obtain ⟨id, holds⟩ := isFresh.holds
  obtain ⟨links, hasLinks⟩ := exists_entityLinks? (same.extends_holds holds)
  obtain ⟨old, isOld, -, isOrdinary⟩ := isFresh
  obtain ⟨object, isObject, sameRole⟩ := same.exists_object isOld
  have sameBehaviour : object.behaviour = .ordinary :=
    (congrArg (fun role => role.2.2) sameRole).trans isOrdinary
  have isState : object.state = .entity links := by
    rw [entityLinks?, isObject, Option.bind_some] at hasLinks
    exact LiveObject.entityLinks?_eq_some_iff.mp hasLinks
  rw [memento?, isObject, Option.map_some, LiveObject.memento, sameBehaviour, isState, parentLink?,
    applicationLink?, hasLinks, Option.bind_some, Option.bind_some]
  exact ⟨_, rfl, rfl, rfl⟩

theorem exists_recorded (orderly : heap.Orderly links) (isFresh : heap.Fresh x) :
    ∃ record top, (heap.linkAll links).Recorded links x record top := by
  obtain ⟨grown, stands⟩ := orderly.grown_and_stands
  obtain ⟨top, upward, isTop⟩ := grown.exists_top x
  obtain ⟨record, isRecord, sameParent, sameApplication⟩ :=
    isFresh.exists_memento (sameRoles_linkAll links heap)
  have ancestor : ∀ y, (heap.linkAll links).Ancestor x y ↔ Upward links x y := fun y =>
    orderly.ancestor_iff grown stands isFresh
  have topOf : ∀ other, (heap.linkAll links).TopOf x other ↔
      Upward links x other ∧ IsTop links other := by
    intro other
    rw [TopOf, ancestor]
    exact and_congr_right fun above =>
      (stands other (orderly.fresh_of_upward isFresh above)).parentEntity?_eq_none_iff
  have joins : top ≠ x → ∃ owner id, record.application = some id ∧
      (heap.linkAll links).Holds ⟨.entity, id⟩ owner ∧
      (heap.linkAll links).applicationEntity? x = some owner ∧ Joins links x owner ∧
        (owner = top ↔ ∀ y, (heap.linkAll links).Ancestor x y → ¬ Overtaken links y) := by
    intro notTop
    obtain ⟨parent, isLink⟩ : ∃ parent, (parent, x) ∈ links := by
      rcases upward.cases_head with same | ⟨parent, isLink, -⟩
      · exact absurd same.symm notTop
      · exact ⟨parent, isLink⟩
    obtain ⟨owner, link, isOwner, joins, hasLink, names⟩ :=
      (stands x isFresh).applicationEntity?_eq isLink
    refine ⟨owner, link.id, ?_, names.2, isOwner, joins, ?_⟩
    · rw [sameApplication, hasLink, Option.map_some]
    · simp only [ancestor]
      exact joins.eq_top_iff grown upward isTop
  refine ⟨record, top, {
    recorded := isRecord
    isTop := (topOf top).mpr ⟨upward, isTop⟩
    unique := fun other isToo =>
      grown.top_unique upward isTop ((topOf other).mp isToo).1 ((topOf other).mp isToo).2
    applications := ?_
    joins := joins
    lawful := fun id holds notTop apart => ?_ }⟩
  · rw [EntityMemento.isApplication, sameParent, sameApplication]
    cases stands x isFresh with
    | top isOwnTop noParent noApplication =>
        rw [noParent, noApplication]
        exact iff_of_true rfl ((upward_of_isTop isOwnTop).mp upward)
    | @below parent _ _ _ isLink _ isBack _ _ _ =>
        rw [isBack]
        exact iff_of_false nofun fun same => isTop parent (same ▸ isLink)
  · obtain ⟨owner, ownerId, isApplication, ownerHolds, -, -, isLawful⟩ := joins notTop
    rw [isApplication, ← isLawful, Option.some_inj]
    constructor
    · rintro rfl
      exact apart owner ownerHolds
    · rintro rfl
      exact congrArg ObjectKey.id (ownerHolds.key_unique holds)

/-- Wherever entities have been linked by the rules, each of them records its state, has one top,
and is an application exactly if it is the top. It records what its parent belonged to when it was
linked; so all of them record their tops exactly if none is linked below another once it has
children. -/
theorem application_linkAll (orderly : heap.Orderly links) :
    (∀ x, heap.Fresh x → ∃ record top, (heap.linkAll links).Recorded links x record top) ∧
    ((∀ x, heap.Fresh x → (heap.linkAll links).OwnedByTop x) ↔ TopDown links) := by
  refine ⟨fun x => exists_recorded orderly, ?_⟩
  rw [topDown_iff]
  constructor
  · intro owned x overtaken
    obtain ⟨parent, isLink⟩ : ∃ parent, (parent, x) ∈ links := by
      obtain ⟨parent, further, isPart⟩ := overtaken
      exact ⟨parent, isPart.subset List.mem_cons_self⟩
    have isFresh : heap.Fresh x := (orderly.fresh isLink).2
    obtain ⟨grown, stands⟩ := orderly.grown_and_stands
    obtain ⟨record, top, recorded⟩ := exists_recorded orderly isFresh
    have notTop : top ≠ x := by
      rintro rfl
      exact nomatch recorded.isTop.2.symm.trans
        (((stands top isFresh).parentEntity?_eq_some_iff grown).mpr isLink)
    obtain ⟨owner, id, -, -, isOwner, -, isLawful⟩ := recorded.joins notTop
    have isTopToo := owned x isFresh top recorded.isTop notTop
    rw [isOwner, Option.some_inj] at isTopToo
    exact isLawful.mp isTopToo x .refl overtaken
  · intro noneOvertaken x isFresh other isTop notTop
    obtain ⟨record, top, recorded⟩ := exists_recorded orderly isFresh
    obtain rfl := recorded.unique other isTop
    obtain ⟨owner, id, -, -, isOwner, -, isLawful⟩ := recorded.joins notTop
    rw [isOwner, isLawful.mpr fun y _ => noneOvertaken y]

section Sample

/-- Three entities without links. -/
private def threeApart : Heap :=
  (((Heap.empty.create (.blank .entity "a" "App")).2.create
    (.blank .entity "b" "App")).2.create (.blank .entity "c" "App")).2

/-- The third is linked below the second, and then the second below the first. -/
private def bottomUp : List (Address × Address) := [(⟨1⟩, ⟨2⟩), (⟨0⟩, ⟨1⟩)]

private theorem fresh_threeApart : threeApart.Fresh ⟨0⟩ ∧ threeApart.Fresh ⟨1⟩ ∧
    threeApart.Fresh ⟨2⟩ :=
  ⟨⟨_, rfl, rfl, rfl⟩, ⟨_, rfl, rfl, rfl⟩, ⟨_, rfl, rfl, rfl⟩⟩

private theorem orderly_bottomUp : threeApart.Orderly bottomUp := by
  obtain ⟨first, second, third⟩ := fresh_threeApart
  have firstHasNoParent : (threeApart.linkAll [(⟨1⟩, ⟨2⟩)]).parentEntity? ⟨0⟩ = none := by
    decide +kernel
  have secondHasNoParent : threeApart.parentEntity? ⟨1⟩ = none := by decide +kernel
  have once : threeApart.Orderly [(⟨1⟩, ⟨2⟩)] :=
    .link .none second third (by decide +kernel) fun ancestor => by
      rcases ancestor.cases_head with same | ⟨parent, isParent, -⟩
      · cases same
      · exact nomatch secondHasNoParent.symm.trans isParent
  refine .link once first second (by decide +kernel) fun ancestor => ?_
  rcases ancestor.cases_head with same | ⟨parent, isParent, -⟩
  · cases same
  · exact nomatch firstHasNoParent.symm.trans isParent

/-- The third records the second as its application, although the first is the top. -/
theorem application_linkAll_bottomUp :
    threeApart.Orderly bottomUp ∧ ¬ TopDown bottomUp ∧
      ∃ record, (threeApart.linkAll bottomUp).Recorded bottomUp ⟨2⟩ record ⟨0⟩ ∧
        record.application = some "b" := by
  obtain ⟨-, -, third⟩ := fresh_threeApart
  obtain ⟨record, top, recorded⟩ := (application_linkAll orderly_bottomUp).1 ⟨2⟩ third
  let linked := threeApart.linkAll bottomUp
  have secondIsParent : linked.parentEntity? ⟨2⟩ = some ⟨1⟩ := by decide +kernel
  have firstIsParent : linked.parentEntity? ⟨1⟩ = some ⟨0⟩ := by decide +kernel
  have firstHasNoParent : linked.parentEntity? ⟨0⟩ = none := by decide +kernel
  have secondIsApplication : linked.applicationEntity? ⟨2⟩ = some ⟨1⟩ := by decide +kernel
  have isSecond : linked.Holds ⟨.entity, "b"⟩ ⟨1⟩ := ⟨_, rfl, rfl⟩
  have isTop : linked.TopOf ⟨2⟩ ⟨0⟩ :=
    ⟨.head secondIsParent (.single firstIsParent), firstHasNoParent⟩
  obtain rfl := recorded.unique ⟨0⟩ isTop
  obtain ⟨owner, id, isApplication, holds, isOwner, -, -⟩ := recorded.joins (by decide)
  cases secondIsApplication.symm.trans isOwner
  cases holds.key_unique isSecond
  exact ⟨orderly_bottomUp, by simp [TopDown, bottomUp], record, recorded, isApplication⟩

end Sample

end Heap

end GraphCheckpoint
