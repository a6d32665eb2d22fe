import GraphCheckpoint.Proofs.Live.Roles

/-!
Contract: which ancestors the walk through a hierarchy finds.

Owns:
- `Heap.Above`, the locations that parent links lead to;
- `Heap.Climbed`, those among them that the walk up comes to;
- `Heap.Surveyed`, all that is found of a hierarchy, whatever the links are;
- that the hierarchy is closed under parents where no location is below two others.

Does not own: the links.

Both walks share what has been visited. So the walk up ends at the first ancestor that is below the
start as well, and what lies above that ancestor is found only where children links lead to it. Links
need not be mutual here, and may run in cycles.
-/

namespace GraphCheckpoint.Heap

variable {heap : Heap} {x y root : Address} {unvisited : List String}

/-- A location that parent links lead to, in one step or more. -/
inductive Above (heap : Heap) (root : Address) : Address → Prop where
  | parent {y : Address} (isParent : heap.parentLocation? root = some y) : Above heap root y
  | further {x y : Address} (above : Above heap root x)
      (isParent : heap.parentLocation? x = some y) : Above heap root y

/-- A location that parent links lead to past locations that are not below the start, and that is
not below it either. -/
inductive Climbed (heap : Heap) (root : Address) : Address → Prop where
  | parent {y : Address} (isParent : heap.parentLocation? root = some y)
      (notBelow : ¬ heap.Below root y) : Climbed heap root y
  | further {x y : Address} (climbed : Climbed heap root x)
      (isParent : heap.parentLocation? x = some y) (notBelow : ¬ heap.Below root y) :
      Climbed heap root y

theorem Climbed.above (climbed : heap.Climbed root x) : heap.Above root x := by
  induction climbed with
  | parent isParent _ => exact .parent isParent
  | further _ isParent _ inductionHypothesis => exact .further inductionHypothesis isParent

theorem below_or_climbed_of_parent (isParent : heap.parentLocation? root = some y) :
    heap.Below root y ∨ heap.Climbed root y :=
  (Classical.em (heap.Below root y)).imp_right (.parent isParent)

theorem Climbed.below_or_climbed (climbed : heap.Climbed root x)
    (isParent : heap.parentLocation? x = some y) : heap.Below root y ∨ heap.Climbed root y :=
  (Classical.em (heap.Below root y)).imp_right (climbed.further isParent)

/-- The climb leaves out no ancestor where it gets past those that are below the start as well. -/
theorem Above.below_or_climbed (above : heap.Above root x)
    (closed : ∀ x y, heap.Above root x → heap.Below root x → heap.parentLocation? x = some y →
      heap.Below root y ∨ heap.Climbed root y) : heap.Below root x ∨ heap.Climbed root x := by
  induction above with
  | parent isParent => exact below_or_climbed_of_parent isParent
  | further above isParent inductionHypothesis =>
      rcases inductionHypothesis with below | climbed
      · exact closed _ _ above below isParent
      · exact climbed.below_or_climbed isParent

/-! ## The walks come to an end -/

theorem hasIdIn_of_hasIdIn_idsWithout (hasId : heap.hasIdIn (heap.idsWithout unvisited y) x = true) :
    heap.hasIdIn unvisited x = true := by
  cases isObject : heap.object? y with
  | none => rwa [idsWithout, isObject] at hasId
  | some object =>
      obtain ⟨found, isFound, member⟩ := hasIdIn_iff.mp hasId
      exact hasIdIn_iff.mpr ⟨found, isFound, ((mem_idsWithout isObject).mp member).1⟩

theorem hasIdIn_idsWithout_self : heap.hasIdIn (heap.idsWithout unvisited x) x = false := by
  cases isObject : heap.object? x with
  | none => rw [hasIdIn, isObject]
  | some object =>
      rw [hasIdIn_eq_false_iff isObject, mem_idsWithout isObject]
      exact fun left => left.2 rfl

/-- What the walk down takes next has not been visited. -/
theorem hasIdIn_of_dropWhile {pending : List Address} {next : Address} {others : List Address}
    (isDrop : (pending.dropWhile fun address => !heap.hasIdIn unvisited address) = next :: others) :
    heap.hasIdIn unvisited next = true := by
  have stopped := List.head?_dropWhile_not (fun address => !heap.hasIdIn unvisited address) pending
  rw [isDrop] at stopped
  simpa using stopped

theorem descend_nil (budget : Nat) (pending : List Address) :
    heap.descend budget [] pending = ([], []) := by
  cases budget with
  | zero => rfl
  | succ budget =>
      rw [descend]
      cases isDrop : pending.dropWhile fun address => !heap.hasIdIn [] address with
      | nil => rfl
      | cons next others =>
          have hasId := hasIdIn_of_dropWhile isDrop
          rw [hasIdIn_nil] at hasId
          exact absurd hasId Bool.false_ne_true

/-- A greater budget does not make the walk down go on. -/
theorem descend_congr {budget other : Nat} {pending : List Address}
    (enough : unvisited.length ≤ budget) (enoughToo : unvisited.length ≤ other) :
    heap.descend budget unvisited pending = heap.descend other unvisited pending := by
  induction budget generalizing other unvisited pending with
  | zero =>
      rw [List.eq_nil_of_length_eq_zero (Nat.le_zero.mp enough), descend_nil, descend_nil]
  | succ budget inductionHypothesis =>
      cases other with
      | zero =>
          rw [List.eq_nil_of_length_eq_zero (Nat.le_zero.mp enoughToo), descend_nil, descend_nil]
      | succ other =>
          rw [descend, descend]
          cases isDrop : pending.dropWhile fun address => !heap.hasIdIn unvisited address with
          | nil => rfl
          | cons next others =>
              have fewer := length_idsWithout_lt (hasIdIn_of_dropWhile isDrop)
              simp only []
              rw [@inductionHypothesis _ other _ (by omega) (by omega)]

theorem ascend_nil (budget : Nat) (start : Option Address) : heap.ascend budget [] start = [] := by
  cases budget with
  | zero => rfl
  | succ budget =>
      cases start with
      | none => rfl
      | some next => rw [ascend, hasIdIn_nil, if_neg Bool.false_ne_true]

/-- A greater budget does not make the walk up go on. -/
theorem ascend_congr {budget other : Nat} {start : Option Address}
    (enough : unvisited.length ≤ budget) (enoughToo : unvisited.length ≤ other) :
    heap.ascend budget unvisited start = heap.ascend other unvisited start := by
  induction budget generalizing other unvisited start with
  | zero => rw [List.eq_nil_of_length_eq_zero (Nat.le_zero.mp enough), ascend_nil, ascend_nil]
  | succ budget inductionHypothesis =>
      cases other with
      | zero =>
          rw [List.eq_nil_of_length_eq_zero (Nat.le_zero.mp enoughToo), ascend_nil, ascend_nil]
      | succ other =>
          cases start with
          | none => rfl
          | some next =>
              rw [ascend, ascend]
              by_cases hasId : heap.hasIdIn unvisited next = true
              · have fewer := length_idsWithout_lt hasId
                rw [if_pos hasId, if_pos hasId, @inductionHypothesis _ other _ (by omega) (by omega)]
              · rw [if_neg hasId, if_neg hasId]

/-! ## Nothing is found twice -/

theorem notMem_of_fresh {found : List Address}
    (fresh : ∀ y ∈ found, heap.hasIdIn (heap.idsWithout unvisited x) y = true) : x ∉ found :=
  fun member => nomatch hasIdIn_idsWithout_self.symm.trans (fresh x member)

/-- The walk down takes only what has not been visited, each location once. -/
theorem fresh_descend (budget : Nat) (pending : List Address) :
    (∀ x ∈ (heap.descend budget unvisited pending).1, heap.hasIdIn unvisited x = true) ∧
      (heap.descend budget unvisited pending).1.Nodup := by
  induction budget generalizing unvisited pending with
  | zero => exact ⟨List.forall_mem_nil _, List.nodup_nil⟩
  | succ budget inductionHypothesis =>
      rw [descend]
      cases isDrop : pending.dropWhile fun address => !heap.hasIdIn unvisited address with
      | nil => exact ⟨List.forall_mem_nil _, List.nodup_nil⟩
      | cons next others =>
          obtain ⟨fresh, once⟩ := @inductionHypothesis (heap.idsWithout unvisited next)
            ((heap.childLocations next).reverse ++ others)
          refine ⟨fun x member => ?_, List.nodup_cons.mpr ⟨notMem_of_fresh fresh, once⟩⟩
          rcases List.mem_cons.mp member with rfl | later
          · exact hasIdIn_of_dropWhile isDrop
          · exact hasIdIn_of_hasIdIn_idsWithout (fresh x later)

/-- The walk up takes only what has not been visited, each location once. -/
theorem fresh_ascend (budget : Nat) (start : Option Address) :
    (∀ x ∈ heap.ascend budget unvisited start, heap.hasIdIn unvisited x = true) ∧
      (heap.ascend budget unvisited start).Nodup := by
  induction budget generalizing unvisited start with
  | zero => exact ⟨List.forall_mem_nil _, List.nodup_nil⟩
  | succ budget inductionHypothesis =>
      cases start with
      | none => exact ⟨List.forall_mem_nil _, List.nodup_nil⟩
      | some next =>
          rw [ascend]
          by_cases hasId : heap.hasIdIn unvisited next = true
          · obtain ⟨fresh, once⟩ := @inductionHypothesis (heap.idsWithout unvisited next)
              (heap.parentLocation? next)
            rw [if_pos hasId]
            refine ⟨fun x member => ?_, List.nodup_cons.mpr ⟨notMem_of_fresh fresh, once⟩⟩
            rcases List.mem_cons.mp member with rfl | later
            · exact hasId
            · exact hasIdIn_of_hasIdIn_idsWithout (fresh x later)
          · rw [if_neg hasId]
            exact ⟨List.forall_mem_nil _, List.nodup_nil⟩

/-- What has been taken counts as visited. -/
theorem Descent.visited {pending taken : List Address} {left : List String}
    (descent : heap.Descent unvisited pending taken left) (member : x ∈ taken) :
    heap.hasIdIn left x = false := by
  rcases descent.origin x member with isPending | ⟨y, isTaken, isChild⟩
  · exact descent.pendingVisited x isPending
  · exact descent.childrenVisited y isTaken x isChild

theorem nodup_locationsInHierarchy (heap : Heap) (root : Address) :
    (heap.locationsInHierarchy root).Nodup := by
  refine List.nodup_append.mpr
    ⟨(fresh_descend _ _).2, (fresh_ascend _ _).2, fun x below y above same => ?_⟩
  subst same
  exact nomatch ((descent_walkDown heap root).visited below).symm.trans ((fresh_ascend _ _).1 x above)

/-! ## What the walk up comes to -/

/-- A property that the start has where it is unvisited, and that unvisited parents take over, holds
of all that the walk up takes. -/
theorem ascend_least {P : Address → Prop} {budget : Nat} {start : Option Address}
    (ofStart : ∀ x, start = some x → heap.hasIdIn unvisited x = true → P x)
    (ofParents : ∀ x y, P x → heap.parentLocation? x = some y →
      heap.hasIdIn unvisited y = true → P y) :
    ∀ x ∈ heap.ascend budget unvisited start, P x := by
  induction budget generalizing unvisited start with
  | zero => exact List.forall_mem_nil _
  | succ budget inductionHypothesis =>
      cases start with
      | none => exact List.forall_mem_nil _
      | some next =>
          rw [ascend]
          by_cases hasId : heap.hasIdIn unvisited next = true
          · have ofNext : P next := ofStart next rfl hasId
            rw [if_pos hasId]
            intro x member
            rcases List.mem_cons.mp member with rfl | later
            · exact ofNext
            · refine inductionHypothesis (fun y isParent isLeft => ?_)
                (fun y z ofY isParent isLeft => ?_) x later
              · exact ofParents next y ofNext isParent (hasIdIn_of_hasIdIn_idsWithout isLeft)
              · exact ofParents y z ofY isParent (hasIdIn_of_hasIdIn_idsWithout isLeft)
          · rw [if_neg hasId]
            exact List.forall_mem_nil _

section Ancestry

variable (links : heap.LinksLocations) {rootId : String}
  (isRoot : heap.Holds ⟨.location, rootId⟩ root) (distinct : heap.DistinctLocations)

include links isRoot distinct

theorem mem_walkDown_iff : x ∈ (heap.walkDown root).1 ↔ heap.Below root x := by
  refine ⟨fun member => ?_, mem_walkDown_of_below links isRoot distinct⟩
  refine (descent_walkDown heap root).least (heap.Below root) (fun y isPending => ?_)
    (fun y z => .child) x member
  rw [List.mem_singleton.mp isPending]
  exact .root

/-- The walk down has visited exactly the locations that are below its start. -/
theorem visited_iff_below {id : String} (holds : heap.Holds ⟨.location, id⟩ y) :
    heap.hasIdIn (heap.walkDown root).2 y = false ↔ heap.Below root y := by
  refine ⟨fun visited => ?_, fun below => ?_⟩
  · exact (mem_walkDown_iff links isRoot distinct).mp
      (mem_walkDown_of_visited links isRoot distinct holds visited)
  · exact (descent_walkDown heap root).visited
      ((mem_walkDown_iff links isRoot distinct).mpr below)

theorem mem_walkUp_iff : x ∈ heap.walkUp root ↔ heap.Climbed root x := by
  have visitedParent : ∀ {y z}, heap.parentLocation? y = some z →
      (heap.hasIdIn (heap.walkDown root).2 z = false ↔ heap.Below root z) := fun isParent =>
    let ⟨_, holds⟩ := links.parents isParent
    visited_iff_below links isRoot distinct holds
  constructor
  · refine ascend_least (fun y isParent isLeft => .parent isParent fun below => ?_)
      (fun y z climbed isParent isLeft => .further climbed isParent fun below => ?_) x
    · exact nomatch isLeft.symm.trans ((visitedParent isParent).mpr below)
    · exact nomatch isLeft.symm.trans ((visitedParent isParent).mpr below)
  · intro climbed
    have ascent := ascent_walkUp heap root
    induction climbed with
    | @parent y isParent notBelow =>
        exact (ascent.startVisited y isParent).resolve_right fun visited =>
          notBelow ((visitedParent isParent).mp visited)
    | @further y z _ isParent notBelow inductionHypothesis =>
        rcases ascent.parentVisited y inductionHypothesis z isParent with
          taken | visited | ⟨w, taken, same⟩
        · exact taken
        · exact absurd ((visitedParent isParent).mp visited) notBelow
        · obtain ⟨_, wHolds⟩ := holds_of_mem_locationsInHierarchy links isRoot
            (mem_locationsInHierarchy.mpr (Or.inr taken))
          obtain ⟨_, zHolds⟩ := links.parents isParent
          exact same.eq distinct wHolds zHolds ▸ taken

end Ancestry

/-- What is found of the hierarchy of a location. -/
structure Surveyed (heap : Heap) (root : Address) : Prop where
  /-- The walk down ends by itself: no greater budget makes it go on. -/
  downEnds : ∀ budget, heap.locationIds.length ≤ budget →
    heap.descend budget heap.locationIds [root] = heap.walkDown root
  /-- So does the walk up. -/
  upEnds : ∀ budget, (heap.walkDown root).2.length ≤ budget →
    heap.ascend budget (heap.walkDown root).2 (heap.parentLocation? root) = heap.walkUp root
  once : (heap.locationsInHierarchy root).Nodup
  found : ∀ x, x ∈ heap.locationsInHierarchy root ↔ heap.Below root x ∨ heap.Climbed root x
  /-- The documented set is found exactly if children links or the climb lead to the parent of each
  ancestor that is below the location as well. -/
  complete : (∀ x, x ∈ heap.locationsInHierarchy root ↔ heap.Below root x ∨ heap.Above root x) ↔
    ∀ x y, heap.Above root x → heap.Below root x → heap.parentLocation? x = some y →
      heap.Below root y ∨ heap.Climbed root y

section Surveyed

variable (links : heap.LinksLocations) (distinct : heap.DistinctLocations) {rootId : String}
  (isRoot : heap.Holds ⟨.location, rootId⟩ root)

include links distinct isRoot

theorem mem_locationsInHierarchy_iff_climbed :
    x ∈ heap.locationsInHierarchy root ↔ heap.Below root x ∨ heap.Climbed root x := by
  rw [mem_locationsInHierarchy, mem_walkDown_iff links isRoot distinct,
    mem_walkUp_iff links isRoot distinct]

/-- Where no location is below two others, the hierarchy of a location is closed under parents. -/
theorem parent_mem_locationsInHierarchy (forest : heap.Forest)
    (member : x ∈ heap.locationsInHierarchy root) (isParent : heap.parentLocation? x = some y) :
    y ∈ heap.locationsInHierarchy root := by
  rw [mem_locationsInHierarchy_iff_climbed links distinct isRoot] at member ⊢
  rcases member with below | climbed
  · cases below with
    | root => exact below_or_climbed_of_parent isParent
    | child below isChild =>
        rw [(forest _ x).mp isChild] at isParent
        cases isParent
        exact Or.inl below
  · exact climbed.below_or_climbed isParent

/-- The hierarchy of a location is found up to the first ancestor that is below the location as
well, whatever the links between locations are. -/
theorem surveyed_locationsInHierarchy : heap.Surveyed root where
  downEnds := fun _ enough => descend_congr enough (Nat.le_refl _)
  upEnds := fun _ enough => ascend_congr enough (Nat.le_refl _)
  once := nodup_locationsInHierarchy heap root
  found := fun x => mem_locationsInHierarchy_iff_climbed links distinct isRoot
  complete := by
    have found := fun x => @mem_locationsInHierarchy_iff_climbed _ x _ links distinct _ isRoot
    constructor
    · intro documented x y above _ isParent
      exact (found y).mp ((documented y).mpr (Or.inr (above.further isParent)))
    · intro closed x
      rw [found]
      exact ⟨Or.imp_right Climbed.above, fun documented =>
        documented.elim Or.inl fun above => above.below_or_climbed closed⟩

end Surveyed

section Sample

/-- Three locations without links. -/
private def scattered : Heap :=
  (((Heap.empty.create (.blank .location "base" "Zone")).2.create
    (.blank .location "ring" "Zone")).2.create (.blank .location "top" "Zone")).2

/-- The first two are children of each other, and the third is above the second. -/
private def knot : Heap :=
  ((scattered.addChildLocation ⟨1⟩ ⟨0⟩).addChildLocation ⟨0⟩ ⟨1⟩).addChildLocation ⟨2⟩ ⟨1⟩

private theorem tidy_knot : knot.Tidy := by
  have tidyScattered : scattered.Tidy :=
    (samePlaces_create _ _ _).tidy ((samePlaces_create _ _ _).tidy
      ((samePlaces_create _ _ _).tidy tidy_empty))
  let once := scattered.addChildLocation ⟨1⟩ ⟨0⟩
  let twice := once.addChildLocation ⟨0⟩ ⟨1⟩
  have first : Links ⟨1⟩ ⟨0⟩ scattered once := links_addChildLocation rfl rfl rfl rfl
  have second : Links ⟨0⟩ ⟨1⟩ once twice := links_addChildLocation rfl rfl rfl rfl
  have third : Links ⟨2⟩ ⟨1⟩ twice knot := links_addChildLocation rfl rfl rfl rfl
  exact third.tidy (second.tidy (first.tidy tidyScattered))

private theorem distinctLocations_knot : knot.DistinctLocations := by
  have created : scattered.DistinctLocations :=
    ((distinctLocations_empty.create fun _ => by decide).create fun _ => by decide).create
      fun _ => by decide
  exact ((created.sameRoles (sameRoles_addChildLocation _ _)).sameRoles
    (sameRoles_addChildLocation _ _)).sameRoles (sameRoles_addChildLocation _ _)

/-- The third location is an ancestor of the first that is not found. -/
theorem surveyed_locationsInHierarchy_knot :
    knot.Surveyed ⟨0⟩ ∧ knot.Above ⟨0⟩ ⟨2⟩ ∧ ⟨2⟩ ∉ knot.locationsInHierarchy ⟨0⟩ := by
  have ringIsParent : knot.parentLocation? ⟨0⟩ = some ⟨1⟩ := by decide +kernel
  have topIsParent : knot.parentLocation? ⟨1⟩ = some ⟨2⟩ := by decide +kernel
  have found : knot.locationsInHierarchy ⟨0⟩ = [⟨0⟩, ⟨1⟩] := by decide +kernel
  have isBase : knot.Holds ⟨.location, "base"⟩ ⟨0⟩ := ⟨_, rfl, rfl⟩
  refine ⟨surveyed_locationsInHierarchy tidy_knot.linksLocations distinctLocations_knot isBase,
    (Above.parent ringIsParent).further topIsParent, ?_⟩
  rw [found]
  decide

end Sample

end GraphCheckpoint.Heap
