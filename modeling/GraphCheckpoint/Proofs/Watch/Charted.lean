import GraphCheckpoint.Proofs.Watch.Closure

/-!
Contract: what is noted and stored of the locations around watched entities, step by step.

Owns:
- `Heap.Advance`, the changes of a heap after which only some objects have to report;
- `Scene.Located`, that the places of watched entities are noted or stored, whatever links there are;
- `Scene.Charted`, that all locations below these are as well, where no two locations share an id;
- `Scene.Planted`, that parents are as well, where no location is below two others;
- that advances, reports, links between locations, the end of watching and writes keep these.

Does not own: which steps a program takes.
-/

namespace GraphCheckpoint

variable {reporters : Address → Prop}

/-- A change after which only the given objects may have further places, or be watched anew. -/
structure Heap.Advance (reporters : Address → Prop) (before after : Heap) : Prop where
  growth : before.Extends after
  tidy : before.Tidy → after.Tidy
  ordinary : before.Ordinary → after.Ordinary
  children : before.Tidy → ∀ x, after.childLocations x = before.childLocations x
  parents : before.Tidy → ∀ x, after.parentLocation? x = before.parentLocation? x
  elsewhere : before.Tidy → ∀ x, ¬ reporters x → after.deployedAt x = before.deployedAt x
  still : before.Tidy → ∀ x place, place ∈ before.deployedAt x → place ∈ after.deployedAt x
  watched : ∀ x, after.Watched x → before.Watched x ∨ reporters x
  watchedStill : ∀ x, before.Watched x → after.Watched x

theorem Heap.Deploys.advance {owner : Address} {before after : Heap}
    (deploys : Heap.Deploys owner before after) (same : before.SameRoles after) :
    Heap.Advance (· = owner) before after where
  growth := deploys.growth
  tidy := deploys.tidy
  ordinary := same.ordinary
  children := deploys.children
  parents := deploys.parents
  elsewhere := deploys.elsewhere
  still := deploys.still
  watched := fun _ watched => Or.inl (same.watched_iff.mp watched)
  watchedStill := fun _ watched => same.watched_iff.mpr watched

theorem Heap.SamePlaces.advance {before after : Heap} (samePlaces : before.SamePlaces after)
    (same : before.SameRoles after) : Heap.Advance reporters before after where
  growth := samePlaces.growth
  tidy := samePlaces.tidy
  ordinary := same.ordinary
  children := samePlaces.children
  parents := samePlaces.parents
  elsewhere := fun tidy x _ => samePlaces.deployed tidy x
  still := fun tidy x _ isPlace => samePlaces.deployed tidy x ▸ isPlace
  watched := fun _ watched => Or.inl (same.watched_iff.mp watched)
  watchedStill := fun _ watched => same.watched_iff.mpr watched

/-- A new object is not watched, and has no links. -/
theorem Heap.advance_create {heap : Heap} (kind : ObjectKind) (id typeName : String) :
    Heap.Advance reporters heap (heap.create (.blank kind id typeName)).2 := by
  have samePlaces := @Heap.samePlaces_create heap kind id typeName
  refine {
    growth := samePlaces.growth
    tidy := samePlaces.tidy
    ordinary := fun ordinary address object isObject => ?_
    children := samePlaces.children
    parents := samePlaces.parents
    elsewhere := fun tidy x _ => samePlaces.deployed tidy x
    still := fun tidy x _ isPlace => samePlaces.deployed tidy x ▸ isPlace
    watched := ?_
    watchedStill := ?_ }
  · rw [Heap.object?_create] at isObject
    split at isObject
    · cases isObject
      rfl
    · exact ordinary address object isObject
  · rintro x ⟨object, isObject, listens⟩
    rw [Heap.object?_create] at isObject
    split at isObject
    · cases isObject
      cases listens
    · exact Or.inl ⟨object, isObject, listens⟩
  · rintro x ⟨object, isObject, listens⟩
    exact ⟨object, Heap.object?_create_of_some _ isObject, listens⟩

/-- An object that gets a listener has to report. -/
theorem Heap.advance_listening {heap : Heap} (address : Address) (listener : ListenerRef) :
    Heap.Advance (· = address) heap (heap.listening address (some listener)) where
  growth := (Heap.samePlaces_listening address _ heap).growth
  tidy := (Heap.samePlaces_listening address _ heap).tidy
  ordinary := fun ordinary => ordinary.listening address _
  children := (Heap.samePlaces_listening address _ heap).children
  parents := (Heap.samePlaces_listening address _ heap).parents
  elsewhere := fun tidy x _ => (Heap.samePlaces_listening address _ heap).deployed tidy x
  still := fun tidy x _ isPlace =>
    (Heap.samePlaces_listening address (some listener) heap).deployed tidy x ▸ isPlace
  watched := fun _ => Heap.watched_listening_some
  watchedStill := fun _ => Heap.watched_listening_some_of_watched

theorem Heap.Advance.mono {few many : Address → Prop} {before after : Heap}
    (advance : Heap.Advance few before after) (subset : ∀ x, few x → many x) :
    Heap.Advance many before after :=
  { advance with
    elsewhere := fun tidy x outside => advance.elsewhere tidy x fun inside => outside (subset x inside)
    watched := fun x watched => (advance.watched x watched).imp (fun before => before) (subset x) }

namespace Scene

variable {scene : Scene} {after : Heap} {e x y : Address} {key : ObjectKey} {window : Window}
variable {owing late : Address → Prop}
variable {reach : Heap → Address → Address → Prop} {exempt exemptMore : Address → Prop}

theorem Sound.advance (sound : scene.Sound) (advance : Heap.Advance reporters scene.heap after) :
    (scene.grow after).Sound :=
  sound.grow advance.growth (advance.tidy sound.tidy) (advance.ordinary sound.ordinary)
    advance.watchedStill

theorem Sound.hear (sound : scene.Sound) (hears : Heap.Hears scene.heap e scene.window window) :
    ({ scene with window := window } : Scene).Sound := by
  cases hears with
  | watched watched => exact sound.report watched
  | unwatched _ => exact sound

theorem Sound.hearAll {heap : Heap} {graph : Graph LiveValue} {before after : Window}
    {addresses : List Address} (sound : Sound ⟨heap, before, graph⟩)
    (hears : heap.HearsAll addresses before after) : Sound ⟨heap, after, graph⟩ := by
  induction hears with
  | nil => exact sound
  | cons hears _ inductionHypothesis => exact inductionHypothesis (sound.hear hears)

theorem Covers.mono (covers : scene.Covers reach exempt)
    (subset : ∀ x, scene.heap.Watched x → exempt x → exemptMore x) :
    scene.Covers reach exemptMore :=
  ⟨fun watched included => covers.kept watched fun isExempt => included (subset _ watched isExempt),
    covers.accounted⟩

theorem Covers.advance (covers : scene.Covers reach exempt) (tidy : scene.heap.Tidy)
    (advance : Heap.Advance reporters scene.heap after)
    (same : ∀ place x, reach after place x → reach scene.heap place x) :
    (scene.grow after).Covers reach fun x => exempt x ∨ reporters x := by
  refine covers.grow advance.growth (fun e watched included => ?_) fun e watched =>
    ⟨advance.watchedStill e watched, advance.still tidy e⟩
  have outside : ¬ reporters e := fun reports => included (Or.inr reports)
  refine ⟨(advance.watched e watched).resolve_right outside,
    fun isExempt => included (Or.inl isExempt), fun place isPlace => ?_⟩
  rw [advance.elsewhere tidy e outside] at isPlace
  exact ⟨isPlace, same place⟩

/-- Once an object has been heard, it is exempt no more. -/
theorem Covers.hear (covers : scene.Covers reach exempt)
    (hears : Heap.Hears scene.heap e scene.window window)
    (gathers : ∀ place ∈ scene.heap.deployedAt e, ∀ x, reach scene.heap place x →
      (scene.report e).KeepsAt x) :
    ({ scene with window := window } : Scene).Covers reach fun x => exempt x ∧ x ≠ e := by
  cases hears with
  | watched _ => exact covers.report gathers
  | unwatched unwatched =>
      exact covers.mono fun x watched isExempt =>
        ⟨isExempt, fun isE => unwatched (isE ▸ watched)⟩

/-! ## Places -/

/-- The places of watched entities are noted or stored, and so are those that stored entities
name. -/
def Located (scene : Scene) : Prop := scene.Covers (fun _ => Eq) fun _ => False

/-- The places of objects that have been heard are noted. -/
theorem covers_places_hearAll {heap : Heap} {graph : Graph LiveValue} {before after : Window}
    {addresses : List Address} (covers : Covers (fun _ => Eq) exempt ⟨heap, before, graph⟩)
    (sound : Sound ⟨heap, before, graph⟩) (hears : heap.HearsAll addresses before after) :
    Covers (fun _ => Eq) (fun x => exempt x ∧ x ∉ addresses) ⟨heap, after, graph⟩ := by
  induction hears generalizing exempt with
  | nil => exact covers.mono fun x _ isExempt => ⟨isExempt, nofun⟩
  | cons hears _ inductionHypothesis =>
      have heard := covers.hear hears fun _ isPlace _ isX => isX ▸ keepsAt_place sound isPlace
      refine (inductionHypothesis heard (sound.hear hears)).mono fun x _ isExempt => ?_
      refine ⟨isExempt.1.1, fun member => ?_⟩
      exact (List.mem_cons.mp member).elim isExempt.1.2 isExempt.2

theorem Located.advance {addresses : List Address} (located : scene.Located)
    (sound : scene.Sound) (advance : Heap.Advance (· ∈ addresses) scene.heap after)
    (hears : after.HearsAll addresses scene.window window) :
    Located ⟨after, window, scene.graph⟩ := by
  have grown := Covers.advance located sound.tidy advance fun _ _ => id
  refine (covers_places_hearAll grown (sound.advance advance) hears).mono fun x _ isExempt => ?_
  exact isExempt.1.elim id isExempt.2

theorem Located.link {parent child : Address} (located : scene.Located) (tidy : scene.heap.Tidy)
    (links : Heap.Links parent child scene.heap after) (same : scene.heap.SameRoles after) :
    (scene.grow after).Located := by
  refine Covers.grow located links.growth (fun e watched _ => ?_) fun e watched => ?_
  · refine ⟨same.watched_iff.mp watched, id, fun place isPlace => ?_⟩
    rw [links.deployed tidy] at isPlace
    exact ⟨isPlace, fun _ => id⟩
  · refine ⟨same.watched_iff.mpr watched, fun place isPlace => ?_⟩
    rw [links.deployed tidy]
    exact isPlace

/-! ## Below the places -/

/-- No two locations share an id, and all that is below the places of watched entities is noted or
stored, but for the entities that owe a report. -/
structure Charted (owing : Address → Prop) (scene : Scene) : Prop where
  distinct : scene.heap.DistinctLocations
  covers : scene.Covers Heap.Below owing
  descends : scene.Descends

theorem charted_empty : Charted owing ⟨.empty, .empty, .empty⟩ :=
  ⟨Heap.distinctLocations_empty, covers_empty, nofun⟩

theorem below_of_children {before after : Heap}
    (children : ∀ x y, y ∈ after.childLocations x → y ∈ before.childLocations x)
    (below : after.Below x y) : before.Below x y := by
  induction below with
  | root => exact .root
  | child _ isChild inductionHypothesis => exact .child inductionHypothesis (children _ _ isChild)

theorem gathers_below (sound : scene.Sound) (distinct : scene.heap.DistinctLocations)
    {place : Address} (isPlace : place ∈ scene.heap.deployedAt e)
    (below : scene.heap.Below place x) : (scene.report e).KeepsAt x := by
  obtain ⟨id, holds⟩ := sound.tidy.holds_of_mem_deployedAt isPlace
  exact keepsAt_of_gathered sound (List.mem_flatMap.mpr ⟨place, isPlace,
    Heap.mem_locationsInHierarchy.mpr
      (Or.inl (Heap.mem_walkDown_of_below sound.tidy.linksLocations holds distinct below))⟩)

namespace Charted

variable (charted : scene.Charted owing)

include charted

theorem mono {owingMore : Address → Prop} (subset : ∀ x, owing x → owingMore x) :
    scene.Charted owingMore :=
  { charted with covers := charted.covers.mono fun x _ => subset x }

theorem advance (tidy : scene.heap.Tidy) (advance : Heap.Advance reporters scene.heap after)
    (distinct : after.DistinctLocations) :
    (scene.grow after).Charted fun x => owing x ∨ reporters x where
  distinct := distinct
  covers := charted.covers.advance tidy advance fun _ _ =>
    below_of_children fun x _ isChild => advance.children tidy x ▸ isChild
  descends := charted.descends.grow advance.growth fun x y isChild => by
    rw [advance.children tidy]
    exact isChild

/-- Once an entity has been heard, it owes no report. -/
theorem hear (sound : scene.Sound) (hears : Heap.Hears scene.heap e scene.window window) :
    ({ scene with window := window } : Scene).Charted fun x => owing x ∧ x ≠ e where
  distinct := charted.distinct
  covers := charted.covers.hear hears fun _ isPlace _ below =>
    gathers_below sound charted.distinct isPlace below
  descends := charted.descends

/-- A link makes the entities with places above it owe a report. -/
theorem link {parent child : Address} (tidy : scene.heap.Tidy)
    (links : Heap.Links parent child scene.heap after) (same : scene.heap.SameRoles after) :
    (scene.grow after).Charted
      fun e => owing e ∨ ∃ place ∈ after.deployedAt e, after.Below place child where
  distinct := charted.distinct.sameRoles same
  covers := by
    refine charted.covers.grow links.growth (fun e watched included => ?_) fun e watched => ?_
    · refine ⟨same.watched_iff.mp watched, fun owes => included (Or.inl owes),
        fun place isPlace => ⟨links.deployed tidy e ▸ isPlace, fun x below => ?_⟩⟩
      -- A way down that uses the new link comes to the child.
      induction below with
      | root => exact .root
      | @child x y below isChild inductionHypothesis =>
          rcases (links.children tidy x y).mp isChild with old | ⟨rfl, rfl⟩
          · exact inductionHypothesis.child old
          · exact absurd ⟨place, isPlace, below.child isChild⟩ fun owes => included (Or.inr owes)
    · refine ⟨same.watched_iff.mpr watched, fun place isPlace => ?_⟩
      rw [links.deployed tidy]
      exact isPlace
  descends := charted.descends.grow links.growth fun x y isChild =>
    (links.children tidy x y).mpr (Or.inl isChild)

theorem unwatch (tidy : scene.heap.Tidy) (holds : scene.heap.Holds key e)
    (notLocation : key.kind ≠ .location) : (scene.unwatch e key).Charted owing where
  distinct := charted.distinct.listening e none
  covers := charted.covers.unwatch tidy holds notLocation fun _ _ =>
    below_of_children fun x _ isChild => (samePlaces_unwatch e key scene).children tidy x ▸ isChild
  descends := charted.descends.grow (samePlaces_unwatch e key scene).growth fun x _ isChild =>
    ((samePlaces_unwatch e key scene).children tidy x).symm ▸ isChild

theorem write (sound : scene.Sound) : scene.write.Charted owing where
  distinct := charted.distinct
  covers := charted.covers.write sound
  descends := charted.descends.write sound

end Charted

/-- Once some objects have been heard, none of them owes a report. -/
theorem Charted.hearAll {heap : Heap} {graph : Graph LiveValue} {before after : Window}
    {addresses : List Address} (charted : Charted owing ⟨heap, before, graph⟩)
    (sound : Sound ⟨heap, before, graph⟩) (hears : heap.HearsAll addresses before after) :
    Charted (fun x => owing x ∧ x ∉ addresses) ⟨heap, after, graph⟩ := by
  induction hears generalizing owing with
  | nil => exact charted.mono fun x owes => ⟨owes, nofun⟩
  | cons hears _ inductionHypothesis =>
      refine (inductionHypothesis (charted.hear sound hears) (sound.hear hears)).mono ?_
      rintro x ⟨⟨owes, notFirst⟩, notLater⟩
      exact ⟨owes, fun member => (List.mem_cons.mp member).elim notFirst notLater⟩

/-! ## Parents -/

/-- No location is below two others, and the parents of what is noted or stored are noted or stored
as well, but for the locations that are late. -/
structure Planted (late : Address → Prop) (scene : Scene) : Prop where
  forest : scene.heap.Forest
  rooted : scene.Rooted late

theorem planted_empty : Planted late ⟨.empty, .empty, .empty⟩ :=
  ⟨Heap.forest_empty, rooted_empty⟩

namespace Planted

variable (planted : scene.Planted late)

include planted

theorem mono {lateMore : Address → Prop} (subset : ∀ z, late z → lateMore z) :
    scene.Planted lateMore :=
  { planted with rooted := planted.rooted.mono subset }

theorem advance (tidy : scene.heap.Tidy) (advance : Heap.Advance reporters scene.heap after) :
    (scene.grow after).Planted late where
  forest := by
    intro x y
    change y ∈ after.childLocations x ↔ after.parentLocation? y = some x
    rw [advance.children tidy, advance.parents tidy]
    exact planted.forest x y
  rooted := by
    refine planted.rooted.grow advance.growth (fun _ => id) (fun z q isParent => ?_)
      fun id z q _ isParent => ?_
    · rw [advance.parents tidy]
      exact isParent
    · rw [advance.parents tidy] at isParent
      exact Or.inl isParent

/-- Once an entity has been heard, nothing around its places is late. -/
theorem hear (sound : scene.Sound) (distinct : scene.heap.DistinctLocations)
    (hears : Heap.Hears scene.heap e scene.window window)
    (notLocation : scene.heap.Watched e → ∀ id, ¬ scene.heap.Holds ⟨.location, id⟩ e) :
    ({ scene with window := window } : Scene).Planted fun z =>
      late z ∧ (scene.heap.Watched e → z ∉ Window.locationsAround scene.heap e) where
  forest := planted.forest
  rooted := by
    cases hears with
    | watched watched =>
        exact (planted.rooted.report sound distinct planted.forest (notLocation watched)).mono
          fun z isLate => ⟨isLate.1, fun _ => isLate.2⟩
    | unwatched unwatched =>
        exact planted.rooted.mono fun z isLate => ⟨isLate, fun watched => absurd watched unwatched⟩

/-- A link makes the location below it late if it is noted. -/
theorem link {parent child : Address} (tidy : scene.heap.Tidy)
    (links : Heap.Links parent child scene.heap after)
    (isRoot : scene.heap.parentLocation? child = none) :
    (scene.grow after).Planted
      fun z => late z ∨ (z = child ∧ z ∈ scene.window.locations.changed.values) where
  forest := planted.forest.links tidy links isRoot
  rooted := by
    refine planted.rooted.grow links.growth (fun z => Or.inl) (fun z q isParent => ?_)
      fun id z q isNoted isParent => ?_
    · rw [links.parents tidy, if_neg]
      · exact isParent
      · intro isChild
        rw [isChild, isRoot] at isParent
        cases isParent
    · rw [links.parents tidy] at isParent
      split at isParent
      · rename_i isChild
        exact Or.inr (Or.inr ⟨isChild, List.mem_map_of_mem isNoted⟩)
      · exact Or.inl isParent

theorem unwatch (tidy : scene.heap.Tidy) (notLocation : key.kind ≠ .location) :
    (scene.unwatch e key).Planted late where
  forest := planted.forest.samePlaces tidy (samePlaces_unwatch e key scene)
  rooted := planted.rooted.unwatch tidy notLocation

theorem write (sound : scene.Sound) : scene.write.Planted late where
  forest := planted.forest
  rooted := planted.rooted.write sound

end Planted

/-- Once some objects have been heard, nothing that they have gathered is late. -/
theorem Planted.hearAll {heap : Heap} {graph : Graph LiveValue} {before after : Window}
    {addresses : List Address} (planted : Planted late ⟨heap, before, graph⟩)
    (sound : Sound ⟨heap, before, graph⟩) (distinct : heap.DistinctLocations)
    (hears : heap.HearsAll addresses before after)
    (notLocation : ∀ e, heap.Watched e → ∀ id, ¬ heap.Holds ⟨.location, id⟩ e) :
    Planted
      (fun z => late z ∧
        ∀ e ∈ addresses, heap.Watched e → z ∉ Window.locationsAround heap e)
      ⟨heap, after, graph⟩ := by
  induction hears generalizing late with
  | nil => exact planted.mono fun z isLate => ⟨isLate, nofun⟩
  | @cons first _ _ _ _ hears _ inductionHypothesis =>
      have heard := planted.hear sound distinct hears (notLocation first)
      refine (inductionHypothesis heard (sound.hear hears)).mono ?_
      rintro z ⟨⟨isLate, notAround⟩, notLater⟩
      refine ⟨isLate, fun e member watched => ?_⟩
      rcases List.mem_cons.mp member with rfl | later
      · exact notAround watched
      · exact notLater e later watched

end Scene

end GraphCheckpoint
