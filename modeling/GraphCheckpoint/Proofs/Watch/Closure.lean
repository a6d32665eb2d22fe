import GraphCheckpoint.Proofs.Live.Ancestry
import GraphCheckpoint.Proofs.Watch.Scene

/-!
Contract: which of the locations that stored records name are stored themselves.

Owns:
- `Scene.Covers`, that everything reached from the places of watched entities is noted or stored;
- `Scene.Rooted` and `Scene.Descends`, what noted and stored locations say of their parents and
  children;
- that each step of a scene keeps these;
- what follows for the stored graph while nothing is noted.

Does not own: in which order the steps are taken.

A report gathers the hierarchies of an entity's places as they are at that moment. So an entity whose
places have got something below them since its last report is exempt, and so is a location that has
got its parent while it was noted.
-/

namespace GraphCheckpoint

/-- A location that stored records lead to: from the given ids, by the children they name. -/
inductive Graph.LocationBelow {V : Type} (graph : Graph V) (starts : List String) : String → Prop
  where
  | start {name : String} (member : name ∈ starts) : LocationBelow graph starts name
  | child {parent name : String} {memento : LocationMemento V}
      (below : LocationBelow graph starts parent)
      (found : graph.locations.get? parent = some memento) (member : name ∈ memento.children) :
      LocationBelow graph starts name

namespace Scene

variable {scene : Scene} {after : Heap} {e x y : Address} {id : String} {key : ObjectKey}
variable {reach : Heap → Address → Address → Prop} {exempt exemptAfter : Address → Prop}

/-! ## Below the places of entities -/

/-- Whatever is reached from the places of a watched entity is noted or stored, and every stored
entity, unless it is noted as removed, is a watched one that has all the places of the record. -/
structure Covers (reach : Heap → Address → Address → Prop) (exempt : Address → Prop)
    (scene : Scene) : Prop where
  kept : ∀ {e place x}, scene.heap.Watched e → ¬ exempt e → place ∈ scene.heap.deployedAt e →
    reach scene.heap place x → scene.KeepsAt x
  accounted : ∀ {id memento}, scene.graph.entities.get? id = some memento →
    id ∈ scene.window.entities.removed ∨
      ∃ e, scene.heap.Watched e ∧ scene.heap.Holds ⟨.entity, id⟩ e ∧
        ∀ name ∈ memento.locations, ∃ place ∈ scene.heap.deployedAt e,
          scene.heap.Holds ⟨.location, name⟩ place

theorem covers_empty : Covers reach exempt ⟨.empty, .empty, .empty⟩ :=
  ⟨fun watched => absurd watched Heap.not_watched_empty, nofun⟩

theorem Covers.grow (covers : scene.Covers reach exempt) (growth : scene.heap.Extends after)
    (within : ∀ e, after.Watched e → ¬ exemptAfter e → scene.heap.Watched e ∧ ¬ exempt e ∧
      ∀ place ∈ after.deployedAt e, place ∈ scene.heap.deployedAt e ∧
        ∀ x, reach after place x → reach scene.heap place x)
    (still : ∀ e, scene.heap.Watched e → after.Watched e ∧
      ∀ place ∈ scene.heap.deployedAt e, place ∈ after.deployedAt e) :
    (scene.grow after).Covers reach exemptAfter where
  kept := by
    intro e place x watched included isPlace reached
    obtain ⟨wasWatched, wasIncluded, places⟩ := within e watched included
    obtain ⟨wasPlace, wasReached⟩ := places place isPlace
    exact (covers.kept wasWatched wasIncluded wasPlace (wasReached x reached)).grow growth
  accounted := by
    intro id memento stored
    refine (covers.accounted stored).imp (fun removed => removed) ?_
    rintro ⟨e, watched, holds, places⟩
    refine ⟨e, (still e watched).1, growth.holds _ _ holds, fun name member => ?_⟩
    obtain ⟨place, isPlace, placeHolds⟩ := places name member
    exact ⟨place, (still e watched).2 place isPlace, growth.holds _ _ placeHolds⟩

/-- A report of an entity ends its exemption. -/
theorem Covers.report (covers : scene.Covers reach exempt)
    (gathers : ∀ place ∈ scene.heap.deployedAt e, ∀ x, reach scene.heap place x →
      (scene.report e).KeepsAt x) :
    (scene.report e).Covers reach fun other => exempt other ∧ other ≠ e where
  kept := by
    intro other place x watched included isPlace reached
    by_cases isE : other = e
    · subst isE
      exact gathers place isPlace x reached
    · exact (covers.kept watched (fun isExempt => included ⟨isExempt, isE⟩) isPlace reached).report e
  accounted := by
    intro id memento stored
    have removed : (scene.report e).window.entities.removed = scene.window.entities.removed :=
      (notes_report e scene).removed .entity
    rw [removed]
    exact covers.accounted stored

/-- A stored entity that is no longer watched is noted as removed. -/
theorem Covers.unwatch (covers : scene.Covers reach exempt) (tidy : scene.heap.Tidy)
    (holds : scene.heap.Holds key e) (notLocation : key.kind ≠ .location)
    (same : ∀ place x, reach (scene.unwatch e key).heap place x → reach scene.heap place x) :
    (scene.unwatch e key).Covers reach exempt where
  kept := by
    intro other place x watched included isPlace reached
    rw [(samePlaces_unwatch e key scene).deployed tidy] at isPlace
    exact (covers.kept (Heap.watched_listening_none.mp watched).1 included isPlace
      (same place x reached)).unwatch notLocation
  accounted := by
    intro id memento stored
    have removedAfter : id ∈ (scene.unwatch e key).window.entities.removed ↔
        ⟨.entity, id⟩ = key ∨ id ∈ scene.window.entities.removed :=
      @Window.mem_removed_recordRemoved scene.window key .entity id
    rcases covers.accounted stored with removed | ⟨other, watched, otherHolds, places⟩
    · exact Or.inl (removedAfter.mpr (Or.inr removed))
    · by_cases isE : other = e
      · subst isE
        exact Or.inl (removedAfter.mpr (Or.inl (otherHolds.key_unique holds)))
      · refine Or.inr ⟨other, Heap.watched_listening_none.mpr ⟨watched, isE⟩,
          (samePlaces_unwatch e key scene).growth.holds _ _ otherHolds, fun name member => ?_⟩
        obtain ⟨place, isPlace, placeHolds⟩ := places name member
        rw [(samePlaces_unwatch e _ scene).deployed tidy]
        exact ⟨place, isPlace, (samePlaces_unwatch e _ scene).growth.holds _ _ placeHolds⟩

theorem Covers.write (covers : scene.Covers reach exempt) (sound : scene.Sound) :
    scene.write.Covers reach exempt where
  kept := fun watched included isPlace reached =>
    (covers.kept watched included isPlace reached).write sound
  accounted := by
    intro id memento found
    obtain ⟨stays, ⟨isId, e, noted, gives⟩ | stored⟩ := entity_write sound found
    · obtain ⟨holds, isLocations⟩ := Heap.places_of_memento? sound.ordinary gives
      refine Or.inr ⟨e, sound.watched _ noted, isId ▸ holds, fun name member => ?_⟩
      rw [isLocations] at member
      obtain ⟨handle, isHandle, rfl⟩ := List.mem_map.mp member
      obtain ⟨place, leads, placeHolds⟩ := sound.tidy.places isHandle
      refine ⟨place, ?_, placeHolds⟩
      change place ∈ scene.heap.deployedAt e
      rw [Heap.deployedAt_eq]
      exact List.mem_filterMap.mpr ⟨handle, isHandle, leads⟩
    · exact Or.inr ((covers.accounted stored).resolve_left stays)

/-- A report gathers every place of the entity, under its id at least. -/
theorem keepsAt_place (sound : scene.Sound) {place : Address}
    (isPlace : place ∈ scene.heap.deployedAt e) : (scene.report e).KeepsAt place := by
  obtain ⟨id, holds⟩ := sound.tidy.holds_of_mem_deployedAt isPlace
  obtain ⟨x, inHierarchy, xHolds⟩ :=
    Heap.exists_root_mem_locationsInHierarchy sound.tidy.linksLocations holds
  obtain ⟨other, otherHolds, keeps⟩ := keepsAt_of_gathered sound
    (List.mem_flatMap.mpr ⟨place, isPlace, inHierarchy⟩)
  cases Heap.Holds.key_unique xHolds otherHolds
  exact ⟨id, holds, keeps⟩

/-! ## Parents -/

/-- Where a noted or a stored location has a parent, the parent is noted or stored as well, unless
the location is late. A stored parent is the one that the location has. -/
structure Rooted (late : Address → Prop) (scene : Scene) : Prop where
  noted : ∀ {id z q}, (id, z) ∈ scene.window.locations.changed →
    scene.heap.parentLocation? z = some q → late z ∨ scene.KeepsAt q
  stored : ∀ {id memento name}, scene.graph.locations.get? id = some memento →
    memento.parent = some name →
      ∃ z q, scene.heap.Holds ⟨.location, id⟩ z ∧ scene.heap.parentLocation? z = some q ∧
        scene.heap.Holds ⟨.location, name⟩ q ∧ (late z ∨ scene.KeepsAt q)

variable {late lateAfter : Address → Prop}

theorem rooted_empty {heap : Heap} : Rooted late ⟨heap, .empty, .empty⟩ := ⟨nofun, nofun⟩

theorem Rooted.mono (rooted : scene.Rooted late) (subset : ∀ z, late z → lateAfter z) :
    scene.Rooted lateAfter where
  noted := fun isNoted isParent => (rooted.noted isNoted isParent).imp (subset _) fun kept => kept
  stored := by
    intro id memento name found named
    obtain ⟨z, q, zHolds, isParent, qHolds, kept⟩ := rooted.stored found named
    exact ⟨z, q, zHolds, isParent, qHolds, kept.imp (subset z) fun kept => kept⟩

theorem Rooted.grow (rooted : scene.Rooted late) (growth : scene.heap.Extends after)
    (lateStill : ∀ z, late z → lateAfter z)
    (parents : ∀ z q, scene.heap.parentLocation? z = some q → after.parentLocation? z = some q)
    (noted : ∀ id z q, (id, z) ∈ scene.window.locations.changed →
      after.parentLocation? z = some q → scene.heap.parentLocation? z = some q ∨ lateAfter z) :
    (scene.grow after).Rooted lateAfter where
  noted := by
    intro id z q isNoted isParent
    rcases noted id z q isNoted isParent with wasParent | isLate
    · exact (rooted.noted isNoted wasParent).imp (lateStill z) fun kept => kept.grow growth
    · exact Or.inl isLate
  stored := by
    intro id memento name found named
    obtain ⟨z, q, zHolds, isParent, qHolds, kept⟩ := rooted.stored found named
    exact ⟨z, q, growth.holds _ _ zHolds, parents z q isParent, growth.holds _ _ qHolds,
      kept.imp (lateStill z) fun kept => kept.grow growth⟩

/-- What a report gathers is not late any more. -/
theorem Rooted.report (rooted : scene.Rooted late) (sound : scene.Sound)
    (distinct : scene.heap.DistinctLocations) (forest : scene.heap.Forest)
    (notLocation : ∀ id, ¬ scene.heap.Holds ⟨.location, id⟩ e) :
    (scene.report e).Rooted fun z =>
      late z ∧ z ∉ Window.locationsAround scene.heap e where
  noted := by
    intro id z q isNoted isParent
    by_cases gathered : z ∈ Window.locationsAround scene.heap e
    · exact Or.inr (parentKept gathered isParent)
    · rcases (notes_report e scene).origin .location _ isNoted with old | ⟨isNew, holds⟩
      · exact (rooted.noted old isParent).imp (fun isLate => ⟨isLate, gathered⟩)
          fun kept => kept.report e
      · rcases List.mem_cons.mp isNew with isE | isGathered
        · exact absurd (isE ▸ holds) (notLocation _)
        · exact absurd isGathered gathered
  stored := by
    intro id memento name found named
    obtain ⟨z, q, zHolds, isParent, qHolds, kept⟩ := rooted.stored found named
    refine ⟨z, q, zHolds, isParent, qHolds, ?_⟩
    by_cases gathered : z ∈ Window.locationsAround scene.heap e
    · exact Or.inr (parentKept gathered isParent)
    · exact kept.imp (fun isLate => ⟨isLate, gathered⟩) fun kept => kept.report e
where
  parentKept {z q : Address} (gathered : z ∈ Window.locationsAround scene.heap e)
      (isParent : scene.heap.parentLocation? z = some q) : (scene.report e).KeepsAt q := by
    obtain ⟨place, isPlace, inHierarchy⟩ := List.mem_flatMap.mp gathered
    obtain ⟨id, holds⟩ := sound.tidy.holds_of_mem_deployedAt isPlace
    exact keepsAt_of_gathered sound (List.mem_flatMap.mpr ⟨place, isPlace,
      Heap.parent_mem_locationsInHierarchy sound.tidy.linksLocations distinct holds forest
        inHierarchy isParent⟩)

theorem Rooted.unwatch (rooted : scene.Rooted late) (tidy : scene.heap.Tidy)
    (notLocation : key.kind ≠ .location) : (scene.unwatch e key).Rooted late where
  noted := by
    intro id z q isNoted isParent
    have same : (scene.unwatch e key).window.locations = scene.window.locations :=
      Window.locations_recordRemoved notLocation
    rw [(samePlaces_unwatch e key scene).parents tidy] at isParent
    rw [same] at isNoted
    exact (rooted.noted isNoted isParent).imp (fun isLate => isLate)
      fun kept => kept.unwatch notLocation
  stored := by
    intro id memento name found named
    obtain ⟨z, q, zHolds, isParent, qHolds, kept⟩ := rooted.stored found named
    have same := samePlaces_unwatch e key scene
    refine ⟨z, q, same.growth.holds _ _ zHolds, ?_, same.growth.holds _ _ qHolds,
      kept.imp (fun isLate => isLate) fun kept => kept.unwatch notLocation⟩
    rw [same.parents tidy]
    exact isParent

theorem Rooted.write (rooted : scene.Rooted late) (sound : scene.Sound) :
    scene.write.Rooted late where
  noted := nofun
  stored := by
    intro id memento name found named
    rcases location_write sound found with ⟨isId, z, isNoted, gives⟩ | old
    · obtain ⟨holds, links, isLinks, parent, -⟩ := Heap.links_of_memento? sound.ordinary gives
      rw [parent] at named
      obtain ⟨link, isLink, isName⟩ := Option.map_eq_some_iff.mp named
      obtain ⟨q, leads, qHolds⟩ := sound.tidy.parents isLinks isLink
      have isParent : scene.heap.parentLocation? z = some q := by
        rw [Heap.parentLocation?_eq, isLinks, Option.bind_some, isLink, Option.bind_some]
        exact Heap.follow?_of_holds leads qHolds
      exact ⟨z, q, isId ▸ holds, isParent, isName ▸ qHolds,
        (rooted.noted isNoted isParent).imp (fun isLate => isLate) fun kept => kept.write sound⟩
    · obtain ⟨z, q, zHolds, isParent, qHolds, kept⟩ := rooted.stored old named
      exact ⟨z, q, zHolds, isParent, qHolds,
        kept.imp (fun isLate => isLate) fun kept => kept.write sound⟩

/-! ## Children -/

/-- The children that a stored location names are children that it has. -/
def Descends (scene : Scene) : Prop :=
  ∀ id memento, scene.graph.locations.get? id = some memento →
    ∃ x, scene.heap.Holds ⟨.location, id⟩ x ∧ ∀ name ∈ memento.children,
      ∃ y ∈ scene.heap.childLocations x, scene.heap.Holds ⟨.location, name⟩ y

theorem Descends.grow (descends : scene.Descends) (growth : scene.heap.Extends after)
    (children : ∀ x, ∀ y ∈ scene.heap.childLocations x, y ∈ after.childLocations x) :
    (scene.grow after).Descends := by
  intro id memento found
  obtain ⟨x, holds, leads⟩ := descends id memento found
  refine ⟨x, growth.holds _ _ holds, fun name member => ?_⟩
  obtain ⟨y, isChild, yHolds⟩ := leads name member
  exact ⟨y, children x y isChild, growth.holds _ _ yHolds⟩

theorem Descends.write (descends : scene.Descends) (sound : scene.Sound) :
    scene.write.Descends := by
  intro id memento found
  rcases location_write sound found with ⟨isId, z, -, gives⟩ | old
  · obtain ⟨holds, links, isLinks, -, children⟩ := Heap.links_of_memento? sound.ordinary gives
    refine ⟨z, isId ▸ holds, fun name member => ?_⟩
    rw [children] at member
    obtain ⟨handle, isHandle, rfl⟩ := List.mem_map.mp member
    obtain ⟨y, leads, yHolds⟩ := sound.tidy.children isLinks isHandle
    refine ⟨y, ?_, yHolds⟩
    change y ∈ scene.heap.childLocations z
    rw [Heap.childLocations_eq, isLinks]
    exact List.mem_filterMap.mpr ⟨handle, isHandle, leads⟩
  · exact descends id memento old

/-! ## While nothing is noted -/

section Written

variable (written : scene.window = .empty)

include written

theorem contains_of_keepsAt {name : String} (kept : scene.KeepsAt x)
    (holds : scene.heap.Holds ⟨.location, name⟩ x) :
    scene.graph.locations.contains name = true := by
  obtain ⟨other, otherHolds, keeps⟩ := kept
  cases holds.key_unique otherHolds
  refine keeps.resolve_left fun noted => ?_
  rw [written] at noted
  cases noted

theorem Covers.exists_entity (covers : scene.Covers reach exempt)
    {memento : EntityMemento LiveValue} (found : scene.graph.entities.get? id = some memento) :
    ∃ e, scene.heap.Watched e ∧ scene.heap.Holds ⟨.entity, id⟩ e ∧
      ∀ name ∈ memento.locations, ∃ place ∈ scene.heap.deployedAt e,
        scene.heap.Holds ⟨.location, name⟩ place := by
  refine (covers.accounted found).resolve_left fun removed => ?_
  rw [written] at removed
  cases removed

/-- The places of a stored entity are stored. -/
theorem Covers.place_stored (covers : scene.Covers (fun _ => Eq) fun _ => False)
    {memento : EntityMemento LiveValue} (found : scene.graph.entities.get? id = some memento)
    {name : String} (named : name ∈ memento.locations) :
    scene.graph.locations.contains name = true := by
  obtain ⟨e, watched, -, places⟩ := covers.exists_entity written found
  obtain ⟨place, isPlace, holds⟩ := places name named
  exact contains_of_keepsAt written (covers.kept watched (fun none => none) isPlace rfl) holds

/-- Everything that stored records name below the places of a stored entity is stored. -/
theorem Covers.below_stored (covers : scene.Covers Heap.Below exempt) (descends : scene.Descends)
    (distinct : scene.heap.DistinctLocations) {memento : EntityMemento LiveValue}
    (found : scene.graph.entities.get? id = some memento) :
    (∀ name, scene.graph.LocationBelow memento.locations name →
      scene.graph.locations.contains name = true) ∨
      ∃ e, exempt e ∧ scene.heap.Holds ⟨.entity, id⟩ e := by
  obtain ⟨e, watched, eHolds, places⟩ := covers.exists_entity written found
  by_cases included : exempt e
  · exact Or.inr ⟨e, included, eHolds⟩
  · refine Or.inl fun name below => ?_
    have lives : ∃ place ∈ scene.heap.deployedAt e, ∃ x, scene.heap.Below place x ∧
        scene.heap.Holds ⟨.location, name⟩ x := by
      induction below with
      | start member =>
          obtain ⟨place, isPlace, holds⟩ := places _ member
          exact ⟨place, isPlace, place, .root, holds⟩
      | child _ stored member inductionHypothesis =>
          obtain ⟨place, isPlace, x, below, holds⟩ := inductionHypothesis
          obtain ⟨other, otherHolds, children⟩ := descends _ _ stored
          obtain ⟨y, isChild, yHolds⟩ := children _ member
          cases distinct _ _ _ holds otherHolds
          exact ⟨place, isPlace, y, below.child isChild, yHolds⟩
    obtain ⟨place, isPlace, x, below, holds⟩ := lives
    exact contains_of_keepsAt written (covers.kept watched included isPlace below) holds

/-- The parent that a stored location names is stored. -/
theorem Rooted.parent_stored (rooted : scene.Rooted late) {memento : LocationMemento LiveValue}
    (found : scene.graph.locations.get? id = some memento) {name : String}
    (named : memento.parent = some name) :
    scene.graph.locations.contains name = true ∨
      ∃ z, late z ∧ scene.heap.Holds ⟨.location, id⟩ z := by
  obtain ⟨z, q, zHolds, -, qHolds, isLate | kept⟩ := rooted.stored found named
  · exact Or.inr ⟨z, isLate, zHolds⟩
  · exact Or.inl (contains_of_keepsAt written kept qHolds)

end Written

end Scene

end GraphCheckpoint
