import GraphCheckpoint.Proofs.Codec

/-!
Contract: loading with a placeholder for every id.

Owns:
- `PlaceholderLookup.Tracks`, what the placeholders that were handed out have in common;
- that records always load with placeholders.

Does not own: which references lead somewhere.
-/

namespace GraphCheckpoint

open GraphCheckpoint.Encoding

namespace PlaceholderLookup

variable {asked : ObjectKind → String → Prop} {lookup : PlaceholderLookup}

/-- Every placeholder stands under its own id, which somebody asked for. What is no entity stands
among the locations. -/
structure Tracks (asked : ObjectKind → String → Prop) (lookup : PlaceholderLookup) : Prop where
  entities : ∀ entry ∈ lookup.entities, entry.2.id = entry.1 ∧ asked .entity entry.1
  locations : ∀ entry ∈ lookup.locations,
    entry.2.id = entry.1 ∧ ∃ kind, kind ≠ .entity ∧ asked kind entry.1

theorem tracks_start (slots : Slots) : (start slots).Tracks asked := by
  constructor <;> exact nofun

/-- Every look-up finds a placeholder of the id. -/
theorem Tracks.resolver_run (tracks : lookup.Tracks asked) {kind : ObjectKind} {id : String}
    (isAsked : asked kind id) (expected : Option String) :
    ∃ handle after, (resolver kind id expected).run lookup = .ok (handle, after) ∧
      handle.id = id ∧ after.Tracks asked := by
  by_cases isEntity : kind = .entity
  · subst isEntity
    cases found : lookup.entities.get? id with
    | some handle =>
        refine ⟨handle, lookup, ?_, (tracks.entities _ (Table.mem_of_get? found)).1, tracks⟩
        simp only [resolver, StateT.run_bind, StateT.run_get, pure_bind, found, if_true]
        rfl
    | none =>
        refine ⟨(lookup.slots.placeholder id expected).1, ⟨lookup.entities.insert id
          (lookup.slots.placeholder id expected).1, lookup.locations,
          (lookup.slots.placeholder id expected).2⟩, ?_, rfl, ?_, tracks.locations⟩
        · simp only [resolver, StateT.run_bind, StateT.run_get, pure_bind, found, if_true]
          rfl
        · intro entry member
          rcases Table.mem_insert member with rfl | old
          · exact ⟨rfl, isAsked⟩
          · exact tracks.entities entry old
  · cases found : lookup.locations.get? id with
    | some handle =>
        refine ⟨handle, lookup, ?_, (tracks.locations _ (Table.mem_of_get? found)).1, tracks⟩
        simp only [resolver, isEntity, StateT.run_bind, StateT.run_get, pure_bind, found, if_false]
        rfl
    | none =>
        refine ⟨(lookup.slots.placeholder id expected).1, ⟨lookup.entities,
          lookup.locations.insert id (lookup.slots.placeholder id expected).1,
          (lookup.slots.placeholder id expected).2⟩, ?_, rfl, tracks.entities, ?_⟩
        · simp only [resolver, isEntity, StateT.run_bind, StateT.run_get, pure_bind, found, if_false]
          rfl
        · intro entry member
          rcases Table.mem_insert member with rfl | old
          · exact ⟨rfl, kind, isEntity, isAsked⟩
          · exact tracks.locations entry old

/-- Ids are asked for while records are loaded. -/
def asking (asked : ObjectKind → String → Prop) : Progress PlaceholderLookup where
  kept := Tracks asked
  fails := fun _ => False
  later := fun _ _ => True
  refl := fun _ => trivial
  trans := fun _ _ _ _ _ => trivial

theorem yields_resolver {kind : ObjectKind} {reference : Reference}
    (isAsked : asked kind reference.id) (expected : Option String) :
    (asking asked).Yields (resolver kind reference.id expected)
      fun _ found => found.id = reference.id := by
  intro lookup tracks
  obtain ⟨handle, after, ran, isNamed, afterTracks⟩ := tracks.resolver_run isAsked expected
  exact Or.inr ⟨handle, after, ran, afterTracks, trivial, fun _ _ => isNamed⟩

end PlaceholderLookup

open PlaceholderLookup

namespace Encoding.Settings

variable (settings : Settings)

/-- Some value of the graph refers to the id. -/
def Asks (graph : Graph Datum) (kind : ObjectKind) (id : String) : Prop :=
  ∃ reference ∈ graph.valueReferences Value.referencesOfEntries,
    reference.1 = kind ∧ reference.2.id = id

/-- A graph always resolves to placeholders, and none is handed out but for its references. -/
theorem resolveGraph_placeholders (graph : Graph Datum) (slots : Slots) :
    ∃ loaded after,
      (settings.resolveGraph PlaceholderLookup.resolver graph).run (.start slots) =
          .ok (loaded, after) ∧
        after.Tracks (Asks graph) ∧ loaded.byIds = settings.readByIds graph := by
  obtain ⟨loaded, after, ran, tracks, -, described⟩ :=
    (@Graph.yields_convert _ Reference Handle String CellId (asking (Asks graph))
      settings.aliases.decodeName
      (fun kind reference => PlaceholderLookup.resolver kind reference.id
        (reference.expectedType.map settings.aliases.decodeName))
      (fun _ => Reference.id) Handle.id graph
      (fun reference member => yields_resolver ⟨reference, member, rfl, rfl⟩ _)).run
      (fun _ impossible => impossible) (tracks_start slots)
  exact ⟨loaded, after, ran, tracks, described after trivial⟩

/-- The records of a delta always resolve to placeholders. -/
theorem convertDelta_placeholders (delta : Delta Datum) (slots : Slots) :
    ∃ loaded after,
      (delta.convert (settings.reading PlaceholderLookup.resolver)).run (.start slots) =
        .ok (loaded, after) := by
  obtain ⟨loaded, after, ran, -⟩ :=
    (@Delta.yields_convert _ Reference Handle String CellId (asking fun _ _ => True)
      settings.aliases.decodeName
      (fun kind reference => PlaceholderLookup.resolver kind reference.id
        (reference.expectedType.map settings.aliases.decodeName))
      (fun _ => Reference.id) Handle.id delta
      (fun reference _ => yields_resolver trivial _)).run (fun _ impossible => impossible)
      (tracks_start slots)
  exact ⟨loaded, after, ran⟩

end Encoding.Settings

end GraphCheckpoint
