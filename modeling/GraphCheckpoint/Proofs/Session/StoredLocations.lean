import GraphCheckpoint.Proofs.Session.Opening
import GraphCheckpoint.Proofs.Session.Stages

/-!
Contract: which of the locations that the stored records name are stored, after any program that
makes, links, changes and watches objects while a manager writes.

Owns:
- the closure of the stored graph over the places of entities; over what is below the places, where
  ids are distinct; and over parents, where each location also has one at most;
- that it is not closed over children, with a program that shows it;
- that nothing is swept away during such programs.

Does not own: the steps of programs.

A report gathers the locations above and below an entity's places, and none beside the way up. So the
children that a location above a place names need not be stored.
-/

namespace GraphCheckpoint.Session.Stage

open GraphCheckpoint.Store

variable {session : Session} {index : Nat} {actions : List Action} {action : Action} {stage : Stage}

/-- The first stage of a program: nothing has been stored. -/
def start (session : Session) : Stage :=
  ⟨session, .empty, fun _ => False, fun _ => False, true, true⟩

/-- The manager is active, and nothing has been made or noted. -/
def Ready (index : Nat) (session : Session) : Prop :=
  ∃ service : Service, service.isActive = true ∧ session.Standing index service [] .empty .empty

theorem good_start (ready : Ready index session) : (start session).Good index := by
  obtain ⟨service, isActive, standing⟩ := ready
  have isScene : (start session).scene = ⟨.empty, .empty, .empty⟩ := by
    rw [scene, start, standing.heap, standing.window_eq]
  exact {
    attended := ⟨service, isActive, standing.attended_of_nothing⟩
    sound := isScene ▸ sound_nothing
    located := isScene ▸ Scene.covers_empty
    charted := fun _ => isScene ▸ Scene.charted_empty
    planted := fun _ _ => isScene ▸ Scene.planted_empty }

/-- Sweeping drops nothing during a program. -/
theorem Good.perform_eq {next : Stage} (good : stage.Good index)
    (isNext : stage.next? action = some next) :
    Session.perform action.step stage.session = (.ok (), next.session) := by
  obtain ⟨goodNext, ran⟩ := good.next isNext
  obtain ⟨_, -, attended⟩ := goodNext.attended
  change ((action.step stage.session).1, (action.step stage.session).2.sweep) = _
  rw [ran, attended.sweep_eq]

/-! ## Programs from the beginning -/

/-- The store's name in a program. -/
def storeName : String := "store"

/-- Opens a store, makes a manager that writes to it, and starts it. -/
def begin (kind : StoreKind) (config : ManagerConfig) (registry : Registry) : Step Unit := do
  openStore storeName kind
  discard (makeManager config registry)
  discard (setBackend (some storeName))
  mapManager Manager.start

/-- The manager writes to the new store from now on. -/
theorem standing_begin {kind : StoreKind} {config : ManagerConfig} {registry : Registry}
    (enabled : config.persistenceEnabled = true)
    (begun : begin kind config registry Session.empty = (.ok (), session)) :
    Ready 0 session := by
  obtain ⟨_, opened, isOpened, begun⟩ := bind_eq_ok begun
  obtain ⟨_, made, isMade, begun⟩ := bind_eq_ok begun
  obtain ⟨_, attached, isAttached, started⟩ := bind_eq_ok begun
  have prepared : prepare storeName kind config registry Session.empty = (.ok (), made) :=
    (bind_ok isOpened).trans isMade
  obtain ⟨store, -, standing⟩ := standing_prepare enabled prepared
  obtain ⟨_, between, isSet, ended⟩ := bind_eq_ok isAttached
  obtain rfl : between = attached := congrArg Prod.snd ended
  obtain ⟨which, standingAttached, hasStore, -⟩ := standing.setBackend_run isSet
  obtain ⟨other, ranToo, standingStarted⟩ := standingAttached.start_run
  rw [started] at ranToo
  cases ranToo
  refine ⟨_, ?_, standingStarted⟩
  rw [Service.isActive, hasStore]
  rfl

/-- After every successful cycle of every program, the places of stored entities are stored. Where no
two locations share an id, so is everything that stored records name below the places of a stored
entity, unless something has been linked there since the entity last reported. Where no location has
been linked below two others either, a stored parent is stored as well, unless the child has been
linked below it while it was noted and has not been gathered since. -/
theorem stored_locations_closed {kind : StoreKind} {config : ManagerConfig} {registry : Registry}
    (enabled : config.persistenceEnabled = true)
    (begun : begin kind config registry Session.empty = (.ok (), session)) {final : Stage}
    (ran : (start session).run? (actions ++ [.persist]) = some final) :
    (∀ id memento name, final.stored.entities.get? id = some memento → name ∈ memento.locations →
      final.stored.locations.contains name = true) ∧
    (final.distinctIds = true →
      (∀ id memento, final.stored.entities.get? id = some memento →
        (∀ name, final.stored.LocationBelow memento.locations name →
          final.stored.locations.contains name = true) ∨
          ∃ e, final.owing e ∧ final.session.heap.Holds ⟨.entity, id⟩ e) ∧
      (final.oneParent = true →
        ∀ id memento name, final.stored.locations.get? id = some memento →
          memento.parent = some name →
            final.stored.locations.contains name = true ∨
              ∃ z, final.late z ∧ final.session.heap.Holds ⟨.location, id⟩ z)) := by
  rw [run?_append] at ran
  obtain ⟨before, ranBefore, ranLast⟩ := Option.bind_eq_some_iff.mp ran
  obtain ⟨last, isLast, isFinal⟩ := Option.bind_eq_some_iff.mp ranLast
  cases isFinal
  have goodBefore := (good_start (standing_begin enabled begun)).run ranBefore
  obtain ⟨good, ranPersist⟩ := goodBefore.next isLast
  have written : final.scene.window = .empty := (goodBefore.persist ranPersist).2
  refine ⟨fun id memento name found named => ?_, fun isDistinct => ⟨fun id memento found => ?_,
    fun isSingle id memento name found named => ?_⟩⟩
  · exact Scene.Covers.place_stored written good.located found named
  · have charted := good.charted isDistinct
    exact charted.covers.below_stored written charted.descends charted.distinct found
  · exact (good.planted isDistinct isSingle).rooted.parent_stored written found named

/-- Every location that a stored record names as a place, a parent or a child is stored. -/
def LocationsClosed (graph : Graph LiveValue) : Prop :=
  (∀ id memento name, graph.entities.get? id = some memento → name ∈ memento.locations →
    graph.locations.contains name = true) ∧
  ∀ id memento name, graph.locations.get? id = some memento →
    memento.parent = some name ∨ name ∈ memento.children →
      graph.locations.contains name = true

/-! ## A location beside the way up -/

section Sample

private def sampleConfig : ManagerConfig := ⟨true, 1000, .lenient, default⟩

private def sampleSession : Session := (begin .recording sampleConfig .empty Session.empty).2

/-- A region with two zones, in one of which an entity is deployed. -/
private def sampleActions : List Action :=
  [.make .location "region" "region" "Region", .make .location "zone" "zone" "Zone",
    .make .location "sibling" "sibling" "Zone", .link "region" "zone", .link "region" "sibling",
    .make .entity "app" "app" "App", .attach "app" "zone" false, .manage "app"]

private theorem begin_sample :
    begin .recording sampleConfig .empty Session.empty = (.ok (), sampleSession) := rfl

private theorem run_sample :
    ((start sampleSession).run? (sampleActions ++ [.persist])).any (fun final =>
      final.distinctIds && final.oneParent &&
        decide ((final.stored.entities.get? "app").map EntityMemento.locations =
          some ["zone"]) &&
        decide ((final.stored.locations.get? "zone").map LocationMemento.parent =
          some (some "region")) &&
        decide ((final.stored.locations.get? "region").map LocationMemento.children =
          some ["zone", "sibling"]) &&
        decide (final.stored.locations.keys = ["region", "zone"])) = true := by
  decide +kernel

theorem stored_locations_closed_region : ∃ final : Stage,
    (start sampleSession).run? (sampleActions ++ [.persist]) = some final ∧
      final.distinctIds = true ∧ final.oneParent = true ∧
      final.stored.locations.contains "zone" = true ∧
      ((∀ name, final.stored.LocationBelow ["zone"] name →
        final.stored.locations.contains name = true) ∨
          ∃ e, final.owing e ∧ final.session.heap.Holds ⟨.entity, "app"⟩ e) ∧
      (final.stored.locations.contains "region" = true ∨
        ∃ z, final.late z ∧ final.session.heap.Holds ⟨.location, "zone"⟩ z) := by
  obtain ⟨final, ran, shape⟩ := (Option.any_eq_true _ _).mp run_sample
  simp only [Bool.and_eq_true, decide_eq_true_eq] at shape
  obtain ⟨⟨⟨⟨⟨isDistinct, isSingle⟩, places⟩, parent⟩, -⟩, -⟩ := shape
  obtain ⟨app, isApp, places⟩ := Option.map_eq_some_iff.mp places
  obtain ⟨zone, isZone, parent⟩ := Option.map_eq_some_iff.mp parent
  obtain ⟨ofPlaces, ofDistinct⟩ :=
    @stored_locations_closed sampleSession sampleActions .recording sampleConfig .empty rfl
      begin_sample final ran
  obtain ⟨ofBelow, ofParents⟩ := ofDistinct isDistinct
  have below := ofBelow "app" app isApp
  rw [places] at below
  refine ⟨final, ran, isDistinct, isSingle, ofPlaces "app" app "zone" isApp ?_, below,
    ofParents isSingle "zone" zone "region" isZone parent⟩
  rw [places]
  exact List.mem_singleton_self _

/-- The stored locations of a program need not be closed over children. -/
theorem not_locationsClosed :
    ¬ ∀ (kind : StoreKind) (config : ManagerConfig) (registry : Registry) (session : Session)
      (actions : List Action) (final : Stage), config.persistenceEnabled = true →
        begin kind config registry Session.empty = (.ok (), session) →
          (start session).run? (actions ++ [.persist]) = some final →
            LocationsClosed final.stored := by
  intro closed
  obtain ⟨final, ran, shape⟩ := (Option.any_eq_true _ _).mp run_sample
  simp only [Bool.and_eq_true, decide_eq_true_eq] at shape
  obtain ⟨⟨-, children⟩, keys⟩ := shape
  obtain ⟨region, isRegion, children⟩ := Option.map_eq_some_iff.mp children
  have isClosed := closed .recording sampleConfig .empty sampleSession sampleActions final rfl
    begin_sample ran
  have stored := isClosed.2 "region" region "sibling" isRegion (Or.inr (by rw [children]; decide))
  rw [Table.contains, ← Table.mem_keys_iff, keys] at stored
  exact absurd stored (by decide)

end Sample

end GraphCheckpoint.Session.Stage
