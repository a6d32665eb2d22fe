import GraphCheckpoint.Proofs.Session.Actions

/-!
Contract: a session with one store and one manager, in which nothing has been made yet.

Owns:
- `Session.prepare`, which leads to such a session;
- that nothing has been noted there, and that its store has recorded nothing.

Does not own: what comes then.
-/

namespace GraphCheckpoint.Session

open GraphCheckpoint.Store

variable {session : Session} {storeName : String} {kind : StoreKind} {config : ManagerConfig}
variable {registry : Registry}

/-- Opens a store and makes a manager, which has no store yet. -/
def prepare (storeName : String) (kind : StoreKind) (config : ManagerConfig)
    (registry : Registry) : Step Unit := do
  openStore storeName kind
  discard (makeManager config registry)

/-- A new store has recorded nothing, and does not react. -/
structure IsNew (store : AnyStore) : Prop where
  quiet : ∀ recording, store = .recording recording → recording.reactions = Reactions.none
  unused : ∀ recording, store = .recording recording → recorded recording = []

theorem openStore_run (ran : openStore storeName kind Session.empty = (.ok (), session)) :
    ∃ store disk clock, IsNew store ∧ session = { Session.empty with
      stores := #[store], storeNames := [(storeName, ⟨0⟩)], disk := disk, clock := clock } := by
  cases kind with
  | memory settings =>
      obtain rfl := congrArg Prod.snd ran
      exact ⟨.memory (.make settings), _, _, ⟨nofun, nofun⟩, rfl⟩
  | recording =>
      obtain rfl := congrArg Prod.snd ran
      refine ⟨.recording .make, _, _, ⟨?_, ?_⟩, rfl⟩
      · intro recording same
        cases same
        rfl
      · intro recording same
        cases same
        rfl
  | file directory options =>
      obtain ⟨_, closed, isClosed, ran⟩ := bind_eq_ok ran
      cases isClosed
      obtain ⟨store, between, made, named⟩ := bind_eq_ok ran
      cases opened :
        FileStore.openStore Session.empty.clock directory options Session.empty.disk with
      | mk outcome disk =>
          have isMade : newStore (.file directory options) Session.empty =
              (orRefuse outcome >>= fun store => pure (.file store) : Step AnyStore)
                { Session.empty with disk := disk, clock := Session.empty.clock + 1 } := by
            refine (bind_ok get_run).trans ?_
            rw [opened]
            rfl
          replace made := isMade.symm.trans made
          cases outcome with
          | error failure => cases made
          | ok store =>
              cases made
              cases named
              exact ⟨.file store, _, _, ⟨nofun, nofun⟩, rfl⟩

/-- The manager has no store and does not run, and nothing has been made. -/
theorem standing_prepare (enabled : config.persistenceEnabled = true)
    (prepared : prepare storeName kind config registry Session.empty = (.ok (), session)) :
    ∃ store, IsNew store ∧
      session.Standing 0 ⟨false, none, #[store], [(storeName, ⟨0⟩)]⟩ [] .empty .empty := by
  obtain ⟨_, opened, isOpened, made⟩ := bind_eq_ok prepared
  obtain ⟨store, disk, clock, isNew, rfl⟩ := openStore_run isOpened
  obtain rfl := congrArg Prod.snd made
  refine ⟨store, isNew, rfl, rfl, rfl, rfl, rfl, rfl, ?_, Manager.make config registry, rfl,
    ⟨enabled, rfl, rfl, rfl, rfl, rfl⟩⟩
  intro index recording found
  have isStore : (#[store] : Array AnyStore)[index]? = some (.recording recording) := found
  rw [Array.getElem?_singleton] at isStore
  split at isStore
  · exact isNew.quiet recording (Option.some.inj isStore)
  · cases isStore

/-! ## Nothing -/

theorem sound_nothing : Scene.Sound ⟨.empty, .empty, .empty⟩ := by
  refine Scene.sound_empty Heap.tidy_empty fun address object isObject => ?_
  rw [Heap.object?_empty] at isObject
  cases isObject

theorem Standing.attended_of_nothing {index : Nat} {service : Service}
    (standing : session.Standing index service [] .empty .empty) :
    session.Attended index service := by
  apply attended_of_standing standing
  · intro address object isObject
    rw [Heap.object?_empty] at isObject
    cases isObject
  · intro address object isObject
    rw [Heap.object?_empty] at isObject
    cases isObject

end GraphCheckpoint.Session
