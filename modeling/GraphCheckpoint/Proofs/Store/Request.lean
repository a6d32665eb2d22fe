import GraphCheckpoint.Proofs.Store.File

/-!
Contract: what is asked of a file store, one request after another.

Owns:
- `Request`, everything that is asked of a store from its opening on;
- runs of requests, which go on whatever becomes of each.

Does not own: what a request leaves behind.
-/

namespace GraphCheckpoint.Store

open GraphCheckpoint.Encoding StoreAction

/-- What is asked of a store. -/
inductive Request where
  | delta (cells : Cells) (now : Int64) (delta : Delta LiveValue)
  | checkpoint (cells : Cells) (now : Int64) (graph : Graph LiveValue)
  | compact (now : Int64)
  /-- The store is stopped, and opened again with other durability and threshold. -/
  | reopen (nowMs : Int) (durability : Durability) (compactAfter : UInt64)

namespace Request

/-- Does what is asked. -/
def perform : Request → StoreAction FileStore Unit
  | .delta cells now changes => FileStore.delta cells now changes
  | .checkpoint cells now graph => FileStore.checkpoint cells now graph
  | .compact now => FileStore.compact now
  | .reopen nowMs durability compactAfter => fun (store, disk) =>
      let stopped := store.stop
      match FileStore.openStore nowMs stopped.directory
          ⟨durability, compactAfter, stopped.settings⟩ disk with
      | (.ok opened, disk) => (.ok (), opened, disk)
      | (.error failure, disk) => (.error failure, stopped, disk)

/-- Does what is asked in turn, whatever becomes of it. -/
def run : List Request → FileStore × Disk → List (Outcome Unit) × FileStore × Disk
  | [], state => ([], state)
  | request :: rest, state =>
      let (result, state) := request.perform state
      let (results, state) := run rest state
      (result :: results, state)

end Request

end GraphCheckpoint.Store
