import GraphCheckpoint.Live.Heap
import Std.Data.HashSet

/-!
Contract: which objects live on.

Owns:
- what values, computed values and objects own;
- `sweep`, which drops every object that nothing owns.

Does not own: what the roots are, or what the windows of listeners hold.

An object lives as long as a root or something that lives itself owns it. Objects that own each
other in a ring therefore keep each other alive, even where no root leads to them: what is dropped
is the least set closed under losing the last owner.
-/

namespace GraphCheckpoint

/-- Something that can be owned. -/
inductive Owned where
  | object (address : Address)
  | cell (cell : CellId)
  | listener (listener : ListenerRef)
deriving DecidableEq, Repr

namespace Owned

/-- A number for a hash table; equal things have equal numbers. -/
def number : Owned → Nat
  | .object place => 5 * place.index
  | .cell which => 5 * which.index + 1
  | .listener .silent => 2
  | .listener (.own index) => 5 * index + 3
  | .listener (.manager index) => 5 * index + 4

instance : Hashable Owned := ⟨fun owned => hash owned.number⟩

end Owned

namespace Heap

/-- What a reference owns. -/
def ownedByHandle (heap : Heap) (handle : Handle) : List Owned :=
  ((heap.target? handle).map Owned.object).toList

def ownedByValue (heap : Heap) (value : LiveValue) : List Owned :=
  value.references.flatMap (fun (_, handle) => heap.ownedByHandle handle) ++
    value.deferrals.map Owned.cell

def ownedByTable (heap : Heap) (table : Table LiveValue) : List Owned :=
  table.values.flatMap heap.ownedByValue

def ownedByCommon (heap : Heap) (common : Common LiveValue) : List Owned :=
  heap.ownedByTable common.config ++ heap.ownedByTable common.attributes

/-- What an object owns: what its references and values lead to, and its listener. -/
def ownedByObject (heap : Heap) (object : LiveObject) : List Owned :=
  let byState :=
    match object.state with
    | .entity links => links.owned.flatMap heap.ownedByHandle
    | .location links => links.children.flatMap heap.ownedByHandle
    | .policy flags => heap.ownedByTable flags
  heap.ownedByCommon object.common ++ byState ++ (object.listener.map Owned.listener).toList

/-- What a record owns, through the values in it. -/
def ownedByMemento (heap : Heap) : ObjectMemento LiveValue → List Owned
  | .policy memento => heap.ownedByCommon memento.common ++ heap.ownedByTable memento.flags
  | memento => heap.ownedByCommon memento.common

def ownedByDelta (heap : Heap) (delta : Delta LiveValue) : List Owned :=
  delta.entities.flatMap (fun memento => heap.ownedByMemento (.entity memento)) ++
    delta.locations.flatMap (fun memento => heap.ownedByMemento (.location memento)) ++
    delta.policies.flatMap (fun memento => heap.ownedByMemento (.policy memento))

/-- What something owns, given what the windows of listeners hold. -/
def contentsOf (heap : Heap) (inWindow : ListenerRef → List Address) : Owned → List Owned
  | .object address => ((heap.object? address).map heap.ownedByObject).getD []
  | .cell cell => ((heap.cells.value? cell).map heap.ownedByValue).getD []
  | .listener listener => (inWindow listener).map Owned.object

/-- Keeps what has an owner, until nothing more is lost. -/
def keepOwned (contents : Owned → List Owned) (roots : List Owned) :
    Nat → List Owned → List Owned
  | 0, held => held
  | budget + 1, held =>
      let owned := Std.HashSet.ofList (roots ++ held.flatMap contents)
      let kept := held.filter owned.contains
      if kept.length = held.length then held else keepOwned contents roots budget kept

/-- Addresses of all objects that have not been dropped. -/
def liveAddresses (heap : Heap) : List Address :=
  (List.range heap.objects.size).filterMap fun index =>
    if (heap.object? ⟨index⟩).isSome then some ⟨index⟩ else none

/-- Drops every object without an owner. -/
def sweep (heap : Heap) (roots : List Owned) (listeners : List ListenerRef)
    (inWindow : ListenerRef → List Address) : Heap :=
  let candidates :=
    heap.liveAddresses.map Owned.object ++
      (List.range heap.cells.size).map (fun index => Owned.cell ⟨index⟩) ++
      listeners.map Owned.listener
  let kept :=
    Std.HashSet.ofList
      (keepOwned (heap.contentsOf inWindow) roots candidates.length candidates)
  { heap with objects := heap.objects.mapIdx fun index object =>
      if kept.contains (.object ⟨index⟩) then object else none }

end Heap

end GraphCheckpoint
