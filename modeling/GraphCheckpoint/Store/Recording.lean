import GraphCheckpoint.Live.Heap

/-!
Contract: a store that keeps deltas as they come, for watching what is written.

Owns:
- the deltas kept, the graph that loads give, and the log of the rebinds that loads have run;
- the reactions that can be set for writes and loads.

Does not own: what a reaction does to a manager.

A delta is kept as it was when it came: what becomes of its values later does not show in it, and it
keeps nothing alive.
-/

namespace GraphCheckpoint.Store

/-- What is done to the manager while a delta is taken. -/
inductive ManagerReaction where
  | stop
  /-- Takes the manager's store away. -/
  | detach
deriving DecidableEq, Repr, Inhabited

/-- What is done while a load runs. -/
inductive LoadReaction where
  /-- The load never ends. -/
  | stall
  /-- The load first runs a rebind of the manager. -/
  | rebind
deriving DecidableEq, Repr, Inhabited

/-- What a recording store does when it is used. -/
structure Reactions where
  /-- Id of an object that changes while a delta is taken. -/
  change : Option String
  toManager : Option ManagerReaction
  /-- The text with which a delta is refused. -/
  failure : Option String
  onLoad : Option LoadReaction
  /-- The text with which a load is refused. -/
  loadFailure : Option String
deriving DecidableEq, Repr, Inhabited

namespace Reactions

def none : Reactions := ⟨.none, .none, .none, .none, .none⟩

end Reactions

/-- A delta, with the heap in which its values were found when it came. -/
structure RecordedDelta where
  delta : Delta LiveValue
  heap : Heap
deriving Inhabited

/-- Keeps deltas as they come. -/
structure RecordingStore where
  /-- The deltas taken, oldest first. -/
  deltas : List RecordedDelta
  /-- What loads give. -/
  graph : Graph LiveValue
  /-- The rebinds that loads have run: how many applications each found, or why it failed. -/
  log : List (Outcome Nat)
  reactions : Reactions
deriving Inhabited

namespace RecordingStore

def make : RecordingStore := ⟨[], .empty, [], .none⟩

/-- Takes a delta, or refuses it. -/
def delta (heap : Heap) (delta : Delta LiveValue) (store : RecordingStore) :
    Outcome RecordingStore :=
  match store.reactions.failure with
  | some reason => .error (.storage reason)
  | none => .ok { store with deltas := store.deltas ++ [⟨delta, heap⟩] }

/-- Sets the graph that loads give. -/
def checkpoint (graph : Graph LiveValue) (store : RecordingStore) : RecordingStore :=
  { store with graph := graph }

/-- The graph, or the refusal of the load. -/
def load (store : RecordingStore) : Outcome (Graph LiveValue) :=
  match store.reactions.loadFailure with
  | some reason => .error (.storage reason)
  | none => .ok store.graph

/-- Forgets deltas and log. -/
def forget (store : RecordingStore) : RecordingStore := { store with deltas := [], log := [] }

end RecordingStore

end GraphCheckpoint.Store
