import GraphCheckpoint.Rebind.Arena
import GraphCheckpoint.Rebind.Registry

/-!
Contract: what an object may ask while it is rebuilt.

Owns:
- the questions, how a configuration lists them, and their answers;
- `Question.answer`, which may add an id to the arena, as any look-up does.

Does not own: when objects are rebuilt.
-/

namespace GraphCheckpoint

/-- A question about the arena or about the registered types. -/
inductive Question where
  /-- The reference to an object whose record has been loaded. -/
  | reference (kind : ObjectKind) (id : String)
  /-- The reference to an id, which is added where it is new. -/
  | lookup (kind : ObjectKind) (id : String) (expected : Option String)
  /-- The kind of a type. -/
  | kindOf (typeName : String)
  /-- The number of ids in the arena. -/
  | size
  /-- Not a question: rebuilding is to fail with this text. -/
  | giveUp (reason : String)
deriving DecidableEq, Repr, Inhabited

/-- The answer to a question. -/
inductive Answer where
  | reference (kind : ObjectKind) (id : String) (declaredType : Option String) (built : Bool)
  | kindOf (typeName : String) (kind : ObjectKind)
  | size (count : Nat)
  | failure (failure : Failure)
deriving DecidableEq, Repr, Inhabited

namespace Question

/-- The question that a list of words stands for. -/
def ofWords? : List LiveValue → Option Question
  | [.text "get_entity", .text id] => some (.reference .entity id)
  | [.text "get_location", .text id] => some (.reference .location id)
  | [.text "get_policy", .text id] => some (.reference .policy id)
  | [.text "load_class", .text typeName] => some (.kindOf typeName)
  | [.text "fail", .text reason] => some (.giveUp reason)
  | .text "lookup_entity" :: .text id :: expected =>
      some (.lookup .entity id (expected.head?.bind Value.text?))
  | .text "lookup_location" :: .text id :: expected =>
      some (.lookup .location id (expected.head?.bind Value.text?))
  | .text "len" :: _ => some .size
  | _ => none

/-- The questions in a configuration: a list of lists of words under one key. -/
def ofConfig (config : Table LiveValue) : List Question :=
  match config.get? "probe" with
  | some (.list items) =>
      items.filterMap fun item =>
        match item with
        | .list words => ofWords? words
        | _ => none
  | _ => []

/-- The answer that shows a reference, or why there is none. -/
def referenceAnswer (kind : ObjectKind) (arena : Arena) : Outcome Handle → Answer
  | .ok handle => .reference kind handle.id handle.declaredType (arena.heap.isBuilt handle)
  | .error failure => .failure failure

/-- Answers a question; to give up is the failure that ends rebuilding. -/
def answer (registry : Registry) (arena : Arena) : Question → Outcome (Answer × Arena)
  | .reference kind id => .ok (referenceAnswer kind arena (arena.reference kind id), arena)
  | .lookup kind id expected =>
      match (Arena.resolver kind id expected).run arena with
      | .ok (handle, arena) => .ok (referenceAnswer kind arena (.ok handle), arena)
      | .error failure => .ok (.failure failure, arena)
  | .kindOf typeName =>
      match registry.kindOf typeName with
      | .ok kind => .ok (.kindOf typeName kind, arena)
      | .error failure => .ok (.failure failure, arena)
  | .size => .ok (.size arena.size, arena)
  | .giveUp reason => .error (.storage reason)

end Question

end GraphCheckpoint
