/-!
Contract: the three kinds of object that a checkpointed graph holds.

Owns:
- the kinds, their names and their order (entity, location, policy);
- the order in which a stored graph is rebuilt.

Does not own: what an object of a kind stores, or how it is rebuilt.
-/

namespace GraphCheckpoint

/-- The kind of a managed object. -/
inductive ObjectKind where
  | entity
  | location
  | policy
deriving DecidableEq, Repr, Inhabited

namespace ObjectKind

/-- The lower-case name under which a kind is shown and stored. -/
def name : ObjectKind → String
  | .entity => "entity"
  | .location => "location"
  | .policy => "policy"

/-- Position in the order entity, location, policy. -/
def rank : ObjectKind → Nat
  | .entity => 0
  | .location => 1
  | .policy => 2

/-- All kinds, in order. -/
def all : List ObjectKind := [.entity, .location, .policy]

/-- The order of rebuilding: entities refer to locations, policies to neither. -/
def rebindOrder : List ObjectKind := [.location, .entity, .policy]

theorem rank_injective {left right : ObjectKind} (same : left.rank = right.rank) :
    left = right := by
  cases left <;> cases right <;> first | rfl | cases same

theorem mem_rebindOrder (kind : ObjectKind) : kind ∈ rebindOrder := by
  cases kind <;> decide

end ObjectKind

/-- An object named by its kind and id. -/
structure ObjectKey where
  kind : ObjectKind
  id : String
deriving DecidableEq, Repr

namespace ObjectKey

/-- Keys are ordered by kind first, then by id. -/
def before (left right : ObjectKey) : Bool :=
  left.kind.rank < right.kind.rank ||
    (left.kind.rank == right.kind.rank && decide (left.id < right.id))

end ObjectKey

end GraphCheckpoint
