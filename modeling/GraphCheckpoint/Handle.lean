import GraphCheckpoint.Failure

/-!
Contract: references to managed objects.

Owns:
- `Handle`, a reference through a slot that many holders share;
- `Slots`, which tells for every slot the object that it is bound to;
- the rule that a slot is bound once.

Does not own: the objects.
-/

namespace GraphCheckpoint

/-- Where an object lives. -/
structure Address where
  index : Nat
deriving DecidableEq, Repr, Inhabited

/-- A reference to a managed object. The id and the declared type never change; the object is what
the slot is bound to, if it is. -/
structure Handle where
  slot : Nat
  id : String
  declaredType : Option String
deriving DecidableEq, Repr, Inhabited

namespace Handle

/-- References are equal when their ids are. -/
def same (left right : Handle) : Bool := left.id == right.id

/-- Two references share their slot. -/
def sharesSlot (left right : Handle) : Bool := left.slot == right.slot

end Handle

/-- The bindings of all slots. -/
structure Slots where
  bindings : Array (Option Address)
deriving Inhabited

namespace Slots

def empty : Slots := ⟨#[]⟩

/-- A reference through a new slot, bound to the given object or to none yet. -/
def allocate (id : String) (declaredType : Option String) (target : Option Address)
    (slots : Slots) : Handle × Slots :=
  (⟨slots.bindings.size, id, declaredType⟩, ⟨slots.bindings.push target⟩)

/-- A reference to an object that is not there yet. -/
def placeholder (id : String) (declaredType : Option String) (slots : Slots) : Handle × Slots :=
  slots.allocate id declaredType none

/-- The object that a reference leads to. -/
def target? (slots : Slots) (handle : Handle) : Option Address :=
  (slots.bindings[handle.slot]?).join

def isBound (slots : Slots) (handle : Handle) : Bool := (slots.target? handle).isSome

/-- Binds the slot of a reference, unless it is bound. -/
def bind (handle : Handle) (target : Address) (slots : Slots) : Outcome Slots :=
  if slots.isBound handle then
    .error (.invalidState ("object '" ++ handle.id ++ "' is already bound"))
  else .ok ⟨slots.bindings.setIfInBounds handle.slot (some target)⟩

end Slots

end GraphCheckpoint
