import GraphCheckpoint.Live.Object
import GraphCheckpoint.Text.Quoted

/-!
Contract: the types that a rebind can build objects of.

Owns:
- `Factory`, how objects of one type are made;
- `Registry`, the factories by kind and type name, and the checks on what they make.

Does not own: where new objects live, or how their state comes back.
-/

namespace GraphCheckpoint

/-- Makes the objects of one type. -/
structure Factory where
  /-- How its objects behave. -/
  behaviour : Behaviour
  /-- The id that all its objects get, where it keeps no other. -/
  fixedId : Option String
  /-- Its objects are remembered apart from the graph that they belong to. -/
  remembers : Bool
deriving DecidableEq, Repr, Inhabited

namespace Factory

/-- Makes ordinary objects under the ids that are asked for. -/
def basic : Factory := ⟨.ordinary, none, false⟩

/-- Makes ordinary objects and remembers them. -/
def tracked : Factory := ⟨.ordinary, none, true⟩

/-- Makes every object under one id, and remembers them. -/
def fixed (id : String) : Factory := ⟨.ordinary, some id, true⟩

/-- Makes entities that question the arena when they are rebuilt. -/
def asking : Factory := ⟨.asking, none, false⟩

/-- A new object for an id. -/
def make (factory : Factory) (kind : ObjectKind) (typeName id : String) : LiveObject :=
  { LiveObject.blank kind (factory.fixedId.getD id) typeName with behaviour := factory.behaviour }

end Factory

/-- Factories by type name, apart for every kind. -/
structure Registry where
  entities : Table Factory
  locations : Table Factory
  policies : Table Factory
deriving DecidableEq, Repr, Inhabited

namespace Registry

def empty : Registry := ⟨[], [], []⟩

/-- The factories of a kind. -/
def factories (registry : Registry) : ObjectKind → Table Factory
  | .entity => registry.entities
  | .location => registry.locations
  | .policy => registry.policies

/-- Sets the factory of a type, in the place of an earlier one. -/
def register (kind : ObjectKind) (typeName : String) (factory : Factory) (registry : Registry) :
    Registry :=
  match kind with
  | .entity => { registry with entities := registry.entities.insert typeName factory }
  | .location => { registry with locations := registry.locations.insert typeName factory }
  | .policy => { registry with policies := registry.policies.insert typeName factory }

def contains (registry : Registry) (kind : ObjectKind) (typeName : String) : Bool :=
  (registry.factories kind).contains typeName

/-- The kind of a type; of several kinds with one type name the first in their order. -/
def kindOf (registry : Registry) (typeName : String) : Outcome ObjectKind :=
  match ObjectKind.all.find? fun kind => registry.contains kind typeName with
  | some kind => .ok kind
  | none => .error (.typeNotFound typeName)

/-- The factory of a type. -/
def factory (registry : Registry) (kind : ObjectKind) (typeName : String) : Outcome Factory :=
  match (registry.factories kind).get? typeName with
  | some found => .ok found
  | none => .error (.typeNotFound typeName)

/-- Refuses an object that has another id than was asked for. -/
def checkId (kind : ObjectKind) (wanted : String) (object : LiveObject) : Outcome Unit :=
  if object.id = wanted then .ok ()
  else
    .error (.invalidState
      ("factory for " ++ kind.name ++ " '" ++ wanted ++ "' produced an object with id '" ++
        object.id ++ "'"))

/-- A new object of a type. -/
def create (registry : Registry) (kind : ObjectKind) (typeName id : String) :
    Outcome LiveObject := do
  let object := (← registry.factory kind typeName).make kind typeName id
  checkId kind id object
  return object

/-- The registered types, shown for people. -/
def shown (registry : Registry) : String :=
  Text.shownRecord "TypeRegistry"
    [("entities", Text.quotedList registry.entities.keys),
      ("locations", Text.quotedList registry.locations.keys),
      ("policies", Text.quotedList registry.policies.keys)]

end Registry

end GraphCheckpoint
