import GraphCheckpoint.Cells
import GraphCheckpoint.Memento

/-!
Contract: objects of the live graph.

Owns:
- `LiveObject`, its state by kind and what is peculiar about some objects;
- the weak links that lead back to a parent or an application;
- the record of an object's state.

Does not own: where objects live, or who is told of their changes.

An object owns what its references lead to; a weak link owns nothing.
-/

namespace GraphCheckpoint

/-- A link that does not keep its object alive. It remembers the object that its reference led to
when it was made, if there was one. -/
structure WeakLink where
  id : String
  declaredType : Option String
  target : Option Address
deriving DecidableEq, Repr, Inhabited

/-- Who is told of an object's changes. -/
inductive ListenerRef where
  /-- Nobody. -/
  | silent
  /-- A listener with a window of its own. -/
  | own (index : Nat)
  /-- The listener of a manager. -/
  | manager (index : Nat)
deriving DecidableEq, Repr, Inhabited

/-- The links of an entity. -/
structure EntityLinks where
  parent : Option WeakLink
  children : List Handle
  locations : List Handle
  policies : List Handle
  enrichers : List Handle
  application : Option WeakLink
deriving Inhabited

/-- The links of a location. -/
structure LocationLinks where
  parent : Option WeakLink
  children : List Handle
deriving Inhabited

/-- The state that objects of a kind have beside the common state. -/
inductive ObjectState where
  | entity (links : EntityLinks)
  | location (links : LocationLinks)
  | policy (flags : Table LiveValue)
deriving Inhabited

/-- How an object takes part in recording and rebuilding. -/
inductive Behaviour where
  /-- Records its state and takes it back. -/
  | ordinary
  /-- Fails to record its state. -/
  | failing (failure : Failure)
  /-- Stops the manager when it is asked for its locations. -/
  | stopping
  /-- Rebuilt by asking the arena what its configuration lists; fails to record its state. -/
  | asking
deriving DecidableEq, Repr, Inhabited

/-- An object of the live graph. -/
structure LiveObject where
  common : Common LiveValue
  state : ObjectState
  behaviour : Behaviour
  listener : Option ListenerRef
deriving Inhabited

namespace EntityLinks

def none : EntityLinks := ⟨.none, [], [], [], [], .none⟩

/-- All references that an entity owns. -/
def owned (links : EntityLinks) : List Handle :=
  links.children ++ links.locations ++ links.policies ++ links.enrichers

end EntityLinks

namespace LiveObject

/-- State without links or flags. -/
def blankState : ObjectKind → ObjectState
  | .entity => .entity .none
  | .location => .location ⟨none, []⟩
  | .policy => .policy []

/-- A fresh object. -/
def blank (kind : ObjectKind) (id typeName : String) : LiveObject :=
  ⟨Common.blank id typeName, blankState kind, .ordinary, none⟩

def id (object : LiveObject) : String := object.common.id

def typeName (object : LiveObject) : String := object.common.typeName

def kind (object : LiveObject) : ObjectKind :=
  match object.state with
  | .entity _ => .entity
  | .location _ => .location
  | .policy _ => .policy

def key (object : LiveObject) : ObjectKey := ⟨object.kind, object.id⟩

/-! ## State -/

def entityLinks? (object : LiveObject) : Option EntityLinks :=
  match object.state with
  | .entity links => some links
  | _ => none

def locationLinks? (object : LiveObject) : Option LocationLinks :=
  match object.state with
  | .location links => some links
  | _ => none

/-- The flags of a policy; other objects have none. -/
def flags (object : LiveObject) : Table LiveValue :=
  match object.state with
  | .policy flags => flags
  | _ => []

def mapCommon (change : Common LiveValue → Common LiveValue) (object : LiveObject) : LiveObject :=
  { object with common := change object.common }

/-- Changes the links of an entity. -/
def mapEntityLinks (change : EntityLinks → EntityLinks) (object : LiveObject) : LiveObject :=
  match object.state with
  | .entity links => { object with state := .entity (change links) }
  | _ => object

/-- Changes the links of a location. -/
def mapLocationLinks (change : LocationLinks → LocationLinks) (object : LiveObject) :
    LiveObject :=
  match object.state with
  | .location links => { object with state := .location (change links) }
  | _ => object

def withDisplayName (displayName : String) (object : LiveObject) : LiveObject :=
  object.mapCommon fun common => { common with displayName := some displayName }

def withConfig (key : String) (value : LiveValue) : LiveObject → LiveObject :=
  mapCommon (Common.withConfig key value)

def withAttribute (key : String) (value : LiveValue) : LiveObject → LiveObject :=
  mapCommon (Common.withAttribute key value)

def withTag (tag : String) : LiveObject → LiveObject := mapCommon (Common.withTag tag)

/-- Sets a flag of a policy. -/
def withFlag (key : String) (value : LiveValue) (object : LiveObject) : LiveObject :=
  match object.state with
  | .policy flags => { object with state := .policy (flags.insert key value) }
  | _ => object

/-- The tables in which an object keeps values. -/
inductive ValueTable where
  | config
  | attributes
  /-- Flags, which only policies have. -/
  | flags
deriving DecidableEq, Repr

/-- The values of a table. -/
def table (object : LiveObject) : ValueTable → Table LiveValue
  | .config => object.common.config
  | .attributes => object.common.attributes
  | .flags => object.flags

/-- Sets a value in a table. -/
def withValue (place : ValueTable) (key : String) (value : LiveValue) : LiveObject → LiveObject :=
  match place with
  | .config => withConfig key value
  | .attributes => withAttribute key value
  | .flags => withFlag key value

/-! ## Records -/

/-- The record of a state, with links named by id. -/
def stateMemento (common : Common LiveValue) : ObjectState → ObjectMemento LiveValue
  | .entity links =>
      .entity ⟨common, links.parent.map WeakLink.id, links.children.map Handle.id,
        links.locations.map Handle.id, links.policies.map Handle.id,
        links.enrichers.map Handle.id, links.application.map WeakLink.id⟩
  | .location links =>
      .location ⟨common, links.parent.map WeakLink.id, links.children.map Handle.id⟩
  | .policy flags => .policy ⟨common, flags⟩

/-- The record of an object's state, unless the object cannot give it. -/
def memento (object : LiveObject) : Outcome (ObjectMemento LiveValue) :=
  match object.behaviour with
  | .ordinary | .stopping => .ok (stateMemento object.common object.state)
  | .failing failure => .error failure
  | .asking => .error (.generation object.kind object.id "probe")

theorem memento_blank (kind : ObjectKind) (id typeName : String) :
    (blank kind id typeName).memento =
      .ok (stateMemento (Common.blank id typeName) (blankState kind)) := rfl

end LiveObject

end GraphCheckpoint
