import GraphCheckpoint.Table
import GraphCheckpoint.Kind

/-!
Contract: the records that keep the state of one managed object.

Owns:
- one record type to a kind, generic in the type of the stored values, and their sum;
- the edits from which a record is put together;
- conversion of a record to another type of values, table by table.

Does not own: the values, or where records are kept.

Objects are named by id only, so that any graph of links can be recorded.
-/

namespace GraphCheckpoint

/-- What every object stores, whatever its kind. -/
structure Common (V : Type) where
  id : String
  typeName : String
  displayName : Option String
  config : Table V
  attributes : Table V
  tags : IdSet
deriving Inhabited

/-- The stored state of an entity. -/
structure EntityMemento (V : Type) where
  common : Common V
  parent : Option String
  children : List String
  locations : List String
  policies : List String
  enrichers : List String
  application : Option String
deriving Inhabited

/-- The stored state of a location. -/
structure LocationMemento (V : Type) where
  common : Common V
  parent : Option String
  children : List String
deriving Inhabited

/-- The stored state of a policy, whose flags are set when it is made. -/
structure PolicyMemento (V : Type) where
  common : Common V
  flags : Table V
deriving Inhabited

variable {V W : Type}

/-- A change of the type of values: new names for object types, and new tables. -/
structure Conversion (m : Type → Type) (V W : Type) where
  typeName : String → String
  table : Table V → m (Table W)

namespace Common

/-- A record without contents. -/
def blank (id typeName : String) : Common V := ⟨id, typeName, none, [], [], []⟩

def withConfig (key : String) (value : V) (common : Common V) : Common V :=
  { common with config := common.config.insert key value }

def withConfigs (entries : Table V) (common : Common V) : Common V :=
  { common with config := common.config.insertAll entries }

def withAttribute (key : String) (value : V) (common : Common V) : Common V :=
  { common with attributes := common.attributes.insert key value }

def withAttributes (entries : Table V) (common : Common V) : Common V :=
  { common with attributes := common.attributes.insertAll entries }

def withTag (tag : String) (common : Common V) : Common V :=
  { common with tags := IdSet.insert tag common.tags }

def withTags (tags : List String) (common : Common V) : Common V :=
  tags.foldl (fun current tag => current.withTag tag) common

/-- Converts the configuration, then the attributes; the first failure ends it. -/
def convert {m : Type → Type} [Monad m] (conversion : Conversion m V W) (common : Common V) :
    m (Common W) := do
  let config ← conversion.table common.config
  let attributes ← conversion.table common.attributes
  return ⟨common.id, conversion.typeName common.typeName, common.displayName, config, attributes,
    common.tags⟩

/-- Equality, given that of tables of values. -/
def sameWith (sameTable : Table V → Table V → Bool) (left right : Common V) : Bool :=
  left.id == right.id && left.typeName == right.typeName &&
    left.displayName == right.displayName && sameTable left.config right.config &&
    sameTable left.attributes right.attributes && left.tags == right.tags

/-- References of the configuration, then of the attributes. -/
def references {α : Type} (ofTable : Table V → List α) (common : Common V) : List α :=
  ofTable common.config ++ ofTable common.attributes

end Common

namespace EntityMemento

def blank (id typeName : String) : EntityMemento V :=
  ⟨Common.blank id typeName, none, [], [], [], [], none⟩

def id (memento : EntityMemento V) : String := memento.common.id

def typeName (memento : EntityMemento V) : String := memento.common.typeName

/-- An application has no parent and belongs to no application but itself. -/
def isApplication (memento : EntityMemento V) : Bool :=
  memento.parent.isNone &&
    match memento.application with
    | none => true
    | some application => application == memento.id

def mapCommon (change : Common V → Common V) (memento : EntityMemento V) : EntityMemento V :=
  { memento with common := change memento.common }

def convert {m : Type → Type} [Monad m] (conversion : Conversion m V W)
    (memento : EntityMemento V) : m (EntityMemento W) := do
  let common ← memento.common.convert conversion
  return ⟨common, memento.parent, memento.children, memento.locations, memento.policies,
    memento.enrichers, memento.application⟩

def sameWith (sameTable : Table V → Table V → Bool) (left right : EntityMemento V) : Bool :=
  left.common.sameWith sameTable right.common && left.parent == right.parent &&
    left.children == right.children && left.locations == right.locations &&
    left.policies == right.policies && left.enrichers == right.enrichers &&
    left.application == right.application

/-- The objects to which the links of an entity lead. -/
def links (memento : EntityMemento V) : List ObjectKey :=
  memento.parent.toList.map (ObjectKey.mk .entity) ++
    memento.application.toList.map (ObjectKey.mk .entity) ++
    memento.children.map (ObjectKey.mk .entity) ++
    memento.locations.map (ObjectKey.mk .location) ++
    memento.policies.map (ObjectKey.mk .policy) ++
    memento.enrichers.map (ObjectKey.mk .policy)

def valueReferences {α : Type} (ofTable : Table V → List α) (memento : EntityMemento V) : List α :=
  memento.common.references ofTable

end EntityMemento

namespace LocationMemento

def blank (id typeName : String) : LocationMemento V := ⟨Common.blank id typeName, none, []⟩

def id (memento : LocationMemento V) : String := memento.common.id

def typeName (memento : LocationMemento V) : String := memento.common.typeName

def mapCommon (change : Common V → Common V) (memento : LocationMemento V) :
    LocationMemento V :=
  { memento with common := change memento.common }

def convert {m : Type → Type} [Monad m] (conversion : Conversion m V W)
    (memento : LocationMemento V) : m (LocationMemento W) := do
  let common ← memento.common.convert conversion
  return ⟨common, memento.parent, memento.children⟩

def sameWith (sameTable : Table V → Table V → Bool) (left right : LocationMemento V) : Bool :=
  left.common.sameWith sameTable right.common && left.parent == right.parent &&
    left.children == right.children

/-- The objects to which the links of a location lead. -/
def links (memento : LocationMemento V) : List ObjectKey :=
  memento.parent.toList.map (ObjectKey.mk .location) ++
    memento.children.map (ObjectKey.mk .location)

def valueReferences {α : Type} (ofTable : Table V → List α) (memento : LocationMemento V) :
    List α :=
  memento.common.references ofTable

end LocationMemento

namespace PolicyMemento

def blank (id typeName : String) : PolicyMemento V := ⟨Common.blank id typeName, []⟩

def id (memento : PolicyMemento V) : String := memento.common.id

def typeName (memento : PolicyMemento V) : String := memento.common.typeName

def mapCommon (change : Common V → Common V) (memento : PolicyMemento V) : PolicyMemento V :=
  { memento with common := change memento.common }

def withFlag (key : String) (value : V) (memento : PolicyMemento V) : PolicyMemento V :=
  { memento with flags := memento.flags.insert key value }

def withFlags (entries : Table V) (memento : PolicyMemento V) : PolicyMemento V :=
  { memento with flags := memento.flags.insertAll entries }

/-- Converts the configuration, the attributes and the flags, in this order. -/
def convert {m : Type → Type} [Monad m] (conversion : Conversion m V W)
    (memento : PolicyMemento V) : m (PolicyMemento W) := do
  let common ← memento.common.convert conversion
  let flags ← conversion.table memento.flags
  return ⟨common, flags⟩

def sameWith (sameTable : Table V → Table V → Bool) (left right : PolicyMemento V) : Bool :=
  left.common.sameWith sameTable right.common && sameTable left.flags right.flags

/-- References of the configuration, the attributes and the flags, in this order. -/
def valueReferences {α : Type} (ofTable : Table V → List α) (memento : PolicyMemento V) :
    List α :=
  memento.common.references ofTable ++ ofTable memento.flags

end PolicyMemento

/-- The stored state of an object of any kind. -/
inductive ObjectMemento (V : Type) where
  | entity (memento : EntityMemento V)
  | location (memento : LocationMemento V)
  | policy (memento : PolicyMemento V)
deriving Inhabited

namespace ObjectMemento

def kind : ObjectMemento V → ObjectKind
  | .entity _ => .entity
  | .location _ => .location
  | .policy _ => .policy

def common : ObjectMemento V → Common V
  | .entity memento => memento.common
  | .location memento => memento.common
  | .policy memento => memento.common

def id (memento : ObjectMemento V) : String := memento.common.id

def typeName (memento : ObjectMemento V) : String := memento.common.typeName

def mapCommon (change : Common V → Common V) : ObjectMemento V → ObjectMemento V
  | .entity memento => .entity (memento.mapCommon change)
  | .location memento => .location (memento.mapCommon change)
  | .policy memento => .policy (memento.mapCommon change)

def sameWith (sameTable : Table V → Table V → Bool) : ObjectMemento V → ObjectMemento V → Bool
  | .entity left, .entity right => left.sameWith sameTable right
  | .location left, .location right => left.sameWith sameTable right
  | .policy left, .policy right => left.sameWith sameTable right
  | _, _ => false

def valueReferences {α : Type} (ofTable : Table V → List α) : ObjectMemento V → List α
  | .entity memento => memento.valueReferences ofTable
  | .location memento => memento.valueReferences ofTable
  | .policy memento => memento.valueReferences ofTable

end ObjectMemento

end GraphCheckpoint
