import GraphCheckpoint.Kind
import GraphCheckpoint.Decimal

/-!
Contract: the values that configurations, attributes and flags hold.

Owns:
- `Value`, generic in how a reference is held and in how a value that is still being computed is
  held;
- accessors, shown text, equality and the references inside a value;
- change of the references of a value, plain and in a monad.

Does not own: how references lead to objects, or what has become of a computed value.

A map's entries stand in ascending key order. A value without computed parts has `Empty` in the
place of their type.
-/

namespace GraphCheckpoint

/-- A value whose references are of type `ρ` and whose computed parts are of type `δ`. -/
inductive Value (ρ δ : Type) where
  | null
  | boolean (flag : Bool)
  | integer (number : Int64)
  | float (number : Binary64)
  | text (content : String)
  | list (items : List (Value ρ δ))
  | map (entries : List (String × Value ρ δ))
  | entity (target : ρ)
  | location (target : ρ)
  | deferred (cell : δ)
deriving Inhabited

namespace Value

variable {ρ ρ' δ : Type}

def typeName : Value ρ δ → String
  | .null => "null"
  | .boolean _ => "boolean"
  | .integer _ => "integer"
  | .float _ => "float"
  | .text _ => "text"
  | .list _ => "list"
  | .map _ => "map"
  | .entity _ => "entityRef"
  | .location _ => "locationRef"
  | .deferred _ => "deferred"

def isNull : Value ρ δ → Bool
  | .null => true
  | _ => false

def boolean? : Value ρ δ → Option Bool
  | .boolean flag => some flag
  | _ => none

/-- An integer, or the whole part of a float within the 64-bit range. -/
def integer? : Value ρ δ → Option Int64
  | .integer number => some number
  | .float number => number.toInteger?.map Int64.ofInt
  | _ => none

/-- A float, or the float nearest to an integer. -/
def float? : Value ρ δ → Option Binary64
  | .float number => some number
  | .integer number => some (Binary64.ofInt number.toInt)
  | _ => none

def text? : Value ρ δ → Option String
  | .text content => some content
  | _ => none

def entity? : Value ρ δ → Option ρ
  | .entity target => some target
  | _ => none

def location? : Value ρ δ → Option ρ
  | .location target => some target
  | _ => none

/-! ## References -/

mutual

/-- The references held directly, in order: lists by position, maps by key. -/
def references : Value ρ δ → List (ObjectKind × ρ)
  | .entity target => [(.entity, target)]
  | .location target => [(.location, target)]
  | .list items => referencesOfItems items
  | .map entries => referencesOfEntries entries
  | _ => []

def referencesOfItems : List (Value ρ δ) → List (ObjectKind × ρ)
  | [] => []
  | item :: rest => item.references ++ referencesOfItems rest

def referencesOfEntries : List (String × Value ρ δ) → List (ObjectKind × ρ)
  | [] => []
  | (_, value) :: rest => value.references ++ referencesOfEntries rest

end

mutual

/-- The computed parts held directly, in order. -/
def deferrals : Value ρ δ → List δ
  | .deferred cell => [cell]
  | .list items => deferralsOfItems items
  | .map entries => deferralsOfEntries entries
  | _ => []

def deferralsOfItems : List (Value ρ δ) → List δ
  | [] => []
  | item :: rest => item.deferrals ++ deferralsOfItems rest

def deferralsOfEntries : List (String × Value ρ δ) → List δ
  | [] => []
  | (_, value) :: rest => value.deferrals ++ deferralsOfEntries rest

end

mutual

/-- Replaces every reference. -/
def mapReferences (change : ρ → ρ') : Value ρ δ → Value ρ' δ
  | .null => .null
  | .boolean flag => .boolean flag
  | .integer number => .integer number
  | .float number => .float number
  | .text content => .text content
  | .list items => .list (mapReferencesOfItems change items)
  | .map entries => .map (mapReferencesOfEntries change entries)
  | .entity target => .entity (change target)
  | .location target => .location (change target)
  | .deferred cell => .deferred cell

def mapReferencesOfItems (change : ρ → ρ') : List (Value ρ δ) → List (Value ρ' δ)
  | [] => []
  | item :: rest => item.mapReferences change :: mapReferencesOfItems change rest

def mapReferencesOfEntries (change : ρ → ρ') :
    List (String × Value ρ δ) → List (String × Value ρ' δ)
  | [] => []
  | (key, value) :: rest =>
      (key, value.mapReferences change) :: mapReferencesOfEntries change rest

end

mutual

/-- Replaces every reference by the result of a look-up, in order; the first failure ends it. The
value has no computed parts, so the result may be read as one that could have some. -/
def resolveReferences {m : Type → Type} [Monad m] (find : ObjectKind → ρ → m ρ') :
    Value ρ Empty → m (Value ρ' δ)
  | .null => pure .null
  | .boolean flag => pure (.boolean flag)
  | .integer number => pure (.integer number)
  | .float number => pure (.float number)
  | .text content => pure (.text content)
  | .list items => do return .list (← resolveItems find items)
  | .map entries => do return .map (← resolveEntries find entries)
  | .entity target => do return .entity (← find .entity target)
  | .location target => do return .location (← find .location target)

def resolveItems {m : Type → Type} [Monad m] (find : ObjectKind → ρ → m ρ') :
    List (Value ρ Empty) → m (List (Value ρ' δ))
  | [] => pure []
  | item :: rest => do
      let resolved ← item.resolveReferences find
      return resolved :: (← resolveItems find rest)

def resolveEntries {m : Type → Type} [Monad m] (find : ObjectKind → ρ → m ρ') :
    List (String × Value ρ Empty) → m (List (String × Value ρ' δ))
  | [] => pure []
  | (key, value) :: rest => do
      let resolved ← value.resolveReferences find
      return (key, resolved) :: (← resolveEntries find rest)

end

/-! ## Shown text -/

mutual

/-- The shown text, given the ids of references and the text of computed parts. -/
def showWith (idOf : ρ → String) (cellText : δ → Option String) : Value ρ δ → Option String
  | .null => some "null"
  | .boolean flag => some (if flag then "true" else "false")
  | .integer number => some (toString number.toInt)
  | .float number => some (Decimal.plain number)
  | .text content => some content
  | .list items => do
      let shown ← showItemsWith idOf cellText items
      some ("[" ++ ", ".intercalate shown ++ "]")
  | .map entries => do
      let shown ← showEntriesWith idOf cellText entries
      some ("\x7b" ++ ", ".intercalate shown ++ "\x7d")
  | .entity target => some ("entity(" ++ idOf target ++ ")")
  | .location target => some ("location(" ++ idOf target ++ ")")
  | .deferred cell => cellText cell

def showItemsWith (idOf : ρ → String) (cellText : δ → Option String) :
    List (Value ρ δ) → Option (List String)
  | [] => some []
  | item :: rest => do
      let shown ← item.showWith idOf cellText
      some (shown :: (← showItemsWith idOf cellText rest))

def showEntriesWith (idOf : ρ → String) (cellText : δ → Option String) :
    List (String × Value ρ δ) → Option (List String)
  | [] => some []
  | (key, value) :: rest => do
      let shown ← value.showWith idOf cellText
      some ((key ++ ": " ++ shown) :: (← showEntriesWith idOf cellText rest))

end

/-! ## Equality -/

mutual

/-- Equality, given that of references and of computed parts. Numbers of different sorts differ. -/
def sameWith (sameReference : ρ → ρ → Bool) (sameCell : δ → δ → Bool) :
    Value ρ δ → Value ρ δ → Bool
  | .null, .null => true
  | .boolean left, .boolean right => left == right
  | .integer left, .integer right => left == right
  | .float left, .float right => left.same right
  | .text left, .text right => left == right
  | .list left, .list right => sameItemsWith sameReference sameCell left right
  | .map left, .map right => sameEntriesWith sameReference sameCell left right
  | .entity left, .entity right => sameReference left right
  | .location left, .location right => sameReference left right
  | .deferred left, .deferred right => sameCell left right
  | _, _ => false

def sameItemsWith (sameReference : ρ → ρ → Bool) (sameCell : δ → δ → Bool) :
    List (Value ρ δ) → List (Value ρ δ) → Bool
  | [], [] => true
  | left :: lefts, right :: rights =>
      left.sameWith sameReference sameCell right &&
        sameItemsWith sameReference sameCell lefts rights
  | _, _ => false

def sameEntriesWith (sameReference : ρ → ρ → Bool) (sameCell : δ → δ → Bool) :
    List (String × Value ρ δ) → List (String × Value ρ δ) → Bool
  | [], [] => true
  | (leftKey, left) :: lefts, (rightKey, right) :: rights =>
      leftKey == rightKey && left.sameWith sameReference sameCell right &&
        sameEntriesWith sameReference sameCell lefts rights
  | _, _ => false

end

/-! ## Computed parts settled -/

mutual

/-- Replaces computed parts by what they have become. A part that has become nothing is left out of
a map and stands as null in a list; the outer `none` is a part without an end. -/
def settleWith (become : δ → Option (Option (Value ρ Empty))) :
    Value ρ δ → Option (Option (Value ρ Empty))
  | .null => some (some .null)
  | .boolean flag => some (some (.boolean flag))
  | .integer number => some (some (.integer number))
  | .float number => some (some (.float number))
  | .text content => some (some (.text content))
  | .list items => do return some (.list (← settleItemsWith become items))
  | .map entries => do return some (.map (← settleEntriesWith become entries))
  | .entity target => some (some (.entity target))
  | .location target => some (some (.location target))
  | .deferred cell => become cell

def settleItemsWith (become : δ → Option (Option (Value ρ Empty))) :
    List (Value ρ δ) → Option (List (Value ρ Empty))
  | [] => some []
  | item :: rest => do
      let settled ← item.settleWith become
      return settled.getD .null :: (← settleItemsWith become rest)

def settleEntriesWith (become : δ → Option (Option (Value ρ Empty))) :
    List (String × Value ρ δ) → Option (List (String × Value ρ Empty))
  | [] => some []
  | (key, value) :: rest => do
      let settled ← value.settleWith become
      let others ← settleEntriesWith become rest
      match settled with
      | some present => return (key, present) :: others
      | none => return others

end

end Value

end GraphCheckpoint
