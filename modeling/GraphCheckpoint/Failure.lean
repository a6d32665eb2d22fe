import GraphCheckpoint.Kind

/-!
Contract: everything that can go wrong in keeping, storing and rebuilding a graph.

Owns:
- the causes, each with what is known about it;
- the text of a failure, and the tests that see through the wrapper of a failed rebind.

Does not own: when each cause arises; that is stated where the operation is defined.
-/

namespace GraphCheckpoint

/-- The cause of a failed operation. -/
inductive Failure where
  /-- An object could not produce its memento. -/
  | generation (kind : ObjectKind) (id reason : String)
  | storage (detail : String)
  | io (detail : String)
  /-- Bytes or texts that do not follow their format. -/
  | encoding (detail : String)
  | noSuchObject (kind : ObjectKind) (id : String)
  | typeNotFound (typeName : String)
  | typeMismatch (detail : String)
  | invalidState (detail : String)
  | timeout (detail : String)
  | lock (detail : String)
  /-- A rebind that stopped in the named stage for the given cause. -/
  | rebindFailed (stage : String) (source : Failure)
deriving DecidableEq, Repr, Inhabited

namespace Failure

/-- The text shown for a failure. -/
def message : Failure → String
  | .generation kind id reason =>
      "Failed to generate memento for " ++ kind.name ++ " '" ++ id ++ "': " ++ reason
  | .storage detail => "Storage error: " ++ detail
  | .io detail => "I/O error: " ++ detail
  | .encoding detail => "Malformed encoding: " ++ detail
  | .noSuchObject kind id => "No " ++ kind.name ++ " with id '" ++ id ++ "'"
  | .typeNotFound typeName => "Type '" ++ typeName ++ "' is not registered"
  | .typeMismatch detail => "Type mismatch: " ++ detail
  | .invalidState detail => "Invalid state: " ++ detail
  | .timeout detail => "Timed out: " ++ detail
  | .lock detail => "Lock error: " ++ detail
  | .rebindFailed stage source =>
      "Rebind failed while " ++ stage ++ ": " ++ source.message

/-- A reference led to no object, directly or inside a failed rebind. -/
def isNoSuchObject : Failure → Bool
  | .noSuchObject _ _ => true
  | .rebindFailed _ source => source.isNoSuchObject
  | _ => false

/-- A type was not registered, directly or inside a failed rebind. -/
def isTypeNotFound : Failure → Bool
  | .typeNotFound _ => true
  | .rebindFailed _ source => source.isTypeNotFound
  | _ => false

/-- An encoding was malformed, directly or inside a failed rebind. -/
def isEncoding : Failure → Bool
  | .encoding _ => true
  | .rebindFailed _ source => source.isEncoding
  | _ => false

/-- The failure that a failed rebind wraps. -/
def source? : Failure → Option Failure
  | .rebindFailed _ source => some source
  | _ => none

/-! ## Failures that several operations share -/

/-- A reference whose declared type differs from the object's type. -/
def declaredTypeDiffers (kind : ObjectKind) (id actual expected : String) : Failure :=
  .typeMismatch
    (kind.name ++ " '" ++ id ++ "' is a '" ++ actual ++ "', not a '" ++ expected ++ "'")

/-- An id that names an object of one kind, used for another kind. -/
def kindClash (id : String) (existing wanted : ObjectKind) : Failure :=
  .typeMismatch
    ("id '" ++ id ++ "' is a " ++ existing.name ++ ", referenced as a " ++ wanted.name)

end Failure

/-- Result of an operation that may fail. -/
abbrev Outcome (α : Type) := Except Failure α

end GraphCheckpoint
