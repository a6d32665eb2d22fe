import GraphCheckpoint.Codec

/-!
Contract: everything that can be encoded on its own.

Owns: single records, deltas and graphs as one type, with encoding, decoding and equality.

Does not own: the encodings of its members.
-/

namespace GraphCheckpoint

open GraphCheckpoint.Encoding

/-- What sort of content is meant. -/
inductive ContentSort where
  | object (kind : ObjectKind)
  | delta
  | graph
deriving DecidableEq, Repr

/-- A record, a delta or a graph. -/
inductive Content where
  | object (memento : ObjectMemento LiveValue)
  | delta (delta : Delta LiveValue)
  | graph (graph : Graph LiveValue)
deriving Inhabited

namespace Content

def encode (settings : Settings) (cells : Cells) (now : Int64) : Content → Outcome Bytes
  | .object (.entity memento) => settings.encodeEntity cells memento
  | .object (.location memento) => settings.encodeLocation cells memento
  | .object (.policy memento) => settings.encodePolicy cells memento
  | .delta changes => settings.encodeDelta cells now changes
  | .graph whole => settings.encodeCheckpoint cells now whole

/-- Decodes content of a sort, with references resolved by a look-up. -/
def decode {σ : Type} (settings : Settings) (sort : ContentSort) (bytes : Bytes)
    (lookup : Lookup σ) : StateT σ Outcome Content := do
  match sort with
  | .object .entity => return .object (.entity (← settings.decodeEntity lookup bytes))
  | .object .location => return .object (.location (← settings.decodeLocation lookup bytes))
  | .object .policy => return .object (.policy (← settings.decodePolicy lookup bytes))
  | .delta => return .delta (← settings.decodeDelta lookup bytes)
  | .graph => return .graph (← settings.decodeGraph lookup bytes)

def same (cells : Cells) : Content → Content → Bool
  | .object left, .object right => left.sameWith cells.sameTable right
  | .delta left, .delta right => left.sameWith cells.sameTable right
  | .graph left, .graph right => left.sameWith cells.sameTable right
  | _, _ => false

end Content

end GraphCheckpoint
