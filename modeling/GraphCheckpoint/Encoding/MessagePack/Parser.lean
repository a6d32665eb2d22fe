import GraphCheckpoint.Encoding.Node

/-!
Contract: trees of MessagePack bytes.

Owns:
- the forms of every value, shortest or not;
- a bound on nested containers.

Does not own: what follows the first value, which is nobody's concern, or how deep a reader goes,
which depends on what it looks at.

A text that is not UTF-8 is kept as a broken one, since a reader may still pass over it.
-/

namespace GraphCheckpoint.Encoding.MessagePack

/-- The number of big-endian bytes. -/
def valueOf (bytes : Bytes) : Nat := bytes.foldl (fun total byte => total * 256 + byte.toNat) 0

/-- Splits off the given number of bytes. -/
def takeBytes (count : Nat) (input : Bytes) : Option (Bytes × Bytes) :=
  let (taken, rest) := input.splitAt count
  if taken.length = count then some (taken, rest) else none

/-- Splits off an unsigned number of the given width. -/
def takeWord (width : Nat) (input : Bytes) : Option (Nat × Bytes) := do
  let (bytes, rest) ← takeBytes width input
  some (valueOf bytes, rest)

/-- The signed number with the same bits as an unsigned one of the given width. -/
def signedOf (width : Nat) (value : Nat) : Int :=
  if value < Nat.pow 2 (8 * width - 1) then value else (value : Int) - Nat.pow 2 (8 * width)

def scanUnsigned (width : Nat) (input : Bytes) : Option (Node × Bytes) :=
  (takeWord width input).map fun (value, rest) => (.integer (.unsigned width) value, rest)

def scanSigned (width : Nat) (input : Bytes) : Option (Node × Bytes) :=
  (takeWord width input).map fun (value, rest) => (.integer .signed (signedOf width value), rest)

def scanText (length : Nat) (input : Bytes) : Option (Node × Bytes) := do
  let (bytes, rest) ← takeBytes length input
  match textOfBytes? bytes with
  | some content => some (.text content, rest)
  | none => some (.brokenText, rest)

def scanBytes (length : Nat) (input : Bytes) : Option (Node × Bytes) :=
  (takeBytes length input).map fun (bytes, rest) => (.bytes bytes, rest)

/-- Passes over the tag and the content of application data. -/
def scanExtension (length : Nat) (input : Bytes) : Option (Node × Bytes) :=
  (takeBytes (length + 1) input).map fun (_, rest) => (.extension, rest)

/-- Reads a length, then what it is the length of. -/
def withLength {α : Type} (width : Nat) (scan : Nat → Bytes → Option α) (input : Bytes) :
    Option α := do
  let (length, rest) ← takeWord width input
  scan length rest

/-- Reads the given number of items. -/
def scanMany {α : Type} (scan : Bytes → Option (α × Bytes)) :
    Nat → Bytes → Option (List α × Bytes)
  | 0, input => some ([], input)
  | count + 1, input => do
      let (item, rest) ← scan input
      let (others, rest) ← scanMany scan count rest
      some (item :: others, rest)

/-- Reads a key and the value after it. -/
def scanEntry (scan : Bytes → Option (Node × Bytes)) (input : Bytes) :
    Option ((Node × Node) × Bytes) := do
  let (key, rest) ← scan input
  let (value, rest) ← scan rest
  some ((key, value), rest)

/-- Reads a list of the given length with a reader of its items; none where no container may be
opened. -/
def scanList (scan : Option (Bytes → Option (Node × Bytes))) (length : Nat) (input : Bytes) :
    Option (Node × Bytes) := do
  let (items, rest) ← scanMany (← scan) length input
  some (.list items, rest)

/-- Reads a map of the given length with a reader of its keys and values; none where no container
may be opened. -/
def scanMap (scan : Option (Bytes → Option (Node × Bytes))) (length : Nat) (input : Bytes) :
    Option (Node × Bytes) := do
  let (entries, rest) ← scanMany (scanEntry (← scan)) length input
  some (.map entries, rest)

/-- Reads what follows a first byte. -/
def scanAfter (inner : Option (Bytes → Option (Node × Bytes))) (first : UInt8) (rest : Bytes) :
    Option (Node × Bytes) :=
  if first < 0x80 then some (.integer (.unsigned 1) first.toNat, rest)
  else if first < 0x90 then scanMap inner (first - 0x80).toNat rest
  else if first < 0xa0 then scanList inner (first - 0x90).toNat rest
  else if first < 0xc0 then scanText (first - 0xa0).toNat rest
  else if 0xe0 ≤ first then some (.integer .signed (first.toNat - 256 : Int), rest)
  else
    match first with
    | 0xc0 => some (.null, rest)
    | 0xc2 => some (.boolean false, rest)
    | 0xc3 => some (.boolean true, rest)
    | 0xc4 => withLength 1 scanBytes rest
    | 0xc5 => withLength 2 scanBytes rest
    | 0xc6 => withLength 4 scanBytes rest
    | 0xc7 => withLength 1 scanExtension rest
    | 0xc8 => withLength 2 scanExtension rest
    | 0xc9 => withLength 4 scanExtension rest
    | 0xca =>
        (takeWord 4 rest).map fun (bits, rest) =>
          (.float (Binary64.ofBinary32 bits.toUInt32), rest)
    | 0xcb => (takeWord 8 rest).map fun (bits, rest) => (.float ⟨bits.toUInt64⟩, rest)
    | 0xcc => scanUnsigned 1 rest
    | 0xcd => scanUnsigned 2 rest
    | 0xce => scanUnsigned 4 rest
    | 0xcf => scanUnsigned 8 rest
    | 0xd0 => scanSigned 1 rest
    | 0xd1 => scanSigned 2 rest
    | 0xd2 => scanSigned 4 rest
    | 0xd3 => scanSigned 8 rest
    | 0xd4 => scanExtension 1 rest
    | 0xd5 => scanExtension 2 rest
    | 0xd6 => scanExtension 4 rest
    | 0xd7 => scanExtension 8 rest
    | 0xd8 => scanExtension 16 rest
    | 0xd9 => withLength 1 scanText rest
    | 0xda => withLength 2 scanText rest
    | 0xdb => withLength 4 scanText rest
    | 0xdc => withLength 2 (scanList inner) rest
    | 0xdd => withLength 4 (scanList inner) rest
    | 0xde => withLength 2 (scanMap inner) rest
    | 0xdf => withLength 4 (scanMap inner) rest
    | _ => none

/-- Reads a value in which no more than the given number of containers nest. -/
def scanValue : Nat → Bytes → Option (Node × Bytes)
  | _, [] => none
  | 0, first :: rest => scanAfter none first rest
  | limit + 1, first :: rest => scanAfter (some (scanValue limit)) first rest

/-- The deepest nesting that any reader goes into. It is one more than the containers that a
document may nest, since the long form of a choice is not counted among these. -/
def nestingBound : Nat := 1024

/-- The tree of the value that the bytes begin with. -/
def parse (input : Bytes) : Option Node := (scanValue nestingBound input).map Prod.fst

end GraphCheckpoint.Encoding.MessagePack
