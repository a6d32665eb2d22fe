import GraphCheckpoint.Encoding.Node

/-!
Contract: trees as MessagePack bytes.

Owns:
- the bytes of a tree, every number, text and container in its shortest form;
- big-endian words.

Does not own: which trees are documents.

Whole numbers that are not negative are written as unsigned ones. Lengths from 2^32 on have no form.
-/

namespace GraphCheckpoint.Encoding.MessagePack

/-- The lowest bytes of a number, most significant first. -/
def word : Nat → Nat → Bytes
  | 0, _ => []
  | width + 1, value => (value / Nat.pow 256 width % 256).toUInt8 :: word width value

def printUnsigned (number : Nat) : Bytes :=
  if number < 0x80 then [number.toUInt8]
  else if number < 0x100 then 0xcc :: word 1 number
  else if number < 0x10000 then 0xcd :: word 2 number
  else if number < 0x100000000 then 0xce :: word 4 number
  else 0xcf :: word 8 number

/-- A negative number of the given size, in two's complement. -/
def printNegative (size : Nat) : Bytes :=
  if size ≤ 0x20 then [(0x100 - size).toUInt8]
  else if size ≤ 0x80 then 0xd0 :: word 1 (0x100 - size)
  else if size ≤ 0x8000 then 0xd1 :: word 2 (0x10000 - size)
  else if size ≤ 0x80000000 then 0xd2 :: word 4 (0x100000000 - size)
  else 0xd3 :: word 8 (0x10000000000000000 - size)

def printInteger (number : Int) : Bytes :=
  if number < 0 then printNegative number.natAbs else printUnsigned number.natAbs

def textHeader (length : Nat) : Bytes :=
  if length < 0x20 then [0xa0 + length.toUInt8]
  else if length < 0x100 then 0xd9 :: word 1 length
  else if length < 0x10000 then 0xda :: word 2 length
  else 0xdb :: word 4 length

def bytesHeader (length : Nat) : Bytes :=
  if length < 0x100 then 0xc4 :: word 1 length
  else if length < 0x10000 then 0xc5 :: word 2 length
  else 0xc6 :: word 4 length

def listHeader (length : Nat) : Bytes :=
  if length < 0x10 then [0x90 + length.toUInt8]
  else if length < 0x10000 then 0xdc :: word 2 length
  else 0xdd :: word 4 length

def mapHeader (length : Nat) : Bytes :=
  if length < 0x10 then [0x80 + length.toUInt8]
  else if length < 0x10000 then 0xde :: word 2 length
  else 0xdf :: word 4 length

mutual

/-- The MessagePack bytes of a tree. -/
def print : Node → Bytes
  | .null | .extension | .brokenText | .illegible => [0xc0]
  | .boolean false => [0xc2]
  | .boolean true => [0xc3]
  | .integer _ number => printInteger number
  | .float number => 0xcb :: word 8 number.bits.toNat
  | .text content =>
      let bytes := bytesOfText content
      textHeader bytes.length ++ bytes
  | .bytes content => bytesHeader content.length ++ content
  | .list items => listHeader items.length ++ printItems items
  | .map entries => mapHeader entries.length ++ printEntries entries

def printItems : List Node → Bytes
  | [] => []
  | item :: rest => print item ++ printItems rest

def printEntries : List (Node × Node) → Bytes
  | [] => []
  | (key, value) :: rest => print key ++ (print value ++ printEntries rest)

end

end GraphCheckpoint.Encoding.MessagePack
