import GraphCheckpoint.Encoding.Node
import GraphCheckpoint.Decimal

/-!
Contract: trees as JSON texts.

Owns:
- the compact JSON text of a tree: no blanks, entries in the order of the tree;
- the escapes of a text: quote, backslash and the control characters, nothing else.

Does not own: which trees are documents.

JSON has no undefined or infinite numbers, nor byte strings; all of these become null.
-/

namespace GraphCheckpoint.Encoding.Json

def quote : UInt8 := 0x22
def backslash : UInt8 := 0x5c
def comma : UInt8 := 0x2c
def colon : UInt8 := 0x3a
def openBracket : UInt8 := 0x5b
def closeBracket : UInt8 := 0x5d
def openBrace : UInt8 := 0x7b
def closeBrace : UInt8 := 0x7d

/-- Bytes of characters below 128. -/
def ascii (characters : List Char) : Bytes :=
  characters.map fun character => character.toNat.toUInt8

/-- The lower-case hexadecimal digit of a number below 16. -/
def hexDigit (value : UInt8) : UInt8 := if value < 10 then 0x30 + value else 0x57 + value

/-- A byte of a text as it stands between quotes. -/
def escape (byte : UInt8) : Bytes :=
  if byte = quote then [backslash, quote]
  else if byte = backslash then [backslash, backslash]
  else if 0x20 ≤ byte then [byte]
  else if byte = 0x08 then ascii ['\\', 'b']
  else if byte = 0x09 then ascii ['\\', 't']
  else if byte = 0x0a then ascii ['\\', 'n']
  else if byte = 0x0c then ascii ['\\', 'f']
  else if byte = 0x0d then ascii ['\\', 'r']
  else ascii ['\\', 'u', '0', '0'] ++ [hexDigit (byte / 16), hexDigit (byte % 16)]

/-- A text between quotes. -/
def quoted (content : String) : Bytes :=
  quote :: ((bytesOfText content).flatMap escape ++ [quote])

def integerText (number : Int) : Bytes :=
  if number < 0 then 0x2d :: ascii (Decimal.digitsOf number.natAbs)
  else ascii (Decimal.digitsOf number.natAbs)

def nullText : Bytes := ascii ['n', 'u', 'l', 'l']

mutual

/-- The JSON text of a tree. -/
def print : Node → Bytes
  | .null | .bytes _ | .extension | .brokenText | .illegible => nullText
  | .boolean true => ascii ['t', 'r', 'u', 'e']
  | .boolean false => ascii ['f', 'a', 'l', 's', 'e']
  | .integer _ number => integerText number
  | .float number =>
      match Decimal.jsonText? number with
      | some characters => ascii characters
      | none => nullText
  | .text content => quoted content
  | .list [] => [openBracket, closeBracket]
  | .list (item :: rest) => openBracket :: (print item ++ printItems rest)
  | .map [] => [openBrace, closeBrace]
  | .map ((key, value) :: rest) =>
      openBrace :: (print key ++ colon :: (print value ++ printEntries rest))

/-- The further items of a list, up to its end. -/
def printItems : List Node → Bytes
  | [] => [closeBracket]
  | item :: rest => comma :: (print item ++ printItems rest)

/-- The further entries of a map, up to its end. -/
def printEntries : List (Node × Node) → Bytes
  | [] => [closeBrace]
  | (key, value) :: rest =>
      comma :: (print key ++ colon :: (print value ++ printEntries rest))

end

end GraphCheckpoint.Encoding.Json
