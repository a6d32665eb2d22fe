import GraphCheckpoint.Encoding.Json.Number

/-!
Contract: trees of JSON texts.

Owns:
- the grammar of JSON over bytes, with any nesting;
- texts: escapes, pairs of surrogates, and the check that the bytes are UTF-8.

Does not own: limits on nesting, which depend on what a reader looks at. A text or number that has
no value is an illegible leaf, so that a reader may pass over it.
-/

namespace GraphCheckpoint.Encoding.Json

def isBlank (byte : UInt8) : Bool :=
  byte == 0x20 || byte == 0x09 || byte == 0x0a || byte == 0x0d

def skipBlanks (input : Bytes) : Bytes := input.dropWhile isBlank

/-- Value of a hexadecimal digit. -/
def hexValue? (byte : UInt8) : Option Nat :=
  if 0x30 ≤ byte ∧ byte ≤ 0x39 then some (byte.toNat - 0x30)
  else if 0x61 ≤ byte ∧ byte ≤ 0x66 then some (byte.toNat - 0x57)
  else if 0x41 ≤ byte ∧ byte ≤ 0x46 then some (byte.toNat - 0x37)
  else none

/-- A text as far as it has been read. -/
structure TextState where
  /-- The bytes so far, last one first. -/
  reversed : Bytes
  /-- The first half of a pair of surrogates, when it came last. -/
  highSurrogate : Option Nat
  legible : Bool

namespace TextState

def start : TextState := ⟨[], none, true⟩

/-- Adds bytes that are no half of a surrogate pair. -/
def push (bytes : Bytes) (state : TextState) : TextState :=
  match state.highSurrogate with
  | none => { state with reversed := bytes.reverse ++ state.reversed }
  | some _ => ⟨[], none, false⟩

/-- Adds a code unit of an escape; two surrogates in the right order make one character. -/
def pushUnit (unit : Nat) (state : TextState) : TextState :=
  match state.highSurrogate with
  | none =>
      if 0xd800 ≤ unit ∧ unit ≤ 0xdbff then { state with highSurrogate := some unit }
      else if 0xdc00 ≤ unit ∧ unit ≤ 0xdfff then ⟨[], none, false⟩
      else state.push (String.utf8EncodeChar (Char.ofNat unit))
  | some high =>
      if 0xdc00 ≤ unit ∧ unit ≤ 0xdfff then
        let point := 0x10000 + (high - 0xd800) * 0x400 + (unit - 0xdc00)
        { state with highSurrogate := none }.push (String.utf8EncodeChar (Char.ofNat point))
      else ⟨[], none, false⟩

/-- The text, once it has ended. -/
def finish (state : TextState) : Node :=
  if state.legible && state.highSurrogate.isNone then
    match textOfBytes? state.reversed.reverse with
    | some content => .text content
    | none => .illegible
  else .illegible

end TextState

/-- The byte of a one-letter escape. -/
def simpleEscape? (letter : UInt8) : Option UInt8 :=
  if letter = 0x22 ∨ letter = 0x5c ∨ letter = 0x2f then some letter
  else if letter = 0x62 then some 0x08
  else if letter = 0x66 then some 0x0c
  else if letter = 0x6e then some 0x0a
  else if letter = 0x72 then some 0x0d
  else if letter = 0x74 then some 0x09
  else none

/-- Reads a text after its opening quote. -/
def scanText : TextState → Bytes → Option (Node × Bytes)
  | _, [] => none
  | state, 0x22 :: rest => some (state.finish, rest)
  | state, 0x5c :: 0x75 :: first :: second :: third :: fourth :: rest =>
      match hexValue? first, hexValue? second, hexValue? third, hexValue? fourth with
      | some one, some two, some three, some four =>
          scanText (state.pushUnit (((one * 16 + two) * 16 + three) * 16 + four)) rest
      | _, _, _, _ => none
  | state, 0x5c :: letter :: rest =>
      match simpleEscape? letter with
      | some byte => scanText (state.push [byte]) rest
      | none => none
  | state, byte :: rest =>
      if byte = 0x5c ∨ byte < 0x20 then none else scanText (state.push [byte]) rest

/-- Reads the given bytes at the front of the input. -/
def expect : Bytes → Bytes → Option Bytes
  | [], input => some input
  | _ :: _, [] => none
  | wanted :: others, byte :: rest => if wanted = byte then expect others rest else none

mutual

/-- Reads a value at the front of the input. The first argument bounds the steps; the length of the
input is enough. -/
def scanValue : Nat → Bytes → Option (Node × Bytes)
  | 0, _ => none
  | steps + 1, input =>
      match skipBlanks input with
      | [] => none
      | first :: rest =>
          if first = 0x22 then scanText .start rest
          else if first = 0x7b then
            match skipBlanks rest with
            | 0x7d :: rest => some (.map [], rest)
            | rest => do
                let (entries, rest) ← scanEntries steps rest
                some (.map entries, rest)
          else if first = 0x5b then
            match skipBlanks rest with
            | 0x5d :: rest => some (.list [], rest)
            | rest => do
                let (items, rest) ← scanItems steps rest
                some (.list items, rest)
          else if first = 0x6e then
            (expect [0x75, 0x6c, 0x6c] rest).map (Node.null, ·)
          else if first = 0x74 then
            (expect [0x72, 0x75, 0x65] rest).map (Node.boolean true, ·)
          else if first = 0x66 then
            (expect [0x61, 0x6c, 0x73, 0x65] rest).map (Node.boolean false, ·)
          else scanNumber (first :: rest)

/-- Reads the items of a list that is not empty, up to its end. -/
def scanItems : Nat → Bytes → Option (List Node × Bytes)
  | 0, _ => none
  | steps + 1, input => do
      let (item, rest) ← scanValue steps input
      match skipBlanks rest with
      | 0x2c :: rest =>
          let (others, rest) ← scanItems steps rest
          some (item :: others, rest)
      | 0x5d :: rest => some ([item], rest)
      | _ => none

/-- Reads the entries of a map that is not empty, up to its end. -/
def scanEntries : Nat → Bytes → Option (List (Node × Node) × Bytes)
  | 0, _ => none
  | steps + 1, input =>
      match skipBlanks input with
      | 0x22 :: rest => do
          let (key, rest) ← scanText .start rest
          match skipBlanks rest with
          | 0x3a :: rest =>
              let (value, rest) ← scanValue steps rest
              match skipBlanks rest with
              | 0x2c :: rest =>
                  let (others, rest) ← scanEntries steps rest
                  some ((key, value) :: others, rest)
              | 0x7d :: rest => some ([(key, value)], rest)
              | _ => none
          | _ => none
      | _ => none

end

/-- The tree of a JSON text; nothing but blanks may follow the value. -/
def parse (input : Bytes) : Option Node := do
  let (node, rest) ← scanValue (2 * input.length + 2) input
  if (skipBlanks rest).isEmpty then some node else none

end GraphCheckpoint.Encoding.Json
