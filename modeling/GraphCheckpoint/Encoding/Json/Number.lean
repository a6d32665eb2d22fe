import GraphCheckpoint.Encoding.Node

/-!
Contract: numbers of JSON texts.

Owns:
- the form of a number: sign, whole digits without a leading zero, fraction, exponent;
- its value: an integer where there is neither fraction nor exponent and 64 bits suffice, a float
  otherwise.

Does not own: where in a text numbers stand.

Floats are read in two roundings, not one. The digits are taken as a 64-bit significand, from which
the digits that no longer fit are dropped; the significand is rounded to a float, and this is
multiplied or divided by a power of ten that is itself rounded.
-/

namespace GraphCheckpoint.Encoding.Json

def isDigit (byte : UInt8) : Bool := 0x30 ≤ byte && byte ≤ 0x39

def digitValue (byte : UInt8) : Nat := byte.toNat - 0x30

/-- The largest significand. -/
def maxSignificand : Nat := 0xffffffffffffffff

/-- Exponents count up to this size only; one that is larger decides by its sign alone. -/
def maxExponent : Nat := 0x7fffffff

/-- Takes digits into the significand until one does not fit; answers the significand, how many
digits were taken and how many were left. -/
def takeDigits : Nat → List UInt8 → Nat × Nat × Nat
  | significand, [] => (significand, 0, 0)
  | significand, digit :: rest =>
      let next := 10 * significand + digitValue digit
      if next ≤ maxSignificand then
        let (final, taken, left) := takeDigits next rest
        (final, taken + 1, left)
      else (significand, 0, rest.length + 1)

/-- The power of ten, rounded. -/
def powerOfTen (exponent : Nat) : Binary64 := Binary64.ofRatio (Nat.pow 10 exponent) 1

/-- Scales a number by a power of ten; none where it becomes infinite. Exponents below -308 are
worked off in steps of 308. -/
def scale : Nat → Binary64 → Int → Option Binary64
  | steps, number, exponent =>
      if exponent.natAbs ≤ 308 then
        if 0 ≤ exponent then
          let scaled := number.product (powerOfTen exponent.natAbs)
          if scaled.isInfinite then none else some scaled
        else some (number.quotient (powerOfTen exponent.natAbs))
      else if number.units = 0 then some number
      else if 0 ≤ exponent then none
      else
        match steps with
        | 0 => some number
        | remaining + 1 =>
            scale remaining (number.quotient (powerOfTen 308)) (exponent + 308)

/-- The float of a sign, a significand and a power of ten. After three steps of 308 any number has
become zero. -/
def floatOf (negative : Bool) (significand : Nat) (exponent : Int) : Node :=
  match scale 4 (Binary64.ofRatio significand 1) exponent with
  | some number => .float (Binary64.withSign negative number)
  | none => .illegible

/-- The value of a number without fraction and exponent. Minus zero is a float. -/
def integerOf (negative : Bool) (significand : Nat) : Node :=
  if negative then
    if significand = 0 ∨ 0x8000000000000000 < significand then
      .float (Binary64.withSign true (Binary64.ofRatio significand 1))
    else .ofInt (-(significand : Int))
  else .ofInt significand

/-- The exponent written by digits, if it is not too large to count. -/
def exponentOf? (digits : List UInt8) : Option Nat :=
  digits.foldl
    (fun current digit => do
      let next := 10 * (← current) + digitValue digit
      if next ≤ maxExponent then some next else none)
    (some 0)

/-- The value of a number from its parts. -/
def numberOf (negative : Bool) (whole : List UInt8) (fraction : Option (List UInt8))
    (exponent : Option (Bool × List UInt8)) : Node :=
  let (significand, _, droppedWhole) := takeDigits 0 whole
  match fraction, exponent with
  | none, none =>
      if droppedWhole = 0 then integerOf negative significand
      else floatOf negative significand droppedWhole
  | _, _ =>
      let (significand, takenFraction, _) := takeDigits significand (fraction.getD [])
      let start : Int := (droppedWhole : Int) - takenFraction
      match exponent with
      | none => floatOf negative significand start
      | some (downward, digits) =>
          match exponentOf? digits with
          | some size =>
              floatOf negative significand (if downward then start - size else start + size)
          | none =>
              if significand ≠ 0 ∧ !downward then .illegible
              else .float (Binary64.withSign negative Binary64.zero)

/-- Splits off the digits at the front. -/
def spanDigits (input : Bytes) : Bytes × Bytes := input.span isDigit

/-- Reads the fraction after whole digits, if there is one. -/
def scanFraction : Bytes → Option (Option (List UInt8) × Bytes)
  | 0x2e :: rest =>
      match spanDigits rest with
      | ([], _) => none
      | (digits, rest) => some (some digits, rest)
  | input => some (none, input)

/-- Reads the digits of an exponent after its sign. -/
def scanExponentDigits (downward : Bool) (input : Bytes) :
    Option (Option (Bool × List UInt8) × Bytes) :=
  match spanDigits input with
  | ([], _) => none
  | (digits, rest) => some (some (downward, digits), rest)

/-- Reads the exponent of a number, if there is one. -/
def scanExponent : Bytes → Option (Option (Bool × List UInt8) × Bytes)
  | [] => some (none, [])
  | mark :: rest =>
      if mark = 0x65 ∨ mark = 0x45 then
        match rest with
        | 0x2b :: rest => scanExponentDigits false rest
        | 0x2d :: rest => scanExponentDigits true rest
        | rest => scanExponentDigits false rest
      else some (none, mark :: rest)

/-- Reads a number after its sign. -/
def scanUnsigned (negative : Bool) (input : Bytes) : Option (Node × Bytes) := do
  let (whole, rest) := spanDigits input
  match whole with
  | [] => none
  | 0x30 :: _ :: _ => none
  | _ =>
      let (fraction, rest) ← scanFraction rest
      let (exponent, rest) ← scanExponent rest
      some (numberOf negative whole fraction exponent, rest)

/-- Reads a number at the front of the input. -/
def scanNumber : Bytes → Option (Node × Bytes)
  | 0x2d :: rest => scanUnsigned true rest
  | input => scanUnsigned false input

end GraphCheckpoint.Encoding.Json
