/-!
Contract: 64-bit floating-point numbers as bit patterns, with exact arithmetic underneath.

Owns:
- `Binary64`, its fields, and the exact size of a finite number in units of 2^-1074;
- rounding of a ratio of naturals to the nearest number, a tie going to the even neighbour;
- the difference, product and quotient, each rounded once from the exact result;
- conversion from and to integers, and the widening of 32-bit numbers.

Does not own: decimal texts.
-/

namespace GraphCheckpoint

/-- A 64-bit floating-point number, given by its bits. -/
structure Binary64 where
  bits : UInt64
deriving DecidableEq, Repr, Inhabited

namespace Binary64

def zero : Binary64 := ⟨0⟩

def infinity : Binary64 := ⟨0x7ff0000000000000⟩

/-- The number that shows where a result is undefined. -/
def nan : Binary64 := ⟨0x7ff8000000000000⟩

def isNegative (number : Binary64) : Bool := number.bits >>> 63 == 1

def exponentField (number : Binary64) : Nat := ((number.bits >>> 52) &&& 0x7ff).toNat

def fractionField (number : Binary64) : Nat := (number.bits &&& 0xfffffffffffff).toNat

def isFinite (number : Binary64) : Bool := number.exponentField != 2047

def isNaN (number : Binary64) : Bool :=
  number.exponentField == 2047 && number.fractionField != 0

def isInfinite (number : Binary64) : Bool :=
  number.exponentField == 2047 && number.fractionField == 0

/-- Size of a finite number, counted in units of 2^-1074, which divide every finite number. -/
def units (number : Binary64) : Nat :=
  if number.exponentField = 0 then number.fractionField
  else (0x10000000000000 + number.fractionField) <<< (number.exponentField - 1)

/-- The number of units in one. -/
def unitsPerOne : Nat := Nat.pow 2 1074

/-- Signed size of a finite number, in units. -/
def signedUnits (number : Binary64) : Int :=
  if number.isNegative then -(number.units : Int) else number.units

def withSign (negative : Bool) (number : Binary64) : Binary64 :=
  if negative then ⟨number.bits ||| 0x8000000000000000⟩ else number

/-- The number of a size that needs no rounding; too large a size is infinite. -/
def ofUnits (size : Nat) : Binary64 :=
  if size < 0x10000000000000 then ⟨size.toUInt64⟩
  else
    let scale := size.log2 - 52
    if 2046 ≤ scale then infinity
    else ⟨(((scale + 1) <<< 52) + ((size >>> scale) - 0x10000000000000)).toUInt64⟩

/-- Quotient rounded to the nearest natural, a tie going to the even neighbour. -/
def divideToEven (numerator denominator : Nat) : Nat :=
  let whole := numerator / denominator
  let double := 2 * (numerator % denominator)
  if denominator < double then whole + 1
  else if double = denominator ∧ whole % 2 = 1 then whole + 1
  else whole

/-- The number nearest to a ratio, a tie going to the even neighbour. -/
def ofRatio (numerator denominator : Nat) : Binary64 :=
  let scaled := numerator * unitsPerOne
  let excess := (scaled / denominator).log2 - 52
  ofUnits (divideToEven scaled (denominator <<< excess) <<< excess)

/-- The number nearest to a signed count of units over a denominator. -/
def ofSignedRatio (numerator : Int) (denominator : Nat) : Binary64 :=
  withSign (decide (numerator < 0)) (ofRatio numerator.natAbs denominator)

/-- The number nearest to an integer. -/
def ofInt (value : Int) : Binary64 := ofSignedRatio value 1

/-- Nearest number to the exact difference of two finite numbers. -/
def difference (left right : Binary64) : Binary64 :=
  ofSignedRatio (left.signedUnits - right.signedUnits) unitsPerOne

/-- Nearest number to the exact product of two finite numbers that are not negative. -/
def product (left right : Binary64) : Binary64 :=
  ofRatio (left.units * right.units) (unitsPerOne * unitsPerOne)

/-- Nearest number to the exact quotient of two finite numbers that are not negative. -/
def quotient (left right : Binary64) : Binary64 :=
  ofRatio left.units right.units

/-- The two numbers are equal as numbers; the two zeros are. -/
def numericEq (left right : Binary64) : Bool :=
  !left.isNaN && !right.isNaN &&
    (left.bits == right.bits ||
      (left.isFinite && right.isFinite && left.signedUnits == right.signedUnits))

/-- Size of the distance below which two numbers count as the same, 2^-52. -/
def toleranceUnits : Nat := Nat.pow 2 1022

/-- Equality of stored floats: any two undefined results are equal, and so are numbers whose rounded
difference is smaller than 2^-52. -/
def same (left right : Binary64) : Bool :=
  if left.isNaN && right.isNaN then true
  else if left.numericEq right then true
  else
    left.isFinite && right.isFinite &&
      decide ((left.difference right).units < toleranceUnits)

/-- Whole part of a finite number between -2^63 and 2^63, both included; 2^63 gives the largest
64-bit integer. -/
def toInteger? (number : Binary64) : Option Int :=
  if number.isFinite && decide (number.units ≤ 0x8000000000000000 * unitsPerOne) then
    let whole : Int := Int.tdiv number.signedUnits unitsPerOne
    some (min whole 0x7fffffffffffffff)
  else none

/-- Widens a 32-bit floating-point number, given by its bits, without loss. -/
def ofBinary32 (narrow : UInt32) : Binary64 :=
  let negative := narrow >>> 31 == 1
  let exponent := ((narrow >>> 23) &&& 0xff).toNat
  let fraction := (narrow &&& 0x7fffff).toNat
  withSign negative <|
    if exponent = 255 then
      if fraction = 0 then infinity
      else ⟨(0x7ff8000000000000 : UInt64) ||| (fraction <<< 29).toUInt64⟩
    else if exponent = 0 then ofRatio fraction (Nat.pow 2 149)
    else ofRatio ((0x800000 + fraction) * Nat.pow 2 exponent) (Nat.pow 2 150)

theorem same_self (number : Binary64) : number.same number = true := by
  unfold same
  by_cases undefined : number.isNaN = true
  · simp [undefined]
  · simp [numericEq, undefined]

end Binary64

end GraphCheckpoint
