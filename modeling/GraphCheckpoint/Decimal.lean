import GraphCheckpoint.Binary64

/-!
Contract: decimal texts of floating-point numbers.

Owns:
- `Decimal.shortest`, the fewest digits that read back as a given number, and of these the digits
  nearest to it;
- the two layouts in use: the plain one of shown values and the one of JSON documents.

Does not own: reading of decimals, which follows the rules of JSON documents.
-/

namespace GraphCheckpoint

/-- The number `digits * 10 ^ exponent`. -/
structure Decimal where
  digits : Nat
  exponent : Int
deriving DecidableEq, Repr

namespace Decimal

/-- Which of two equally near decimals is taken. -/
inductive Tie where
  | even
  | up
deriving DecidableEq, Repr

/-- The reals that round to a finite number, in quarters of a unit: a closed interval where the
significand is even, an open one where it is odd. -/
structure Interval where
  lower : Nat
  middle : Nat
  upper : Nat
  closed : Bool
deriving Repr

/-- The reals that round to a finite number. -/
def Interval.ofNumber (number : Binary64) : Interval :=
  let spacing := Nat.pow 2 (number.exponentField - 1)
  let size := 4 * number.units
  let below := if number.fractionField = 0 ∧ 1 < number.exponentField then spacing else 2 * spacing
  ⟨size - below, size, size + 2 * spacing, number.fractionField % 2 = 0⟩

/-- Quarters of a unit in one. -/
def quartersPerOne : Nat := 4 * Binary64.unitsPerOne

/-- The grid point `digits * 10 ^ exponent` lies in the interval. -/
def Interval.holds (interval : Interval) (digits : Nat) (exponent : Int) : Bool :=
  let scale := Nat.pow 10 (-exponent).toNat
  let point := digits * quartersPerOne * Nat.pow 10 exponent.toNat
  if interval.closed then
    decide (interval.lower * scale ≤ point) && decide (point ≤ interval.upper * scale)
  else
    decide (interval.lower * scale < point) && decide (point < interval.upper * scale)

/-- The nearer of the two grid points around the middle that lie in the interval. -/
def Interval.nearest? (tie : Tie) (interval : Interval) (exponent : Int) : Option Nat :=
  let step := quartersPerOne * Nat.pow 10 exponent.toNat
  let size := interval.middle * Nat.pow 10 (-exponent).toNat
  let below := size / step
  let rest := size % step
  let belowHolds := below != 0 && interval.holds below exponent
  let aboveHolds := interval.holds (below + 1) exponent
  if belowHolds && aboveHolds then
    if 2 * rest < step then some below
    else if step < 2 * rest then some (below + 1)
    else
      match tie with
      | .up => some (below + 1)
      | .even => some (if below % 2 = 0 then below else below + 1)
  else if belowHolds then some below
  else if aboveHolds then some (below + 1)
  else none

/-- Tries the grids from the coarsest on; the first with a point in the interval wins. -/
def searchGrids (tie : Tie) (interval : Interval) : Nat → Int → Decimal
  | 0, exponent => ⟨interval.middle, exponent⟩
  | steps + 1, exponent =>
      match interval.nearest? tie exponent with
      | some digits => ⟨digits, exponent⟩
      | none => searchGrids tie interval steps (exponent - 1)

/-- The fewest digits that read back as a finite number other than zero, and of these the nearest.
No finite number reaches 10^309, and every one lies on the grid of 10^-1074. -/
def shortest (tie : Tie) (number : Binary64) : Decimal :=
  searchGrids tie (Interval.ofNumber number) (309 + 1074 + 1) 309

/-! ## Layouts -/

/-- The decimal digits of a natural number. -/
def digitsOf (value : Nat) : List Char := Nat.toDigits 10 value

/-- Digits of a decimal without trailing zeros, and the exponent of the first digit. -/
def scientific (decimal : Decimal) : List Char × Int :=
  let all := digitsOf decimal.digits
  ((all.reverse.dropWhile (· == '0')).reverse, decimal.exponent + all.length - 1)

def zeros (count : Nat) : List Char := List.replicate count '0'

/-- Digits around a point. A whole number ends in the given text. -/
def positional (digits : List Char) (leading : Int) (wholeEnd : List Char) : List Char :=
  if leading < 0 then
    '0' :: '.' :: (zeros (-leading - 1).toNat ++ digits)
  else
    let whole := leading.toNat + 1
    if digits.length ≤ whole then digits ++ zeros (whole - digits.length) ++ wholeEnd
    else digits.take whole ++ '.' :: digits.drop whole

/-- One digit before the point, and the exponent with its sign. -/
def withExponent (digits : List Char) (leading : Int) : List Char :=
  let fraction :=
    match digits.drop 1 with
    | [] => []
    | rest => '.' :: rest
  let power :=
    if leading < 0 then '-' :: digitsOf (-leading).toNat else '+' :: digitsOf leading.toNat
  digits.take 1 ++ fraction ++ 'e' :: power

/-- Sign of a number, before its size. -/
def signed (number : Binary64) (size : List Char) : List Char :=
  if number.isNegative then '-' :: size else size

/-- The plain layout of shown values: always positional, whole numbers without a point. -/
def plain (number : Binary64) : String :=
  if number.isNaN then "NaN"
  else if number.isInfinite then String.ofList (signed number ['i', 'n', 'f'])
  else if number.units = 0 then String.ofList (signed number ['0'])
  else
    let (digits, leading) := scientific (shortest .up number)
    String.ofList (signed number (positional digits leading []))

/-- The layout of JSON documents: positional where the first digit stands between 10^-5 and 10^15,
whole numbers with `.0`; numbers that are not finite have none. -/
def jsonText? (number : Binary64) : Option (List Char) :=
  if !number.isFinite then none
  else if number.units = 0 then some (signed number ['0', '.', '0'])
  else
    let (digits, leading) := scientific (shortest .even number)
    let size :=
      if -5 ≤ leading ∧ leading ≤ 15 then positional digits leading ['.', '0']
      else withExponent digits leading
    some (signed number size)

end Decimal

end GraphCheckpoint
