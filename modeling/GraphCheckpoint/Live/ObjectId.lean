/-!
Contract: ids of new objects.

Owns: the text of a random id of 128 bits, of which six tell its form.

Does not own: where the bits come from.
-/

namespace GraphCheckpoint.ObjectId

/-- The digits of an id: 32 of base 16, most significant first. The thirteenth is the version, 4,
and the seventeenth holds the variant in its two upper bits. -/
def digits (bits : Nat) : List Char :=
  (List.range 32).map fun position =>
    let digit := bits / Nat.pow 16 (31 - position) % 16
    if position = 12 then '4'
    else if position = 16 then Nat.digitChar (8 + digit % 4)
    else Nat.digitChar digit

/-- Digits in groups of the given lengths. -/
def groups : List Nat → List Char → List String
  | [], _ => []
  | length :: rest, digits =>
      String.ofList (digits.take length) :: groups rest (digits.drop length)

/-- The id made of random bits. -/
def ofBits (bits : Nat) : String := "-".intercalate (groups [8, 4, 4, 4, 12] (digits bits))

theorem length_digits (bits : Nat) : (digits bits).length = 32 := by simp [digits]

end GraphCheckpoint.ObjectId
