import GraphCheckpoint.Encoding.Json.Number
import GraphCheckpoint.Encoding.Json.Printer
import GraphCheckpoint.Proofs.Encoding.Node
import Mathlib.Data.List.TakeDrop

/-!
Contract: numbers read back from their JSON texts.

Owns:
- what may stand behind a value;
- `NumberText`, whole digits with a fraction and an exponent, read whatever closes behind them;
- integers, which are read back as they are;
- `rereadFloat`, what is read back where a float was written.

Does not own: which numbers documents have.

A float is written with the fewest digits that determine it, and read with two roundings, so it may
come back as another float. One that is not finite is written as null.
-/

namespace GraphCheckpoint.Encoding.Json

/-! ## What closes a value -/

/-- What may stand behind a value: the end of the input, or what goes on with a list or a map. -/
def Closing (rest : Bytes) : Prop :=
  ∀ byte ∈ rest.head?, byte = comma ∨ byte = closeBracket ∨ byte = closeBrace

theorem closing_nil : Closing [] := by
  intro byte isHead
  cases isHead

theorem closing_cons {byte : UInt8} {rest : Bytes}
    (closes : byte = comma ∨ byte = closeBracket ∨ byte = closeBrace) : Closing (byte :: rest) := by
  intro head isHead
  cases isHead
  exact closes

theorem notDigit_of_closing {rest : Bytes} (closing : Closing rest) :
    ∀ byte ∈ rest.head?, isDigit byte = false := by
  intro byte isHead
  rcases closing byte isHead with isComma | isBracket | isBrace
  · rw [isComma]
    rfl
  · rw [isBracket]
    rfl
  · rw [isBrace]
    rfl

/-! ## Texts of numbers -/

/-- Digits, at least one. -/
structure AreDigits (digits : Bytes) : Prop where
  notEmpty : digits ≠ []
  all : ∀ byte ∈ digits, isDigit byte = true

def fractionText : Option Bytes → Bytes
  | none => []
  | some digits => 0x2e :: digits

/-- The exponent after its mark, with a sign in either case. -/
def exponentText : Option (Bool × Bytes) → Bytes
  | none => []
  | some (downward, digits) => 0x65 :: (if downward then 0x2d else 0x2b) :: digits

/-- The parts of a number without its sign, as they are written. -/
structure NumberText where
  whole : Bytes
  fraction : Option Bytes
  exponent : Option (Bool × Bytes)
  wholeDigits : AreDigits whole
  noLeadingZero : ∀ second others, whole ≠ 0x30 :: second :: others
  fractionDigits : ∀ digits ∈ fraction, AreDigits digits
  exponentDigits : ∀ power ∈ exponent, AreDigits power.2

/-- The bytes of a number without its sign. -/
def NumberText.bytes (text : NumberText) : Bytes :=
  text.whole ++ (fractionText text.fraction ++ exponentText text.exponent)

/-- The value of a number with the given sign. -/
def NumberText.value (text : NumberText) (negative : Bool) : Node :=
  numberOf negative text.whole text.fraction text.exponent

theorem spanDigits_append {digits rest : Bytes} (areDigits : ∀ byte ∈ digits, isDigit byte = true)
    (ends : ∀ byte ∈ rest.head?, isDigit byte = false) :
    spanDigits (digits ++ rest) = (digits, rest) := by
  rw [spanDigits, List.span_eq_takeWhile_dropWhile, List.takeWhile_append_of_pos areDigits,
    List.dropWhile_append_of_pos areDigits]
  cases rest with
  | nil => simp
  | cons byte tail =>
      have notDigit := ends byte rfl
      simp [notDigit]

private theorem scanExponentDigits_append {digits rest : Bytes} (areDigits : AreDigits digits)
    (closing : Closing rest) (downward : Bool) :
    scanExponentDigits downward (digits ++ rest) = some (some (downward, digits), rest) := by
  rw [scanExponentDigits, spanDigits_append areDigits.all (notDigit_of_closing closing)]
  cases digits with
  | nil => exact absurd rfl areDigits.notEmpty
  | cons first others => rfl

private theorem scanExponent_exponentText {exponent : Option (Bool × Bytes)} {rest : Bytes}
    (areDigits : ∀ power ∈ exponent, AreDigits power.2) (closing : Closing rest) :
    scanExponent (exponentText exponent ++ rest) = some (exponent, rest) := by
  match exponent with
  | none =>
      cases rest with
      | nil => rfl
      | cons byte tail =>
          have notMark : ¬ (byte = 0x65 ∨ byte = 0x45) := by
            rcases closing byte rfl with isComma | isBracket | isBrace <;> subst byte <;> decide
          exact if_neg notMark
  | some (true, digits) =>
      exact scanExponentDigits_append (areDigits (true, digits) rfl) closing true
  | some (false, digits) =>
      exact scanExponentDigits_append (areDigits (false, digits) rfl) closing false

/-- Behind the digits of a number stands no further digit. -/
private theorem notDigit_exponentText (exponent : Option (Bool × Bytes)) {rest : Bytes}
    (closing : Closing rest) :
    ∀ byte ∈ (exponentText exponent ++ rest).head?, isDigit byte = false := by
  match exponent with
  | none => exact notDigit_of_closing closing
  | some (downward, digits) =>
      rintro byte ⟨⟩
      rfl

private theorem scanFraction_fractionText {fraction : Option Bytes}
    {exponent : Option (Bool × Bytes)} {rest : Bytes}
    (areDigits : ∀ digits ∈ fraction, AreDigits digits) (closing : Closing rest) :
    scanFraction (fractionText fraction ++ (exponentText exponent ++ rest)) =
      some (fraction, exponentText exponent ++ rest) := by
  match fraction with
  | some digits =>
      have fractionDigits := areDigits digits rfl
      rw [fractionText, List.cons_append, scanFraction,
        spanDigits_append fractionDigits.all (notDigit_exponentText exponent closing)]
      cases digits with
      | nil => exact absurd rfl fractionDigits.notEmpty
      | cons first others => rfl
  | none =>
      rw [fractionText, List.nil_append]
      match exponent with
      | some (downward, digits) => rfl
      | none =>
          cases rest with
          | nil => rfl
          | cons byte tail =>
              have notPoint : byte ≠ 0x2e := by
                rcases closing byte rfl with isComma | isBracket | isBrace <;> subst byte <;> decide
              simp [exponentText, scanFraction, notPoint]

/-- A number is read from its text, whatever closes behind it. -/
theorem scanUnsigned_numberText (negative : Bool) (text : NumberText) {rest : Bytes}
    (closing : Closing rest) :
    scanUnsigned negative (text.bytes ++ rest) = some (text.value negative, rest) := by
  obtain ⟨whole, fraction, exponent, wholeDigits, noLeadingZero, fractionDigits, exponentDigits⟩ :=
    text
  have notDigit : ∀ byte ∈ (fractionText fraction ++ (exponentText exponent ++ rest)).head?,
      isDigit byte = false := by
    match fraction with
    | none => exact notDigit_exponentText exponent closing
    | some digits =>
        rintro byte ⟨⟩
        rfl
  have read : scanUnsigned negative (whole ++ (fractionText fraction ++ (exponentText exponent ++
      rest))) = some (numberOf negative whole fraction exponent, rest) := by
    rw [scanUnsigned, spanDigits_append wholeDigits.all notDigit]
    match whole with
    | [] => exact absurd rfl wholeDigits.notEmpty
    | [first] =>
        simp [scanFraction_fractionText fractionDigits closing,
          scanExponent_exponentText exponentDigits closing]
    | first :: second :: others =>
        have notZero : first ≠ 0x30 := fun isZero => noLeadingZero second others (by rw [isZero])
        simp [scanFraction_fractionText fractionDigits closing,
          scanExponent_exponentText exponentDigits closing]
  simpa only [NumberText.bytes, NumberText.value, List.append_assoc] using read

/-- A number begins with a digit. -/
theorem NumberText.bytes_cons (text : NumberText) :
    ∃ first others, text.bytes = first :: others ∧ isDigit first = true := by
  cases whole : text.whole with
  | nil => exact absurd whole text.wholeDigits.notEmpty
  | cons first others =>
      refine ⟨first, _, by rw [NumberText.bytes, whole, List.cons_append],
        text.wholeDigits.all first ?_⟩
      rw [whole]
      exact List.mem_cons_self

/-- The bytes of a number with its sign. -/
def NumberText.signed (text : NumberText) (negative : Bool) : Bytes :=
  if negative then 0x2d :: text.bytes else text.bytes

theorem NumberText.signed_cons (text : NumberText) (negative : Bool) :
    ∃ first others, text.signed negative = first :: others ∧
      (first = 0x2d ∨ isDigit first = true) := by
  cases negative with
  | true => exact ⟨_, _, rfl, Or.inl rfl⟩
  | false =>
      obtain ⟨first, others, isBytes, digit⟩ := text.bytes_cons
      exact ⟨first, others, isBytes, Or.inr digit⟩

theorem scanNumber_numberText (negative : Bool) (text : NumberText) {rest : Bytes}
    (closing : Closing rest) :
    scanNumber (text.signed negative ++ rest) = some (text.value negative, rest) := by
  have read := scanUnsigned_numberText negative text closing
  cases negative with
  | true => exact read
  | false =>
      obtain ⟨first, others, isBytes, digit⟩ := text.bytes_cons
      have notMinus : first ≠ 0x2d := by
        intro same
        rw [same] at digit
        cases digit
      rw [NumberText.signed, if_neg (by decide)]
      rw [isBytes, List.cons_append] at read ⊢
      rw [scanNumber]
      · exact read
      · intro tail same
        exact notMinus (List.cons.inj same).1

/-! ## Digits -/

private theorem byteOfDigit {character : Char} (isDigit : character.isDigit = true) :
    Json.isDigit character.toNat.toUInt8 = true ∧
      digitValue character.toNat.toUInt8 = character.toNat - '0'.toNat := by
  have bounds : 48 ≤ character.toNat ∧ character.toNat ≤ 57 := by
    simpa [Char.isDigit, UInt32.le_iff_toNat_le] using isDigit
  have isByte : character.toNat.toUInt8.toNat = character.toNat := by
    simp
    omega
  constructor
  · have lower : (0x30 : UInt8).toNat ≤ character.toNat.toUInt8.toNat := by
      rw [isByte]
      exact bounds.1
    have upper : character.toNat.toUInt8.toNat ≤ (0x39 : UInt8).toNat := by
      rw [isByte]
      exact bounds.2
    simp only [Json.isDigit, Bool.and_eq_true, decide_eq_true_eq, UInt8.le_iff_toNat_le]
    exact ⟨lower, upper⟩
  · rw [digitValue, isByte]
    rfl

/-- Characters that are digits, at least one. -/
structure AreDigitChars (characters : List Char) : Prop where
  notEmpty : characters ≠ []
  all : ∀ character ∈ characters, character.isDigit = true

theorem AreDigitChars.ascii {characters : List Char} (digits : AreDigitChars characters) :
    AreDigits (Json.ascii characters) where
  notEmpty := fun isEmpty => digits.notEmpty (List.map_eq_nil_iff.mp isEmpty)
  all := by
    intro byte member
    obtain ⟨character, isCharacter, rfl⟩ := List.mem_map.mp member
    exact (byteOfDigit (digits.all character isCharacter)).1

theorem areDigitChars_digitsOf (number : Nat) : AreDigitChars (Decimal.digitsOf number) where
  notEmpty := Nat.toDigits_ne_nil
  all := fun _ member => Nat.isDigit_of_mem_toDigits (by decide) (by decide) member

/-- Of two digits or more, the first one is a zero only where its character is. -/
theorem noLeadingZero_ascii {characters : List Char} (digits : AreDigitChars characters)
    (leading : ∀ second others, characters ≠ '0' :: second :: others) :
    ∀ second others, ascii characters ≠ 0x30 :: second :: others := by
  intro second others isBytes
  match characters with
  | [] | [_] => simp [ascii] at isBytes
  | first :: next :: further =>
      have isZero : first.toNat.toUInt8 = 0x30 := (List.cons.inj isBytes).1
      have range : 48 ≤ first.toNat ∧ first.toNat ≤ 57 := by
        simpa [Char.isDigit, UInt32.le_iff_toNat_le] using digits.all first (by simp)
      have code := congrArg UInt8.toNat isZero
      have small : first.toNat.toUInt8.toNat = first.toNat := by
        simp
        omega
      rw [small] at code
      exact leading next further (by rw [show first = '0' from Char.toNat_inj.mp code])

/-- Digits that stay within the largest significand are all taken. -/
theorem takeDigits_of_le {start : Nat} {digits : Bytes}
    (small : digits.foldl (fun sum digit => 10 * sum + digitValue digit) start ≤ maxSignificand) :
    takeDigits start digits =
      (digits.foldl (fun sum digit => 10 * sum + digitValue digit) start, digits.length, 0) := by
  have grows : ∀ (rest : Bytes) (sum : Nat),
      sum ≤ rest.foldl (fun sum digit => 10 * sum + digitValue digit) sum := by
    intro rest
    induction rest with
    | nil => exact fun sum => Nat.le_refl sum
    | cons digit rest inductionHypothesis =>
        intro sum
        have further := inductionHypothesis (10 * sum + digitValue digit)
        rw [List.foldl_cons]
        omega
  induction digits generalizing start with
  | nil => rfl
  | cons digit rest inductionHypothesis =>
      rw [List.foldl_cons] at small ⊢
      have fits : 10 * start + digitValue digit ≤ maxSignificand :=
        Nat.le_trans (grows rest _) small
      simp [takeDigits, fits, inductionHypothesis small]

private theorem foldl_ascii (characters : List Char) (start : Nat)
    (areDigits : ∀ character ∈ characters, character.isDigit = true) :
    (ascii characters).foldl (fun sum digit => 10 * sum + digitValue digit) start =
      Nat.ofDigitChars 10 characters start := by
  induction characters generalizing start with
  | nil => rfl
  | cons character rest inductionHypothesis =>
      rw [Nat.ofDigitChars_cons, ← inductionHypothesis _ fun other member =>
          areDigits other (by simp [member]),
        ← (byteOfDigit (areDigits character (by simp))).2]
      rfl

theorem takeDigits_digitsOf {number : Nat} (small : number ≤ maxSignificand) :
    takeDigits 0 (ascii (Decimal.digitsOf number)) =
      (number, (ascii (Decimal.digitsOf number)).length, 0) := by
  have isNumber : (ascii (Decimal.digitsOf number)).foldl
      (fun sum digit => 10 * sum + digitValue digit) 0 = number := by
    rw [foldl_ascii _ _ (areDigitChars_digitsOf number).all]
    exact Nat.ofDigitChars_ten_toDigits
  rw [takeDigits_of_le (by rw [isNumber]; exact small), isNumber]

/-- A number of several digits does not begin with zero. -/
theorem head_digitsOf {number : Nat} (positive : 0 < number) :
    (Decimal.digitsOf number).head? ≠ some '0' := by
  induction number using Nat.strongRecOn with
  | ind number inductionHypothesis =>
      by_cases small : number < 10
      · rw [Decimal.digitsOf, Nat.toDigits_of_lt_base small]
        have decided : ∀ digit < 10, 0 < digit → Nat.digitChar digit ≠ '0' := by decide
        simpa using decided number small positive
      · have shorter := inductionHypothesis (number / 10) (by omega) (by omega)
        have notEmpty : Decimal.digitsOf (number / 10) ≠ [] := Nat.toDigits_ne_nil
        rw [Decimal.digitsOf, Nat.toDigits_of_base_le (by decide) (by omega)]
        cases digits : Decimal.digitsOf (number / 10) with
        | nil => exact absurd digits notEmpty
        | cons first others =>
            rw [digits] at shorter
            change Nat.toDigits 10 (number / 10) = _ at digits
            rw [digits]
            exact shorter

/-! ## Integers -/

/-- A natural number as it is written. -/
def naturalText (number : Nat) : NumberText where
  whole := ascii (Decimal.digitsOf number)
  fraction := none
  exponent := none
  wholeDigits := (areDigitChars_digitsOf number).ascii
  noLeadingZero := by
    refine noLeadingZero_ascii (areDigitChars_digitsOf number) fun second others characters => ?_
    by_cases positive : 0 < number
    · exact head_digitsOf positive (by rw [characters]; rfl)
    · have isZero : number = 0 := by omega
      rw [isZero] at characters
      cases characters
  fractionDigits := nofun
  exponentDigits := nofun

theorem integerText_eq (number : Int) :
    integerText number = (naturalText number.natAbs).signed (decide (number < 0)) := by
  have isBytes : (naturalText number.natAbs).bytes = ascii (Decimal.digitsOf number.natAbs) :=
    List.append_nil _
  by_cases negative : number < 0
  · rw [integerText, if_pos negative, NumberText.signed, if_pos (by simpa using negative), isBytes]
  · rw [integerText, if_neg negative, NumberText.signed, if_neg (by simpa using negative), isBytes]

theorem scanNumber_integerText {number : Int} (least : -0x8000000000000000 ≤ number)
    (greatest : number < 0x10000000000000000) {rest : Bytes} (closing : Closing rest) :
    scanNumber (integerText number ++ rest) = some (.ofInt number, rest) := by
  have small : number.natAbs ≤ maxSignificand := by
    rw [maxSignificand]
    omega
  have value : (naturalText number.natAbs).value (decide (number < 0)) = .ofInt number := by
    have taken : (naturalText number.natAbs).value (decide (number < 0)) =
        integerOf (decide (number < 0)) number.natAbs := by
      simp [NumberText.value, naturalText, numberOf, takeDigits_digitsOf small]
    rw [taken, integerOf]
    by_cases negative : number < 0
    · rw [if_pos (by simpa using negative), if_neg (by omega)]
      exact congrArg Node.ofInt (by omega)
    · rw [if_neg (by simpa using negative)]
      exact congrArg Node.ofInt (by omega)
  rw [integerText_eq, scanNumber_numberText _ _ closing, value]

/-! ## Floats -/

private theorem nearest_pos {tie : Decimal.Tie} {interval : Decimal.Interval} {exponent : Int}
    {digits : Nat} (nearest : interval.nearest? tie exponent = some digits) : 0 < digits := by
  -- the lower one of two candidates is only taken where it is not zero
  have lower : ∀ {below : Nat} {holds : Bool}, (below != 0 && holds) = true → 0 < below := by
    intro below holds isLower
    rw [Bool.and_eq_true, bne_iff_ne] at isLower
    omega
  simp only [Decimal.Interval.nearest?] at nearest
  split at nearest
  · rename_i both
    have belowPos := lower (Bool.and_eq_true_iff.mp both).1
    split at nearest
    · cases nearest
      exact belowPos
    · split at nearest
      · cases nearest
        exact Nat.succ_pos _
      · cases tie with
        | up =>
            cases nearest
            exact Nat.succ_pos _
        | even =>
            rw [← Option.some.inj nearest]
            split
            · exact belowPos
            · exact Nat.succ_pos _
  · split at nearest
    · rename_i isLower
      cases nearest
      exact lower isLower
    · split at nearest
      · cases nearest
        exact Nat.succ_pos _
      · cases nearest

private theorem searchGrids_pos (tie : Decimal.Tie) {interval : Decimal.Interval}
    (middle : 0 < interval.middle) (steps : Nat) (exponent : Int) :
    0 < (Decimal.searchGrids tie interval steps exponent).digits := by
  induction steps generalizing exponent with
  | zero => exact middle
  | succ steps inductionHypothesis =>
      rw [Decimal.searchGrids]
      split
      · rename_i digits nearest
        exact nearest_pos nearest
      · exact inductionHypothesis (exponent - 1)

/-- Significant digits, at least one, the first of which is not a zero. -/
structure AreSignificant (characters : List Char) : Prop extends AreDigitChars characters where
  leading : characters.head? ≠ some '0'

/-- Without its trailing zeros a positive number still has its first digit. -/
theorem areSignificant_scientific {decimal : Decimal} (positive : 0 < decimal.digits) :
    AreSignificant (Decimal.scientific decimal).1 := by
  have digits := areDigitChars_digitsOf decimal.digits
  have leading := head_digitsOf positive
  obtain ⟨first, others, isDigits⟩ := List.exists_cons_of_ne_nil digits.notEmpty
  rw [isDigits] at leading
  have notZero : (first == '0') = false := beq_false_of_ne fun isZero => leading (by rw [isZero]; rfl)
  have stripped : (Decimal.scientific decimal).1 =
      first :: (others.reverse.dropWhile (· == '0')).reverse := by
    rw [Decimal.scientific, isDigits, List.reverse_cons, List.dropWhile_append]
    split
    · rename_i allZeros
      rw [List.isEmpty_iff.mp allZeros]
      simp [notZero]
    · simp
  rw [stripped]
  refine ⟨⟨List.cons_ne_nil _ _, fun character member => digits.all character ?_⟩, leading⟩
  rw [isDigits]
  rcases List.mem_cons.mp member with isFirst | isOther
  · rw [isFirst]
    exact List.mem_cons_self
  · have kept := List.dropWhile_subset _ (List.mem_reverse.mp isOther)
    exact List.mem_cons_of_mem first (List.mem_reverse.mp kept)

theorem AreSignificant.noLeadingZero {characters : List Char}
    (significant : AreSignificant characters) (others : List Char) :
    ∀ second further, characters ++ others ≠ '0' :: second :: further := by
  intro second further same
  obtain ⟨first, rest, isCharacters⟩ := List.exists_cons_of_ne_nil significant.notEmpty
  rw [isCharacters, List.cons_append] at same
  refine significant.leading ?_
  rw [isCharacters, (List.cons.inj same).1]
  rfl

theorem AreDigitChars.append {left right : List Char} (leftDigits : AreDigitChars left)
    (rightDigits : ∀ character ∈ right, character.isDigit = true) :
    AreDigitChars (left ++ right) where
  notEmpty := List.append_ne_nil_of_left_ne_nil leftDigits.notEmpty right
  all := fun character member => (List.mem_append.mp member).elim (leftDigits.all character)
    (rightDigits character)

theorem isDigit_zeros (count : Nat) :
    ∀ character ∈ Decimal.zeros count, character.isDigit = true := by
  intro character member
  rw [List.eq_of_mem_replicate member]
  rfl

theorem AreDigitChars.sublist {characters part : List Char} (digits : AreDigitChars characters)
    (subset : part ⊆ characters) (notEmpty : part ≠ []) : AreDigitChars part :=
  ⟨notEmpty, fun character member => digits.all character (subset member)⟩

private theorem areDigitChars_zero : AreDigitChars ['0'] where
  notEmpty := List.cons_ne_nil _ _
  all := fun character member => by
    rw [List.mem_singleton.mp member]
    rfl

private theorem noLeadingZero_zero (second : Char) (others : List Char) :
    ['0'] ≠ '0' :: second :: others := fun same => nomatch (List.cons.inj same).2

/-- The parts of a number from digits, its whole part without a leading zero. -/
def decimalText (whole fraction : List Char) (wholeDigits : AreDigitChars whole)
    (noLeadingZero : ∀ second others, whole ≠ '0' :: second :: others)
    (fractionDigits : AreDigitChars fraction) : NumberText where
  whole := ascii whole
  fraction := some (ascii fraction)
  exponent := none
  wholeDigits := wholeDigits.ascii
  noLeadingZero := noLeadingZero_ascii wholeDigits noLeadingZero
  fractionDigits := by
    rintro digits ⟨⟩
    exact fractionDigits.ascii
  exponentDigits := nofun

/-- The positional layout of a number is digits, a point and digits. -/
theorem positional_eq {digits : List Char} (significant : AreSignificant digits) (leading : Int) :
    ∃ text : NumberText, ascii (Decimal.positional digits leading ['.', '0']) = text.bytes := by
  rw [Decimal.positional]
  split
  · refine ⟨decimalText ['0'] (Decimal.zeros (-leading - 1).toNat ++ digits)
      areDigitChars_zero noLeadingZero_zero ?_, by simp [NumberText.bytes, decimalText, fractionText,
        exponentText, ascii]⟩
    refine ⟨List.append_ne_nil_of_right_ne_nil _ significant.notEmpty, fun character member => ?_⟩
    exact (List.mem_append.mp member).elim (isDigit_zeros _ character) (significant.all character)
  · dsimp only
    split
    · refine ⟨decimalText (digits ++ Decimal.zeros (leading.toNat + 1 - digits.length)) ['0']
        (significant.toAreDigitChars.append (isDigit_zeros _)) (significant.noLeadingZero _)
        areDigitChars_zero, by simp [NumberText.bytes, decimalText, fractionText,
        exponentText, ascii]⟩
    · rename_i isLonger
      have taken : digits.take (leading.toNat + 1) ≠ [] := by
        rw [Ne, List.take_eq_nil_iff]
        exact fun isEmpty => isEmpty.elim (Nat.succ_ne_zero _) significant.notEmpty
      have dropped : digits.drop (leading.toNat + 1) ≠ [] := by
        rw [Ne, List.drop_eq_nil_iff]
        exact isLonger
      refine ⟨decimalText (digits.take (leading.toNat + 1)) (digits.drop (leading.toNat + 1))
        (significant.toAreDigitChars.sublist (List.take_subset _ _) taken) ?_
        (significant.toAreDigitChars.sublist (List.drop_subset _ _) dropped),
        by simp [NumberText.bytes, decimalText, fractionText, exponentText, ascii]⟩
      intro second others isTaken
      refine significant.noLeadingZero [] second (others ++ digits.drop (leading.toNat + 1)) ?_
      rw [List.append_nil, ← List.cons_append, ← List.cons_append, ← isTaken,
        List.take_append_drop]

/-- The layout with an exponent is one digit, further digits after a point, and the exponent. -/
theorem withExponent_eq {digits : List Char} (significant : AreSignificant digits)
    (leading : Int) :
    ∃ text : NumberText, ascii (Decimal.withExponent digits leading) = text.bytes := by
  obtain ⟨first, others, rfl⟩ := List.exists_cons_of_ne_nil significant.notEmpty
  have firstDigit : AreDigitChars [first] :=
    significant.toAreDigitChars.sublist (by simp) (by simp)
  refine ⟨{
    whole := ascii [first]
    fraction := if others = [] then none else some (ascii others)
    exponent := some (decide (leading < 0), ascii (Decimal.digitsOf leading.natAbs))
    wholeDigits := firstDigit.ascii
    noLeadingZero := noLeadingZero_ascii firstDigit (by simp)
    fractionDigits := ?_
    exponentDigits := ?_ }, ?_⟩
  · intro fraction isFraction
    by_cases isEmpty : others = []
    · simp [isEmpty] at isFraction
    · simp only [isEmpty, if_false, Option.mem_def, Option.some.injEq] at isFraction
      rw [← isFraction]
      exact (significant.toAreDigitChars.sublist (by simp) isEmpty).ascii
  · rintro power ⟨⟩
    exact (areDigitChars_digitsOf _).ascii
  · have power : (if leading < 0 then '-' :: Decimal.digitsOf (-leading).toNat
        else '+' :: Decimal.digitsOf leading.toNat) =
          (if leading < 0 then '-' else '+') :: Decimal.digitsOf leading.natAbs := by
      split
      · rw [show (-leading).toNat = leading.natAbs by omega]
      · rw [show leading.toNat = leading.natAbs by omega]
    rw [Decimal.withExponent, power]
    by_cases isEmpty : others = []
    · by_cases downward : leading < 0 <;>
        simp [NumberText.bytes, fractionText, exponentText, ascii, isEmpty, downward]
    · by_cases downward : leading < 0 <;>
        simp [NumberText.bytes, fractionText, exponentText, ascii, isEmpty, downward]

/-- A float that has a JSON text is written as a number. -/
theorem jsonText_eq {number : Binary64} {characters : List Char}
    (isText : Decimal.jsonText? number = some characters) :
    ∃ text : NumberText, ascii characters = text.signed number.isNegative := by
  have layout : ∃ size : List Char, characters = Decimal.signed number size ∧
      ∃ text : NumberText, ascii size = text.bytes := by
    unfold Decimal.jsonText? at isText
    split at isText
    · cases isText
    · split at isText
      · refine ⟨_, (Option.some.inj isText).symm, decimalText ['0'] ['0']
          areDigitChars_zero noLeadingZero_zero areDigitChars_zero, rfl⟩
      · rename_i notZero
        have positive : 0 < (Decimal.shortest .even number).digits :=
          searchGrids_pos _ (by simp [Decimal.Interval.ofNumber]; omega) _ _
        have significant := areSignificant_scientific positive
        refine ⟨_, (Option.some.inj isText).symm, ?_⟩
        split
        · exact positional_eq significant _
        · exact withExponent_eq significant _
  obtain ⟨size, isSigned, text, isBytes⟩ := layout
  refine ⟨text, ?_⟩
  rw [isSigned, Decimal.signed, NumberText.signed]
  split
  · rw [← isBytes]
    rfl
  · exact isBytes

/-- What is read back where a float was written. -/
def rereadFloat (number : Binary64) : Node :=
  match Decimal.jsonText? number with
  | none => .null
  | some characters => ((scanNumber (ascii characters)).map Prod.fst).getD .illegible

theorem rereadFloat_of_not_isFinite {number : Binary64} (notFinite : number.isFinite = false) :
    rereadFloat number = .null := by
  have noText : Decimal.jsonText? number = none := by
    rw [Decimal.jsonText?, notFinite]
    rfl
  rw [rereadFloat, noText]

/-- The text of a float is read as `rereadFloat` says, whatever closes behind it. -/
theorem scanNumber_jsonText {number : Binary64} {characters : List Char}
    (isText : Decimal.jsonText? number = some characters) {rest : Bytes} (closing : Closing rest) :
    scanNumber (ascii characters ++ rest) = some (rereadFloat number, rest) := by
  obtain ⟨text, isSigned⟩ := jsonText_eq isText
  have alone := scanNumber_numberText number.isNegative text closing_nil
  have reread : rereadFloat number = text.value number.isNegative := by
    rw [List.append_nil, ← isSigned] at alone
    rw [rereadFloat, isText]
    simp [alone]
  rw [isSigned, reread, scanNumber_numberText _ _ closing]

end GraphCheckpoint.Encoding.Json
