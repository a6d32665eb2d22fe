import GraphCheckpoint.Proofs.Encoding.Json

/-!
Contract: the bytes of a JSON text.

Owns:
- that no byte of a printed tree is a control character, floats included.

Does not own: what follows from it for the bytes around a text.
-/

namespace GraphCheckpoint.Encoding.Json

/-- Not a control character. -/
def IsVisible (byte : UInt8) : Prop := 0x20 ≤ byte.toNat

/-- Characters whose bytes are visible. -/
def AreVisible (characters : List Char) : Prop :=
  ∀ character ∈ characters, 0x20 ≤ character.toNat ∧ character.toNat < 0x80

instance (characters : List Char) : Decidable (AreVisible characters) :=
  @List.decidableBAll Char
    (fun character => 0x20 ≤ character.toNat ∧ character.toNat < 0x80)
    (fun _ => @instDecidableAnd _ _ (Nat.decLe _ _) (Nat.decLt _ _)) characters

theorem isVisible_ascii {characters : List Char} (visible : AreVisible characters) :
    ∀ byte ∈ ascii characters, IsVisible byte := by
  intro byte member
  obtain ⟨character, isCharacter, rfl⟩ := List.mem_map.mp member
  have bounds := visible character isCharacter
  have isByte : character.toNat.toUInt8.toNat = character.toNat := by
    simp
    omega
  rw [IsVisible, isByte]
  exact bounds.1

theorem areVisible_append {left right : List Char} (leftVisible : AreVisible left)
    (rightVisible : AreVisible right) : AreVisible (left ++ right) := by
  intro character member
  exact (List.mem_append.mp member).elim (leftVisible character) (rightVisible character)

theorem areVisible_cons {first : Char} {rest : List Char}
    (firstVisible : 0x20 ≤ first.toNat ∧ first.toNat < 0x80) (restVisible : AreVisible rest) :
    AreVisible (first :: rest) := by
  intro character member
  rcases List.mem_cons.mp member with rfl | later
  · exact firstVisible
  · exact restVisible character later

theorem areVisible_of_subset {characters others : List Char} (visible : AreVisible others)
    (subset : ∀ character ∈ characters, character ∈ others) : AreVisible characters :=
  fun character member => visible character (subset character member)

/-! ## Numbers -/

theorem areVisible_digitsOf (number : Nat) : AreVisible (Decimal.digitsOf number) := by
  intro character member
  have isDigit : character.isDigit = true :=
    Nat.isDigit_of_mem_toDigits (by decide) (by decide) member
  have bounds : 48 ≤ character.toNat ∧ character.toNat ≤ 57 := by
    simpa [Char.isDigit, UInt32.le_iff_toNat_le] using isDigit
  omega

theorem areVisible_zeros (count : Nat) : AreVisible (Decimal.zeros count) := by
  intro character member
  rw [List.eq_of_mem_replicate member]
  decide

theorem areVisible_scientific (decimal : Decimal) :
    AreVisible (Decimal.scientific decimal).1 := by
  refine areVisible_of_subset (areVisible_digitsOf decimal.digits) fun character member => ?_
  have inside := List.dropWhile_subset _ (List.mem_reverse.mp member)
  exact List.mem_reverse.mp inside

theorem areVisible_positional {digits wholeEnd : List Char} (leading : Int)
    (digitsVisible : AreVisible digits) (endVisible : AreVisible wholeEnd) :
    AreVisible (Decimal.positional digits leading wholeEnd) := by
  unfold Decimal.positional
  split
  · exact areVisible_cons (by decide) (areVisible_cons (by decide)
      (areVisible_append (areVisible_zeros _) digitsVisible))
  · dsimp only
    split
    · exact areVisible_append (areVisible_append digitsVisible (areVisible_zeros _)) endVisible
    · exact areVisible_append
        (areVisible_of_subset digitsVisible fun _ => List.mem_of_mem_take)
        (areVisible_cons (by decide)
          (areVisible_of_subset digitsVisible fun _ => List.mem_of_mem_drop))

theorem areVisible_withExponent {digits : List Char} (leading : Int)
    (digitsVisible : AreVisible digits) : AreVisible (Decimal.withExponent digits leading) := by
  have restVisible : AreVisible (digits.drop 1) :=
    areVisible_of_subset digitsVisible fun _ => List.mem_of_mem_drop
  dsimp only [Decimal.withExponent]
  refine areVisible_append (areVisible_append
    (areVisible_of_subset digitsVisible fun _ => List.mem_of_mem_take) ?_)
    (areVisible_cons (by decide) ?_)
  · split
    · intro character member
      cases member
    · exact areVisible_cons (by decide) restVisible
  · split
    · exact areVisible_cons (by decide) (areVisible_digitsOf _)
    · exact areVisible_cons (by decide) (areVisible_digitsOf _)

theorem areVisible_signed (number : Binary64) {size : List Char} (visible : AreVisible size) :
    AreVisible (Decimal.signed number size) := by
  unfold Decimal.signed
  split
  · exact areVisible_cons (by decide) visible
  · exact visible

theorem areVisible_jsonText? {number : Binary64} {characters : List Char}
    (isText : Decimal.jsonText? number = some characters) : AreVisible characters := by
  unfold Decimal.jsonText? at isText
  split at isText
  · cases isText
  · split at isText
    · cases isText
      exact areVisible_signed number (by decide)
    · cases isText
      have digits := areVisible_scientific (Decimal.shortest .even number)
      refine areVisible_signed number ?_
      split
      · exact areVisible_positional _ digits (by decide)
      · exact areVisible_withExponent _ digits

theorem isVisible_integerText (number : Int) : ∀ byte ∈ integerText number, IsVisible byte := by
  have digits := isVisible_ascii (areVisible_digitsOf number.natAbs)
  unfold integerText
  split
  · intro byte member
    rcases List.mem_cons.mp member with rfl | later
    · exact (by decide : 0x20 ≤ (0x2d : UInt8).toNat)
    · exact digits byte later
  · exact digits

/-! ## Texts -/

theorem isVisible_escape (byte : UInt8) : ∀ written ∈ escape byte, IsVisible written := by
  have decided : ∀ number < 256,
      (escape (UInt8.ofNat number)).all (fun written => 0x20 ≤ written.toNat) = true := by
    decide +kernel
  have held := decided byte.toNat byte.toNat_lt
  simp only [UInt8.ofNat_toNat, List.all_eq_true, decide_eq_true_eq] at held
  exact held

theorem isVisible_quoted (content : String) : ∀ byte ∈ quoted content, IsVisible byte := by
  intro byte member
  rcases List.mem_cons.mp member with rfl | inside
  · exact (by decide : 0x20 ≤ quote.toNat)
  · rcases List.mem_append.mp inside with escaped | closing
    · obtain ⟨original, -, isWritten⟩ := List.mem_flatMap.mp escaped
      exact isVisible_escape original byte isWritten
    · rw [List.mem_singleton.mp closing]
      exact (by decide : 0x20 ≤ quote.toNat)

/-! ## Trees -/

private theorem isVisible_cons {first : UInt8} {rest : Bytes} (firstVisible : IsVisible first)
    (restVisible : ∀ byte ∈ rest, IsVisible byte) : ∀ byte ∈ first :: rest, IsVisible byte := by
  intro byte member
  rcases List.mem_cons.mp member with rfl | later
  · exact firstVisible
  · exact restVisible byte later

private theorem isVisible_append {left right : Bytes} (leftVisible : ∀ byte ∈ left, IsVisible byte)
    (rightVisible : ∀ byte ∈ right, IsVisible byte) : ∀ byte ∈ left ++ right, IsVisible byte :=
  fun byte member => (List.mem_append.mp member).elim (leftVisible byte) (rightVisible byte)

private theorem isVisible_nullText : ∀ byte ∈ nullText, IsVisible byte :=
  isVisible_ascii (by decide)

private theorem isVisible_marks : IsVisible comma ∧ IsVisible colon ∧ IsVisible openBracket ∧
    IsVisible closeBracket ∧ IsVisible openBrace ∧ IsVisible closeBrace := by
  unfold IsVisible
  decide

mutual

/-- No byte of a JSON text is a control character. -/
theorem isVisible_print (node : Node) : ∀ byte ∈ print node, IsVisible byte := by
  obtain ⟨-, isColon, isOpenBracket, isCloseBracket, isOpenBrace, isCloseBrace⟩ := isVisible_marks
  match node with
  | .null | .bytes _ | .extension | .brokenText | .illegible => exact isVisible_nullText
  | .boolean true => exact isVisible_ascii (by decide)
  | .boolean false => exact isVisible_ascii (by decide)
  | .integer _ number => exact isVisible_integerText number
  | .float number =>
      rw [print]
      split
      · rename_i characters isText
        exact isVisible_ascii (areVisible_jsonText? isText)
      · exact isVisible_nullText
  | .text content => exact isVisible_quoted content
  | .list [] =>
      exact isVisible_cons isOpenBracket (isVisible_cons isCloseBracket (by simp))
  | .list (item :: rest) =>
      exact isVisible_cons isOpenBracket
        (isVisible_append (isVisible_print item) (isVisible_printItems rest))
  | .map [] => exact isVisible_cons isOpenBrace (isVisible_cons isCloseBrace (by simp))
  | .map ((key, value) :: rest) =>
      exact isVisible_cons isOpenBrace (isVisible_append (isVisible_print key)
        (isVisible_cons isColon
          (isVisible_append (isVisible_print value) (isVisible_printEntries rest))))

theorem isVisible_printItems (items : List Node) : ∀ byte ∈ printItems items, IsVisible byte := by
  obtain ⟨isComma, -, -, isCloseBracket, -, -⟩ := isVisible_marks
  match items with
  | [] => exact isVisible_cons isCloseBracket (by simp)
  | item :: rest =>
      exact isVisible_cons isComma
        (isVisible_append (isVisible_print item) (isVisible_printItems rest))

theorem isVisible_printEntries (entries : List (Node × Node)) :
    ∀ byte ∈ printEntries entries, IsVisible byte := by
  obtain ⟨isComma, isColon, -, -, -, isCloseBrace⟩ := isVisible_marks
  match entries with
  | [] => exact isVisible_cons isCloseBrace (by simp)
  | (key, value) :: rest =>
      exact isVisible_cons isComma (isVisible_append (isVisible_print key)
        (isVisible_cons isColon
          (isVisible_append (isVisible_print value) (isVisible_printEntries rest))))

end

end GraphCheckpoint.Encoding.Json
