import GraphCheckpoint.Encoding.Json.Parser
import GraphCheckpoint.Proofs.Encoding.JsonNumber

/-!
Contract: JSON texts give back the tree that they were printed from.

Owns:
- texts, read back from what is written of them;
- `parse_print_withFloats`, which tree is read back from a plain one, however deep it is;
- `parse_print`, the round trip of every plain tree without floats.

Does not own: which trees documents have, how deep a reader goes, or what becomes of a float.
-/

namespace GraphCheckpoint.Encoding.Json

/-! ## Texts -/

private theorem scanText_control (state : TextState) (free : state.highSurrogate = none)
    {byte : UInt8} (control : byte < 0x20) (rest : Bytes) :
    scanText state
        (0x5c :: 0x75 :: 0x30 :: 0x30 :: hexDigit (byte / 16) :: hexDigit (byte % 16) :: rest) =
      scanText (state.push [byte]) rest := by
  have small : byte.toNat < 0x20 := control
  have hexadecimal : ∀ digit < 16, hexValue? (hexDigit digit.toUInt8) = some digit := by decide
  have upper : hexValue? (hexDigit (byte / 16)) = some (byte.toNat / 16) := by
    have isByte : byte / 16 = (byte.toNat / 16).toUInt8 := by
      rw [← UInt8.toNat_inj]
      simp
      omega
    rw [isByte, hexadecimal _ (by omega)]
  have lower : hexValue? (hexDigit (byte % 16)) = some (byte.toNat % 16) := by
    have isByte : byte % 16 = (byte.toNat % 16).toUInt8 := by
      rw [← UInt8.toNat_inj]
      simp
      omega
    rw [isByte, hexadecimal _ (by omega)]
  have zero : hexValue? 0x30 = some 0 := rfl
  have unit : ((0 * 16 + 0) * 16 + byte.toNat / 16) * 16 + byte.toNat % 16 = byte.toNat := by omega
  have encoded : String.utf8EncodeChar (Char.ofNat byte.toNat) = [byte] := by
    have decided : ∀ number < 0x20, String.utf8EncodeChar (Char.ofNat number) =
        [number.toUInt8] := by decide
    rw [decided _ small]
    simp
  rw [scanText, zero, upper, lower]
  simp only [unit]
  rw [TextState.pushUnit, free]
  simp only
  rw [if_neg (by omega), if_neg (by omega), encoded]

/-- A byte is read back from the form in which it stands between quotes. -/
theorem scanText_escape (state : TextState) (free : state.highSurrogate = none) (byte : UInt8)
    (rest : Bytes) :
    scanText state (escape byte ++ rest) = scanText (state.push [byte]) rest := by
  unfold escape
  split
  · rename_i isQuote
    subst isQuote
    simp [scanText, simpleEscape?, backslash, quote]
  · split
    · rename_i isBackslash
      subst isBackslash
      simp [scanText, simpleEscape?, backslash]
    · split
      · rename_i notQuote notBackslash visible
        have notControl : ¬ byte < 0x20 := UInt8.not_lt.mpr visible
        have plainByte : ¬ (byte = 0x5c ∨ byte < 0x20) := by
          rintro (isBackslash | isControl)
          · exact notBackslash isBackslash
          · exact notControl isControl
        rw [List.singleton_append, scanText, if_neg plainByte]
        · exact fun isQuote => notQuote isQuote
        · exact fun _ _ _ _ _ isBackslash _ => notBackslash isBackslash
        · exact fun _ _ isBackslash _ => notBackslash isBackslash
      · rename_i notVisible
        have control : byte < 0x20 := UInt8.not_le.mp notVisible
        split
        · rename_i isByte
          subst isByte
          simp [scanText, simpleEscape?, ascii]
        · split
          · rename_i isByte
            subst isByte
            simp [scanText, simpleEscape?, ascii]
          · split
            · rename_i isByte
              subst isByte
              simp [scanText, simpleEscape?, ascii]
            · split
              · rename_i isByte
                subst isByte
                simp [scanText, simpleEscape?, ascii]
              · split
                · rename_i isByte
                  subst isByte
                  simp [scanText, simpleEscape?, ascii]
                · exact scanText_control state free control rest

theorem scanText_flatMap_escape (bytes : Bytes) (state : TextState)
    (free : state.highSurrogate = none) (rest : Bytes) :
    scanText state (bytes.flatMap escape ++ quote :: rest) =
      some (TextState.finish { state with reversed := bytes.reverse ++ state.reversed }, rest) := by
  induction bytes generalizing state with
  | nil =>
      obtain ⟨reversed, highSurrogate, legible⟩ := state
      simp [scanText, quote]
  | cons byte others inductionHypothesis =>
      have pushed : state.push [byte] = { state with reversed := byte :: state.reversed } := by
        rw [TextState.push, free]
        rfl
      have further := inductionHypothesis { state with reversed := byte :: state.reversed } free
      rw [List.flatMap_cons, List.append_assoc, scanText_escape state free, pushed, further]
      simp

theorem scanText_quoted (content : String) (rest : Bytes) :
    ∃ tail, quoted content ++ rest = quote :: tail ∧
      scanText .start tail = some (.text content, rest) := by
  refine ⟨(bytesOfText content).flatMap escape ++ quote :: rest, by simp [quoted], ?_⟩
  rw [scanText_flatMap_escape _ .start rfl]
  simp [TextState.finish, TextState.start, textOfBytes?_bytesOfText]

/-! ## Trees -/

/-- A byte with which a value may begin. -/
private def Opens (byte : UInt8) : Prop := isBlank byte = false ∧ byte ≠ closeBracket

private theorem opens_of_number {byte : UInt8} (starts : byte = 0x2d ∨ isDigit byte = true) :
    Opens byte := by
  rcases starts with isMinus | digit
  · rw [isMinus]
    exact ⟨rfl, by decide⟩
  · constructor
    · have bounds : (0x30 : UInt8).toNat ≤ byte.toNat := by
        simp only [isDigit, Bool.and_eq_true, decide_eq_true_eq] at digit
        exact UInt8.le_iff_toNat_le.mp digit.1
      have differs : ∀ blank : UInt8, blank.toNat < 0x30 → byte ≠ blank := by
        intro blank small same
        rw [same] at bounds
        exact Nat.not_lt.mpr bounds small
      simp [isBlank, differs 0x20 (by decide), differs 0x09 (by decide), differs 0x0a (by decide),
        differs 0x0d (by decide)]
    · intro same
      rw [same] at digit
      cases digit

private theorem print_opens {format : Format} {node : Node} (plain : node.Plain format) :
    ∃ first tail, print node = first :: tail ∧ Opens first := by
  match node with
  | .null => exact ⟨_, _, rfl, rfl, by decide⟩
  | .boolean true => exact ⟨_, _, rfl, rfl, by decide⟩
  | .boolean false => exact ⟨_, _, rfl, rfl, by decide⟩
  | .integer _ number =>
      obtain ⟨first, tail, text, starts⟩ := (naturalText number.natAbs).signed_cons
        (decide (number < 0))
      exact ⟨first, tail, by rw [print, integerText_eq, text], opens_of_number starts⟩
  | .float number =>
      rw [print]
      split
      · rename_i characters isText
        obtain ⟨numberText, isSigned⟩ := jsonText_eq isText
        obtain ⟨first, tail, text, starts⟩ := numberText.signed_cons number.isNegative
        exact ⟨first, tail, by rw [isSigned, text], opens_of_number starts⟩
      · exact ⟨_, _, rfl, rfl, by decide⟩
  | .text _ => exact ⟨_, _, rfl, rfl, by decide⟩
  | .list [] => exact ⟨_, _, rfl, rfl, by decide⟩
  | .list (_ :: _) => exact ⟨_, _, rfl, rfl, by decide⟩
  | .map [] => exact ⟨_, _, rfl, rfl, by decide⟩
  | .map ((_, _) :: _) => exact ⟨_, _, rfl, rfl, by decide⟩
  | .bytes _ | .extension | .brokenText | .illegible => exact plain.elim

private theorem skipBlanks_cons {first : UInt8} (notBlank : isBlank first = false)
    (rest : Bytes) : skipBlanks (first :: rest) = first :: rest := by
  rw [skipBlanks, List.dropWhile_cons, notBlank]
  rfl

private theorem closing_printItems (items : List Node) (rest : Bytes) :
    Closing (printItems items ++ rest) := by
  cases items with
  | nil => exact closing_cons (Or.inr (Or.inl rfl))
  | cons _ _ => exact closing_cons (Or.inl rfl)

private theorem closing_printEntries (entries : List (Node × Node)) (rest : Bytes) :
    Closing (printEntries entries ++ rest) := by
  cases entries with
  | nil => exact closing_cons (Or.inr (Or.inr rfl))
  | cons entry others => exact closing_cons (Or.inl rfl)

private theorem length_printItems_pos (items : List Node) : 0 < (printItems items).length := by
  cases items <;> simp [printItems]

private theorem length_printEntries_pos (entries : List (Node × Node)) :
    0 < (printEntries entries).length := by
  cases entries with
  | nil => simp [printEntries]
  | cons entry others => simp [printEntries]

private theorem scanValue_text (steps : Nat) (content : String) (rest : Bytes) :
    scanValue (steps + 1) (quoted content ++ rest) = some (.text content, rest) := by
  obtain ⟨tail, isQuoted, scanned⟩ := scanText_quoted content rest
  rw [isQuoted, scanValue, skipBlanks_cons rfl]
  exact scanned

/-- Where a value begins as a number does, a number is read. -/
private theorem scanValue_number (steps : Nat) {first : UInt8}
    (starts : first = 0x2d ∨ isDigit first = true) (rest : Bytes) :
    scanValue (steps + 1) (first :: rest) = scanNumber (first :: rest) := by
  have differs : ∀ other : UInt8, other ≠ 0x2d → isDigit other = false → first ≠ other := by
    intro other notMinus notDigit same
    rcases starts with isMinus | digit
    · exact notMinus (same ▸ isMinus)
    · rw [same, notDigit] at digit
      cases digit
  rw [scanValue, skipBlanks_cons (opens_of_number starts).1]
  simp only
  rw [if_neg (differs 0x22 (by decide) rfl), if_neg (differs 0x7b (by decide) rfl),
    if_neg (differs 0x5b (by decide) rfl), if_neg (differs 0x6e (by decide) rfl),
    if_neg (differs 0x74 (by decide) rfl), if_neg (differs 0x66 (by decide) rfl)]

private theorem scanValue_numberText (steps : Nat) (text : NumberText) (negative : Bool)
    (rest : Bytes) :
    scanValue (steps + 1) (text.signed negative ++ rest) =
      scanNumber (text.signed negative ++ rest) := by
  obtain ⟨first, tail, isBytes, starts⟩ := text.signed_cons negative
  rw [isBytes, List.cons_append, scanValue_number steps starts]

private theorem scanValue_float (steps : Nat) (number : Binary64) {rest : Bytes}
    (closing : Closing rest) :
    scanValue (steps + 1) (print (.float number) ++ rest) = some (rereadFloat number, rest) := by
  rw [print]
  split
  · rename_i characters isText
    obtain ⟨text, isSigned⟩ := jsonText_eq isText
    have scanned := scanNumber_jsonText isText closing
    rw [isSigned] at scanned ⊢
    rw [scanValue_numberText, scanned]
  · rename_i noText
    rw [rereadFloat, noText]
    rfl

mutual

/-- A plain tree is read back from its text up to its floats, whatever closes behind it. -/
theorem scanValue_print {format : Format} (node : Node) (steps : Nat) (rest : Bytes)
    (plain : node.Plain format) (enough : (print node).length ≤ steps) (closing : Closing rest) :
    scanValue steps (print node ++ rest) = some (node.withFloats rereadFloat, rest) := by
  match steps with
  | 0 =>
      obtain ⟨first, tail, text, -⟩ := print_opens plain
      rw [text] at enough
      cases enough
  | steps + 1 =>
      match node with
      | .null => rfl
      | .boolean true => rfl
      | .boolean false => rfl
      | .integer form number =>
          obtain ⟨shortest, least, greatest⟩ := plain
          have scanned := scanNumber_integerText least greatest closing
          rw [integerText_eq] at scanned
          rw [print, integerText_eq, scanValue_numberText, scanned, Node.ofInt, shortest]
          rfl
      | .float number => exact scanValue_float steps number closing
      | .text content => exact scanValue_text steps content rest
      | .list [] => rfl
      | .list (item :: others) =>
          obtain ⟨first, tail, text, notBlank, notClosed⟩ := print_opens plain.1
          have scanned := scanItems_print item others steps rest plain.1 plain.2
            (by simpa [print] using enough)
          rw [print, List.cons_append, List.append_assoc, scanValue, skipBlanks_cons rfl]
          rw [text, List.cons_append] at scanned ⊢
          simp only [skipBlanks_cons notBlank]
          rw [if_neg (by decide), if_neg (by decide), if_pos (by rfl)]
          split
          · rename_i same
            exact absurd (List.cons.inj same).1 notClosed
          · simp [scanned, Node.withFloats]
      | .map [] => rfl
      | .map ((key, value) :: others) =>
          obtain ⟨⟨content, isText⟩, valuePlain, othersPlain⟩ := plain
          subst isText
          rw [print, List.length_cons, List.length_append, List.length_cons, List.length_append,
            print] at enough
          have scanned := scanEntries_print content value others steps rest valuePlain othersPlain
            (by omega)
          obtain ⟨tail, isQuoted, -⟩ := scanText_quoted content
            (colon :: (print value ++ (printEntries others ++ rest)))
          rw [print, List.cons_append, print, List.append_assoc, List.cons_append,
            List.append_assoc, scanValue, skipBlanks_cons rfl]
          rw [isQuoted] at scanned ⊢
          simp only [skipBlanks_cons (show isBlank quote = false from rfl)]
          rw [if_neg (by decide), if_pos (by rfl)]
          change (do
            let (entries, rest) ← scanEntries steps (quote :: tail)
            some (Node.map entries, rest)) = _
          rw [scanned]
          rfl
      | .bytes _ | .extension | .brokenText | .illegible => exact plain.elim

theorem scanItems_print {format : Format} (item : Node) (others : List Node) (steps : Nat)
    (rest : Bytes) (plain : item.Plain format) (othersPlain : Node.PlainItems format others)
    (enough : (print item).length + (printItems others).length ≤ steps) :
    scanItems steps (print item ++ (printItems others ++ rest)) =
      some (Node.withFloatsItems rereadFloat (item :: others), rest) := by
  have positive := length_printItems_pos others
  match steps with
  | 0 => omega
  | steps + 1 =>
      have scanned := scanValue_print item steps (printItems others ++ rest) plain (by omega)
        (closing_printItems others rest)
      match others with
      | [] =>
          rw [scanItems, scanned]
          rfl
      | next :: further =>
          rw [printItems, List.length_cons, List.length_append] at enough
          have scannedOthers := scanItems_print next further steps rest othersPlain.1 othersPlain.2
            (by omega)
          rw [scanItems, scanned]
          rw [printItems, List.cons_append, List.append_assoc]
          change (do
            let (others, rest) ← scanItems steps
              (print next ++ (printItems further ++ rest))
            some (item.withFloats rereadFloat :: others, rest)) = _
          rw [scannedOthers]
          rfl

theorem scanEntries_print {format : Format} (content : String) (value : Node)
    (others : List (Node × Node)) (steps : Nat) (rest : Bytes) (plain : value.Plain format)
    (othersPlain : Node.PlainEntries format others)
    (enough : (quoted content).length + (print value).length + 1 + (printEntries others).length ≤
      steps) :
    scanEntries steps
        (quoted content ++ colon :: (print value ++ (printEntries others ++ rest))) =
      some (Node.withFloatsEntries rereadFloat ((.text content, value) :: others), rest) := by
  have positive := length_printEntries_pos others
  match steps with
  | 0 => omega
  | steps + 1 =>
      have scanned := scanValue_print value steps (printEntries others ++ rest) plain (by omega)
        (closing_printEntries others rest)
      obtain ⟨tail, isQuoted, text⟩ := scanText_quoted content
        (colon :: (print value ++ (printEntries others ++ rest)))
      rw [isQuoted, scanEntries, skipBlanks_cons rfl]
      change (do
        let (key, rest) ← scanText .start tail
        match skipBlanks rest with
        | 0x3a :: rest =>
            let (value, rest) ← scanValue steps rest
            match skipBlanks rest with
            | 0x2c :: rest =>
                let (others, rest) ← scanEntries steps rest
                some ((key, value) :: others, rest)
            | 0x7d :: rest => some ([(key, value)], rest)
            | _ => none
        | _ => none) = _
      rw [text]
      change (do
        let (value, rest) ← scanValue steps (print value ++ (printEntries others ++ rest))
        match skipBlanks rest with
        | 0x2c :: rest =>
            let (others, rest) ← scanEntries steps rest
            some ((Node.text content, value) :: others, rest)
        | 0x7d :: rest => some ([(Node.text content, value)], rest)
        | _ => none) = _
      rw [scanned]
      match others with
      | [] => rfl
      | (nextKey, next) :: further =>
          obtain ⟨⟨nextContent, isText⟩, nextPlain, furtherPlain⟩ := othersPlain
          subst isText
          rw [printEntries, List.length_cons, List.length_append, List.length_cons,
            List.length_append, print] at enough
          have scannedOthers := scanEntries_print nextContent next further steps rest nextPlain
            furtherPlain (by omega)
          rw [printEntries, List.cons_append, print, List.append_assoc, List.cons_append,
            List.append_assoc]
          change (do
            let (others, rest) ← scanEntries steps (quoted nextContent ++
              colon :: (print next ++ (printEntries further ++ rest)))
            some ((Node.text content, value.withFloats rereadFloat) :: others, rest)) = _
          rw [scannedOthers]
          rfl

end

/-- A plain tree is read back from its text up to its floats. -/
theorem parse_print_withFloats {format : Format} {node : Node} (plain : node.Plain format) :
    parse (print node) = some (node.withFloats rereadFloat) := by
  have scanned := scanValue_print node (2 * (print node).length + 2) [] plain (by omega) closing_nil
  rw [List.append_nil] at scanned
  rw [parse, scanned]
  rfl

/-- A plain tree without floats is read back from its text. -/
theorem parse_print {node : Node} (plain : node.Plain .json) : parse (print node) = some node := by
  have noFloats : ∀ number ∈ node.floats, rereadFloat number = .float number := by
    rw [Node.floats_of_plain node plain]
    exact nofun
  rw [parse_print_withFloats plain, Node.withFloats_of_floats node noFloats]

end GraphCheckpoint.Encoding.Json
