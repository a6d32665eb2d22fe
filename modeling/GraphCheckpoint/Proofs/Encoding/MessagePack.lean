import Mathlib.Algebra.Group.Nat.Defs
import GraphCheckpoint.Encoding.MessagePack.Parser
import GraphCheckpoint.Encoding.MessagePack.Printer
import GraphCheckpoint.Proofs.Encoding.Node

/-!
Contract: MessagePack bytes give back the tree that they were printed from.

Owns:
- words and headers, and what a reader makes of each;
- `scanValue_print`, the round trip of every expressible tree, whatever follows its bytes, and its
  refusal where the tree is nested too deeply;
- trees whose bytes are few enough have lengths that are small enough, and so has every tree that is
  read.

Does not own: which trees documents have.
-/

namespace GraphCheckpoint.Encoding.MessagePack

/-! ## Words -/

theorem takeBytes_append (bytes rest : Bytes) :
    takeBytes bytes.length (bytes ++ rest) = some (bytes, rest) := by
  simp [takeBytes, List.splitAt_eq]

theorem length_word (width value : Nat) : (word width value).length = width := by
  induction width with
  | zero => rfl
  | succ width inductionHypothesis => rw [word, List.length_cons, inductionHypothesis]

private theorem foldl_word (width value start : Nat) :
    (word width value).foldl (fun total byte => total * 256 + byte.toNat) start =
      start * 256 ^ width + value % 256 ^ width := by
  induction width generalizing start with
  | zero => simp [word, Nat.mod_one]
  | succ width inductionHypothesis =>
      have digit : (value / 256 ^ width % 256).toUInt8.toNat = value / 256 ^ width % 256 := by
        simp
      have power : Nat.pow 256 width = 256 ^ width := rfl
      rw [word, List.foldl_cons, inductionHypothesis, power, digit, Nat.pow_succ, Nat.mod_mul,
        Nat.add_mul, Nat.mul_assoc, Nat.mul_comm 256, Nat.mul_comm (value / 256 ^ width % 256)]
      omega

theorem takeWord_word {width value : Nat} (fits : value < 256 ^ width) (rest : Bytes) :
    takeWord width (word width value ++ rest) = some (value, rest) := by
  have taken := takeBytes_append (word width value) rest
  rw [length_word] at taken
  have isValue : valueOf (word width value) = value := by
    rw [valueOf, foldl_word, Nat.zero_mul, Nat.zero_add, Nat.mod_eq_of_lt fits]
  rw [takeWord, taken]
  simp [isValue]

theorem scanUnsigned_word {width value : Nat} (fits : value < 256 ^ width) (rest : Bytes) :
    scanUnsigned width (word width value ++ rest) =
      some (.integer (.unsigned width) value, rest) := by
  rw [scanUnsigned, takeWord_word fits]
  rfl

theorem withLength_word {α : Type} {width length : Nat} (fits : length < 256 ^ width)
    (scan : Nat → Bytes → Option α) (rest : Bytes) :
    withLength width scan (word width length ++ rest) = scan length rest := by
  rw [withLength, takeWord_word fits]
  rfl

/-! ## First bytes

A reader looks at the first byte only to choose what to read, so that a leaf is read in the same
way whatever may be opened inside it. -/

section FirstBytes

variable (inner : Option (Bytes → Option (Node × Bytes))) (rest : Bytes)

/-- The first bytes that hold their number, their length or their sign themselves. -/
theorem scanAfter_short (first : UInt8) (short : first.toNat < 0xc0 ∨ 0xe0 ≤ first.toNat) :
    scanAfter inner first rest =
      if first.toNat < 0x80 then some (.integer (.unsigned 1) first.toNat, rest)
      else if first.toNat < 0x90 then scanMap inner (first.toNat - 0x80) rest
      else if first.toNat < 0xa0 then scanList inner (first.toNat - 0x90) rest
      else if first.toNat < 0xc0 then scanText (first.toNat - 0xa0) rest
      else some (.integer .signed (first.toNat - 256 : Int), rest) := by
  have difference : ∀ base : UInt8, base.toNat ≤ first.toNat →
      (first - base).toNat = first.toNat - base.toNat := fun base below =>
    UInt8.toNat_sub_of_le first base (UInt8.le_iff_toNat_le.mpr below)
  have eighty : (0x80 : UInt8).toNat = 0x80 := rfl
  have ninety : (0x90 : UInt8).toNat = 0x90 := rfl
  have hundred : (0xa0 : UInt8).toNat = 0xa0 := rfl
  have large : (0xc0 : UInt8).toNat = 0xc0 := rfl
  have signed : (0xe0 : UInt8).toNat = 0xe0 := rfl
  unfold scanAfter
  simp only [UInt8.lt_iff_toNat_lt, UInt8.le_iff_toNat_le, eighty, ninety, hundred, large, signed]
  split
  · rfl
  · split
    · rw [difference _ (by omega), eighty]
    · split
      · rw [difference _ (by omega), ninety]
      · split
        · rw [difference _ (by omega), hundred]
        · rw [if_pos (by omega)]

private theorem toNat_toUInt8 {number : Nat} (small : number < 0x100) :
    number.toUInt8.toNat = number := by
  simp
  omega

private theorem toNat_shortHeader {base length : Nat} (small : base + length < 0x100) :
    (base.toUInt8 + length.toUInt8).toNat = base + length := by
  simp
  omega

theorem scanAfter_smallNumber {number : Nat} (small : number < 0x80) :
    scanAfter inner number.toUInt8 rest = some (.integer (.unsigned 1) number, rest) := by
  have isByte : number.toUInt8.toNat = number := toNat_toUInt8 (by omega)
  rw [scanAfter_short inner rest _ (by omega), if_pos (by omega), isByte]

theorem scanAfter_smallNegative {size : Nat} (positive : 0 < size) (small : size ≤ 0x20) :
    scanAfter inner (0x100 - size).toUInt8 rest = some (.integer .signed (-size : Int), rest) := by
  have isByte : (0x100 - size).toUInt8.toNat = 0x100 - size := toNat_toUInt8 (by omega)
  rw [scanAfter_short inner rest _ (by omega), if_neg (by omega), if_neg (by omega),
    if_neg (by omega), if_neg (by omega), isByte]
  have number : ((0x100 - size : Nat) : Int) - 256 = -size := by omega
  rw [number]

theorem scanAfter_shortMap {length : Nat} (small : length < 0x10) :
    scanAfter inner (0x80 + length.toUInt8) rest = scanMap inner length rest := by
  have isByte : ((0x80 : UInt8) + length.toUInt8).toNat = 0x80 + length :=
    @toNat_shortHeader 0x80 length (by omega)
  rw [scanAfter_short inner rest _ (by omega), if_neg (by omega), if_pos (by omega), isByte,
    Nat.add_sub_cancel_left]

theorem scanAfter_shortList {length : Nat} (small : length < 0x10) :
    scanAfter inner (0x90 + length.toUInt8) rest = scanList inner length rest := by
  have isByte : ((0x90 : UInt8) + length.toUInt8).toNat = 0x90 + length :=
    @toNat_shortHeader 0x90 length (by omega)
  rw [scanAfter_short inner rest _ (by omega), if_neg (by omega), if_neg (by omega),
    if_pos (by omega), isByte, Nat.add_sub_cancel_left]

theorem scanAfter_shortText {length : Nat} (small : length < 0x20) :
    scanAfter inner (0xa0 + length.toUInt8) rest = scanText length rest := by
  have isByte : ((0xa0 : UInt8) + length.toUInt8).toNat = 0xa0 + length :=
    @toNat_shortHeader 0xa0 length (by omega)
  rw [scanAfter_short inner rest _ (by omega), if_neg (by omega), if_neg (by omega),
    if_neg (by omega), if_pos (by omega), isByte, Nat.add_sub_cancel_left]

end FirstBytes

/-! ## Leaves and headers -/

/-- The reader of what stands inside a container, where one may be opened. -/
private def opened : Nat → Option (Bytes → Option (Node × Bytes))
  | 0 => none
  | limit + 1 => some (scanValue limit)

private theorem scanValue_cons (limit : Nat) (first : UInt8) (rest : Bytes) :
    scanValue limit (first :: rest) = scanAfter (opened limit) first rest := by
  cases limit <;> rfl

theorem scanSigned_word {width half size : Nat} (powers : 256 ^ width = 2 * half)
    (lower : Nat.pow 2 (8 * width - 1) = half) (whole : Nat.pow 2 (8 * width) = 2 * half)
    (positive : 0 < size) (small : size ≤ half) (rest : Bytes) :
    scanSigned width (word width (2 * half - size) ++ rest) =
      some (.integer .signed (-size : Int), rest) := by
  have isSigned : signedOf width (2 * half - size) = -size := by
    rw [signedOf, lower, whole, if_neg (by omega)]
    omega
  rw [scanSigned, takeWord_word (by omega), Option.map_some]
  exact congrArg (fun number => some (Node.integer .signed number, rest)) isSigned

theorem scanValue_printUnsigned (limit : Nat) {number : Nat} (small : number < 0x10000000000000000)
    (rest : Bytes) :
    scanValue limit (printUnsigned number ++ rest) = some (.ofInt number, rest) := by
  rw [Node.ofInt, IntegerForm.shortest_natural, printUnsigned]
  by_cases tiny : number < 0x80
  · rw [if_pos tiny, if_pos (Nat.lt_trans tiny (by decide)), List.singleton_append, scanValue_cons,
      scanAfter_smallNumber _ _ tiny]
  · rw [if_neg tiny]
    by_cases one : number < 0x100
    · rw [if_pos one, if_pos one, List.cons_append, scanValue_cons]
      exact scanUnsigned_word one rest
    · rw [if_neg one, if_neg one]
      by_cases two : number < 0x10000
      · rw [if_pos two, if_pos two, List.cons_append, scanValue_cons]
        exact scanUnsigned_word two rest
      · rw [if_neg two, if_neg two]
        by_cases four : number < 0x100000000
        · rw [if_pos four, if_pos four, List.cons_append, scanValue_cons]
          exact scanUnsigned_word four rest
        · rw [if_neg four, if_neg four, List.cons_append, scanValue_cons]
          exact scanUnsigned_word small rest

theorem scanValue_printNegative (limit : Nat) {size : Nat} (positive : 0 < size)
    (small : size ≤ 0x8000000000000000) (rest : Bytes) :
    scanValue limit (printNegative size ++ rest) = some (.ofInt (-size : Int), rest) := by
  have negative : (-size : Int) < 0 := by omega
  unfold printNegative Node.ofInt IntegerForm.shortest
  rw [if_pos negative]
  split
  · rw [List.singleton_append, scanValue_cons, scanAfter_smallNegative _ _ positive ‹_›]
  · split
    · rw [List.cons_append, scanValue_cons]
      exact @scanSigned_word 1 0x80 size rfl rfl rfl positive (by omega) rest
    · split
      · rw [List.cons_append, scanValue_cons]
        exact @scanSigned_word 2 0x8000 size rfl rfl rfl positive (by omega) rest
      · split
        · rw [List.cons_append, scanValue_cons]
          exact @scanSigned_word 4 0x80000000 size rfl rfl rfl positive (by omega) rest
        · rw [List.cons_append, scanValue_cons]
          exact @scanSigned_word 8 0x8000000000000000 size rfl rfl rfl positive (by omega) rest

theorem scanValue_printInteger (limit : Nat) {number : Int} (least : -0x8000000000000000 ≤ number)
    (greatest : number < 0x10000000000000000) (rest : Bytes) :
    scanValue limit (printInteger number ++ rest) = some (.ofInt number, rest) := by
  rw [printInteger]
  split
  · have size : (-(number.natAbs : Int)) = number := by omega
    rw [scanValue_printNegative limit (by omega) (by omega), size]
  · have size : (number.natAbs : Int) = number := by omega
    rw [scanValue_printUnsigned limit (by omega), size]

theorem scanValue_textHeader (limit : Nat) {length : Nat} (fits : length < 0x100000000)
    (rest : Bytes) : scanValue limit (textHeader length ++ rest) = scanText length rest := by
  unfold textHeader
  split
  · rw [List.singleton_append, scanValue_cons, scanAfter_shortText _ _ ‹_›]
  · split
    · rw [List.cons_append, scanValue_cons]
      exact withLength_word (by omega) scanText rest
    · split
      · rw [List.cons_append, scanValue_cons]
        exact withLength_word (by omega) scanText rest
      · rw [List.cons_append, scanValue_cons]
        exact withLength_word (by omega) scanText rest

private theorem scanValue_bytesHeader (limit : Nat) {length : Nat} (fits : length < 0x100000000)
    (rest : Bytes) : scanValue limit (bytesHeader length ++ rest) = scanBytes length rest := by
  unfold bytesHeader
  split
  · rw [List.cons_append, scanValue_cons]
    exact withLength_word (by omega) scanBytes rest
  · split
    · rw [List.cons_append, scanValue_cons]
      exact withLength_word (by omega) scanBytes rest
    · rw [List.cons_append, scanValue_cons]
      exact withLength_word (by omega) scanBytes rest

private theorem scanValue_listHeader (limit : Nat) {length : Nat} (fits : length < 0x100000000)
    (rest : Bytes) :
    scanValue limit (listHeader length ++ rest) = scanList (opened limit) length rest := by
  unfold listHeader
  split
  · rw [List.singleton_append, scanValue_cons, scanAfter_shortList _ _ ‹_›]
  · split
    · rw [List.cons_append, scanValue_cons]
      exact withLength_word (by omega) (scanList (opened limit)) rest
    · rw [List.cons_append, scanValue_cons]
      exact withLength_word (by omega) (scanList (opened limit)) rest

private theorem scanValue_mapHeader (limit : Nat) {length : Nat} (fits : length < 0x100000000)
    (rest : Bytes) :
    scanValue limit (mapHeader length ++ rest) = scanMap (opened limit) length rest := by
  unfold mapHeader
  split
  · rw [List.singleton_append, scanValue_cons, scanAfter_shortMap _ _ ‹_›]
  · split
    · rw [List.cons_append, scanValue_cons]
      exact withLength_word (by omega) (scanMap (opened limit)) rest
    · rw [List.cons_append, scanValue_cons]
      exact withLength_word (by omega) (scanMap (opened limit)) rest

theorem scanText_bytesOfText (content : String) (rest : Bytes) :
    scanText (bytesOfText content).length (bytesOfText content ++ rest) =
      some (.text content, rest) := by
  rw [scanText, takeBytes_append]
  simp [textOfBytes?_bytesOfText]

/-! ## Trees -/

mutual

/-- A tree is read back from its bytes, whatever follows them, exactly where no more containers nest
in it than may be opened. -/
theorem scanValue_print (node : Node) (limit : Nat) (rest : Bytes) (isExact : node.Exact) :
    scanValue limit (print node ++ rest) =
      if node.legible limit then some (node, rest) else none := by
  match node with
  | .null => exact scanValue_cons limit 0xc0 rest
  | .boolean false => exact scanValue_cons limit 0xc2 rest
  | .boolean true => exact scanValue_cons limit 0xc3 rest
  | .integer form number =>
      obtain ⟨shortest, least, greatest⟩ := isExact
      rw [print, scanValue_printInteger limit least greatest, Node.ofInt, shortest]
      rfl
  | .float number =>
      have isWord : takeWord 8 (word 8 number.bits.toNat ++ rest) =
          some (number.bits.toNat, rest) :=
        takeWord_word number.bits.toNat_lt rest
      rw [print, List.cons_append, scanValue_cons]
      change (takeWord 8 _).map _ = _
      rw [isWord]
      simp [Node.legible]
  | .text content =>
      rw [print, List.append_assoc, scanValue_textHeader limit isExact, scanText_bytesOfText]
      rfl
  | .bytes content =>
      rw [print, List.append_assoc, scanValue_bytesHeader limit isExact, scanBytes, takeBytes_append]
      rfl
  | .list items =>
      rw [print, List.append_assoc, scanValue_listHeader _ isExact.1, scanList]
      match limit with
      | 0 => rfl
      | inner + 1 =>
          have scanned := scanItems_print items inner rest isExact.2
          by_cases legible : Node.legibleItems inner items = true <;>
            simp [opened, scanned, Node.legible, legible]
  | .map entries =>
      rw [print, List.append_assoc, scanValue_mapHeader _ isExact.1, scanMap]
      match limit with
      | 0 => rfl
      | inner + 1 =>
          have scanned := scanEntries_print entries inner rest isExact.2
          by_cases legible : Node.legibleEntries inner entries = true <;>
            simp [opened, scanned, Node.legible, legible]
  | .extension | .brokenText | .illegible => exact isExact.elim

theorem scanItems_print (items : List Node) (limit : Nat) (rest : Bytes)
    (isExact : Node.ExactItems items) :
    scanMany (scanValue limit) items.length (printItems items ++ rest) =
      if Node.legibleItems limit items then some (items, rest) else none := by
  match items with
  | [] => rfl
  | item :: others =>
      have scannedOthers := scanItems_print others limit rest isExact.2
      rw [printItems, List.append_assoc, List.length_cons, scanMany,
        scanValue_print item limit _ isExact.1, Node.legibleItems]
      by_cases legible : item.legible limit = true
      · by_cases othersLegible : Node.legibleItems limit others = true <;>
          simp [legible, scannedOthers, othersLegible]
      · simp [legible]

theorem scanEntries_print (entries : List (Node × Node)) (limit : Nat) (rest : Bytes)
    (isExact : Node.ExactEntries entries) :
    scanMany (scanEntry (scanValue limit)) entries.length (printEntries entries ++ rest) =
      if Node.legibleEntries limit entries then some (entries, rest) else none := by
  match entries with
  | [] => rfl
  | (key, value) :: others =>
      obtain ⟨keyExact, valueExact, othersExact⟩ := isExact
      have scannedOthers := scanEntries_print others limit rest othersExact
      rw [printEntries, List.append_assoc, List.append_assoc, List.length_cons, scanMany,
        scanEntry, scanValue_print key limit _ keyExact, Node.legibleEntries]
      by_cases keyLegible : key.legible limit = true
      · have scanned := scanValue_print value limit (printEntries others ++ rest) valueExact
        by_cases legible : value.legible limit = true
        · by_cases othersLegible : Node.legibleEntries limit others = true <;>
            simp [keyLegible, scanned, legible, scannedOthers, othersLegible]
        · simp [keyLegible, scanned, legible]
      · simp [keyLegible]

end

theorem parse_print {node : Node} (isExact : node.Exact) :
    parse (print node) = if node.legible nestingBound then some node else none := by
  have scanned := scanValue_print node nestingBound [] isExact
  rw [List.append_nil] at scanned
  rw [parse, scanned]
  split <;> rfl

/-! ## Lengths

Every item takes a byte, so a tree with a length that has no form takes more bytes than a length in
four bytes can count. -/

theorem length_print_pos (node : Node) : 0 < (print node).length := by
  match node with
  | .null | .extension | .brokenText | .illegible | .boolean false | .boolean true => decide
  | .float _ => simp [print]
  | .integer _ number =>
      rw [print]
      unfold printInteger printNegative printUnsigned
      repeat' split
      all_goals simp
  | .text _ =>
      rw [print]
      unfold textHeader
      repeat' split
      all_goals simp
  | .bytes _ =>
      rw [print]
      unfold bytesHeader
      repeat' split
      all_goals simp
  | .list _ =>
      rw [print]
      unfold listHeader
      repeat' split
      all_goals simp
  | .map _ =>
      rw [print]
      unfold mapHeader
      repeat' split
      all_goals simp

theorem length_le_printItems (items : List Node) : items.length ≤ (printItems items).length := by
  induction items with
  | nil => exact Nat.le_refl _
  | cons item rest inductionHypothesis =>
      have positive := length_print_pos item
      rw [printItems, List.length_append, List.length_cons]
      omega

theorem length_le_printEntries (entries : List (Node × Node)) :
    entries.length ≤ (printEntries entries).length := by
  induction entries with
  | nil => exact Nat.le_refl _
  | cons entry rest inductionHypothesis =>
      have positive := length_print_pos entry.1
      rw [printEntries, List.length_append, List.length_append, List.length_cons]
      omega

mutual

theorem fits_of_length_print (node : Node) (short : (print node).length < Node.lengthBound) :
    node.Fits := by
  match node with
  | .text content =>
      rw [print, List.length_append] at short
      rw [Node.Fits]
      omega
  | .list items =>
      have many := length_le_printItems items
      rw [print, List.length_append] at short
      exact ⟨by omega, fitsItems_of_length_print items (by omega)⟩
  | .map entries =>
      have many := length_le_printEntries entries
      rw [print, List.length_append] at short
      exact ⟨by omega, fitsEntries_of_length_print entries (by omega)⟩
  | .null | .boolean _ | .integer _ _ | .float _ | .bytes _ => trivial
  | .extension | .brokenText | .illegible => trivial

theorem fitsItems_of_length_print (items : List Node)
    (short : (printItems items).length < Node.lengthBound) : Node.FitsItems items := by
  match items with
  | [] => trivial
  | item :: rest =>
      rw [printItems, List.length_append] at short
      exact ⟨fits_of_length_print item (by omega), fitsItems_of_length_print rest (by omega)⟩

theorem fitsEntries_of_length_print (entries : List (Node × Node))
    (short : (printEntries entries).length < Node.lengthBound) : Node.FitsEntries entries := by
  match entries with
  | [] => trivial
  | (key, value) :: rest =>
      rw [printEntries, List.length_append, List.length_append] at short
      exact ⟨fits_of_length_print key (by omega), fits_of_length_print value (by omega),
        fitsEntries_of_length_print rest (by omega)⟩

end

/-! ## What is read is sized

A length stands in four bytes at most, and what it counts has just this length. -/

theorem length_of_takeBytes {count : Nat} {input taken rest : Bytes}
    (isTaken : takeBytes count input = some (taken, rest)) : taken.length = count := by
  unfold takeBytes at isTaken
  simp only at isTaken
  split at isTaken
  · rename_i isCount
    cases isTaken
    exact isCount
  · cases isTaken

theorem valueOf_lt (bytes : Bytes) : valueOf bytes < 256 ^ bytes.length := by
  have grows : ∀ (bytes : Bytes) (start : Nat),
      bytes.foldl (fun total byte => total * 256 + byte.toNat) start <
        (start + 1) * 256 ^ bytes.length := by
    intro bytes
    induction bytes with
    | nil => simp
    | cons byte rest inductionHypothesis =>
        intro start
        have small := byte.toNat_lt
        have later := inductionHypothesis (start * 256 + byte.toNat)
        rw [List.foldl_cons, List.length_cons, Nat.pow_succ', ← Nat.mul_assoc]
        refine Nat.lt_of_lt_of_le later (Nat.mul_le_mul_right _ ?_)
        omega
  simpa [valueOf] using grows bytes 0

theorem takeWord_lt {width value : Nat} {input rest : Bytes}
    (isTaken : takeWord width input = some (value, rest)) : value < 256 ^ width := by
  simp only [takeWord, Option.bind_eq_bind, Option.bind_eq_some_iff] at isTaken
  obtain ⟨⟨bytes, tail⟩, areBytes, isValue⟩ := isTaken
  cases isValue
  rw [← length_of_takeBytes areBytes]
  exact valueOf_lt bytes

theorem sized_of_scanText {length : Nat} (small : length < Node.lengthBound) {input rest : Bytes}
    {node : Node} (scanned : scanText length input = some (node, rest)) : node.Sized := by
  simp only [scanText, Option.bind_eq_bind, Option.bind_eq_some_iff] at scanned
  obtain ⟨⟨bytes, tail⟩, areBytes, isNode⟩ := scanned
  split at isNode
  · rename_i content isText
    cases isNode
    rw [Node.Sized, bytesOfText_of_textOfBytes? isText, length_of_takeBytes areBytes]
    exact small
  · cases isNode
    trivial

theorem sized_of_scanBytes {length : Nat} (small : length < Node.lengthBound) {input rest : Bytes}
    {node : Node} (scanned : scanBytes length input = some (node, rest)) : node.Sized := by
  obtain ⟨⟨bytes, tail⟩, areBytes, isNode⟩ := Option.map_eq_some_iff.mp scanned
  cases isNode
  rw [Node.Sized, length_of_takeBytes areBytes]
  exact small

theorem scanMany_spec {α : Type} {scan : Bytes → Option (α × Bytes)} {property : α → Prop}
    (each : ∀ input item rest, scan input = some (item, rest) → property item) {count : Nat}
    {input rest : Bytes} {items : List α} (scanned : scanMany scan count input = some (items, rest)) :
    items.length = count ∧ ∀ item ∈ items, property item := by
  induction count generalizing input items with
  | zero =>
      cases scanned
      simp
  | succ count inductionHypothesis =>
      simp only [scanMany, Option.bind_eq_bind, Option.bind_eq_some_iff] at scanned
      obtain ⟨⟨item, between⟩, isItem, ⟨others, tail⟩, areOthers, isResult⟩ := scanned
      cases isResult
      obtain ⟨counted, othersHold⟩ := inductionHypothesis areOthers
      refine ⟨by rw [List.length_cons, counted], fun other member => ?_⟩
      rcases List.mem_cons.mp member with rfl | later
      · exact each input other between isItem
      · exact othersHold other later

private theorem small_byte (byte : UInt8) : byte.toNat < Node.lengthBound :=
  Nat.lt_of_lt_of_le byte.toNat_lt (by decide)

section Inner

variable {inner : Option (Bytes → Option (Node × Bytes))}
  (innerSized : ∀ scan ∈ inner, ∀ input node rest, scan input = some (node, rest) → node.Sized)
  {node : Node} {input rest : Bytes}

include innerSized

theorem sized_of_scanList {length : Nat} (small : length < Node.lengthBound)
    (scanned : scanList inner length input = some (node, rest)) : node.Sized := by
  simp only [scanList, Option.bind_eq_bind, Option.bind_eq_some_iff] at scanned
  obtain ⟨scan, isScan, ⟨items, tail⟩, areItems, isNode⟩ := scanned
  cases isNode
  obtain ⟨counted, sized⟩ := scanMany_spec (innerSized scan isScan) areItems
  refine ⟨?_, Node.sizedItems_iff.mpr sized⟩
  rw [counted]
  exact small

theorem sized_of_scanMap {length : Nat} (small : length < Node.lengthBound)
    (scanned : scanMap inner length input = some (node, rest)) : node.Sized := by
  simp only [scanMap, Option.bind_eq_bind, Option.bind_eq_some_iff] at scanned
  obtain ⟨scan, isScan, ⟨entries, tail⟩, areEntries, isNode⟩ := scanned
  cases isNode
  have entrySized : ∀ input (entry : Node × Node) rest,
      scanEntry scan input = some (entry, rest) → entry.1.Sized ∧ entry.2.Sized := by
    intro input entry rest isEntry
    simp only [scanEntry, Option.bind_eq_bind, Option.bind_eq_some_iff] at isEntry
    obtain ⟨⟨key, between⟩, isKey, ⟨value, tail⟩, isValue, isResult⟩ := isEntry
    cases isResult
    exact ⟨innerSized scan isScan _ _ _ isKey, innerSized scan isScan _ _ _ isValue⟩
  obtain ⟨counted, sized⟩ := scanMany_spec entrySized areEntries
  refine ⟨?_, Node.sizedEntries_iff.mpr sized⟩
  rw [counted]
  exact small

omit innerSized in
theorem sized_of_withLength {width : Nat} (narrow : width ≤ 4)
    {scan : Nat → Bytes → Option (Node × Bytes)}
    (each : ∀ length < Node.lengthBound, ∀ input node rest,
      scan length input = some (node, rest) → node.Sized)
    (scanned : withLength width scan input = some (node, rest)) : node.Sized := by
  simp only [withLength, Option.bind_eq_bind, Option.bind_eq_some_iff] at scanned
  obtain ⟨⟨length, tail⟩, isLength, isNode⟩ := scanned
  have small : length < Node.lengthBound := Nat.lt_of_lt_of_le (takeWord_lt isLength)
    (Nat.pow_le_pow_right (by decide) narrow)
  exact each length small tail node rest isNode

omit innerSized in
/-- Extensions and numbers have no lengths. -/
private theorem sized_of_map {α : Type} {outcome : Option α} {leaf : α → Node × Bytes}
    (isLeaf : ∀ part, (leaf part).1.Sized) (scanned : outcome.map leaf = some (node, rest)) :
    node.Sized := by
  obtain ⟨part, -, isNode⟩ := Option.map_eq_some_iff.mp scanned
  have sized := isLeaf part
  rw [isNode] at sized
  exact sized

theorem sized_of_scanAfter {first : UInt8}
    (scanned : scanAfter inner first input = some (node, rest)) : node.Sized := by
  have text : ∀ length < Node.lengthBound, ∀ input node rest,
      scanText length input = some (node, rest) → node.Sized :=
    fun _ small _ _ _ => sized_of_scanText small
  have bytes : ∀ length < Node.lengthBound, ∀ input node rest,
      scanBytes length input = some (node, rest) → node.Sized :=
    fun _ small _ _ _ => sized_of_scanBytes small
  have list : ∀ length < Node.lengthBound, ∀ input node rest,
      scanList inner length input = some (node, rest) → node.Sized :=
    fun _ small _ _ _ => sized_of_scanList innerSized small
  have map : ∀ length < Node.lengthBound, ∀ input node rest,
      scanMap inner length input = some (node, rest) → node.Sized :=
    fun _ small _ _ _ => sized_of_scanMap innerSized small
  have extension : ∀ length < Node.lengthBound, ∀ input node rest,
      scanExtension length input = some (node, rest) → node.Sized :=
    fun _ _ _ _ _ => sized_of_map fun ⟨_, _⟩ => trivial
  unfold scanAfter at scanned
  split at scanned
  · cases scanned
    trivial
  split at scanned
  · exact map _ (small_byte _) _ _ _ scanned
  split at scanned
  · exact list _ (small_byte _) _ _ _ scanned
  split at scanned
  · exact text _ (small_byte _) _ _ _ scanned
  split at scanned
  · cases scanned
    trivial
  -- every other first byte has one of a few forms: a length and what it counts, a number, a constant
  split at scanned
  all_goals first
    | exact sized_of_withLength (by decide) bytes scanned
    | exact sized_of_withLength (by decide) text scanned
    | exact sized_of_withLength (by decide) list scanned
    | exact sized_of_withLength (by decide) map scanned
    | exact sized_of_withLength (by decide) extension scanned
    | exact extension _ (by decide) _ _ _ scanned
    | exact sized_of_map (fun ⟨_, _⟩ => trivial) scanned
    | (cases scanned; trivial)
    | cases scanned

end Inner

/-- What is read from MessagePack is sized. -/
theorem sized_of_scanValue {limit : Nat} {input rest : Bytes} {node : Node}
    (scanned : scanValue limit input = some (node, rest)) : node.Sized := by
  induction limit generalizing input node rest with
  | zero =>
      cases input with
      | nil => cases scanned
      | cons first tail => exact sized_of_scanAfter (by simp) scanned
  | succ inner inductionHypothesis =>
      cases input with
      | nil => cases scanned
      | cons first tail =>
          refine sized_of_scanAfter (fun scan isScan => ?_) scanned
          cases isScan
          exact fun _ _ _ => inductionHypothesis

theorem sized_of_parse {input : Bytes} {node : Node} (parsed : parse input = some node) :
    node.Sized := by
  obtain ⟨⟨found, rest⟩, scanned, rfl⟩ := Option.map_eq_some_iff.mp parsed
  exact sized_of_scanValue scanned

end GraphCheckpoint.Encoding.MessagePack
