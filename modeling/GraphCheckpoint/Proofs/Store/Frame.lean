import GraphCheckpoint.Store.Frame

/-!
Contract: what a scan makes of whole frames and of a frame that was cut short.

Owns:
- the scan of frames one after another, whatever stands behind them;
- the bytes that end with a whole frame behind a length;
- the verdict on a frame cut short: an append that was never finished, or damage.

Does not own: how a frame comes to be cut short.
-/

namespace GraphCheckpoint.Store

open GraphCheckpoint.Encoding

/-- Lengths from here on have no four bytes. -/
def frameBound : Nat := 0x100000000

/-! ## Lengths -/

@[simp] theorem length_lengthBytes (length : Nat) : (lengthBytes length).length = 4 := rfl

theorem readLength_lengthBytes {length : Nat} (fits : length < frameBound) (rest : Bytes) :
    readLength (lengthBytes length ++ rest) = length := by
  have bound : length < 4294967296 := fits
  simp only [lengthBytes, List.cons_append, List.nil_append, readLength, Nat.toUInt8_eq,
    UInt8.toNat_ofNat']
  omega

theorem readLength_lt (bytes : Bytes) : readLength bytes < frameBound := by
  unfold readLength frameBound
  split
  · rename_i first second third fourth _
    have firstLt := first.toNat_lt
    have secondLt := second.toNat_lt
    have thirdLt := third.toNat_lt
    have fourthLt := fourth.toNat_lt
    omega
  · decide

/-- Four bytes are those of the length that is read from them. -/
theorem lengthBytes_readLength {bytes : Bytes} (isWord : bytes.length = 4) :
    lengthBytes (readLength bytes) = bytes := by
  match bytes, isWord with
  | [first, second, third, fourth], _ =>
      have firstLt := first.toNat_lt
      have secondLt := second.toNat_lt
      have thirdLt := third.toNat_lt
      have fourthLt := fourth.toNat_lt
      have byte : ∀ (number : Nat) (one : UInt8), number = one.toNat → number.toUInt8 = one := by
        intro number one same
        rw [same]
        exact UInt8.ofNat_toNat
      simp only [lengthBytes, readLength]
      rw [byte _ first (by omega), byte _ second (by omega), byte _ third (by omega),
        byte _ fourth (by omega)]

theorem readLength_take (bytes : Bytes) (enough : 4 ≤ bytes.length) :
    readLength (bytes.take 4) = readLength bytes := by
  match bytes, enough with
  | first :: second :: third :: fourth :: rest, _ => rfl

theorem length_frame (payload : Bytes) : (frame payload).length = payload.length + frameOverhead := by
  simp only [frame, List.length_append, length_lengthBytes, frameOverhead]
  omega

/-! ## Whole frames -/

theorem scanFrom_nil (offset : Nat) : scanFrom offset [] = ⟨[], offset, .clean⟩ := by
  unfold scanFrom
  rfl

theorem scanFrom_frame (offset : Nat) {payload : Bytes} (fits : payload.length < frameBound)
    (rest : Bytes) :
    scanFrom offset (frame payload ++ rest) =
      { scanFrom (offset + (frame payload).length) rest with
        payloads :=
          payload :: (scanFrom (offset + (frame payload).length) rest).payloads } := by
  have whole : (frame payload ++ rest).length = payload.length + 8 + rest.length := by
    rw [List.length_append, length_frame, frameOverhead]
  have opening : readLength (frame payload ++ rest) = payload.length := by
    rw [frame, List.append_assoc, List.append_assoc, readLength_lengthBytes fits]
  have behind : (frame payload ++ rest).drop (4 + payload.length) =
      lengthBytes payload.length ++ rest := by
    rw [frame, List.append_assoc]
    exact List.drop_left' (by simp)
  have inside : ((frame payload ++ rest).drop 4).take payload.length = payload := by
    rw [frame, List.append_assoc, List.append_assoc, List.drop_left' (length_lengthBytes _)]
    exact List.take_left' rfl
  have past : (frame payload ++ rest).drop (payload.length + frameOverhead) = rest :=
    List.drop_left' (length_frame payload)
  have notEmpty : (frame payload ++ rest).isEmpty = false := by
    simp [frame, lengthBytes]
  have room : payload.length + frameOverhead ≤ (frame payload ++ rest).length := by
    rw [whole, frameOverhead]
    omega
  rw [scanFrom, notEmpty, if_neg (by decide), if_neg (by omega)]
  simp only [opening, behind, readLength_lengthBytes fits, inside, past, ne_eq, not_true_eq_false,
    if_false, if_pos room, length_frame]

/-- A scan goes through whole frames, to what stands behind them. -/
theorem scanFrom_joinFrames (offset : Nat) {payloads : List Bytes}
    (fit : ∀ payload ∈ payloads, payload.length < frameBound) (rest : Bytes) :
    scanFrom offset (joinFrames payloads ++ rest) =
      { scanFrom (offset + (joinFrames payloads).length) rest with
        payloads :=
          payloads ++ (scanFrom (offset + (joinFrames payloads).length) rest).payloads } := by
  induction payloads generalizing offset with
  | nil => rfl
  | cons payload others inductionHypothesis =>
      have later := inductionHypothesis (offset + (frame payload).length)
        fun other member => fit other (by simp [member])
      have joined : joinFrames (payload :: others) = frame payload ++ joinFrames others := rfl
      rw [joined, List.append_assoc, scanFrom_frame offset (fit payload (by simp)), later,
        List.length_append, Nat.add_assoc]
      rfl

theorem scanFrames_joinFrames {payloads : List Bytes}
    (fit : ∀ payload ∈ payloads, payload.length < frameBound) :
    scanFrames (joinFrames payloads) = ⟨payloads, (joinFrames payloads).length, .clean⟩ := by
  have scanned := scanFrom_joinFrames 0 fit []
  rw [List.append_nil, scanFrom_nil] at scanned
  rw [scanFrames, scanned]
  simp

/-! ## Any bytes -/

/-- Bytes that begin with a length, as many more and the same length again begin with a frame. -/
theorem take_frame {rest : Bytes} {length : Nat} (isLength : readLength rest = length)
    (room : length + frameOverhead ≤ rest.length)
    (isTrailer : readLength (rest.drop (4 + length)) = length) :
    rest.take (length + frameOverhead) = frame ((rest.drop 4).take length) := by
  rw [frameOverhead] at room ⊢
  have inside : ((rest.drop 4).take length).length = length := by
    rw [List.length_take, List.length_drop]
    omega
  have opening : rest.take 4 = lengthBytes length := by
    rw [← isLength, ← readLength_take _ (by omega)]
    exact (lengthBytes_readLength (by
      rw [List.length_take]
      omega)).symm
  have closing : (rest.drop (4 + length)).take 4 = lengthBytes length := by
    have enough : 4 ≤ (rest.drop (4 + length)).length := by
      rw [List.length_drop]
      omega
    have word := @lengthBytes_readLength ((rest.drop (4 + length)).take 4) (by
      rw [List.length_take]
      omega)
    rw [readLength_take _ enough, isTrailer] at word
    exact word.symm
  have split : length + 8 = 4 + (length + 4) := by omega
  rw [frame, inside, split, List.take_add, opening, List.take_add, List.drop_drop, closing,
    List.append_assoc]

/-- Whatever the bytes are, the payloads that a scan finds are those of the frames that it passed. -/
theorem scanFrom_sound (offset : Nat) (rest : Bytes) :
    ∃ passed ≤ rest.length,
      (scanFrom offset rest).wholeLength = offset + passed ∧
        rest.take passed = joinFrames (scanFrom offset rest).payloads ∧
        (∀ payload ∈ (scanFrom offset rest).payloads, payload.length < frameBound) ∧
        ((scanFrom offset rest).tail = .clean → passed = rest.length) := by
  have nothing : ∀ tail : JournalTail, (tail = .clean → rest = []) →
      ∃ passed ≤ rest.length,
        (⟨[], offset, tail⟩ : JournalScan).wholeLength = offset + passed ∧
          rest.take passed = joinFrames [] ∧
          (∀ payload ∈ ([] : List Bytes), payload.length < frameBound) ∧
          (tail = .clean → passed = rest.length) := by
    intro tail onlyEmpty
    refine ⟨0, Nat.zero_le _, rfl, rfl, by simp, fun isClean => ?_⟩
    rw [onlyEmpty isClean]
    rfl
  unfold scanFrom
  by_cases isEmpty : rest.isEmpty = true
  · rw [if_pos isEmpty]
    exact nothing .clean fun _ => List.isEmpty_iff.mp isEmpty
  rw [if_neg isEmpty]
  by_cases short : rest.length < 4
  · rw [if_pos short]
    exact nothing .torn fun isClean => nomatch isClean
  rw [if_neg short]
  dsimp only
  generalize isLength : readLength rest = length
  by_cases room : length + frameOverhead ≤ rest.length
  · rw [if_pos room]
    by_cases differs : readLength (rest.drop (4 + length)) ≠ length
    · rw [if_pos differs]
      exact nothing (.corrupt _) fun isClean => nomatch isClean
    rw [if_neg differs]
    have isTrailer : readLength (rest.drop (4 + length)) = length := Decidable.not_not.mp differs
    have isFrame := take_frame isLength room isTrailer
    have isPayload : ((rest.drop 4).take length).length < frameBound := by
      rw [List.length_take]
      have bound := readLength_lt rest
      omega
    obtain ⟨passed, inside, whole, taken, fit, clean⟩ :=
      scanFrom_sound (offset + (length + frameOverhead)) (rest.drop (length + frameOverhead))
    rw [List.length_drop] at inside clean
    refine ⟨length + frameOverhead + passed, by omega, ?_, ?_, ?_, ?_⟩
    · rw [whole]
      omega
    · rw [List.take_add, isFrame, taken]
      rfl
    · intro payload member
      rcases List.mem_cons.mp member with rfl | later
      · exact isPayload
      · exact fit payload later
    · intro isClean
      have all := clean isClean
      omega
  · rw [if_neg room]
    split
    · exact nothing (.corrupt _) fun isClean => nomatch isClean
    · exact nothing .torn fun isClean => nomatch isClean
termination_by rest.length
decreasing_by
  simp only [List.length_drop, frameOverhead] at *
  omega

/-! ## A frame cut short -/

/-- Bytes end with a whole frame behind a length. -/
def HidesFrame (region : Bytes) : Prop :=
  ∃ ahead inner, 4 ≤ ahead.length ∧ inner.length < frameBound ∧ region = ahead ++ frame inner

/-- What the check of the last bytes finds: a length at the end, and the same length as far before it
as a frame of this length begins, behind a length of its own. -/
theorem endsWithWholeFrame_eq_true (region : Bytes) :
    endsWithWholeFrame region = true ↔
      readLength (region.drop (region.length - 4)) + 12 ≤ region.length ∧
        readLength (region.drop (region.length -
          (readLength (region.drop (region.length - 4)) + 8))) =
            readLength (region.drop (region.length - 4)) := by
  generalize isTrailer : readLength (region.drop (region.length - 4)) = trailer
  unfold endsWithWholeFrame
  simp only [frameOverhead, isTrailer]
  by_cases short : region.length < 4 + 8
  · rw [if_pos short]
    simp only [Bool.false_eq_true, false_iff, not_and]
    intro room
    omega
  · rw [if_neg short]
    by_cases shortForTrailer : region.length < trailer + 8
    · rw [if_pos shortForTrailer]
      simp only [Bool.false_eq_true, false_iff, not_and]
      intro room
      omega
    · rw [if_neg shortForTrailer, Bool.and_eq_true, decide_eq_true_eq, beq_iff_eq]
      refine and_congr_left fun _ => ?_
      omega

theorem endsWithWholeFrame_iff (region : Bytes) :
    endsWithWholeFrame region = true ↔ HidesFrame region := by
  rw [endsWithWholeFrame_eq_true]
  constructor
  · rintro ⟨room, sameLength⟩
    generalize isTrailer : readLength (region.drop (region.length - 4)) = trailer at *
    generalize isStart : region.length - (trailer + 8) = start at *
    have opening : (region.drop start).take 4 = lengthBytes trailer := by
      have enough : 4 ≤ (region.drop start).length := by
        rw [List.length_drop]
        omega
      rw [← sameLength, ← readLength_take _ enough]
      exact (lengthBytes_readLength (by
        rw [List.length_take]
        omega)).symm
    have closing : region.drop (region.length - 4) = lengthBytes trailer := by
      rw [← isTrailer]
      exact (lengthBytes_readLength (by
        rw [List.length_drop]
        omega)).symm
    have innerLength : ((region.drop (start + 4)).take trailer).length = trailer := by
      rw [List.length_take, List.length_drop]
      omega
    refine ⟨region.take start, (region.drop (start + 4)).take trailer, ?_, ?_, ?_⟩
    · rw [List.length_take]
      omega
    · rw [innerLength, ← isTrailer]
      exact readLength_lt _
    · have behind : (region.drop (start + 4)).drop trailer = lengthBytes trailer := by
        rw [List.drop_drop, ← closing]
        congr 1
        omega
      have inside : (region.drop start).drop 4 = region.drop (start + 4) := List.drop_drop
      calc region = region.take start ++ region.drop start := (List.take_append_drop _ _).symm
        _ = region.take start ++ ((region.drop start).take 4 ++ region.drop (start + 4)) := by
            rw [← inside, List.take_append_drop 4]
        _ = region.take start ++ (lengthBytes trailer ++
              ((region.drop (start + 4)).take trailer ++ lengthBytes trailer)) := by
            rw [opening, ← behind, List.take_append_drop]
        _ = region.take start ++ frame ((region.drop (start + 4)).take trailer) := by
            rw [frame, innerLength, List.append_assoc]
  · rintro ⟨ahead, inner, room, fits, rfl⟩
    have whole : (ahead ++ frame inner).length = ahead.length + (inner.length + 8) := by
      rw [List.length_append, length_frame, frameOverhead]
    have closing : (ahead ++ frame inner).drop ((ahead ++ frame inner).length - 4) =
        lengthBytes inner.length ++ [] := by
      rw [frame, ← List.append_assoc, List.append_nil]
      exact List.drop_left' (by simp; omega)
    rw [closing, readLength_lengthBytes fits, whole]
    refine ⟨by omega, ?_⟩
    have back : ahead.length + (inner.length + 8) - (inner.length + 8) = ahead.length := by omega
    rw [back, List.drop_left' rfl, frame, List.append_assoc, readLength_lengthBytes fits]

/-- Frames behind a length end with a whole frame. -/
theorem hidesFrame_joinFrames {ahead : Bytes} (room : 4 ≤ ahead.length) {payloads : List Bytes}
    (notNone : payloads ≠ []) (fit : ∀ payload ∈ payloads, payload.length < frameBound) :
    HidesFrame (ahead ++ joinFrames payloads) := by
  obtain ⟨front, last, rfl⟩ := (List.eq_nil_or_concat payloads).resolve_left notNone
  refine ⟨ahead ++ joinFrames front, last, ?_, fit last (by simp), by simp [joinFrames]⟩
  rw [List.length_append]
  omega

/-- A length that runs past the end of the bytes begins an unfinished append, unless the bytes end
with a whole frame; then it is taken for damage. -/
theorem scanFrom_overrun (offset : Nat) {region : Bytes} (isLong : 4 ≤ region.length)
    (beyond : region.length < readLength region + frameOverhead) :
    scanFrom offset region =
      ⟨[], offset, if endsWithWholeFrame region then
        .corrupt (overrunReason offset (readLength region)) else .torn⟩ := by
  have notEmpty : region.isEmpty = false := by
    rw [List.isEmpty_eq_false_iff, ← List.length_pos_iff]
    omega
  rw [scanFrom, notEmpty, if_neg (by decide), if_neg (by omega)]
  dsimp only
  rw [if_neg (by omega)]
  split <;> rfl

/-- What is left of a frame that was cut short is an unfinished append, unless what is left ends with
a whole frame; then it is taken for damage. -/
theorem scanFrom_take_frame (offset : Nat) {payload : Bytes} (fits : payload.length < frameBound)
    {cut : Nat} (begun : 0 < cut) (notAll : cut < (frame payload).length) :
    scanFrom offset ((frame payload).take cut) =
      ⟨[], offset, if endsWithWholeFrame ((frame payload).take cut) then
        .corrupt (overrunReason offset payload.length) else .torn⟩ := by
  have whole := length_frame payload
  have leftLength : ((frame payload).take cut).length = cut := by
    rw [List.length_take]
    omega
  by_cases short : cut < 4
  · have notEmpty : ((frame payload).take cut).isEmpty = false := by
      rw [List.isEmpty_eq_false_iff, ← List.length_pos_iff]
      omega
    have noFrame : endsWithWholeFrame ((frame payload).take cut) = false := by
      unfold endsWithWholeFrame
      rw [if_pos (by rw [leftLength, frameOverhead]; omega)]
    rw [scanFrom, notEmpty, if_neg (by decide), leftLength, if_pos short, noFrame]
    rfl
  · have opening : readLength ((frame payload).take cut) = payload.length := by
      rw [← readLength_take _ (by omega), List.take_take, Nat.min_eq_left (by omega), frame,
        List.append_assoc, List.take_left' (length_lengthBytes _),
        ← List.append_nil (lengthBytes _), readLength_lengthBytes fits]
    rw [scanFrom_overrun offset (by omega) (by rw [opening]; omega), opening]

/-- Behind whole frames, too. -/
theorem scanFrames_cut {payloads : List Bytes}
    (fit : ∀ payload ∈ payloads, payload.length < frameBound) {payload : Bytes}
    (fits : payload.length < frameBound) {cut : Nat} (begun : 0 < cut)
    (notAll : cut < (frame payload).length) :
    scanFrames (joinFrames payloads ++ (frame payload).take cut) =
      ⟨payloads, (joinFrames payloads).length,
        if endsWithWholeFrame ((frame payload).take cut) then
          .corrupt (overrunReason (joinFrames payloads).length payload.length) else .torn⟩ := by
  rw [scanFrames, scanFrom_joinFrames 0 fit, scanFrom_take_frame _ fits begun notAll]
  simp

/-! ## Payloads of large bytes -/

/-- Four bytes that are all at least as large as a blank give a length of at least this. -/
def blankLength : Nat := 0x20202020

theorem blankLength_le_readLength {bytes : Bytes} (isWord : bytes.length = 4)
    (large : ∀ byte ∈ bytes, 0x20 ≤ byte.toNat) : blankLength ≤ readLength bytes := by
  match bytes, isWord with
  | [first, second, third, fourth], _ =>
      have firstLarge := large first (by simp)
      have secondLarge := large second (by simp)
      have thirdLarge := large third (by simp)
      have fourthLarge := large fourth (by simp)
      simp only [readLength, blankLength]
      omega

/-- Bytes that end with four bytes of a text hide no frame: its length would be longer than they. -/
theorem not_hidesFrame_of_visible {ahead written : Bytes} (enough : 4 ≤ written.length)
    (large : ∀ byte ∈ written, 0x20 ≤ byte.toNat)
    (short : (ahead ++ written).length < blankLength) : ¬ HidesFrame (ahead ++ written) := by
  intro hides
  obtain ⟨room, -⟩ := (endsWithWholeFrame_eq_true _).mp ((endsWithWholeFrame_iff _).mpr hides)
  have ending : (ahead ++ written).drop ((ahead ++ written).length - 4) =
      written.drop (written.length - 4) := by
    rw [List.length_append, List.drop_append, List.drop_eq_nil_of_le (by omega), List.nil_append]
    congr 1
    omega
  have isLarge := @blankLength_le_readLength (written.drop (written.length - 4))
    (by rw [List.length_drop]; omega) fun byte member => large byte (List.mem_of_mem_drop member)
  rw [ending] at room
  omega

/-- A frame whose payload is a text without control characters hides no frame, however it is cut:
the length of a hidden frame would have to be written with characters of the text, and then be longer
than the text. -/
theorem not_hidesFrame_take_frame {payload : Bytes}
    (large : ∀ byte ∈ payload, 0x20 ≤ byte.toNat) (short : payload.length < blankLength) {cut : Nat}
    (notAll : cut < (frame payload).length) : ¬ HidesFrame ((frame payload).take cut) := by
  rintro ⟨ahead, inner, room, fits, isCut⟩
  have whole := length_frame payload
  rw [frameOverhead] at whole
  have lengths : cut = ahead.length + (inner.length + 8) := by
    have same := congrArg List.length isCut
    simp only [List.length_take, List.length_append, length_frame, frameOverhead] at same
    omega
  -- the four bytes behind `ahead` lie within the payload
  have isOpening : ((frame payload).drop ahead.length).take 4 = lengthBytes inner.length := by
    have cutOpening : (((frame payload).take cut).drop ahead.length).take 4 =
        lengthBytes inner.length := by
      rw [isCut, List.drop_left' rfl, frame, List.append_assoc]
      exact List.take_left' (length_lengthBytes _)
    rw [← cutOpening, List.drop_take, List.take_take, Nat.min_eq_left (by omega)]
  have within : ((frame payload).drop ahead.length).take 4 =
      (payload.drop (ahead.length - 4)).take 4 := by
    have split : (frame payload).drop ahead.length =
        payload.drop (ahead.length - 4) ++ lengthBytes payload.length := by
      rw [frame, List.append_assoc, List.drop_append, length_lengthBytes,
        List.drop_eq_nil_of_le (by rw [length_lengthBytes]; omega), List.nil_append,
        List.drop_append_of_le_length (by omega)]
    rw [split, List.take_append_of_le_length (by rw [List.length_drop]; omega)]
  have isLarge : blankLength ≤ readLength (lengthBytes inner.length) := by
    rw [← isOpening, within]
    refine blankLength_le_readLength ?_ fun byte member => ?_
    · rw [List.length_take, List.length_drop]
      omega
    · exact large byte (List.mem_of_mem_drop (List.mem_of_mem_take member))
  have isLength := readLength_lengthBytes fits []
  rw [List.append_nil] at isLength
  omega

end GraphCheckpoint.Store
