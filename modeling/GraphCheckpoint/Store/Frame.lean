import GraphCheckpoint.Encoding.Node

/-!
Contract: the bytes of a journal as a sequence of frames.

Owns:
- the frame of a payload: its length, the payload, and the length again;
- the scan of journal bytes into whole frames and what is left behind them;
- the rule that tells an append cut short from a damaged journal.

Does not own: what the payloads mean, or where the bytes are kept.

A length that runs past the end of the bytes is an append cut short, unless the bytes end with a
whole frame: no append leaves one behind an unfinished one.
-/

namespace GraphCheckpoint.Store

open GraphCheckpoint.Encoding

/-- The four bytes of a length, least significant first. -/
def lengthBytes (length : Nat) : Bytes :=
  [(length % 256).toUInt8, (length / 256 % 256).toUInt8, (length / 65536 % 256).toUInt8,
    (length / 16777216 % 256).toUInt8]

/-- The length in the first four bytes. -/
def readLength (bytes : Bytes) : Nat :=
  match bytes with
  | first :: second :: third :: fourth :: _ =>
      first.toNat + 256 * second.toNat + 65536 * third.toNat + 16777216 * fourth.toNat
  | _ => 0

/-- The number of bytes that a frame adds to its payload. -/
def frameOverhead : Nat := 8

/-- A payload between its length and its length. -/
def frame (payload : Bytes) : Bytes :=
  lengthBytes payload.length ++ payload ++ lengthBytes payload.length

/-- Frames one after another. -/
def joinFrames (payloads : List Bytes) : Bytes := payloads.flatMap frame

/-- What stands behind the whole frames of a journal. -/
inductive JournalTail where
  /-- Nothing. -/
  | clean
  /-- The beginning of a frame that was never finished. -/
  | torn
  /-- Bytes that no append leaves. -/
  | corrupt (reason : String)
deriving DecidableEq, Repr

/-- What a journal holds. -/
structure JournalScan where
  payloads : List Bytes
  /-- The number of bytes that the whole frames take. -/
  wholeLength : Nat
  tail : JournalTail
deriving DecidableEq, Repr

/-- Bytes that begin with something unreadable still end with a whole frame behind a length. -/
def endsWithWholeFrame (region : Bytes) : Bool :=
  if region.length < 4 + frameOverhead then false
  else
    let trailer := readLength (region.drop (region.length - 4))
    if region.length < trailer + frameOverhead then false
    else
      let start := region.length - (trailer + frameOverhead)
      4 ≤ start && readLength (region.drop start) == trailer

/-- The frame at the offset is longer than the journal, and yet others follow. -/
def overrunReason (offset length : Nat) : String :=
  "frame at offset " ++ toString offset ++ " claims " ++ toString length ++
    " bytes but whole frames follow it"

/-- The frame at the offset ends with another length than it begins with. -/
def trailerReason (offset length trailer : Nat) : String :=
  "frame at offset " ++ toString offset ++ " has length " ++ toString length ++
    " but trailer " ++ toString trailer

/-- Scans the bytes from an offset on. -/
def scanFrom (offset : Nat) (rest : Bytes) : JournalScan :=
  if rest.isEmpty then ⟨[], offset, .clean⟩
  else if rest.length < 4 then ⟨[], offset, .torn⟩
  else
    let length := readLength rest
    if length + frameOverhead ≤ rest.length then
      let trailer := readLength (rest.drop (4 + length))
      if trailer ≠ length then ⟨[], offset, .corrupt (trailerReason offset length trailer)⟩
      else
        let scan := scanFrom (offset + (length + frameOverhead))
          (rest.drop (length + frameOverhead))
        { scan with payloads := (rest.drop 4).take length :: scan.payloads }
    else if endsWithWholeFrame rest then ⟨[], offset, .corrupt (overrunReason offset length)⟩
    else ⟨[], offset, .torn⟩
termination_by rest.length
decreasing_by
  simp only [List.length_drop, frameOverhead] at *
  omega

/-- Scans journal bytes into frames. -/
def scanFrames (bytes : Bytes) : JournalScan := scanFrom 0 bytes

end GraphCheckpoint.Store
