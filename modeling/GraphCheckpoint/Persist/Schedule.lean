import GraphCheckpoint.Persist.Persister

/-!
Contract: the order of the cycles of one persister.

Owns:
- `Schedule`, the persister with the cycle that writes, those that wait for it, and those that have
  ended;
- the three steps of a cycle: it is requested, it gets its turn, and its write is finished.

Does not own: what happens between these steps, which may be anything that the persister allows.

One cycle at a time has its turn. Requested cycles wait for it in the order in which they came, and
look again at whether the persister is active when their turn comes.
-/

namespace GraphCheckpoint

/-- A cycle whose delta is being written. -/
structure PendingWrite where
  cycle : Nat
  store : StoreRef
  delta : Delta LiveValue
deriving Inhabited

/-- A cycle that has ended, with its result. -/
structure EndedCycle where
  cycle : Nat
  result : Outcome Unit

/-- A persister and its cycles. -/
structure Schedule where
  persister : Persister
  writing : Option PendingWrite
  /-- The cycles that wait for their turn, the first one first. -/
  waiting : List Nat
  /-- The cycles that have ended, the first one first. -/
  ended : List EndedCycle
deriving Inhabited

namespace Schedule

def fresh : Schedule := ⟨.fresh, none, [], []⟩

def mapPersister (change : Persister → Persister) (schedule : Schedule) : Schedule :=
  { schedule with persister := change schedule.persister }

/-- Notes that a cycle has ended. -/
def endWith (cycle : Nat) (result : Outcome Unit) (schedule : Schedule) : Schedule :=
  { schedule with ended := schedule.ended ++ [⟨cycle, result⟩] }

/-- Gives a cycle its turn. -/
def enter (heap : Heap) (cycle : Nat) (schedule : Schedule) : Schedule :=
  let (start, persister) := schedule.persister.beginCycle heap
  let schedule := { schedule with persister := persister }
  match start with
  | .inactive | .nothingNew => schedule.endWith cycle (.ok ())
  | .write store delta => { schedule with writing := some ⟨cycle, store, delta⟩ }

/-- Requests a cycle. It ends at once while the persister is not active, and waits while another has
its turn. -/
def request (heap : Heap) (cycle : Nat) (schedule : Schedule) : Schedule :=
  if !schedule.persister.isActive then schedule.endWith cycle (.ok ())
  else if schedule.writing.isSome || !schedule.waiting.isEmpty then
    { schedule with waiting := schedule.waiting ++ [cycle] }
  else schedule.enter heap cycle

/-- Gives the first waiting cycle its turn, if no other has it. -/
def grant (heap : Heap) (schedule : Schedule) : Schedule :=
  match schedule.writing, schedule.waiting with
  | none, next :: others => { schedule with waiting := others }.enter heap next
  | _, _ => schedule

/-- Gives waiting cycles their turns until one writes or none is left. -/
def grantAll (heap : Heap) (schedule : Schedule) : Schedule :=
  schedule.waiting.foldl (fun current _ => current.grant heap) schedule

/-- Finishes the write of the cycle that has its turn. -/
def finish (written : Outcome Unit) (schedule : Schedule) : Schedule :=
  match schedule.writing with
  | none => schedule
  | some pending =>
      let (result, persister) := schedule.persister.endCycle written
      { schedule with persister := persister, writing := none }.endWith pending.cycle result

/-- Forgets what came of earlier cycles of this number. -/
def forget (cycle : Nat) (schedule : Schedule) : Schedule :=
  { schedule with ended := schedule.ended.filter fun ended => ended.cycle != cycle }

/-- The result of a cycle that has ended. -/
def resultOf? (cycle : Nat) (schedule : Schedule) : Option (Outcome Unit) :=
  (schedule.ended.find? fun ended => ended.cycle == cycle).map EndedCycle.result

end Schedule

end GraphCheckpoint
