import GraphCheckpoint.Proofs.Session.Actions

/-!
Contract: programs of actions while one manager writes.

Owns:
- `Stage`, a session with what has been stored so far;
- the run of a program, up to the first step that fails;
- `Stage.Good`, what every stage of a run keeps.

Does not own: what follows for the stored graph.

What is stored is the fold of the deltas that successful cycles have handed to the store. Along with
it, a stage tells which entities have got locations below their places since they last reported, and
which locations have been linked below another while they were noted.
-/

namespace GraphCheckpoint.Session

/-- A session, and what its manager has written so far. -/
structure Stage where
  session : Session
  /-- The fold of the deltas handed to the store. -/
  stored : Graph LiveValue
  /-- Entities below whose places a location has been linked since they last reported. -/
  owing : Address → Prop
  /-- Locations that have been linked below another while they were noted, and have not been gathered
  since. -/
  late : Address → Prop
  /-- No two locations share an id. -/
  distinctIds : Bool
  /-- No location has been linked below two others. -/
  oneParent : Bool

namespace Stage

def scene (stage : Stage) : Scene := ⟨stage.session.heap, stage.session.window, stage.stored⟩

/-- The stage after an action that has led to the given session. -/
def after (action : Action) (session : Session) (stage : Stage) : Stage where
  session := session
  stored :=
    match action with
    | .persist => ((takenDelta? stage.session).map stage.stored.apply).getD stage.stored
    | _ => stage.stored
  owing := fun e =>
    (stage.owing e ∨ ∃ child ∈ action.linked? stage.session,
      ∃ place ∈ session.heap.deployedAt e, session.heap.Below place child) ∧
        e ∉ action.reporters stage.session
  late := fun z =>
    (stage.late z ∨ ∃ child ∈ action.linked? stage.session,
      z = child ∧ z ∈ stage.session.window.locations.changed.values) ∧
        ∀ e ∈ action.reporters stage.session, session.heap.Watched e →
          z ∉ Window.locationsAround session.heap e
  distinctIds := stage.distinctIds && action.keepsIds stage.session
  oneParent := stage.oneParent && action.keepsParents stage.session

/-- The stage after an action, if it makes sense and succeeds. -/
def next? (stage : Stage) (action : Action) : Option Stage :=
  if action.typed stage.session then
    match action.step stage.session with
    | (.ok _, session) => some (stage.after action session)
    | _ => none
  else none

/-- The stage after a program all of whose steps succeed. -/
def run? (actions : List Action) (stage : Stage) : Option Stage := actions.foldlM next? stage

end Stage

/-! ## What every stage keeps -/

variable {session : Session} {index : Nat} {service : Service} {names : Table Address}
variable {heap : Heap} {window : Window} {stage : Stage} {action : Action}

namespace Stage

/-- The manager writes, its listener is the only one, and what it has noted and stored covers the
places of watched entities, all below them where ids are distinct, and parents where each location
also has one at most. -/
structure Good (index : Nat) (stage : Stage) : Prop where
  attended : ∃ service : Service, service.isActive = true ∧ stage.session.Attended index service
  sound : stage.scene.Sound
  located : stage.scene.Located
  charted : stage.distinctIds = true → stage.scene.Charted stage.owing
  planted : stage.distinctIds = true → stage.oneParent = true → stage.scene.Planted stage.late

theorem distinctIds_of_after (isDistinct : (stage.after action session).distinctIds = true) :
    stage.distinctIds = true ∧ action.keepsIds stage.session = true :=
  Bool.and_eq_true_iff.mp isDistinct

theorem oneParent_of_after (isSingle : (stage.after action session).oneParent = true) :
    stage.oneParent = true ∧ action.keepsParents stage.session = true :=
  Bool.and_eq_true_iff.mp isSingle

theorem Good.charted_before (good : stage.Good index)
    (isDistinct : (stage.after action session).distinctIds = true) :
    stage.scene.Charted stage.owing :=
  good.charted (distinctIds_of_after isDistinct).1

theorem Good.planted_before (good : stage.Good index)
    (isDistinct : (stage.after action session).distinctIds = true)
    (isSingle : (stage.after action session).oneParent = true) : stage.scene.Planted stage.late :=
  good.planted (distinctIds_of_after isDistinct).1 (oneParent_of_after isSingle).1

/-- An action after which the objects that it concerns report. -/
theorem Good.advance (good : stage.Good index) (isActive : service.isActive = true)
    (attended : session.Attended index service)
    (advance : Heap.Advance (· ∈ action.reporters stage.session) stage.session.heap session.heap)
    (hears : session.heap.HearsAll (action.reporters stage.session) stage.session.window
      session.window)
    (stored : (stage.after action session).stored = stage.stored)
    (distinct : action.keepsIds stage.session = true →
      stage.session.heap.DistinctLocations → session.heap.DistinctLocations) :
    (stage.after action session).Good index := by
  have grown := good.sound.advance advance
  have tidy := good.sound.tidy
  have chartedAfter : (stage.after action session).distinctIds = true →
      (stage.scene.grow session.heap).Charted
        fun e => stage.owing e ∨ e ∈ action.reporters stage.session := by
    intro isDistinct
    have charted := good.charted_before isDistinct
    have keepsIds := (distinctIds_of_after isDistinct).2
    exact charted.advance tidy advance (distinct keepsIds charted.distinct)
  refine ⟨⟨service, isActive, attended⟩, ?_, ?_, fun isDistinct => ?_,
    fun isDistinct isSingle => ?_⟩
  · rw [scene, stored]
    exact grown.hearAll hears
  · rw [scene, stored]
    exact good.located.advance good.sound advance hears
  · rw [scene, stored]
    refine ((chartedAfter isDistinct).hearAll grown hears).mono ?_
    rintro x ⟨owes | reports, notReporter⟩
    · exact ⟨Or.inl owes, notReporter⟩
    · exact absurd reports notReporter
  · have planted := good.planted_before isDistinct isSingle
    rw [scene, stored]
    refine ((planted.advance tidy advance).hearAll grown (chartedAfter isDistinct).distinct hears
      fun e watched id => notLocation_of_heard attended.heard watched id).mono ?_
    rintro z ⟨isLate, notAround⟩
    exact ⟨Or.inl isLate, notAround⟩

theorem stored_of_noCycle (noCycle : action ≠ .persist) :
    (stage.after action session).stored = stage.stored := by
  cases action with
  | persist => exact absurd rfl noCycle
  | _ => rfl

theorem Good.made {kind : ObjectKind} {name id typeName : String} (good : stage.Good index)
    (isActive : service.isActive = true) (attended : session.Attended index service)
    (heap : session.heap = (stage.session.heap.create (.blank kind id typeName)).2)
    (window : session.window = stage.session.window) :
    (stage.after (.make kind name id typeName) session).Good index := by
  refine good.advance isActive attended ?_ ?_ rfl fun keepsIds distinct => ?_
  · rw [heap]
    exact Heap.advance_create kind id typeName
  · rw [window]
    exact .nil
  · rw [heap]
    refine distinct.create fun isLocation => ?_
    cases kind with
    | location =>
        have isNew : (!stage.session.heap.locationIds.contains id) = true := keepsIds
        change id ∉ stage.session.heap.locationIds
        simpa using isNew
    | entity => cases isLocation
    | policy => cases isLocation

/-- A location below another. Nothing reports, so what is owed and what is late may grow. -/
theorem Good.linked {parent child : String} {parentAddress childAddress : Address}
    (good : stage.Good index) (isActive : service.isActive = true)
    (attended : session.Attended index service)
    (sound : Scene.Sound ⟨session.heap, session.window, stage.stored⟩)
    (isLinked : Action.linked? stage.session (.link parent child) = some childAddress)
    (silent : Action.reporters stage.session (.link parent child) = [])
    (same : stage.session.heap.SameRoles session.heap)
    (links : Heap.Links parentAddress childAddress stage.session.heap session.heap)
    (window : session.window = stage.session.window) :
    (stage.after (.link parent child) session).Good index := by
  refine ⟨⟨service, isActive, attended⟩, sound, ?_, fun isDistinct => ?_,
    fun isDistinct isSingle => ?_⟩
  · show Scene.Located ⟨session.heap, session.window, stage.stored⟩
    rw [window]
    exact good.located.link good.sound.tidy links same
  · have charted := good.charted_before isDistinct
    show Scene.Charted _ ⟨session.heap, session.window, stage.stored⟩
    rw [window]
    refine (charted.link good.sound.tidy links same).mono ?_
    rintro e (owes | ⟨place, isPlace, below⟩)
    · exact ⟨Or.inl owes, by simp [silent]⟩
    · exact ⟨Or.inr ⟨childAddress, isLinked, place, isPlace, below⟩, by simp [silent]⟩
  · have planted := good.planted_before isDistinct isSingle
    have isRoot : stage.session.heap.parentLocation? childAddress = none := by
      have keepsParents := (oneParent_of_after isSingle).2
      rw [Action.keepsParents, isLinked] at keepsParents
      exact Option.isNone_iff_eq_none.mp keepsParents
    show Scene.Planted _ ⟨session.heap, session.window, stage.stored⟩
    rw [window]
    refine (planted.link good.sound.tidy links isRoot).mono ?_
    rintro z (isLate | ⟨isChild, isNoted⟩)
    · exact ⟨Or.inl isLate, by simp [silent]⟩
    · exact ⟨Or.inr ⟨childAddress, isLinked, isChild, isNoted⟩, by simp [silent]⟩

/-- An object that is watched from now on reports at once. -/
theorem Good.managed {name : String} {address : Address} {object : LiveObject}
    (good : stage.Good index) (isActive : service.isActive = true)
    (attended : session.Attended index service)
    (isNamed : stage.session.objects.get? name = some address)
    (isObject : stage.session.heap.object? address = some object)
    (heap : session.heap = stage.session.heap.listening address (some (.manager index)))
    (window : session.window = stage.session.window.recordWith session.heap address
      (Window.locationsAround session.heap address)) :
    (stage.after (.manage name) session).Good index := by
  have reporters : (Action.manage name).reporters stage.session = [address] := by
    rw [Action.reporters, isNamed]
    rfl
  refine good.advance isActive attended ?_ ?_ rfl fun _ distinct => ?_
  · rw [heap, reporters]
    exact (Heap.advance_listening address _).mono fun x isAddress =>
      List.mem_singleton.mpr isAddress
  · rw [window, reporters]
    refine .one (.watched ⟨{ object with listener := some (.manager index) }, ?_, rfl⟩)
    rw [heap, Heap.object?_listening, if_pos rfl, isObject]
    rfl
  · rw [heap]
    exact distinct.listening address _

/-- The end of the watching of an object. One that nobody watched is not noted as removed. -/
theorem Good.unmanaged {name : String} {address : Address} {object : LiveObject}
    (good : stage.Good index) (isActive : service.isActive = true)
    (attended : session.Attended index service)
    (sound : Scene.Sound ⟨session.heap, session.window, stage.stored⟩)
    (isObject : stage.session.heap.object? address = some object)
    (notLocation : object.kind ≠ .location)
    (heap : session.heap = stage.session.heap.listening address none)
    (window : session.window = if object.listener.isSome
      then stage.session.window.recordRemoved object.key else stage.session.window) :
    (stage.after (.unmanage name) session).Good index := by
  have holds : stage.scene.heap.Holds object.key address := ⟨object, isObject, rfl⟩
  cases watched : object.listener.isSome with
  | true =>
      rw [watched, if_pos rfl] at window
      refine ⟨⟨service, isActive, attended⟩, sound, ?_, fun isDistinct => ?_,
        fun isDistinct isSingle => ?_⟩
      · show Scene.Located ⟨session.heap, session.window, stage.stored⟩
        rw [heap, window]
        exact Scene.Covers.unwatch good.located good.sound.tidy holds notLocation fun _ _ => id
      · have charted := good.charted_before isDistinct
        show Scene.Charted _ ⟨session.heap, session.window, stage.stored⟩
        rw [heap, window]
        exact (charted.unwatch good.sound.tidy holds notLocation).mono
          fun e owes => ⟨Or.inl owes, List.not_mem_nil⟩
      · have planted := good.planted_before isDistinct isSingle
        show Scene.Planted _ ⟨session.heap, session.window, stage.stored⟩
        rw [heap, window]
        exact (planted.unwatch good.sound.tidy notLocation).mono
          fun z isLate => ⟨Or.inl isLate, List.forall_mem_nil _⟩
  | false =>
      rw [watched] at window
      have silent : object.listener = none := by simpa using watched
      refine good.advance isActive attended ?_ ?_ rfl fun _ distinct => ?_
      · rw [heap]
        exact (Heap.samePlaces_listening address none _).advance
          (Heap.sameRoles_listening isObject silent)
      · rw [window]
        exact .nil
      · rw [heap]
        exact distinct.listening address none

/-- An action that runs no cycle keeps what every stage keeps. -/
theorem Good.effect (good : stage.Good index) (isActive : service.isActive = true)
    (attended : session.Attended index service)
    (effect : Effect index stage.session session action) :
    (stage.after action session).Good index := by
  have sound := effect.sound good.sound
  cases effect with
  | made _ _ isHeap isWindow => exact good.made isActive attended isHeap isWindow
  | changed isChange isNames same advance spares hears =>
      refine good.advance isActive attended advance hears (stored_of_noCycle ?_)
        fun _ distinct => distinct.sameRoles same
      rintro rfl
      exact isChange
  | linked isLinked silent _ same links _ isWindow =>
      exact good.linked isActive attended sound isLinked silent same links isWindow
  | managed isNamed isObject _ _ isHeap isWindow =>
      exact good.managed isActive attended isNamed isObject isHeap isWindow
  | unmanaged _ isObject notLocation _ isHeap isWindow =>
      exact good.unmanaged isActive attended sound isObject notLocation isHeap isWindow

theorem Good.persist (good : stage.Good index)
    (ran : Action.step .persist stage.session = (.ok (), session)) :
    (stage.after .persist session).Good index ∧ session.window = .empty := by
  obtain ⟨service, isActive, attended⟩ := good.attended
  obtain ⟨attendedAfter, -, -, written⟩ := attended.persist ran
  have isScene : (stage.after .persist session).scene = stage.scene.write :=
    (written stage.stored).trans (if_pos isActive)
  refine ⟨⟨⟨{ service with stores := session.stores }, isActive, attendedAfter⟩, ?_, ?_,
    fun isDistinct => ?_, fun isDistinct isSingle => ?_⟩, congrArg Scene.window isScene⟩
  · rw [isScene]
    exact good.sound.write
  · rw [isScene]
    exact Scene.Covers.write good.located good.sound
  · have charted := good.charted_before isDistinct
    rw [isScene]
    exact (charted.write good.sound).mono fun e owes => ⟨Or.inl owes, nofun⟩
  · have planted := good.planted_before isDistinct isSingle
    rw [isScene]
    exact (planted.write good.sound).mono fun z isLate => ⟨Or.inl isLate, nofun⟩

/-! ## Runs -/

/-- An action that makes sense and succeeds keeps what every stage keeps. -/
theorem Good.next {next : Stage} (good : stage.Good index) (isNext : stage.next? action = some next) :
    next.Good index ∧ action.step stage.session = (.ok (), next.session) := by
  unfold next? at isNext
  split at isNext
  rotate_left
  · cases isNext
  rename_i typed
  split at isNext
  rotate_left
  · cases isNext
  rename_i session ran
  cases isNext
  refine ⟨?_, ran⟩
  by_cases isCycle : action = .persist
  · subst isCycle
    exact (good.persist ran).1
  · obtain ⟨service, isActive, attended⟩ := good.attended
    obtain ⟨other, ranToo, attendedAfter, effect⟩ := attended.acts typed isCycle
    rw [ran] at ranToo
    cases ranToo
    exact good.effect isActive attendedAfter effect

theorem Good.run {actions : List Action} {final : Stage} (good : stage.Good index)
    (ran : stage.run? actions = some final) : final.Good index := by
  induction actions generalizing stage with
  | nil =>
      cases ran
      exact good
  | cons action rest inductionHypothesis =>
      obtain ⟨next, isNext, ranOn⟩ := Option.bind_eq_some_iff.mp ran
      exact inductionHypothesis (good.next isNext).1 ranOn

theorem run?_append (stage : Stage) (first second : List Action) :
    stage.run? (first ++ second) = (stage.run? first).bind (Stage.run? second) :=
  List.foldlM_append

end Stage

end GraphCheckpoint.Session
