import GraphCheckpoint.Proofs.Live.Ownership
import GraphCheckpoint.Proofs.Session.Cycle
import GraphCheckpoint.Proofs.Watch.Charted

/-!
Contract: actions that make, link, change and watch objects while one manager takes reports.

Owns:
- `Action`, a step that a program can take;
- `Session.Attended`, the sessions in which one manager hears every watched object;
- `Effect`, what an action that runs no cycle does to the objects and to what is noted of them;
- that every such action that makes sense succeeds and has this effect;
- what a cycle that succeeds leaves.

Does not own: what is stored, or the order of actions.
-/

namespace GraphCheckpoint.Session

/-- A change of the state of an object. -/
inductive Mutation where
  | displayName (text : String)
  | value (place : LiveObject.ValueTable) (key : String) (content : LiveValue)
  | tag (text : String)

def Mutation.apply : Mutation → LiveObject → LiveObject
  | .displayName text => LiveObject.withDisplayName text
  | .value place key content => LiveObject.withValue place key content
  | .tag text => LiveObject.withTag text

/-- A step of a program. -/
inductive Action where
  /-- Makes an object and keeps it under a name. -/
  | make (kind : ObjectKind) (name id typeName : String)
  | change (name : String) (mutation : Mutation)
  /-- Attaches a location, a policy or an enricher to an entity. -/
  | attach (owner target : String) (asEnricher : Bool)
  /-- Links an object below another of its kind. -/
  | link (parent child : String)
  | manage (name : String)
  | unmanage (name : String)
  /-- Runs a cycle. -/
  | persist

/-- The kind of a named object. -/
def kindOf (session : Session) (name : String) : Option ObjectKind :=
  ((session.objects.get? name).bind session.heap.object?).map LiveObject.kind

/-- The window of the manager in use. -/
def window (session : Session) : Window :=
  ((session.manager.bind fun index => session.listener? (.manager index)).map
    Listener.window).getD .empty

namespace Action

def step : Action → Step Unit
  | .make kind name id typeName => makeObject kind name id typeName
  | .change name mutation => changeObject name mutation.apply
  | .attach owner target asEnricher => Session.attach owner target asEnricher
  | .link parent child => addChild parent child
  | .manage name => Session.manage name "manager"
  | .unmanage name => Session.unmanage name
  | .persist => do orRefuse (← persistNow)

/-- The names stand for objects, of one kind where they are linked. A new object gets a new name.
Locations are neither watched nor given up. -/
def typed (session : Session) : Action → Bool
  | .make _ name _ _ => !session.objects.contains name
  | .change name _ => (kindOf session name).isSome
  | .attach owner target _ => (kindOf session owner).isSome && (kindOf session target).isSome
  | .link parent child =>
      match kindOf session parent, kindOf session child with
      | some .entity, some .entity | some .location, some .location => true
      | _, _ => false
  | .manage name | .unmanage name =>
      match kindOf session name with
      | some .entity | some .policy => true
      | _ => false
  | .persist => true

/-- The objects that report, in turn, if they are watched. -/
def reporters (session : Session) : Action → List Address
  | .change name _ | .attach name _ _ | .manage name => (session.objects.get? name).toList
  | .link parent child =>
      if kindOf session parent = some .entity then
        (session.objects.get? parent).toList ++ (session.objects.get? child).toList
      else []
  | _ => []

/-- The location that is linked below another. -/
def linked? (session : Session) : Action → Option Address
  | .link parent child =>
      if kindOf session parent = some .location then session.objects.get? child else none
  | _ => none

/-- A new location has a new id. -/
def keepsIds (session : Session) : Action → Bool
  | .make .location _ id _ => !session.heap.locationIds.contains id
  | _ => true

/-- No location is linked below a second one. -/
def keepsParents (session : Session) (action : Action) : Bool :=
  (linked? session action).all fun child => (session.heap.parentLocation? child).isNone

end Action

variable {session : Session} {index : Nat} {names : Table Address} {heap : Heap} {window : Window}
variable {service : Service} {action : Action} {address : Address} {name : String}

theorem exists_of_kindOf {kind : ObjectKind} (isKind : kindOf session name = some kind) :
    ∃ address object, session.objects.get? name = some address ∧
      session.heap.object? address = some object ∧ object.kind = kind := by
  obtain ⟨object, found, isKind⟩ := Option.map_eq_some_iff.mp isKind
  obtain ⟨address, isNamed, isObject⟩ := Option.bind_eq_some_iff.mp found
  exact ⟨address, object, isNamed, isObject, isKind⟩

theorem Standing.window_eq (standing : session.Standing index service names heap window) :
    session.window = window := by
  rw [Session.window, standing.inUse, Option.bind_some, standing.listener?_eq]
  rfl

/-! ## Sessions in which a manager hears every watched object -/

/-- Every object has a name. -/
def AllNamed (names : Table Address) (heap : Heap) : Prop :=
  ∀ address object, heap.object? address = some object → ∃ name, names.get? name = some address

theorem AllNamed.sameRoles {after : Heap} (named : AllNamed names heap)
    (same : heap.SameRoles after) : AllNamed names after := by
  intro address object isObject
  obtain ⟨other, isOther, -⟩ := same.symm.exists_object isObject
  exact named address other isOther

theorem AllNamed.listening (named : AllNamed names heap) (address : Address)
    (listener : Option ListenerRef) : AllNamed names (heap.listening address listener) := by
  intro place object isObject
  obtain ⟨other, isOther, -⟩ := Heap.holds_of_listening ⟨object, isObject, rfl⟩
  exact named place other isOther

theorem AllNamed.create (named : AllNamed names heap) {name : String}
    (isNew : names.get? name = none) (object : LiveObject) :
    AllNamed (names.insert name ⟨heap.objects.size⟩) (heap.create object).2 := by
  intro place found isFound
  rw [Heap.object?_create] at isFound
  split at isFound
  · rename_i isLast
    refine ⟨name, ?_⟩
    rw [Table.get?_insert_self, ← isLast]
  · obtain ⟨known, isKnown⟩ := named place found isFound
    refine ⟨known, ?_⟩
    rw [Table.get?_insert_of_ne, isKnown]
    intro isName
    rw [isName, isNew] at isKnown
    cases isKnown

/-- The manager takes reports, its listener is the only one, and every object has a name. -/
structure Attended (index : Nat) (service : Service) (session : Session) : Prop where
  standing : session.Standing index service session.objects session.heap session.window
  heard : Heard session.heap index
  named : AllNamed session.objects session.heap

theorem attended_of_standing (standing : session.Standing index service names heap window)
    (heard : Heard heap index) (named : AllNamed names heap) :
    session.Attended index service := by
  have isWindow := standing.window_eq
  obtain rfl := standing.heap
  obtain rfl := standing.names
  subst isWindow
  exact ⟨standing, heard, named⟩

/-- Every object has a name, so sweeping drops nothing. -/
theorem Attended.sweep_eq (attended : session.Attended index service) :
    session.sweep = session := by
  have rooted : ∀ address object, session.heap.object? address = some object →
      Owned.object address ∈ session.roots := by
    intro address object isObject
    obtain ⟨name, isNamed⟩ := attended.named address object isObject
    have isValue : address ∈ session.objects.values :=
      List.mem_map_of_mem (f := Prod.snd) (Table.mem_of_get? isNamed)
    simp only [roots, List.mem_append, List.mem_map]
    exact Or.inl (Or.inl (Or.inl (Or.inl (Or.inl (Or.inl ⟨address, Or.inl (Or.inl isValue), rfl⟩)))))
  rw [Session.sweep, Heap.sweep_eq rooted]

theorem notLocation_of_heard (heard : Heard heap index) {e : Address} (watched : heap.Watched e)
    (id : String) : ¬ heap.Holds ⟨.location, id⟩ e := by
  rintro ⟨object, isObject, isKey⟩
  obtain ⟨other, isOther, listens⟩ := watched
  rw [isObject] at isOther
  cases isOther
  obtain ⟨-, silent | ⟨-, notLocation⟩⟩ := heard e object isObject
  · rw [silent] at listens
    cases listens
  · exact notLocation (congrArg ObjectKey.kind isKey)

theorem heard_create (heard : Heard heap index) (kind : ObjectKind) (id typeName : String) :
    Heard (heap.create (.blank kind id typeName)).2 index := by
  intro address object isObject
  rw [Heap.object?_create] at isObject
  split at isObject
  · cases isObject
    exact ⟨rfl, Or.inl rfl⟩
  · exact heard address object isObject

/-! ## What actions do -/

/-- A change of the state of objects, or a new link between them. -/
def Action.IsChange : Action → Prop
  | .change .. | .attach .. | .link .. => True
  | _ => False

/-- What an action does to the objects, and to what is noted of them. -/
inductive Effect (index : Nat) (before after : Session) : Action → Prop
  | made {kind : ObjectKind} {name id typeName : String}
      (isNew : before.objects.get? name = none)
      (objects : after.objects = before.objects.insert name ⟨before.heap.objects.size⟩)
      (heap : after.heap = (before.heap.create (.blank kind id typeName)).2)
      (window : after.window = before.window) :
      Effect index before after (.make kind name id typeName)
  /-- Some objects change, and report it if they are watched. -/
  | changed {action : Action} (isChange : action.IsChange) (objects : after.objects = before.objects)
      (same : before.heap.SameRoles after.heap)
      (advance : Heap.Advance (· ∈ action.reporters before) before.heap after.heap)
      (spares : Heap.Spares (action.reporters before) before.heap after.heap)
      (hears : after.heap.HearsAll (action.reporters before) before.window after.window) :
      Effect index before after action
  /-- A location is linked below another. Locations report nothing. -/
  | linked {parent child : String} {parentAddress childAddress : Address}
      (isLinked : Action.linked? before (.link parent child) = some childAddress)
      (silent : Action.reporters before (.link parent child) = [])
      (objects : after.objects = before.objects)
      (same : before.heap.SameRoles after.heap)
      (links : Heap.Links parentAddress childAddress before.heap after.heap)
      (spares : ∀ address object, before.heap.object? address = some object →
        object.kind ≠ .location → after.heap.object? address = some object)
      (window : after.window = before.window) : Effect index before after (.link parent child)
  | managed {name : String} {address : Address} {object : LiveObject}
      (isNamed : before.objects.get? name = some address)
      (isObject : before.heap.object? address = some object)
      (notLocation : object.kind ≠ .location) (objects : after.objects = before.objects)
      (heap : after.heap = before.heap.listening address (some (.manager index)))
      (window : after.window = before.window.recordWith after.heap address
        (Window.locationsAround after.heap address)) :
      Effect index before after (.manage name)
  | unmanaged {name : String} {address : Address} {object : LiveObject}
      (isNamed : before.objects.get? name = some address)
      (isObject : before.heap.object? address = some object)
      (notLocation : object.kind ≠ .location) (objects : after.objects = before.objects)
      (heap : after.heap = before.heap.listening address none)
      (window : after.window =
        if object.listener.isSome then before.window.recordRemoved object.key else before.window) :
      Effect index before after (.unmanage name)

/-- The action succeeds, goes on in a session in which the manager hears every watched object, and has
its effect. -/
def Acts (index : Nat) (service : Service) (action : Action) (session : Session) : Prop :=
  ∃ after, action.step session = (.ok (), after) ∧ after.Attended index service ∧
    Effect index session after action

theorem role_mutation (mutation : Mutation) (object : LiveObject) :
    (mutation.apply object).role = object.role := by
  cases mutation with
  | displayName text => rfl
  | tag text => rfl
  | value place key content =>
      cases place with
      | config => rfl
      | attributes => rfl
      | flags =>
          change (object.withFlag key content).role = object.role
          unfold LiveObject.withFlag LiveObject.role LiveObject.key LiveObject.kind LiveObject.id
          cases isState : object.state <;> simp [isState]

theorem keepsPlaces_mutation (mutation : Mutation) : Heap.KeepsPlaces mutation.apply where
  key := fun object => congrArg Prod.fst (role_mutation mutation object)
  locationLinks := by
    intro object
    cases mutation with
    | displayName text => rfl
    | tag text => rfl
    | value place key content =>
        cases place with
        | config => rfl
        | attributes => rfl
        | flags =>
            change (object.withFlag key content).locationLinks? = object.locationLinks?
            unfold LiveObject.withFlag LiveObject.locationLinks?
            cases isState : object.state <;> simp [isState]
  places := by
    intro object
    cases mutation with
    | displayName text => rfl
    | tag text => rfl
    | value place key content =>
        cases place with
        | config => rfl
        | attributes => rfl
        | flags =>
            change (object.withFlag key content).entityLinks?.map _ = object.entityLinks?.map _
            unfold LiveObject.withFlag LiveObject.entityLinks?
            cases isState : object.state <;> simp [isState]

/-- Attaching appends a reference to one of the lists of the owner. -/
theorem exists_attachTo_eq (kind : ObjectKind) (asEnricher : Bool) (owner target : Address) :
    ∃ place, attachTo kind asEnricher owner target = Heap.appendReference owner target place := by
  unfold attachTo
  split
  · exact ⟨_, rfl⟩
  · split
    · exact ⟨_, rfl⟩
    · exact ⟨_, rfl⟩

section Actions

variable (attended : session.Attended index service)

include attended

/-- A change that is reported by the objects that it concerns. -/
theorem Attended.acts_of_change {after : Session} (isChange : action.IsChange)
    (ran : action.step session = (.ok (), after))
    (standing : after.Standing index service session.objects heap window)
    (same : session.heap.SameRoles heap)
    (advance : Heap.Advance (· ∈ action.reporters session) session.heap heap)
    (spares : Heap.Spares (action.reporters session) session.heap heap)
    (hears : heap.HearsAll (action.reporters session) session.window window) :
    Acts index service action session := by
  have isWindow := standing.window_eq
  have attendedAfter := attended_of_standing standing (attended.heard.sameRoles same)
    (attended.named.sameRoles same)
  obtain rfl := standing.heap
  subst isWindow
  exact ⟨after, ran, attendedAfter, .changed isChange standing.names same advance spares hears⟩

theorem Attended.make {kind : ObjectKind} {id typeName : String}
    (isNew : session.objects.get? name = none) :
    Acts index service (.make kind name id typeName) session := by
  obtain ⟨after, ran, standing⟩ := attended.standing.makeObject_run kind name id typeName
  exact ⟨after, ran, attended_of_standing standing (heard_create attended.heard kind id typeName)
    (attended.named.create isNew _),
    .made isNew standing.names standing.heap standing.window_eq⟩

theorem Attended.change {mutation : Mutation} {kind : ObjectKind}
    (isKind : kindOf session name = some kind) :
    Acts index service (.change name mutation) session := by
  obtain ⟨address, object, isNamed, isObject, -⟩ := exists_of_kindOf isKind
  have same : session.heap.SameRoles (session.heap.update address mutation.apply) :=
    Heap.sameRoles_update (role_mutation mutation)
  have reporters : (Action.change name mutation).reporters session = [address] := by
    rw [Action.reporters, isNamed]
    rfl
  obtain ⟨changed, isChanged, -⟩ := same.exists_object isObject
  obtain ⟨after, window, ran, standing, hears⟩ :=
    attended.standing.changeObject_run isNamed (attended.heard.sameRoles same) isChanged
  refine attended.acts_of_change trivial ran standing same
    ((Heap.samePlaces_update (keepsPlaces_mutation mutation)).advance same) ?_ ?_
  · rw [reporters]
    exact Heap.spares_update List.mem_cons_self _
  · rw [reporters]
    exact .one hears

theorem Attended.attach {owner target : String} {asEnricher : Bool} {ownerKind targetKind : ObjectKind}
    (isOwner : kindOf session owner = some ownerKind)
    (isTarget : kindOf session target = some targetKind) :
    Acts index service (.attach owner target asEnricher) session := by
  obtain ⟨ownerAddress, ownerObject, ownerNamed, isOwnerObject, -⟩ := exists_of_kindOf isOwner
  obtain ⟨targetAddress, targetObject, targetNamed, isTargetObject, -⟩ := exists_of_kindOf isTarget
  obtain ⟨place, isAppended⟩ :=
    exists_attachTo_eq targetObject.kind asEnricher ownerAddress targetAddress
  have same : session.heap.SameRoles
      (attachTo targetObject.kind asEnricher ownerAddress targetAddress session.heap) := by
    rw [isAppended]
    exact Heap.sameRoles_appendReference _ _ place
  have advance : Heap.Advance (· = ownerAddress) session.heap
      (attachTo targetObject.kind asEnricher ownerAddress targetAddress session.heap) := by
    refine Heap.Deploys.advance ?_ same
    unfold attachTo
    split
    · refine (Heap.samePlaces_appendReference _ _ ?_).deploys _
      exact fun _ _ => rfl
    · split
      · rename_i isLocation
        exact Heap.deploys_addLocation isTargetObject isLocation
      · refine (Heap.samePlaces_appendReference _ _ ?_).deploys _
        exact fun _ _ => rfl
  have reporters : (Action.attach owner target asEnricher).reporters session = [ownerAddress] := by
    rw [Action.reporters, ownerNamed]
    rfl
  obtain ⟨changed, isChanged, -⟩ := same.exists_object isOwnerObject
  obtain ⟨after, window, ran, standing, hears⟩ :=
    attended.standing.attach_run ownerNamed targetNamed isTargetObject
      (attended.heard.sameRoles same) isChanged
  refine attended.acts_of_change trivial ran standing same ?_ ?_ ?_
  · rw [reporters]
    exact advance.mono fun x isOwner => List.mem_singleton.mpr isOwner
  · rw [reporters, isAppended]
    exact Heap.spares_appendReference _ _ place
  · rw [reporters]
    exact .one hears

theorem Attended.linkEntities {parent child : String}
    (isParent : kindOf session parent = some .entity)
    (isChild : kindOf session child = some .entity) :
    Acts index service (.link parent child) session := by
  obtain ⟨parentAddress, parentObject, parentNamed, isParentObject, parentIsEntity⟩ :=
    exists_of_kindOf isParent
  obtain ⟨childAddress, childObject, childNamed, isChildObject, -⟩ := exists_of_kindOf isChild
  have same := @Heap.sameRoles_addChildEntity session.heap parentAddress childAddress
  have reporters : (Action.link parent child).reporters session = [parentAddress, childAddress] := by
    rw [Action.reporters, if_pos isParent, parentNamed, childNamed]
    rfl
  obtain ⟨parentAfter, isParentAfter, -⟩ := same.exists_object isParentObject
  obtain ⟨childAfter, isChildAfter, -⟩ := same.exists_object isChildObject
  obtain ⟨after, between, window, ran, standing, hearsParent, hearsChild⟩ :=
    attended.standing.addChildEntity_run parentNamed childNamed isParentObject parentIsEntity
      (attended.heard.sameRoles same) isParentAfter isChildAfter
  refine attended.acts_of_change trivial ran standing same
    ((Heap.samePlaces_addChildEntity _ _).advance same) ?_ ?_
  · rw [reporters]
    exact Heap.spares_addChildEntity _ _
  · rw [reporters]
    exact .cons hearsParent (.one hearsChild)

theorem Attended.linkLocations {parent child : String}
    (isParent : kindOf session parent = some .location)
    (isChild : kindOf session child = some .location) :
    Acts index service (.link parent child) session := by
  obtain ⟨parentAddress, parentObject, parentNamed, isParentObject, parentIsLocation⟩ :=
    exists_of_kindOf isParent
  obtain ⟨childAddress, childObject, childNamed, isChildObject, childIsLocation⟩ :=
    exists_of_kindOf isChild
  have same := @Heap.sameRoles_addChildLocation session.heap parentAddress childAddress
  have links := Heap.links_addChildLocation isParentObject parentIsLocation isChildObject
    childIsLocation
  have notEntity : parentObject.kind ≠ .entity := by
    rw [parentIsLocation]
    nofun
  have isLinked : (Action.link parent child).linked? session = some childAddress := by
    rw [Action.linked?, if_pos isParent, childNamed]
  have silent : (Action.link parent child).reporters session = [] := by
    rw [Action.reporters, isParent]
    rfl
  have spares : ∀ x object, session.heap.object? x = some object → object.kind ≠ .location →
      (session.heap.addChildLocation parentAddress childAddress).object? x = some object := by
    intro x object isObject notLocation
    rw [Heap.spares_addChildLocation parentAddress childAddress x, isObject]
    intro isLinked
    have isEither : x = parentAddress ∨ x = childAddress := by simpa using isLinked
    rcases isEither with isParent | isChild
    · rw [isParent, isParentObject] at isObject
      cases isObject
      exact notLocation parentIsLocation
    · rw [isChild, isChildObject] at isObject
      cases isObject
      exact notLocation childIsLocation
  obtain ⟨after, ran, standing⟩ :=
    attended.standing.addChildLocation_run parentNamed childNamed isParentObject notEntity
  refine ⟨after, ran, attended_of_standing standing (attended.heard.sameRoles same)
    (attended.named.sameRoles same), ?_⟩
  have heap := standing.heap
  rw [← heap] at same links spares
  exact .linked isLinked silent standing.names same links spares standing.window_eq

theorem Attended.manage {kind : ObjectKind} (isKind : kindOf session name = some kind)
    (notLocation : kind ≠ .location) : Acts index service (.manage name) session := by
  obtain ⟨address, object, isNamed, isObject, isObjectKind⟩ := exists_of_kindOf isKind
  have heard : Heard (session.heap.listening address (some (.manager index))) index := by
    intro place found isFound
    rw [Heap.object?_listening] at isFound
    split at isFound
    · rename_i isAddress
      rw [isAddress, isObject] at isFound
      cases isFound
      exact ⟨(attended.heard address object isObject).1,
        Or.inr ⟨rfl, isObjectKind ▸ notLocation⟩⟩
    · exact attended.heard place found isFound
  have isObjectAfter : (session.heap.listening address (some (.manager index))).object? address =
      some { object with listener := some (.manager index) } := by
    rw [Heap.object?_listening, if_pos rfl, isObject]
    rfl
  obtain ⟨after, ran, standing⟩ :=
    attended.standing.manage_run isNamed isObjectAfter (heard _ _ isObjectAfter).1
  refine ⟨after, ran, attended_of_standing standing heard (attended.named.listening address _),
    .managed isNamed isObject (isObjectKind ▸ notLocation) standing.names standing.heap ?_⟩
  rw [standing.heap, standing.window_eq]

theorem Attended.unmanage {kind : ObjectKind} (isKind : kindOf session name = some kind)
    (notLocation : kind ≠ .location) : Acts index service (.unmanage name) session := by
  obtain ⟨address, object, isNamed, isObject, isObjectKind⟩ := exists_of_kindOf isKind
  obtain ⟨ordinary, listens⟩ := attended.heard address object isObject
  have heard : Heard (session.heap.listening address none) index := by
    intro place found isFound
    rw [Heap.object?_listening] at isFound
    split at isFound
    · obtain ⟨old, isOld, rfl⟩ := Option.map_eq_some_iff.mp isFound
      exact ⟨(attended.heard place old isOld).1, Or.inl rfl⟩
    · exact attended.heard place found isFound
  obtain ⟨after, ran, standing⟩ :=
    attended.standing.unmanage_run isNamed isObject ordinary (listens.imp id And.left)
  exact ⟨after, ran, attended_of_standing standing heard (attended.named.listening address _),
    .unmanaged isNamed isObject (isObjectKind ▸ notLocation) standing.names standing.heap
      standing.window_eq⟩

/-- Every action that makes sense and runs no cycle succeeds, and has its effect. -/
theorem Attended.acts (typed : action.typed session = true) (noCycle : action ≠ .persist) :
    Acts index service action session := by
  cases action with
  | make kind name id typeName =>
      apply attended.make
      simpa [Action.typed, Table.contains] using typed
  | change name mutation =>
      obtain ⟨kind, isKind⟩ := Option.isSome_iff_exists.mp typed
      exact attended.change isKind
  | attach owner target asEnricher =>
      obtain ⟨isOwner, isTarget⟩ := Bool.and_eq_true_iff.mp typed
      obtain ⟨ownerKind, isOwner⟩ := Option.isSome_iff_exists.mp isOwner
      obtain ⟨targetKind, isTarget⟩ := Option.isSome_iff_exists.mp isTarget
      exact attended.attach isOwner isTarget
  | link parent child =>
      rw [Action.typed] at typed
      split at typed
      · rename_i isParent isChild
        exact attended.linkEntities isParent isChild
      · rename_i isParent isChild
        exact attended.linkLocations isParent isChild
      · cases typed
  | manage name =>
      rw [Action.typed] at typed
      split at typed
      · rename_i isKind
        exact attended.manage isKind (by decide)
      · rename_i isKind
        exact attended.manage isKind (by decide)
      · cases typed
  | unmanage name =>
      rw [Action.typed] at typed
      split at typed
      · rename_i isKind
        exact attended.unmanage isKind (by decide)
      · rename_i isKind
        exact attended.unmanage isKind (by decide)
      · cases typed
  | persist => exact absurd rfl noCycle

end Actions

/-- What is noted and stored stays sound whatever an action does. -/
theorem Effect.sound {before after : Session} {graph : Graph LiveValue}
    (effect : Effect index before after action)
    (sound : Scene.Sound ⟨before.heap, before.window, graph⟩) :
    Scene.Sound ⟨after.heap, after.window, graph⟩ := by
  cases effect with
  | @made kind name id typeName _ _ isHeap isWindow =>
      rw [isHeap, isWindow]
      exact sound.advance
        (@Heap.advance_create (fun _ => False) before.heap kind id typeName)
  | changed _ _ _ advance _ hears => exact (sound.advance advance).hearAll hears
  | linked _ _ _ same links _ isWindow =>
      rw [isWindow]
      exact sound.grow links.growth (links.tidy sound.tidy) (same.ordinary sound.ordinary)
        fun x => same.watched_iff.mpr
  | @managed name address object isNamed isObject _ _ isHeap isWindow =>
      rw [isWindow, isHeap]
      apply (sound.advance (Heap.advance_listening address (.manager index))).report
      refine ⟨{ object with listener := some (.manager index) }, ?_, rfl⟩
      show (before.heap.listening address _).object? address = _
      rw [Heap.object?_listening, if_pos rfl, isObject]
      rfl
  | @unmanaged name address object isNamed isObject notLocation _ isHeap isWindow =>
      rw [isWindow, isHeap]
      cases watched : object.listener.isSome with
      | true => exact sound.unwatch ⟨object, isObject, rfl⟩ notLocation
      | false =>
          have silent : object.listener = none := by simpa using watched
          have same := Heap.sameRoles_listening isObject silent
          exact sound.advance
            (@Heap.SamePlaces.advance (fun _ => False) _ _ (Heap.samePlaces_listening address none _) same)

/-! ## Cycles -/

/-- A cycle that succeeds writes all that is noted while the manager is active, and does nothing
otherwise. -/
theorem Attended.persist {after : Session} (attended : session.Attended index service)
    (ran : Action.step .persist session = (.ok (), after)) :
    after.Attended index { service with stores := after.stores } ∧
      Took service.store (takenDelta? session).toList service.stores after.stores ∧
      after.objects = session.objects ∧
      ∀ graph : Graph LiveValue,
        (⟨after.heap, after.window, ((takenDelta? session).map graph.apply).getD graph⟩ : Scene) =
          if service.isActive then Scene.write ⟨session.heap, session.window, graph⟩
          else ⟨session.heap, session.window, graph⟩ := by
  obtain ⟨outcome, between, cycled, ended⟩ := bind_eq_ok ran
  cases outcome with
  | error failure => cases ended
  | ok _ =>
      obtain rfl : between = after := congrArg Prod.snd ended
      obtain ⟨standing, took, -⟩ := attended.standing.persistNow_run cycled
      refine ⟨attended_of_standing standing attended.heard attended.named, took, standing.names,
        fun graph => ?_⟩
      rw [standing.heap, standing.window_eq, attended.standing.takenDelta?_eq]
      cases isActive : service.isActive with
      | false => rfl
      | true =>
          cases nothing : session.window.isEmpty with
          | false => rfl
          | true =>
              rw [Window.eq_empty nothing]
              rfl

end GraphCheckpoint.Session
