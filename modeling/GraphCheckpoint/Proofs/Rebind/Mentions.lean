import GraphCheckpoint.Proofs.Asking
import GraphCheckpoint.Proofs.Rebind.Arena

/-!
Contract: what is said of an id on the way to a rebind, and what an arena makes of it.

Owns:
- `Mention`, an id with the kind and the type that a look-up or a record gives it;
- `Mention.disagreement?`, what is wrong with the first mention that does not agree with the earliest
  one of its id;
- that an arena recalls the earliest mention of every id, through look-ups and registrations;
- that look-ups, one after another, fail with the first disagreement of their mentions.

Does not own: where mentions come from.

A look-up is compared with the earliest mention of its id and with no other; of a record, only the kind
is compared.
-/

namespace GraphCheckpoint

/-- An id as it is mentioned: as an object of a kind, and of a type if one is declared. -/
structure Mention where
  kind : ObjectKind
  id : String
  declared : Option String
deriving DecidableEq, Repr

namespace Mention

/-- The earliest of some mentions of an id. -/
def earliest? (mentions : List Mention) (id : String) : Option Mention :=
  mentions.find? fun mention => mention.id == id

/-- What is wrong with a mention after an earlier one of the same id: it is of another kind, or both
declare a type and the types differ. -/
def clash? (earlier mention : Mention) : Option Failure :=
  if earlier.kind = mention.kind then
    match mention.declared, earlier.declared with
    | some wanted, some actual =>
        if wanted = actual then none
        else some (Failure.declaredTypeDiffers mention.kind mention.id actual wanted)
    | _, _ => none
  else some (Failure.kindClash mention.id earlier.kind mention.kind)

/-- What is wrong with the first mention that does not agree with the earliest one of its id. -/
def disagreement? (mentions : List Mention) : Option Failure :=
  mentions.findSome? fun mention =>
    (earliest? mentions mention.id).bind fun earliest => earliest.clash? mention

theorem clash?_self (mention : Mention) : mention.clash? mention = none := by
  rw [clash?, if_pos rfl]
  cases mention.declared <;> simp

theorem earliest?_append (mentions more : List Mention) (id : String) :
    earliest? (mentions ++ more) id = (earliest? mentions id).or (earliest? more id) :=
  List.find?_append

theorem earliest?_cons_self (mention : Mention) (rest : List Mention) :
    earliest? (mention :: rest) mention.id = some mention :=
  List.find?_cons_of_pos (beq_self_eq_true mention.id)

theorem earliest?_singleton (mention : Mention) (id : String) :
    earliest? [mention] id = if id = mention.id then some mention else none := by
  by_cases same : id = mention.id
  · rw [if_pos same, same, earliest?_cons_self]
  · rw [if_neg same, earliest?, List.find?_cons_of_neg (by simpa using Ne.symm same),
      List.find?_nil]

variable {mentions : List Mention} {id : String} {mention : Mention}

theorem id_of_earliest? (isEarliest : earliest? mentions id = some mention) : mention.id = id := by
  have isSame := List.find?_some isEarliest
  exact eq_of_beq isSame

theorem mem_of_earliest? (isEarliest : earliest? mentions id = some mention) :
    mention ∈ mentions := List.mem_of_find?_eq_some isEarliest

/-- Every mentioned id has an earliest mention. -/
theorem exists_earliest? (member : mention ∈ mentions) :
    ∃ earliest, earliest? mentions mention.id = some earliest :=
  Option.isSome_iff_exists.mp (List.find?_isSome.mpr ⟨mention, member, beq_self_eq_true _⟩)

/-- Where mentions agree, each of them agrees with the earliest one of its id. -/
theorem disagreement?_eq_none_iff : disagreement? mentions = none ↔
    ∀ mention ∈ mentions, ∀ earliest, earliest? mentions mention.id = some earliest →
      earliest.clash? mention = none := by
  rw [disagreement?, List.findSome?_eq_none_iff]
  refine forall₂_congr fun mention _ => ?_
  rw [Option.bind_eq_none_iff]

/-- What is wrong with mentions that disagree is a type mismatch. -/
theorem exists_detail_of_disagreement? {failure : Failure}
    (disagrees : disagreement? mentions = some failure) : ∃ detail, failure = .typeMismatch detail := by
  obtain ⟨mention, -, isClash⟩ := List.exists_of_findSome?_eq_some disagrees
  obtain ⟨earliest, -, isClash⟩ := Option.bind_eq_some_iff.mp isClash
  unfold clash? at isClash
  split at isClash
  · split at isClash
    · split at isClash
      · cases isClash
      · cases isClash
        exact ⟨_, rfl⟩
    · cases isClash
  · cases isClash
    exact ⟨_, rfl⟩

/-- Mentions agree if they are of one kind, and of one type where both declare a type. -/
theorem clash?_eq_none_iff {earlier : Mention} : earlier.clash? mention = none ↔
    earlier.kind = mention.kind ∧
      ∀ wanted, mention.declared = some wanted → ∀ actual, earlier.declared = some actual →
        wanted = actual := by
  rw [clash?]
  by_cases sameKind : earlier.kind = mention.kind
  · simp only [sameKind, if_true, true_and]
    cases mention.declared <;> cases earlier.declared <;> simp
  · rw [if_neg sameKind]
    simp [sameKind]

end Mention

/-- What an entry says of its id. -/
def ArenaEntry.mention (entry : ArenaEntry) : Mention :=
  ⟨entry.kind, entry.handle.id, entry.handle.declaredType⟩

namespace Arena

open Mention

variable {arena : Arena} {heap : Heap} {mentions : List Mention} {mention : Mention}
  {kind : ObjectKind} {id : String} {entry : ArenaEntry}

/-- The arena has an entry for every id that has been mentioned, with what was said of it first. -/
def Recalls (mentions : List Mention) (arena : Arena) : Prop :=
  ∀ id, (arena.entries.get? id).map ArenaEntry.mention = earliest? mentions id

theorem recalls_start : (start heap).Recalls [] := fun _ => rfl

theorem Recalls.earliest (recalls : arena.Recalls mentions)
    (isEntry : arena.entries.get? id = some entry) :
    earliest? mentions id = some entry.mention := by
  rw [← recalls id, isEntry]
  rfl

theorem Recalls.id_eq (recalls : arena.Recalls mentions)
    (isEntry : arena.entries.get? id = some entry) : entry.handle.id = id :=
  id_of_earliest? (recalls.earliest isEntry)

/-- An id that has not been mentioned is added as it is mentioned. -/
theorem Recalls.add (recalls : arena.Recalls mentions) (isNew : arena.entries.get? id = none)
    (declared : Option String) (hasRecord : Bool) :
    (arena.add kind id declared hasRecord).2.Recalls (mentions ++ [⟨kind, id, declared⟩]) := by
  intro other
  rw [get?_add, earliest?_append, ← recalls other, earliest?_singleton]
  by_cases same : other = id
  · rw [if_pos same, if_pos same, same, isNew]
    rfl
  · rw [if_neg same, if_neg same, Option.or_none]

/-- A later mention changes nothing. -/
theorem Recalls.again (recalls : arena.Recalls mentions)
    (isEntry : arena.entries.get? mention.id = some entry) :
    arena.Recalls (mentions ++ [mention]) := by
  intro other
  rw [earliest?_append, ← recalls other, earliest?_singleton]
  by_cases same : other = mention.id
  · rw [same, isEntry]
    rfl
  · rw [if_neg same, Option.or_none]

/-- A record that has come changes nothing of what is said. -/
theorem Recalls.recordFor (recalls : arena.Recalls mentions)
    (isEntry : arena.entries.get? id = some entry) : (arena.recordFor id entry).Recalls mentions := by
  intro other
  rw [get?_recordFor, ← recalls other]
  by_cases same : other = id
  · rw [if_pos same, same, isEntry]
    rfl
  · rw [if_neg same]

/-! ## Look-ups -/

/-- The check of a declared type finds what is wrong with a mention of the same kind. -/
theorem checkDeclaredType_eq (sameKind : entry.kind = mention.kind)
    (sameId : entry.handle.id = mention.id) :
    checkDeclaredType mention.kind mention.declared entry.handle =
      match entry.mention.clash? mention with
      | some failure => .error failure
      | none => .ok () := by
  simp only [clash?, ArenaEntry.mention, if_pos sameKind, checkDeclaredType, sameId]
  generalize mention.declared = expected
  generalize entry.handle.declaredType = found
  cases expected with
  | none => rfl
  | some wanted =>
      cases found with
      | none => rfl
      | some actual => by_cases sameType : wanted = actual <;> simp only [sameType, if_true, if_false]

/-- A look-up fails if it does not agree with the earliest mention of its id, and else is one more
mention. -/
theorem Recalls.resolver (recalls : arena.Recalls mentions) (mention : Mention) :
    (∃ failure, ((earliest? mentions mention.id).bind fun earliest => earliest.clash? mention) =
        some failure ∧
      (Arena.resolver mention.kind mention.id mention.declared).run arena = .error failure) ∨
    (((earliest? mentions mention.id).bind fun earliest => earliest.clash? mention) = none ∧
      ∃ handle after, (Arena.resolver mention.kind mention.id mention.declared).run arena =
          .ok (handle, after) ∧ after.Recalls (mentions ++ [mention])) := by
  have resolved := arena.resolves mention.kind mention.id mention.declared
  generalize (Arena.resolver mention.kind mention.id mention.declared).run arena = result
    at resolved ⊢
  cases resolved with
  | new isNew =>
      have isFirst : earliest? mentions mention.id = none := by
        rw [← recalls mention.id, isNew]
        rfl
      rw [isFirst]
      exact Or.inr ⟨rfl, _, _, rfl, recalls.add isNew mention.declared false⟩
  | met isMet agrees =>
      rw [checkDeclaredType_eq rfl (recalls.id_eq isMet)] at agrees
      rw [recalls.earliest isMet, Option.bind_some]
      split at agrees
      · cases agrees
      · exact Or.inr ⟨‹_›, _, _, rfl, recalls.again isMet⟩
  | differs isMet differs =>
      rw [checkDeclaredType_eq rfl (recalls.id_eq isMet)] at differs
      rw [recalls.earliest isMet, Option.bind_some]
      split at differs
      · cases differs
        exact Or.inl ⟨_, ‹_›, rfl⟩
      · cases differs
  | clash isMet differs =>
      rw [recalls.earliest isMet, Option.bind_some]
      exact Or.inl ⟨_, if_neg differs, rfl⟩

/-- The look-up of a mentioned id. -/
def lookUp (mention : Mention) : StateT Arena Outcome Unit :=
  effect (Arena.resolver mention.kind mention.id mention.declared)

/-- Look-ups, one after another, fail with the first disagreement of their mentions, and else leave an
arena that recalls them. -/
theorem lookUps_run (mentions : List Mention) (heap : Heap) :
    (∃ failure, disagreement? mentions = some failure ∧
      (forM mentions lookUp).run (.start heap) = .error failure) ∨
    (disagreement? mentions = none ∧
      ∃ arena, (forM mentions lookUp).run (.start heap) = .ok ((), arena) ∧
        arena.Recalls mentions) := by
  rw [disagreement?]
  suffices goesOn : ∀ rest done (arena : Arena), mentions = done ++ rest → arena.Recalls done →
      (∃ failure, (rest.findSome? fun mention =>
          (earliest? mentions mention.id).bind fun earliest => earliest.clash? mention) =
            some failure ∧ (forM rest lookUp).run arena = .error failure) ∨
      ((rest.findSome? fun mention =>
          (earliest? mentions mention.id).bind fun earliest => earliest.clash? mention) = none ∧
        ∃ after, (forM rest lookUp).run arena = .ok ((), after) ∧ after.Recalls mentions) from
    goesOn mentions [] (.start heap) rfl recalls_start
  intro rest
  induction rest with
  | nil =>
      intro done arena isWhole recalls
      rw [List.append_nil] at isWhole
      exact Or.inr ⟨rfl, arena, rfl, isWhole ▸ recalls⟩
  | cons mention rest inductionHypothesis =>
      intro done arena isWhole recalls
      -- The earliest mention of all is the earliest one so far, or this one, which agrees with itself.
      have sameClash : ((earliest? mentions mention.id).bind fun earliest =>
          earliest.clash? mention) =
            (earliest? done mention.id).bind fun earliest => earliest.clash? mention := by
        rw [isWhole, earliest?_append, earliest?_cons_self]
        cases earliest? done mention.id with
        | none => exact clash?_self mention
        | some earliest => rfl
      rw [List.forM_cons, StateT.run_bind, List.findSome?_cons, sameClash]
      rcases run_of_map (map_const
        (Arena.resolver mention.kind mention.id mention.declared) ()) arena with
          ⟨failure, asked, failed⟩ | ⟨handle, after, asked, found, -⟩
      · rcases recalls.resolver mention with ⟨same, isClash, ran⟩ | ⟨-, _, _, ran, -⟩
        · cases ran.symm.trans failed
          rw [isClash]
          exact Or.inl ⟨failure, rfl, by rw [lookUp, asked]; rfl⟩
        · cases ran.symm.trans failed
      · rcases recalls.resolver mention with ⟨_, -, ran⟩ | ⟨agrees, _, _, ran, afterRecalls⟩
        · cases ran.symm.trans found
        · cases ran.symm.trans found
          rw [agrees, lookUp, asked]
          exact inductionHypothesis (done ++ [mention]) after (by simp [isWhole]) afterRecalls

/-! ## Registration -/

/-- A record is registered as one more mention of its id, with its type, or it is refused, with a type
mismatch only where the earliest mention is of another kind. -/
theorem Recalls.register (recalls : arena.Recalls mentions) (kind : ObjectKind)
    (id typeName : String) :
    (∃ failure, arena.register kind id typeName = .error failure ∧
      ∀ detail, failure = .typeMismatch detail →
        ∃ earliest, earliest? mentions id = some earliest ∧ earliest.kind ≠ kind ∧
          failure = Failure.kindClash id earliest.kind kind) ∨
    ∃ after, arena.register kind id typeName = .ok after ∧
      after.Recalls (mentions ++ [⟨kind, id, some typeName⟩]) := by
  have registered := arena.registers kind id typeName
  generalize arena.register kind id typeName = result at registered ⊢
  cases registered with
  | new isNew => exact Or.inr ⟨_, rfl, recalls.add isNew (some typeName) true⟩
  | met isMet =>
      exact Or.inr ⟨_, rfl, (recalls.recordFor isMet).again (get?_recordFor_self _)⟩
  | twice => exact Or.inl ⟨_, rfl, nofun⟩
  | clash isMet differs =>
      exact Or.inl ⟨_, rfl, fun _ _ => ⟨_, recalls.earliest isMet, differs, rfl⟩⟩

end Arena

end GraphCheckpoint
