/-!
Contract: operations that change a state and may fail.

Owns:
- what one operation after another does, up to the first failure;
- `Leaves`, what is known of an operation and of what it leaves, however it ends, and `Ends`, where
  only the failure matters of an operation that fails;
- loops, by what holds when a part of the items has been gone through.

Does not own: the operations.

What was done before a failure stays done.
-/

namespace GraphCheckpoint

variable {ε σ α β : Type} {before after : σ}

/-- After an operation that succeeds, the next one goes on from where it ended. -/
theorem bind_ok {action : ExceptT ε (StateM σ) α} {next : α → ExceptT ε (StateM σ) β} {result : α}
    (ran : action before = (.ok result, after)) : (action >>= next) before = next result after := by
  change (ExceptT.bind action next) before = _
  simp only [ExceptT.bind, ExceptT.mk, bind, StateT.bind, ran]
  rfl

/-- After an operation that fails, nothing follows. -/
theorem bind_error {action : ExceptT ε (StateM σ) α} {next : α → ExceptT ε (StateM σ) β} {failure : ε}
    (ran : action before = (.error failure, after)) :
    (action >>= next) before = (.error failure, after) := by
  change (ExceptT.bind action next) before = _
  simp only [ExceptT.bind, ExceptT.mk, bind, StateT.bind, ran]
  rfl

/-- Where two operations in turn succeed, the first one does. -/
theorem bind_eq_ok {action : ExceptT ε (StateM σ) α} {next : α → ExceptT ε (StateM σ) β} {result : β}
    (ran : (action >>= next) before = (.ok result, after)) :
    ∃ middle between, action before = (.ok middle, between) ∧
      next middle between = (.ok result, after) := by
  cases first : action before with
  | mk outcome between =>
      cases outcome with
      | ok middle =>
          rw [bind_ok first] at ran
          exact ⟨middle, between, rfl, ran⟩
      | error failure =>
          rw [bind_error first] at ran
          cases ran

/-- Where two outcomes in turn are results, the first one is. -/
theorem outcome_bind_eq_ok {outcome : Except ε α} {next : α → Except ε β} {result : β}
    (isOk : (outcome >>= next) = .ok result) :
    ∃ middle, outcome = .ok middle ∧ next middle = .ok result := by
  cases outcome with
  | error failure => cases isOk
  | ok middle => exact ⟨middle, rfl, isOk⟩

/-- Items that are each read back from their print are read back together. -/
theorem mapM_map_of_inverse {print : α → β} {read : β → Except ε α} {items : List α}
    (inverse : ∀ item ∈ items, read (print item) = .ok item) :
    (items.map print).mapM read = .ok items := by
  induction items with
  | nil => rfl
  | cons item rest inductionHypothesis =>
      rw [List.map_cons, List.mapM_cons, inverse item (by simp),
        inductionHypothesis fun other member => inverse other (by simp [member])]
      rfl

/-- Items are read together when each of them can be read. -/
theorem exists_mapM_iff {read : α → Except ε β} {items : List α} :
    (∃ records, items.mapM read = .ok records) ↔
      ∀ item ∈ items, ∃ record, read item = .ok record := by
  induction items with
  | nil => simp [pure, Except.pure]
  | cons item rest inductionHypothesis =>
      rw [List.forall_mem_cons, ← inductionHypothesis, List.mapM_cons]
      constructor
      · rintro ⟨records, areRecords⟩
        obtain ⟨first, isFirst, areRecords⟩ := outcome_bind_eq_ok areRecords
        obtain ⟨others, areOthers, -⟩ := outcome_bind_eq_ok areRecords
        exact ⟨⟨first, isFirst⟩, others, areOthers⟩
      · rintro ⟨⟨first, isFirst⟩, others, areOthers⟩
        refine ⟨first :: others, ?_⟩
        rw [isFirst, areOthers]
        rfl

/-- Items fail to be read together as one of them does. -/
theorem exists_mem_of_mapM_error {read : α → Except ε β} {items : List α} {failure : ε}
    (fails : items.mapM read = .error failure) : ∃ item ∈ items, read item = .error failure := by
  induction items with
  | nil => cases fails
  | cons item rest inductionHypothesis =>
      rw [List.mapM_cons] at fails
      cases first : read item with
      | error found =>
          rw [first] at fails
          cases fails
          exact ⟨item, List.mem_cons_self, first⟩
      | ok record =>
          rw [first] at fails
          cases others : rest.mapM read with
          | error found =>
              simp only [bind, Except.bind, others] at fails
              cases fails
              obtain ⟨bad, member, unread⟩ := inductionHypothesis others
              exact ⟨bad, List.mem_cons_of_mem item member, unread⟩
          | ok records =>
              simp only [bind, Except.bind, others] at fails
              cases fails

/-- An outcome that is known to be a result is the result that can be computed of it. -/
theorem outcome_eq_ok_getD {outcome : Except ε α} (isOk : outcome.isOk = true) (other : α) :
    outcome = .ok (outcome.toOption.getD other) := by
  cases outcome with
  | ok result => rfl
  | error failure => cases isOk

/-- An outcome is what an operation gives that leaves the state alone. -/
theorem lift_run (outcome : Except ε α) :
    (liftM outcome : ExceptT ε (StateM σ) α) before = (outcome, before) := by
  cases outcome <;> rfl

/-- What handles failures is not asked where there is none. -/
theorem tryCatch_ok {action : ExceptT ε (StateM σ) α} {handler : ε → ExceptT ε (StateM σ) α}
    {result : α} (ran : action before = (.ok result, after)) :
    tryCatch action handler before = (.ok result, after) := by
  change (ExceptT.tryCatch action handler) before = _
  simp only [ExceptT.tryCatch, ExceptT.mk, bind, StateT.bind, ran]
  rfl

/-- A failure is handled where the operation has got to. -/
theorem tryCatch_error {action : ExceptT ε (StateM σ) α} {handler : ε → ExceptT ε (StateM σ) α}
    {failure : ε} (ran : action before = (.error failure, after)) :
    tryCatch action handler before = handler failure after := by
  change (ExceptT.tryCatch action handler) before = _
  simp only [ExceptT.tryCatch, ExceptT.mk, bind, StateT.bind, ran]

/-! ## Operations that may fail -/

/-- The operation fails or succeeds, and leaves what is described of either. -/
def Leaves (action : ExceptT ε (StateM σ) α) (before : σ) (fails : ε → σ → Prop)
    (holds : α → σ → Prop) : Prop :=
  (∃ failure after, action before = (.error failure, after) ∧ fails failure after) ∨
    ∃ result after, action before = (.ok result, after) ∧ holds result after

section Leaves

variable {action : ExceptT ε (StateM σ) α} {fails : ε → σ → Prop} {holds : α → σ → Prop}

theorem Leaves.of_ok {result : α} (ran : action before = (.ok result, after))
    (held : holds result after) : Leaves action before fails holds :=
  Or.inr ⟨result, after, ran, held⟩

theorem Leaves.of_error {failure : ε} (ran : action before = (.error failure, after))
    (failed : fails failure after) : Leaves action before fails holds :=
  Or.inl ⟨failure, after, ran, failed⟩

theorem Leaves.imp {fewer : ε → σ → Prop} {stronger : α → σ → Prop}
    (leaves : Leaves action before fewer stronger)
    (failing : ∀ failure after, fewer failure after → fails failure after)
    (holding : ∀ result after, stronger result after → holds result after) :
    Leaves action before fails holds := by
  rcases leaves with ⟨failure, after, ran, failed⟩ | ⟨result, after, ran, held⟩
  · exact .of_error ran (failing failure after failed)
  · exact .of_ok ran (holding result after held)

/-- Of two operations in turn, the second goes on from what the first leaves. -/
theorem Leaves.bind {next : α → ExceptT ε (StateM σ) β} {further : β → σ → Prop}
    (leaves : Leaves action before fails holds)
    (nextLeaves : ∀ result after, holds result after → Leaves (next result) after fails further) :
    Leaves (action >>= next) before fails further := by
  rcases leaves with ⟨failure, between, ran, failed⟩ | ⟨result, between, ran, held⟩
  · exact .of_error (bind_error ran) failed
  · have goesOn : (action >>= next) before = next result between := bind_ok ran
    rcases nextLeaves result between held with ⟨failure, after, ended, failed⟩ |
      ⟨other, after, ended, finished⟩
    · exact .of_error (goesOn.trans ended) failed
    · exact .of_ok (goesOn.trans ended) finished

end Leaves

/-- The operation fails for a described reason, or it succeeds and leaves what is described. -/
def Ends (action : ExceptT ε (StateM σ) α) (before : σ) (fails : ε → Prop) (holds : α → σ → Prop) :
    Prop :=
  (∃ failure after, action before = (.error failure, after) ∧ fails failure) ∨
    ∃ result after, action before = (.ok result, after) ∧ holds result after

section Ends

variable {action : ExceptT ε (StateM σ) α} {fails : ε → Prop} {holds : α → σ → Prop}

theorem Ends.of_ok {result : α} (ran : action before = (.ok result, after))
    (held : holds result after) : Ends action before fails holds :=
  Or.inr ⟨result, after, ran, held⟩

theorem Ends.of_error {failure : ε} (ran : action before = (.error failure, after))
    (failed : fails failure) : Ends action before fails holds :=
  Or.inl ⟨failure, after, ran, failed⟩

/-- Of what a failed operation leaves, nothing may be said. -/
theorem ends_iff_leaves :
    Ends action before fails holds ↔ Leaves action before (fun failure _ => fails failure) holds :=
  Iff.rfl

theorem Ends.imp {fewer : ε → Prop} {stronger : α → σ → Prop}
    (ends : Ends action before fewer stronger) (failing : ∀ failure, fewer failure → fails failure)
    (holding : ∀ result after, stronger result after → holds result after) :
    Ends action before fails holds :=
  ends_iff_leaves.mpr
    ((ends_iff_leaves.mp ends).imp (fun failure _ => failing failure) holding)

/-- Of two operations in turn, the second goes on from what the first leaves. -/
theorem Ends.bind {next : α → ExceptT ε (StateM σ) β} {further : β → σ → Prop}
    (ends : Ends action before fails holds)
    (nextEnds : ∀ result after, holds result after → Ends (next result) after fails further) :
    Ends (action >>= next) before fails further :=
  ends_iff_leaves.mpr ((ends_iff_leaves.mp ends).bind fun result after held =>
    ends_iff_leaves.mp (nextEnds result after held))

/-- An operation that only looks at the state leaves the next one what it has found. -/
theorem Ends.bind_reads {next : α → ExceptT ε (StateM σ) β} {found : α → Prop}
    {further : β → σ → Prop}
    (ends : Ends action before fails fun result after => after = before ∧ found result)
    (nextEnds : ∀ result, found result → Ends (next result) before fails further) :
    Ends (action >>= next) before fails further := by
  refine ends.bind fun result after held => ?_
  rw [held.1]
  exact nextEnds result held.2

/-- An operation that is known to succeed leaves the rest to the next one. -/
theorem Ends.step {next : α → ExceptT ε (StateM σ) β} {result : α} {further : β → σ → Prop}
    (ran : action before = (.ok result, after)) (ends : Ends (next result) after fails further) :
    Ends (action >>= next) before fails further := by
  rw [Ends, bind_ok ran]
  exact ends

end Ends

/-! ## Loops -/

section Loops

variable (items : List α)

/-- A loop fails as one of its rounds does, or leaves what its rounds carry along: a property of the
items gone through, of their results and of the state. -/
theorem leaves_mapM {action : α → ExceptT ε (StateM σ) β} {fails : ε → σ → Prop}
    (holds : List α → List β → σ → Prop)
    (round : ∀ done results item rest state, items = done ++ item :: rest →
      holds done results state → Leaves (action item) state fails fun result next =>
        holds (done ++ [item]) (results ++ [result]) next)
    (atFirst : holds [] [] before) :
    Leaves (items.mapM action) before fails fun results after => holds items results after := by
  suffices goesOn : ∀ rest done results state, items = done ++ rest → holds done results state →
      Leaves (rest.mapM action) state fails fun others after =>
        holds items (results ++ others) after from
    goesOn items [] [] before rfl atFirst
  intro rest
  induction rest with
  | nil =>
      intro done results state isWhole held
      rw [List.append_nil] at isWhole
      subst isWhole
      have nothing : ([].mapM action : ExceptT ε (StateM σ) (List β)) state = (.ok [], state) := rfl
      refine .of_ok nothing ?_
      rw [List.append_nil]
      exact held
  | cons item rest inductionHypothesis =>
      intro done results state isWhole held
      rw [List.mapM_cons]
      refine (round done results item rest state isWhole held).bind fun result next nextHeld => ?_
      refine (inductionHypothesis (done ++ [item]) (results ++ [result]) next (by simp [isWhole])
        nextHeld).bind fun others after afterHeld => ?_
      exact .of_ok rfl (by simpa using afterHeld)

/-- The same for a loop without results. -/
theorem leaves_forM {action : α → ExceptT ε (StateM σ) Unit} {fails : ε → σ → Prop}
    (holds : List α → σ → Prop)
    (round : ∀ done item rest state, items = done ++ item :: rest → holds done state →
      Leaves (action item) state fails fun _ next => holds (done ++ [item]) next)
    (atFirst : holds [] before) :
    Leaves (items.forM action) before fails fun _ after => holds items after := by
  suffices goesOn : ∀ rest done state, items = done ++ rest → holds done state →
      Leaves (rest.forM action) state fails fun _ after => holds items after from
    goesOn items [] before rfl atFirst
  intro rest
  induction rest with
  | nil =>
      intro done state isWhole held
      rw [List.append_nil] at isWhole
      subst isWhole
      exact .of_ok rfl held
  | cons item rest inductionHypothesis =>
      intro done state isWhole held
      exact (round done item rest state isWhole held).bind fun _ next nextHeld =>
        inductionHypothesis (done ++ [item]) next (by simp [isWhole]) nextHeld

/-- Nothing need be said of what a loop leaves that fails. -/
theorem ends_mapM {action : α → ExceptT ε (StateM σ) β} {fails : ε → Prop}
    (holds : List α → List β → σ → Prop)
    (round : ∀ done results item rest state, items = done ++ item :: rest →
      holds done results state → Ends (action item) state fails fun result next =>
        holds (done ++ [item]) (results ++ [result]) next)
    (atFirst : holds [] [] before) :
    Ends (items.mapM action) before fails fun results after => holds items results after :=
  ends_iff_leaves.mpr (leaves_mapM items holds
    (fun done results item rest state isWhole held =>
      ends_iff_leaves.mp (round done results item rest state isWhole held)) atFirst)

theorem ends_forM {action : α → ExceptT ε (StateM σ) Unit} {fails : ε → Prop}
    (holds : List α → σ → Prop)
    (round : ∀ done item rest state, items = done ++ item :: rest → holds done state →
      Ends (action item) state fails fun _ next => holds (done ++ [item]) next)
    (atFirst : holds [] before) :
    Ends (items.forM action) before fails fun _ after => holds items after :=
  ends_iff_leaves.mpr (leaves_forM items holds
    (fun done item rest state isWhole held =>
      ends_iff_leaves.mp (round done item rest state isWhole held)) atFirst)

/-- An operation that cannot fail succeeds. -/
theorem Ends.run {action : ExceptT ε (StateM σ) α} {holds : α → σ → Prop}
    (ends : Ends action before (fun _ => False) holds) :
    ∃ result after, action before = (.ok result, after) ∧ holds result after :=
  ends.resolve_left fun ⟨_, _, _, impossible⟩ => impossible

/-- A loop whose every round succeeds does, and leaves what the rounds carry along. -/
theorem mapM_run (action : α → ExceptT ε (StateM σ) β) (holds : List α → List β → σ → Prop)
    (round : ∀ done results item rest state, items = done ++ item :: rest →
      holds done results state → ∃ result next, action item state = (.ok result, next) ∧
        holds (done ++ [item]) (results ++ [result]) next)
    (atFirst : holds [] [] before) :
    ∃ results after, items.mapM action before = (.ok results, after) ∧
      holds items results after :=
  (ends_mapM items holds (fun done results item rest state isWhole held =>
    Or.inr (round done results item rest state isWhole held)) atFirst).run

/-- The same for a loop without results. -/
theorem forM_run (action : α → ExceptT ε (StateM σ) Unit) (holds : List α → σ → Prop)
    (round : ∀ done item rest state, items = done ++ item :: rest → holds done state →
      ∃ next, action item state = (.ok (), next) ∧ holds (done ++ [item]) next)
    (atFirst : holds [] before) :
    ∃ after, items.forM action before = (.ok (), after) ∧ holds items after := by
  obtain ⟨_, after, ran, held⟩ := (ends_forM items holds (fun done item rest state isWhole held =>
    Or.inr ⟨(), round done item rest state isWhole held⟩) atFirst).run
  exact ⟨after, ran, held⟩

variable {items}

/-- A loop whose rounds only look at the state gives what each of them sees. -/
theorem mapM_reads {action : α → ExceptT ε (StateM σ) β} {seen : α → β}
    (round : ∀ item ∈ items, action item before = (.ok (seen item), before)) :
    items.mapM action before = (.ok (items.map seen), before) := by
  induction items with
  | nil => rfl
  | cons item rest inductionHypothesis =>
      rw [List.mapM_cons]
      refine (bind_ok (round item (by simp))).trans ?_
      exact (bind_ok (inductionHypothesis fun other member => round other (by simp [member]))).trans
        rfl

end Loops

end GraphCheckpoint
