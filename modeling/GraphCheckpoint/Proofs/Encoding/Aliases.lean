import Mathlib.Data.String.Basic
import GraphCheckpoint.Encoding.Settings
import GraphCheckpoint.Proofs.Table

/-!
Contract: which names of object types survive their aliases.

Owns:
- `Aliases.ofCalls`, the aliases that a sequence of calls leaves;
- the type that is read for a written name, as the first in string order that has it for an alias;
- `Aliases.Survives`, the names that are read as they were, one by one and all together;
- that a name which has been read once is read as itself from then on.

Does not own: where names of types stand in documents.

A name is written by a look-up and read by a search, and a name without an entry stands for itself
in both. So aliases may collide with each other and with names that have no alias.
-/

namespace GraphCheckpoint.Encoding.Aliases

variable {aliases : Aliases} {typeName written : String}

/-- The aliases after some calls, each of which lets a name stand for a type. -/
def ofCalls (calls : List (String × String)) : Aliases :=
  calls.foldl (fun aliases call => aliases.add call.1 call.2) .empty

/-- The first type, in string order, that has the alias. -/
structure IsFirst (aliases : Aliases) (written typeName : String) : Prop where
  aliased : aliases.byType.get? typeName = some written
  first : ∀ other, aliases.byType.get? other = some written → typeName ≤ other

/-- It has an alias that no smaller type has, or it has none and is the alias of no type. -/
def Survives (aliases : Aliases) (typeName : String) : Prop :=
  (∃ written, aliases.byType.get? typeName = some written ∧
    ∀ other < typeName, aliases.byType.get? other ≠ some written) ∨
  (aliases.byType.get? typeName = none ∧ ∀ other, aliases.byType.get? other ≠ some typeName)

/-- No two types have one alias. -/
def Injective (aliases : Aliases) : Prop :=
  ∀ one other written, aliases.byType.get? one = some written →
    aliases.byType.get? other = some written → one = other

/-- Every alias is the name of a type that has an alias itself. -/
def Closed (aliases : Aliases) : Prop :=
  ∀ typeName written, aliases.byType.get? typeName = some written →
    aliases.byType.contains written = true

/-! ## Calls -/

theorem ordered_ofCalls (calls : List (String × String)) : (ofCalls calls).byType.Ordered := by
  have kept : ∀ start : Aliases, start.byType.Ordered →
      (calls.foldl (fun aliases call => aliases.add call.1 call.2) start).byType.Ordered := by
    induction calls with
    | nil => exact fun _ ordered => ordered
    | cons call rest inductionHypothesis =>
        exact fun start ordered => inductionHypothesis _ (ordered.insert call.1 call.2)
  exact kept .empty List.Pairwise.nil

/-! ## Reading a written name -/

theorem decodeName_of_not_aliased (absent : ∀ typeName, aliases.byType.get? typeName ≠ some written)
    (ordered : aliases.byType.Ordered) : aliases.decodeName written = written := by
  have notFound : aliases.byType.find? (fun entry => entry.2 == written) = none := by
    refine List.find?_eq_none.mpr fun entry member isAlias => absent entry.1 ?_
    rw [Table.get?_of_mem ordered member, eq_of_beq isAlias]
  rw [decodeName, notFound]

/-- The search goes through the types in string order. -/
theorem isFirst_decodeName (ordered : aliases.byType.Ordered)
    (aliased : aliases.byType.get? typeName = some written) :
    aliases.IsFirst written (aliases.decodeName written) := by
  cases found : aliases.byType.find? (fun entry => entry.2 == written) with
  | none =>
      have notAlias := List.find?_eq_none.mp found _ (Table.mem_of_get? aliased)
      exact absurd (beq_self_eq_true written) notAlias
  | some entry =>
      obtain ⟨isAlias, before, behind, isWhole, passed⟩ := List.find?_eq_some_iff_append.mp found
      have isRead : aliases.decodeName written = entry.1 := by
        rw [decodeName, found]
      have whole : Table.Ordered (before ++ entry :: behind) := isWhole ▸ ordered
      rw [isRead]
      refine ⟨?_, fun other isToo => ?_⟩
      · rw [← eq_of_beq isAlias]
        refine Table.get?_of_mem ordered ?_
        rw [isWhole]
        exact List.mem_append_right before List.mem_cons_self
      · have member := Table.mem_of_get? isToo
        rw [isWhole] at member
        rcases List.mem_append.mp member with isBefore | isBehind
        · have skipped := passed _ isBefore
          simp at skipped
        · rcases List.mem_cons.mp isBehind with isEntry | later
          · exact le_of_eq (congrArg Prod.fst isEntry.symm)
          · have after := (Table.ordered_cons.mp (List.pairwise_append.mp whole).2.1).1
            exact le_of_lt (after _ later)

/-! ## Names that survive -/

theorem IsFirst.eq_iff (isFirst : aliases.IsFirst written typeName) {other : String}
    (aliased : aliases.byType.get? other = some written) :
    typeName = other ↔ ∀ smaller < other, aliases.byType.get? smaller ≠ some written := by
  constructor
  · rintro rfl smaller before isToo
    exact absurd before (not_lt.mpr (isFirst.first smaller isToo))
  · intro noneBefore
    rcases lt_or_eq_of_le (isFirst.first other aliased) with before | same
    · exact absurd isFirst.aliased (noneBefore typeName before)
    · exact same

/-- A name is read as it was exactly if it survives. -/
theorem decodeName_encodeName_iff (ordered : aliases.byType.Ordered) :
    aliases.decodeName (aliases.encodeName typeName) = typeName ↔ aliases.Survives typeName := by
  cases aliased : aliases.byType.get? typeName with
  | some written =>
      have isFirst := isFirst_decodeName ordered aliased
      rw [encodeName, aliased, Option.getD_some, isFirst.eq_iff aliased]
      simp [Survives, aliased]
  | none =>
      rw [encodeName, aliased, Option.getD_none]
      simp only [Survives, aliased, reduceCtorEq, false_and, exists_false, false_or, true_and]
      constructor
      · intro same other isToo
        have aliasedToo := (isFirst_decodeName ordered isToo).aliased
        rw [same, aliased] at aliasedToo
        cases aliasedToo
      · exact fun absent => decodeName_of_not_aliased absent ordered

/-- A name that does not survive is read as the first type that has the written name for an alias. -/
theorem isFirst_of_not_survives (ordered : aliases.byType.Ordered)
    (lost : ¬ aliases.Survives typeName) :
    aliases.IsFirst (aliases.encodeName typeName)
      (aliases.decodeName (aliases.encodeName typeName)) := by
  cases aliased : aliases.byType.get? typeName with
  | some written =>
      rw [encodeName, aliased, Option.getD_some]
      exact isFirst_decodeName ordered aliased
  | none =>
      obtain ⟨other, isToo⟩ : ∃ other, aliases.byType.get? other = some typeName := by
        refine Classical.byContradiction fun absent => lost (Or.inr ⟨aliased, ?_⟩)
        exact not_exists.mp absent
      rw [encodeName, aliased, Option.getD_none]
      exact isFirst_decodeName ordered isToo

/-- The name that is read is written as the one that it was read for, so it is read as itself. -/
theorem encodeName_decodeName_encodeName (ordered : aliases.byType.Ordered) (typeName : String) :
    aliases.encodeName (aliases.decodeName (aliases.encodeName typeName)) =
      aliases.encodeName typeName := by
  by_cases survives : aliases.Survives typeName
  · rw [(decodeName_encodeName_iff ordered).mpr survives]
  · have isFirst := isFirst_of_not_survives ordered survives
    rw [encodeName, isFirst.aliased, Option.getD_some]

/-- All names survive exactly if no two types share an alias and every alias is itself the name of a
type with an alias. -/
theorem forall_survives_iff : (∀ typeName, aliases.Survives typeName) ↔
    aliases.Injective ∧ aliases.Closed := by
  constructor
  · intro survive
    refine ⟨fun one other written isOne isOther => ?_, fun typeName written aliased => ?_⟩
    · have noneBefore : ∀ {name}, aliases.byType.get? name = some written →
          ∀ smaller < name, aliases.byType.get? smaller ≠ some written := by
        intro name isName
        rcases survive name with ⟨own, isOwn, none⟩ | ⟨isNone, -⟩
        · cases isName.symm.trans isOwn
          exact none
        · exact nomatch isName.symm.trans isNone
      rcases lt_trichotomy one other with before | same | before
      · exact absurd isOne (noneBefore isOther one before)
      · exact same
      · exact absurd isOther (noneBefore isOne other before)
    · rcases survive written with ⟨own, isOwn, -⟩ | ⟨-, none⟩
      · exact Table.contains_iff.mpr ⟨own, isOwn⟩
      · exact absurd aliased (none typeName)
  · rintro ⟨injective, closed⟩ typeName
    cases aliased : aliases.byType.get? typeName with
    | some written =>
        refine Or.inl ⟨written, aliased, fun other before isToo => ?_⟩
        exact absurd (injective other typeName written isToo aliased) (ne_of_lt before)
    | none =>
        refine Or.inr ⟨aliased, fun other isToo => ?_⟩
        obtain ⟨own, isOwn⟩ := Table.contains_iff.mp (closed other typeName isToo)
        exact nomatch aliased.symm.trans isOwn

end GraphCheckpoint.Encoding.Aliases
