import Mathlib.Logic.Relation
import GraphCheckpoint.Handle

/-!
Contract: trees that are put together from links, told by the order in which the links are made.

Owns:
- `Grown`, the lists of links that make trees one link after the other, and the top of a tree;
- `Overtaken`, what was linked below a parent that was itself linked below another later;
- `Joins`, to which ancestor something belongs if that is settled when its link is made, and when
  this ancestor is the top.

Does not own: what is linked, or where the links are kept.
-/

namespace GraphCheckpoint

namespace Linking

variable {links : List (Address × Address)} {parent child owner top x y : Address}

/-- It has been linked below nothing. A link is written as its parent and its child. -/
def IsTop (links : List (Address × Address)) (x : Address) : Prop :=
  ∀ parent, (parent, x) ∉ links

/-- The second is the first, or one of its ancestors. -/
def Upward (links : List (Address × Address)) : Address → Address → Prop :=
  Relation.ReflTransGen fun child parent => (parent, child) ∈ links

/-- Links that make trees, one after the other. -/
inductive Grown : List (Address × Address) → Prop where
  | none : Grown []
  | link {links : List (Address × Address)} {parent child : Address} (grown : Grown links)
      (isTop : IsTop links child) (apart : ¬ Upward links parent child) :
      Grown (links ++ [(parent, child)])

/-- Its parent was linked below another after it had been linked below the parent. -/
def Overtaken (links : List (Address × Address)) (x : Address) : Prop :=
  ∃ parent top, List.Sublist [(parent, x), (top, parent)] links

/-- Nothing is linked below another once it has children. -/
def TopDown (links : List (Address × Address)) : Prop :=
  links.Pairwise fun earlier later => earlier.1 ≠ later.2

/-- What joins the application of its parent when it is linked: it belongs to the parent, where that
was a top then, and otherwise to what the parent belongs to. -/
inductive Joins (links : List (Address × Address)) : Address → Address → Prop where
  | parent {x parent : Address} (isLink : (parent, x) ∈ links)
      (isLast : Overtaken links x ∨ IsTop links parent) : Joins links x parent
  | above {x parent owner : Address} (isLink : (parent, x) ∈ links)
      (inTime : ¬ Overtaken links x) (joins : Joins links parent owner) : Joins links x owner

theorem isTop_concat :
    IsTop (links ++ [(parent, child)]) x ↔ IsTop links x ∧ x ≠ child := by
  simp only [IsTop, List.mem_append, List.mem_singleton, Prod.mk.injEq, not_or, forall_and]
  exact and_congr_right fun _ => ⟨fun others same => others parent ⟨rfl, same⟩,
    fun differs _ same => differs same.2⟩

/-- One more link overtakes what is linked below its child. -/
theorem overtaken_concat :
    Overtaken (links ++ [(parent, child)]) x ↔ Overtaken links x ∨ (child, x) ∈ links := by
  constructor
  · rintro ⟨middle, top, isPart⟩
    obtain ⟨front, back, isWhole, isFront, isBack⟩ := List.sublist_append_iff.mp isPart
    cases isBack with
    | cons _ isBack =>
        rw [List.sublist_nil.mp isBack, List.append_nil] at isWhole
        exact Or.inl ⟨middle, top, isWhole ▸ isFront⟩
    | cons_cons _ isBack =>
        rw [List.sublist_nil.mp isBack] at isWhole
        have inTwo : [(middle, x)] ++ [(top, middle)] = front ++ [(parent, child)] := isWhole
        obtain ⟨isOne, isLast⟩ := List.append_inj' inTwo rfl
        cases isLast
        exact Or.inr (List.singleton_sublist.mp (isOne ▸ isFront))
  · rintro (⟨middle, top, isPart⟩ | isLink)
    · exact ⟨middle, top, isPart.trans (List.sublist_append_left _ _)⟩
    · exact ⟨child, parent, (List.singleton_sublist.mpr isLink).append (List.Sublist.refl _)⟩

theorem not_isTop_of_overtaken (overtaken : Overtaken links x) : ¬ IsTop links x := by
  obtain ⟨parent, top, isPart⟩ := overtaken
  exact fun isTop => isTop parent (isPart.subset (by simp))

theorem topDown_iff : TopDown links ↔ ∀ x, ¬ Overtaken links x := by
  rw [TopDown, List.pairwise_iff_forall_sublist]
  constructor
  · rintro differ x ⟨parent, top, isPart⟩
    exact differ isPart rfl
  · rintro noneOvertaken ⟨parent, x⟩ ⟨top, middle⟩ isPart same
    cases (same : parent = middle)
    exact noneOvertaken x ⟨parent, top, isPart⟩

/-- There is one parent at most. -/
theorem Grown.parent_unique (grown : Grown links) (isLink : (parent, x) ∈ links)
    (isToo : (y, x) ∈ links) : y = parent := by
  induction grown with
  | none => cases isLink
  | @link links newParent child grown isTop _ inductionHypothesis =>
      simp only [List.mem_append, List.mem_singleton, Prod.mk.injEq] at isLink isToo
      rcases isLink with isLink | ⟨rfl, rfl⟩ <;> rcases isToo with isToo | ⟨rfl, isChild⟩
      · exact inductionHypothesis isLink isToo
      · exact absurd (isChild ▸ isLink) (isTop parent)
      · exact absurd isToo (isTop y)
      · rfl

/-- The parent of what is overtaken is no top. -/
theorem Grown.not_isTop_of_link (grown : Grown links) (isLink : (parent, x) ∈ links)
    (overtaken : Overtaken links x) : ¬ IsTop links parent := by
  obtain ⟨middle, top, isPart⟩ := overtaken
  have isParent : middle = parent := grown.parent_unique isLink (isPart.subset (by simp))
  exact fun isTop => isTop top (isParent ▸ isPart.subset (by simp))

/-! ## Tops -/

theorem upward_of_isTop (isTop : IsTop links x) : Upward links x y ↔ y = x := by
  constructor
  · intro upward
    rcases upward.cases_head with same | ⟨parent, isLink, -⟩
    · exact same.symm
    · exact absurd isLink (isTop parent)
  · rintro rfl
    exact .refl

theorem Grown.upward_of_link (grown : Grown links) (isLink : (parent, x) ∈ links) :
    Upward links x y ↔ y = x ∨ Upward links parent y := by
  constructor
  · intro upward
    rcases upward.cases_head with same | ⟨other, isToo, above⟩
    · exact Or.inl same.symm
    · exact Or.inr (grown.parent_unique isLink isToo ▸ above)
  · rintro (rfl | above)
    · exact .refl
    · exact .head isLink above

theorem Upward.concat (upward : Upward links x y) (link : Address × Address) :
    Upward (links ++ [link]) x y :=
  Relation.ReflTransGen.mono (fun _ _ isLink => List.mem_append_left _ isLink) _ _ upward

/-- Everything has a top. -/
theorem Grown.exists_top (grown : Grown links) (x : Address) :
    ∃ top, Upward links x top ∧ IsTop links top := by
  induction grown generalizing x with
  | none => exact ⟨x, .refl, fun _ => nofun⟩
  | @link links parent child grown isTop apart inductionHypothesis =>
      obtain ⟨top, upward, isOldTop⟩ := inductionHypothesis x
      by_cases isChild : top = child
      · -- The child was the top of its tree, so the way goes on to the parent's top.
        subst isChild
        obtain ⟨further, above, isFurtherTop⟩ := inductionHypothesis parent
        have differs : further ≠ top := fun same => apart (same ▸ above)
        have goesOn : Upward (links ++ [(parent, top)]) top parent := .single (by simp)
        exact ⟨further, ((upward.concat _).trans goesOn).trans (above.concat _),
          isTop_concat.mpr ⟨isFurtherTop, differs⟩⟩
      · exact ⟨top, upward.concat _, isTop_concat.mpr ⟨isOldTop, isChild⟩⟩

theorem Grown.top_unique (grown : Grown links) {other : Address} (upward : Upward links x top)
    (isTop : IsTop links top) (upwardToo : Upward links x other) (isTopToo : IsTop links other) :
    other = top := by
  have unique : Relator.RightUnique fun child parent => (parent, child) ∈ links :=
    fun _ _ _ isLink isToo => grown.parent_unique isToo isLink
  rcases Relation.ReflTransGen.total_of_right_unique unique upward upwardToo with above | above
  · exact (upward_of_isTop isTop).mp above
  · exact ((upward_of_isTop isTopToo).mp above).symm

/-! ## Belonging by the order of the links -/

theorem Joins.exists_parent (joins : Joins links x owner) : ∃ parent, (parent, x) ∈ links := by
  cases joins with
  | parent isLink _ => exact ⟨_, isLink⟩
  | above isLink _ _ => exact ⟨_, isLink⟩

/-- A further link leaves what was linked before where it belongs. -/
theorem Joins.concat (grown : Grown links) (joins : Joins links x owner)
    (isTop : IsTop links child) : Joins (links ++ [(parent, child)]) x owner := by
  induction joins with
  | @parent x above isLink isLast =>
      refine .parent (List.mem_append_left _ isLink) ?_
      by_cases isChild : above = child
      · exact Or.inl (overtaken_concat.mpr (Or.inr (isChild ▸ isLink)))
      · exact isLast.imp (fun overtaken => overtaken_concat.mpr (Or.inl overtaken))
          fun isOldTop => isTop_concat.mpr ⟨isOldTop, isChild⟩
  | @above x middle owner isLink inTime joins inductionHypothesis =>
      refine .above (List.mem_append_left _ isLink) ?_ inductionHypothesis
      rw [overtaken_concat, not_or]
      refine ⟨inTime, fun isChild => ?_⟩
      -- What belongs to something has a parent, so it is not the child of the new link.
      obtain ⟨above, isParent⟩ := joins.exists_parent
      exact isTop above (grown.parent_unique isLink isChild ▸ isParent)

/-- Something belongs to its top exactly where nothing on the way there is overtaken. -/
theorem Joins.eq_top_iff (grown : Grown links) (joins : Joins links x owner)
    (upward : Upward links x top) (isTop : IsTop links top) :
    owner = top ↔ ∀ y, Upward links x y → ¬ Overtaken links y := by
  induction joins with
  | @parent x owner isLink isLast =>
      rcases isLast with overtaken | isOwnerTop
      · refine iff_of_false (fun same => ?_) fun none => none x .refl overtaken
        exact grown.not_isTop_of_link isLink overtaken (same ▸ isTop)
      · have above : Upward links x owner := .single isLink
        refine iff_of_true (grown.top_unique upward isTop above isOwnerTop) ?_
        intro y isAbove overtaken
        rcases (grown.upward_of_link isLink).mp isAbove with rfl | further
        · exact grown.not_isTop_of_link isLink overtaken isOwnerTop
        · rw [(upward_of_isTop isOwnerTop).mp further] at overtaken
          exact not_isTop_of_overtaken overtaken isOwnerTop
  | @above x parent owner isLink inTime _ inductionHypothesis =>
      have above : Upward links parent top := by
        rcases (grown.upward_of_link isLink).mp upward with rfl | above
        · exact absurd isLink (isTop parent)
        · exact above
      rw [inductionHypothesis above]
      simp only [grown.upward_of_link isLink, or_imp, forall_and, forall_eq]
      exact ⟨fun others => ⟨inTime, others⟩, And.right⟩

end Linking

end GraphCheckpoint
