import GraphCheckpoint.Live.Ownership

/-!
Contract: what sweeping leaves where every object is a root.

Owns: that roots are never dropped, so that nothing is dropped where all objects are roots.

Does not own: what the roots are.
-/

namespace GraphCheckpoint.Heap

variable {heap : Heap} {contents : Owned → List Owned} {roots : List Owned} {owned : Owned}

/-- What is held and is a root stays held. -/
theorem mem_keepOwned (isRoot : owned ∈ roots) {budget : Nat} {held : List Owned}
    (isHeld : owned ∈ held) : owned ∈ keepOwned contents roots budget held := by
  induction budget generalizing held with
  | zero => exact isHeld
  | succ budget inductionHypothesis =>
      rw [keepOwned]
      split
      · exact isHeld
      · refine inductionHypothesis (List.mem_filter.mpr ⟨isHeld, ?_⟩)
        rw [Std.HashSet.contains_ofList, List.contains_iff_mem]
        exact List.mem_append_left _ isRoot

theorem mem_liveAddresses {address : Address} {object : LiveObject}
    (isObject : heap.object? address = some object) : address ∈ heap.liveAddresses := by
  have inRange : address.index < heap.objects.size := by
    refine Nat.not_le.mp fun outside => ?_
    rw [object?, Array.getElem?_eq_none outside] at isObject
    cases isObject
  refine List.mem_filterMap.mpr ⟨address.index, List.mem_range.mpr inRange, ?_⟩
  rw [isObject]
  rfl

/-- A sweep leaves the objects that are roots. -/
theorem object?_sweep_of_root {address : Address} {object : LiveObject}
    (isObject : heap.object? address = some object) (isRoot : Owned.object address ∈ roots)
    (listeners : List ListenerRef) (inWindow : ListenerRef → List Address) :
    (heap.sweep roots listeners inWindow).object? address = some object := by
  have isEntry : heap.objects[address.index]? = some (some object) :=
    Option.join_eq_some_iff.mp isObject
  simp only [object?, sweep, Array.getElem?_mapIdx, isEntry]
  rw [Option.map_some, if_pos]
  · rfl
  · rw [Std.HashSet.contains_ofList, List.contains_iff_mem]
    refine mem_keepOwned isRoot ?_
    exact List.mem_append_left _ (List.mem_append_left _
      (List.mem_map_of_mem (mem_liveAddresses isObject)))

/-- What is there after a sweep was there before. -/
theorem object?_of_sweep {address : Address} {object : LiveObject} {listeners : List ListenerRef}
    {inWindow : ListenerRef → List Address}
    (isObject : (heap.sweep roots listeners inWindow).object? address = some object) :
    heap.object? address = some object := by
  rw [object?, Option.join_eq_some_iff] at isObject
  simp only [sweep, Array.getElem?_mapIdx, Option.map_eq_some_iff] at isObject
  obtain ⟨entry, isEntry, isKept⟩ := isObject
  split at isKept
  · subst isKept
    rw [object?, isEntry]
    rfl
  · cases isKept

/-- Where every object is a root, a sweep drops nothing. -/
theorem sweep_eq
    (rooted : ∀ address object, heap.object? address = some object →
      Owned.object address ∈ roots)
    (listeners : List ListenerRef) (inWindow : ListenerRef → List Address) :
    heap.sweep roots listeners inWindow = heap := by
  have sameObjects : (heap.sweep roots listeners inWindow).objects = heap.objects := by
    refine Array.ext_getElem? fun index => ?_
    cases entry : heap.objects[index]? with
    | none => simp [sweep, entry]
    | some cell =>
        cases cell with
        | none => simp [sweep, entry]
        | some object =>
            have isObject : heap.object? ⟨index⟩ = some object := by
              rw [object?, entry]
              rfl
            exact Option.join_eq_some_iff.mp
              (object?_sweep_of_root isObject (rooted _ _ isObject) listeners inWindow)
  cases heap
  exact congrArg (fun objects => Heap.mk objects _ _) sameObjects

end GraphCheckpoint.Heap
