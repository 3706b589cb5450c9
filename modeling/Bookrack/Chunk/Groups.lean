/-
The groups leaves are chunked in.

* **`groupByParent_isRun`**: every group is a maximal run of leaves with one parent.
* **`groupByParent_flatten`**: the groups are all leaves, in document order.
* **`oneGroupPerParent`**: where the leaves of each parent stand together, there is one group for each
  parent, with all its leaves.
-/

import Bookrack.Chunk.Plan
import Mathlib.Data.List.Flatten
import Mathlib.Data.Set.List

namespace Bookrack.Chunk

variable {leaves : List ChunkLeaf}

/-- The leaves from `low` up to `high` are a maximal run with one parent. -/
structure IsRun (leaves : List ChunkLeaf) (low high : Nat) : Prop where
  nonempty : low < high
  inside : high ≤ leaves.length
  same : ∀ i, low ≤ i → i < high → parentAt leaves i = parentAt leaves low
  starts : ∀ i, i + 1 = low → parentAt leaves i ≠ parentAt leaves low
  ends : parentAt leaves high ≠ parentAt leaves low

theorem parentAt_eq_none {i : Nat} (outside : leaves.length ≤ i) : parentAt leaves i = none := by
  rw [parentAt, List.getElem?_eq_none outside]
  rfl

theorem parentAt_isSome {i : Nat} (inside : i < leaves.length) :
    ∃ parent, parentAt leaves i = some parent :=
  ⟨_, by rw [parentAt, List.getElem?_eq_getElem inside]; rfl⟩

theorem slice_append {low mid high : Nat} (lower : low ≤ mid) (upper : mid ≤ high) :
    slice leaves low mid ++ slice leaves mid high = slice leaves low high := by
  have length : high - low = (mid - low) + (high - mid) := by omega
  rw [slice, slice, slice, List.drop_take, List.drop_take, List.drop_take, length, List.take_add,
    List.drop_drop, Nat.add_sub_cancel' lower]

/-- What the loop has grouped before leaf `next`. -/
structure GroupedUpTo (leaves : List ChunkLeaf) (next : Nat)
    (state : List (List ChunkLeaf) × Nat) : Prop where
  closed : ∀ group ∈ state.1, ∃ low high, IsRun leaves low high ∧ group = slice leaves low high
  flatten : state.1.flatten = slice leaves 0 state.2
  opened : state.2 < next
  same : ∀ i, state.2 ≤ i → i < next → parentAt leaves i = parentAt leaves state.2
  starts : ∀ i, i + 1 = state.2 → parentAt leaves i ≠ parentAt leaves state.2

namespace GroupedUpTo

variable {next : Nat} {state : List (List ChunkLeaf) × Nat}

/-- Where the parent changes, the open group is a run. -/
theorem isRun (grouped : GroupedUpTo leaves next state) (inside : next ≤ leaves.length)
    (ends : parentAt leaves next ≠ parentAt leaves state.2) : IsRun leaves state.2 next :=
  ⟨grouped.opened, inside, grouped.same, grouped.starts, ends⟩

theorem step (grouped : GroupedUpTo leaves next state) (inside : next < leaves.length) :
    GroupedUpTo leaves (next + 1) (groupStep leaves state next) := by
  obtain ⟨groups, start⟩ := state
  have opened : start < next := grouped.opened
  unfold groupStep
  by_cases ends : parentAt leaves next ≠ parentAt leaves start
  · simp only [if_pos ends]
    refine ⟨?_, ?_, Nat.lt_succ_self next, fun i lower upper => ?_, fun i before => ?_⟩
    · intro group member
      rcases List.mem_append.mp member with isClosed | isNew
      · exact grouped.closed group isClosed
      · exact ⟨start, next, grouped.isRun inside.le ends, List.mem_singleton.mp isNew⟩
    · rw [List.flatten_append, grouped.flatten, List.flatten_singleton,
        slice_append (Nat.zero_le start) opened.le]
    · rw [show i = next by simp only at lower; omega]
    · have last := grouped.same i (by simp only at before ⊢; omega) (by simp only at before; omega)
      rw [last]
      exact ends.symm
  · simp only [if_neg ends]
    refine ⟨grouped.closed, grouped.flatten, by simp only; omega, fun i lower upper => ?_,
      grouped.starts⟩
    by_cases isNext : i = next
    · rw [isNext]
      exact not_not.mp ends
    · exact grouped.same i lower (by omega)

end GroupedUpTo

/-- The loop up to leaf `count`. -/
theorem grouped_run : ∀ {count : Nat}, count < leaves.length → GroupedUpTo leaves (count + 1)
    ((List.range' 1 count).foldl (groupStep leaves) ([], 0)) := by
  intro count
  induction count with
  | zero =>
    intro _
    refine ⟨fun _ member => absurd member List.not_mem_nil, rfl, Nat.one_pos, fun i _ upper => ?_,
      fun i before => absurd before (Nat.succ_ne_zero i)⟩
    rw [show i = 0 by omega]
    rfl
  | succ count ih =>
    intro inside
    rw [List.range'_1_concat, List.foldl_append, Nat.add_comm 1 count]
    exact (ih (by omega)).step inside

/-- What `group_by_parent` returns: the closed groups and the open one. -/
theorem groupByParent_cases (leaves : List ChunkLeaf) : leaves = [] ∧ groupByParent leaves = [] ∨
    ∃ groups start, GroupedUpTo leaves leaves.length (groups, start) ∧
      groupByParent leaves = groups ++ [slice leaves start leaves.length] := by
  cases leaves with
  | nil => exact .inl ⟨rfl, rfl⟩
  | cons leaf rest => exact .inr ⟨_, _, grouped_run (Nat.lt_succ_self rest.length), rfl⟩

/-- **Every group is a maximal run.** -/
theorem groupByParent_isRun {group : List ChunkLeaf} (member : group ∈ groupByParent leaves) :
    ∃ low high, IsRun leaves low high ∧ group = slice leaves low high := by
  rcases groupByParent_cases leaves with ⟨-, isNil⟩ | ⟨groups, start, grouped, isGroups⟩
  · rw [isNil] at member
    exact absurd member List.not_mem_nil
  · rw [isGroups] at member
    rcases List.mem_append.mp member with isClosed | isOpen
    · exact grouped.closed group isClosed
    · obtain ⟨parent, isParent⟩ := parentAt_isSome grouped.opened
      have ends : parentAt leaves leaves.length ≠ parentAt leaves start := by
        rw [parentAt_eq_none le_rfl, isParent]
        exact (Option.some_ne_none parent).symm
      exact ⟨start, leaves.length, grouped.isRun le_rfl ends, List.mem_singleton.mp isOpen⟩

/-- **The groups are all leaves, in document order.** -/
theorem groupByParent_flatten (leaves : List ChunkLeaf) : (groupByParent leaves).flatten = leaves := by
  rcases groupByParent_cases leaves with ⟨rfl, isNil⟩ | ⟨groups, start, grouped, isGroups⟩
  · rfl
  · rw [isGroups, List.flatten_append, grouped.flatten, List.flatten_singleton,
      slice_append (Nat.zero_le start) grouped.opened.le, slice, List.take_length, List.drop_zero]

/-! ### One group for each parent -/

/-- The leaves of each parent stand together. -/
def Contiguous (leaves : List ChunkLeaf) : Prop :=
  ∀ i j k, i < j → j < k → k < leaves.length → parentAt leaves i = parentAt leaves k →
    parentAt leaves j = parentAt leaves i

/-- The leaves of a parent. -/
def leavesUnder (leaves : List ChunkLeaf) (parent : Option NodeId) : List ChunkLeaf :=
  leaves.filter (·.parentId = parent)

/-- **One group for each parent that has a leaf, with all its leaves.** -/
def OneGroupPerParent (leaves : List ChunkLeaf) : Prop :=
  ∃ parents : List (Option NodeId), parents.Nodup ∧
    (∀ parent, parent ∈ parents ↔ ∃ leaf ∈ leaves, leaf.parentId = parent) ∧
    groupByParent leaves = parents.map (leavesUnder leaves)

/-- A run leaves no leaf of its parent outside. -/
theorem IsRun.outside (contiguous : Contiguous leaves) {low high : Nat} (isRun : IsRun leaves low high)
    {i : Nat} (inside : i < leaves.length) (isOutside : i < low ∨ high ≤ i) :
    parentAt leaves i ≠ parentAt leaves low := by
  intro same
  have nonempty := isRun.nonempty
  have upper := isRun.inside
  rcases isOutside with before | after
  · -- the leaf just before the run would have its parent too
    by_cases isLast : i + 1 = low
    · exact isRun.starts i isLast same
    · have between := contiguous i (low - 1) low (by omega) (by omega) (by omega) same
      exact isRun.starts (low - 1) (by omega) (between.trans same)
  · by_cases isFirst : i = high
    · exact isRun.ends (isFirst ▸ same)
    · exact isRun.ends (contiguous low high i nonempty (by omega) inside same.symm)

theorem parentAt_of_mem_slice {low high : Nat} {leaf : ChunkLeaf}
    (member : leaf ∈ slice leaves low high) :
    ∃ i, low ≤ i ∧ i < high ∧ i < leaves.length ∧ parentAt leaves i = some leaf.parentId := by
  obtain ⟨offset, isLeaf⟩ := List.getElem?_of_mem member
  rw [slice, List.getElem?_drop, List.getElem?_take] at isLeaf
  by_cases before : low + offset < high
  · rw [if_pos before] at isLeaf
    refine ⟨low + offset, Nat.le_add_right _ _, before,
      (List.getElem?_eq_some_iff.mp isLeaf).1, ?_⟩
    rw [parentAt, isLeaf]
    rfl
  · rw [if_neg before] at isLeaf
    cases isLeaf

/-- A run is all leaves of its parent. -/
theorem IsRun.slice_eq (contiguous : Contiguous leaves) {low high : Nat} (isRun : IsRun leaves low high)
    {parent : Option NodeId} (isParent : parentAt leaves low = some parent) :
    slice leaves low high = leavesUnder leaves parent := by
  have upper := isRun.inside
  have whole : leaves = slice leaves 0 low ++ slice leaves low high ++
      slice leaves high leaves.length := by
    rw [slice_append (Nat.zero_le low) isRun.nonempty.le, slice_append (Nat.zero_le high) upper,
      slice, List.take_length, List.drop_zero]
  have noneOf : ∀ {first past : Nat}, (∀ i, first ≤ i → i < past → i < low ∨ high ≤ i) →
      (slice leaves first past).filter (·.parentId = parent) = [] := by
    intro from_ to_ isOutside
    rw [List.filter_eq_nil_iff]
    intro leaf member
    obtain ⟨i, lower, isUpper, inside, isLeaf⟩ := parentAt_of_mem_slice member
    have differs := isRun.outside contiguous inside (isOutside i lower isUpper)
    rw [isLeaf, isParent] at differs
    simpa using differs
  have all : (slice leaves low high).filter (·.parentId = parent) = slice leaves low high := by
    rw [List.filter_eq_self]
    intro leaf member
    obtain ⟨i, lower, isUpper, -, isLeaf⟩ := parentAt_of_mem_slice member
    have same := isRun.same i lower isUpper
    rw [isLeaf, isParent] at same
    simpa using same
  rw [leavesUnder]
  conv_rhs => rw [whole]
  rw [List.filter_append, List.filter_append, noneOf fun i _ before => .inl before, all,
    noneOf fun i after _ => .inr after, List.nil_append, List.append_nil]

/-- **Contiguous leaves fall into one group for each parent.** -/
theorem oneGroupPerParent (contiguous : Contiguous leaves) : OneGroupPerParent leaves := by
  have isGroup : ∀ group ∈ groupByParent leaves, ∃ parent, leavesUnder leaves parent = group ∧
      group ≠ [] := by
    intro group member
    obtain ⟨low, high, isRun, rfl⟩ := groupByParent_isRun member
    have nonempty := isRun.nonempty
    have upper := isRun.inside
    obtain ⟨parent, isParent⟩ := parentAt_isSome (show low < leaves.length by omega)
    refine ⟨parent, (isRun.slice_eq contiguous isParent).symm, ?_⟩
    rw [ne_eq, ← List.length_eq_zero_iff, slice, List.length_drop, List.length_take]
    omega
  obtain ⟨parents, isMap⟩ : groupByParent leaves ∈ Set.range (List.map (leavesUnder leaves)) := by
    rw [Set.range_list_map]
    intro group member
    obtain ⟨parent, same, -⟩ := isGroup group member
    exact ⟨parent, same⟩
  have someLeaf : ∀ parent ∈ parents, leavesUnder leaves parent ≠ [] := by
    intro parent member
    obtain ⟨_, -, nonempty⟩ := isGroup _ (isMap ▸ List.mem_map_of_mem member)
    exact nonempty
  have flatten := groupByParent_flatten leaves
  refine ⟨parents, ?_, fun parent => ⟨fun member => ?_, ?_⟩, isMap.symm⟩
  · -- a parent listed twice would have its leaves twice
    rw [List.nodup_iff_sublist]
    intro parent twice
    have doubled := ((twice.map (leavesUnder leaves)).flatten).filter (·.parentId = parent)
    rw [isMap, flatten] at doubled
    have atMost := doubled.length_le
    have positive := List.length_pos_iff.mpr (someLeaf parent (twice.subset List.mem_cons_self))
    simp only [List.map_cons, List.map_nil, List.flatten_cons, List.flatten_nil, List.append_nil,
      List.filter_append, List.length_append, leavesUnder, List.filter_filter,
      Bool.and_self] at atMost positive
    omega
  · obtain ⟨leaf, isLeaf⟩ := List.exists_mem_of_ne_nil _ (someLeaf parent member)
    rw [leavesUnder, List.mem_filter, decide_eq_true_eq] at isLeaf
    exact ⟨leaf, isLeaf⟩
  · rintro ⟨leaf, member, rfl⟩
    rw [← flatten, ← isMap, List.mem_flatten] at member
    obtain ⟨group, isGroup, inGroup⟩ := member
    obtain ⟨parent, isListed, rfl⟩ := List.mem_map.mp isGroup
    rw [leavesUnder, List.mem_filter, decide_eq_true_eq] at inGroup
    exact inGroup.2 ▸ isListed

end Bookrack.Chunk
