/-
The hull of a set of positions: its least and its greatest member, absent when it is empty.

* `join` is the union of two optional inclusive intervals.
* **`IsHull.union`**: the join of two hulls is the hull of the union.
* `IsHull.unique`: a set has one hull.
-/

import Mathlib.Order.Bounds.Basic

namespace Bookrack.Hull

variable {α : Type*} [LinearOrder α]

/-- The union of two optional inclusive intervals. -/
def join : Option (α × α) → Option (α × α) → Option (α × α)
  | none, other => other
  | one, none => one
  | some (low, high), some (low', high') => some (min low low', max high high')

/-- The interval is the least and the greatest position, absent when there is no position. -/
def IsHull (positions : Set α) : Option (α × α) → Prop
  | none => positions = ∅
  | some (low, high) => IsLeast positions low ∧ IsGreatest positions high

theorem isHull_empty : IsHull (∅ : Set α) none := rfl

theorem isHull_singleton (position : α) : IsHull {position} (some (position, position)) :=
  ⟨isLeast_singleton, isGreatest_singleton⟩

/-- **The join of two hulls is the hull of the union.** -/
theorem IsHull.union {one other : Set α} {hull hull' : Option (α × α)} (first : IsHull one hull)
    (second : IsHull other hull') : IsHull (one ∪ other) (join hull hull') := by
  match hull, hull', first, second with
  | none, hull', first, second =>
    have isEmpty : one = ∅ := first
    rw [isEmpty, Set.empty_union]
    exact second
  | some _, none, first, second =>
    have isEmpty : other = ∅ := second
    rw [isEmpty, Set.union_empty]
    exact first
  | some _, some _, first, second =>
    exact ⟨first.1.union second.1, first.2.union second.2⟩

theorem IsHull.low_le_high {positions : Set α} {low high : α}
    (isHull : IsHull positions (some (low, high))) : low ≤ high := isHull.1.2 isHull.2.1

/-- **A set has one hull.** -/
theorem IsHull.unique {positions : Set α} {hull hull' : Option (α × α)}
    (isHull : IsHull positions hull) (isHull' : IsHull positions hull') : hull = hull' := by
  match hull, hull', isHull, isHull' with
  | none, none, _, _ => rfl
  | none, some _, isEmpty, isHull' =>
    have member := isHull'.1.1
    rw [show positions = ∅ from isEmpty] at member
    exact absurd member (Set.notMem_empty _)
  | some _, none, isHull, isEmpty =>
    have member := isHull.1.1
    rw [show positions = ∅ from isEmpty] at member
    exact absurd member (Set.notMem_empty _)
  | some _, some _, isHull, isHull' =>
    exact congrArg some (Prod.ext (isHull.1.unique isHull'.1) (isHull.2.unique isHull'.2))

/-- The hull is absent exactly when there is no position. -/
theorem IsHull.eq_none_iff {positions : Set α} {hull : Option (α × α)}
    (isHull : IsHull positions hull) : hull = none ↔ positions = ∅ := by
  constructor
  · rintro rfl
    exact isHull
  · rintro rfl
    exact isHull.unique isHull_empty

end Bookrack.Hull
