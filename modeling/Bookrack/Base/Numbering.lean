/-
Section numbers as lists of positive components: `Follows` says that a number is the immediate
successor of another, its first child, its next sibling or the next sibling of one of its ancestors.

**`follows_iff`**: against counters that hold the components of the last number and zero below them,
the successors are the numbers whose leading components are the counters and whose last one is a
counter more.
-/

import Mathlib.Data.List.Basic

namespace Bookrack.Numbering

/-- A number is the immediate successor of the last one; the first is 1. -/
inductive Follows : Option (List Nat) → List Nat → Prop
  | first : Follows none [1]
  | firstChild (number : List Nat) : Follows (some number) (number ++ [1])
  | nextSibling (ancestor : List Nat) (last : Nat) (deeper : List Nat) :
      Follows (some (ancestor ++ last :: deeper)) (ancestor ++ [last + 1])

/-- The counter of a level: the component there, zero below the last number. -/
def counter (prev : Option (List Nat)) (level : Nat) : Nat := (prev.getD []).getD level 0

variable {prev : Option (List Nat)} {front : List Nat} {n : Nat}

/-- The numbers that follow share their leading components with the last number. -/
theorem Follows.split {next : List Nat} (follows : Follows prev next) :
    ∃ front n, next = front ++ [n] ∧ front <+: prev.getD [] ∧ n = counter prev front.length + 1 := by
  cases follows with
  | first => exact ⟨[], 1, rfl, List.nil_prefix, rfl⟩
  | firstChild number => exact ⟨number, 1, rfl, List.prefix_rfl, by simp [counter]⟩
  | nextSibling ancestor last deeper =>
    exact ⟨ancestor, last + 1, rfl, List.prefix_append _ _, by simp [counter]⟩

theorem Follows.of_shared (shared : front <+: prev.getD [])
    (some : front = [] ∨ prev ≠ none) : Follows prev (front ++ [counter prev front.length + 1]) := by
  obtain ⟨deeper, isNumber⟩ := shared
  cases prev with
  | none =>
    obtain rfl := some.resolve_right (not_not.mpr rfl)
    exact .first
  | some number =>
    obtain rfl : front ++ deeper = number := isNumber
    cases deeper with
    | nil => simpa [counter] using Follows.firstChild front
    | cons last deeper => simpa [counter] using Follows.nextSibling front last deeper

/-- A positive list whose components are the counters begins the last number. -/
theorem prefix_of_counters (positive : ∀ component ∈ front, 0 < component)
    (same : ∀ level (inside : level < front.length), front[level] = counter prev level) :
    front <+: prev.getD [] := by
  rw [List.prefix_iff_getElem?]
  intro level inside
  have isCounter := same level inside
  have more := positive _ (List.getElem_mem inside)
  rw [isCounter, counter, List.getD_eq_getElem?_getD] at more ⊢
  cases isThere : (prev.getD [])[level]? with
  | none =>
    rw [isThere] at more
    exact absurd more (Nat.lt_irrefl 0)
  | some component => rfl

/-- **The successors by the counters.** -/
theorem follows_iff (positive : ∀ component ∈ front, 0 < component) :
    Follows prev (front ++ [n]) ↔
      (∀ level (inside : level < front.length), front[level] = counter prev level) ∧
        n = counter prev front.length + 1 := by
  constructor
  · intro follows
    obtain ⟨front', n', same, shared, isLast⟩ := follows.split
    obtain ⟨rfl, rfl⟩ : front = front' ∧ n = n' := by simpa using same
    refine ⟨fun level inside => ?_, isLast⟩
    obtain ⟨deeper, isNumber⟩ := shared
    rw [counter, ← isNumber, List.getD_eq_getElem?_getD, List.getElem?_append_left inside,
      List.getElem?_eq_getElem inside]
    rfl
  · rintro ⟨same, rfl⟩
    refine .of_shared (prefix_of_counters positive same) ?_
    by_contra neither
    obtain ⟨some, rfl⟩ : front ≠ [] ∧ prev = none := by
      rwa [not_or, not_not] at neither
    obtain ⟨component, member⟩ := List.exists_mem_of_ne_nil _ some
    obtain ⟨level, inside, rfl⟩ := List.getElem_of_mem member
    exact absurd (positive _ member) (by rw [same level inside]; exact Nat.lt_irrefl 0)

end Bookrack.Numbering
