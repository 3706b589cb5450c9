/-
The portions a text is divided into, and the one a place of the text falls into.

* `portionAt portions place`: the portion that holds the element at a place; past the end, their
  number.
* **`portionAt_append`**: a place where one portion ends and the next starts falls into the next.
-/

import Mathlib.Data.List.Basic

namespace Portions

variable {α : Type}

/-- The portion that holds the element at a place; past the end, their number. -/
def portionAt : List (List α) → Nat → Nat
  | [], _ => 0
  | portion :: rest, place =>
    if place < portion.length then 0 else portionAt rest (place - portion.length) + 1

/-- **The start of a portion falls into it.** -/
theorem portionAt_append (before : List (List α)) {after : List (List α)}
    (filled : ∀ portion ∈ after, portion ≠ []) :
    portionAt (before ++ after) before.flatten.length = before.length := by
  induction before with
  | nil =>
    cases after with
    | nil => rfl
    | cons portion rest =>
      exact if_pos (List.length_pos_iff.mpr (filled portion List.mem_cons_self))
  | cons portion before ih =>
    have length : (portion :: before).flatten.length = portion.length + before.flatten.length := by
      rw [List.flatten_cons, List.length_append]
    rw [List.cons_append, length, portionAt, if_neg (by omega), Nat.add_sub_cancel_left, ih]
    rfl

end Portions
