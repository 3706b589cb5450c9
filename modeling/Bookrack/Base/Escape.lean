/-
Lists spelled out by the codes of their values.

* `Escapes code`: no code is empty, and what follows a code does not hide which one it is.
* `flatMap_injective`: a spelling is read back.
* **`joined_injective`**: so are two spellings around a joiner that begins as no code does.
-/

import Mathlib.Data.List.Basic

namespace Escape

variable {α β : Type}

/-- The codes are not empty, and a list begins with one of them at most. -/
structure Escapes (code : α → List β) : Prop where
  nonempty : ∀ value, code value ≠ []
  apart : ∀ {one other : α} {rest rest' : List β}, code one ++ rest = code other ++ rest' → one = other

/-- The joiner is no beginning of a spelling. -/
def Joins (code : α → List β) (joiner : List β) : Prop := ∀ value rest rest', code value ++ rest ≠ joiner ++
    rest'

variable {code : α → List β} {joiner : List β}

theorem Escapes.rest (escapes : Escapes code) {one other : α} {rest rest' : List β}
    (same : code one ++ rest = code other ++ rest') : one = other ∧ rest = rest' := by
  obtain rfl := escapes.apart same
  exact ⟨rfl, List.append_cancel_left same⟩

theorem flatMap_injective (escapes : Escapes code) : Function.Injective (List.flatMap code) := by
  intro values
  induction values with
  | nil =>
    intro values' same
    cases values' with
    | nil => rfl
    | cons value' rest' => exact absurd (List.append_eq_nil_iff.mp same.symm).1 (escapes.nonempty value')
  | cons value rest ih =>
    intro values' same
    cases values' with
    | nil => exact absurd (List.append_eq_nil_iff.mp same).1 (escapes.nonempty value)
    | cons value' rest' =>
      obtain ⟨rfl, sameRest⟩ := escapes.rest same
      rw [ih sameRest]

/-- **What stands around the joiner is read back.** -/
theorem joined_injective (escapes : Escapes code) (joins : Joins code joiner) {first first' : List α}
    {second second' : List β} (same : first.flatMap code ++ (joiner ++ second) = first'.flatMap code ++
      (joiner ++ second')) :
    first = first' ∧ second = second' := by
  induction first generalizing first' with
  | nil =>
    cases first' with
    | nil => exact ⟨rfl, List.append_cancel_left same⟩
    | cons value' rest' =>
      rw [List.flatMap_cons, List.append_assoc] at same
      exact absurd same.symm (joins value' _ _)
  | cons value rest ih =>
    cases first' with
    | nil =>
      rw [List.flatMap_cons, List.append_assoc] at same
      exact absurd same (joins value _ _)
    | cons value' rest' =>
      rw [List.flatMap_cons, List.flatMap_cons, List.append_assoc, List.append_assoc] at same
      obtain ⟨rfl, sameRest⟩ := escapes.rest same
      obtain ⟨rfl, sameSecond⟩ := ih sameRest
      exact ⟨rfl, sameSecond⟩

end Escape
