/-
Computations in `Except`: what a success says of the steps it took.
-/

import Mathlib.Data.List.Basic

namespace Bookrack

variable {ε α β : Type}

theorem except_bind_ok {result : Except ε α} {next : α → Except ε β} {value : β} :
    (result >>= next) = .ok value ↔ ∃ middle, result = .ok middle ∧ next middle = .ok value := by
  cases result <;> simp [bind, Except.bind]

/-- A computation that returns nothing failed. -/
theorem except_error_iff {result : Except ε α} :
    (∃ failure, result = .error failure) ↔ ¬ ∃ value, result = .ok value := by
  cases result <;> simp

/-- **A computation on every row succeeds** when each of its turns does. -/
theorem mapM_ok_iff {f : α → Except ε β} {rows : List α} {images : List β} :
    rows.mapM f = .ok images ↔ rows.map f = images.map .ok := by
  induction rows generalizing images with
  | nil => cases images <;> simp [pure, Except.pure]
  | cons row rest ih =>
    rw [List.mapM_cons, except_bind_ok]
    constructor
    · rintro ⟨image, isImage, others⟩
      obtain ⟨taken, all, isImages⟩ := except_bind_ok.mp others
      cases isImages
      rw [List.map_cons, List.map_cons, isImage, ih.mp all]
    · intro same
      cases images with
      | nil => cases same
      | cons image images =>
        obtain ⟨isImage, others⟩ := List.cons.inj same
        exact ⟨image, isImage, except_bind_ok.mpr ⟨images, ih.mpr others, rfl⟩⟩

end Bookrack
