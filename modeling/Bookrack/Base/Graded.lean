/-
Grades that signals move one after the other: a signal that fires changes the grade and leaves a flag.

`NoWorse bad one other`: the grade of `other` is no lower than that of `one`, and no bad flag is on
`other` alone. **`NoWorse.signal`**: signals that lower the grade keep this where those that fire for
`other` fire for `one`; `NoWorse.lift`: a signal that raises the grade keeps it the other way round.
-/

import Mathlib.Order.Monotone.Defs

namespace Bookrack

/-- A grade with the flags that say how it came about. -/
structure Graded (G F : Type*) where
  grade : G
  flags : List F

namespace Graded

variable {G F : Type*}

/-- A signal: where it fires, the grade takes a step and the flags are pushed. -/
def signal (one : Graded G F) (fires : Bool) (step : G → G) (push : List F → List F) : Graded G F :=
  if fires then ⟨step one.grade, push one.flags⟩ else one

/-- A push adds the flags of `added` and keeps the others. -/
def Pushes (push : List F → List F) (added : List F) : Prop :=
  ∀ flags flag, flag ∈ push flags ↔ flag ∈ flags ∨ flag ∈ added

theorem pushes_append (added : List F) : Pushes (· ++ added) added := fun _ _ => List.mem_append

theorem mem_signal {one : Graded G F} {fires : Bool} {step : G → G} {push : List F → List F}
    {added : List F} (pushes : Pushes push added) {flag : F} :
    flag ∈ (one.signal fires step push).flags ↔ flag ∈ one.flags ∨ fires = true ∧ flag ∈ added := by
  cases fires with
  | true => simp [signal, pushes one.flags flag]
  | false => simp [signal]

variable [Preorder G]

/-- The grade is no lower, and no bad flag is new. -/
structure NoWorse (bad : F → Prop) (one other : Graded G F) : Prop where
  grade : one.grade ≤ other.grade
  flags : ∀ flag, bad flag → flag ∈ other.flags → flag ∈ one.flags

variable {bad : F → Prop} {one other third : Graded G F} {fires fires' : Bool} {step : G → G}
  {push : List F → List F} {added : List F}

theorem NoWorse.refl (one : Graded G F) : NoWorse bad one one := ⟨le_refl _, fun _ _ => id⟩

/-- **A lowering signal** that fires less keeps the order. -/
theorem NoWorse.signal (noWorse : NoWorse bad one other) (monotone : Monotone step)
    (lowers : ∀ grade, step grade ≤ grade) (pushes : Pushes push added)
    (less : fires' = true → fires = true) :
    NoWorse bad (one.signal fires step push) (other.signal fires' step push) := by
  refine ⟨?_, fun flag isBad => ?_⟩
  · cases fires' with
    | false =>
      show (one.signal fires step push).grade ≤ other.grade
      cases fires with
      | false => exact noWorse.grade
      | true => exact le_trans (lowers one.grade) noWorse.grade
    | true =>
      rw [less rfl]
      exact monotone noWorse.grade
  · rw [mem_signal pushes, mem_signal pushes]
    exact Or.imp (noWorse.flags flag isBad) (And.imp_left less)

/-- **A raising signal** with no bad flag keeps the order where it fires more. -/
theorem NoWorse.lift (noWorse : NoWorse bad one other) (monotone : Monotone step)
    (raises : ∀ grade, grade ≤ step grade) (more : fires = true → fires' = true) :
    NoWorse bad (one.signal fires step id) (other.signal fires' step id) := by
  refine ⟨?_, ?_⟩
  · cases fires with
    | true =>
      rw [more rfl]
      exact monotone noWorse.grade
    | false =>
      show one.grade ≤ (other.signal fires' step id).grade
      cases fires' with
      | false => exact noWorse.grade
      | true => exact le_trans noWorse.grade (raises other.grade)
  · cases fires <;> cases fires' <;> exact noWorse.flags

end Graded

end Bookrack
