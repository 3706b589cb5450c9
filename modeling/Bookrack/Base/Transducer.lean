/-
One left-to-right pass over a list, with a state: each element read emits a list.

* `run_append`: a pass over two halves is a pass over the first and, from the state it reaches, one
  over the second.
-/

import Mathlib.Data.List.Basic

/-- A pass: the state reached and the list emitted at each element. -/
structure Transducer (σ α β : Type) where
  step : σ → α → σ × List β

namespace Transducer

variable {σ α β : Type} (pass : Transducer σ α β)

/-- What the pass emits from a state. -/
def run : σ → List α → List β
  | _, [] => []
  | state, value :: rest => (pass.step state value).2 ++ run (pass.step state value).1 rest

/-- The state the pass reaches. -/
def reach : σ → List α → σ
  | state, [] => state
  | state, value :: rest => reach (pass.step state value).1 rest

@[simp] theorem run_nil (state : σ) : pass.run state [] = [] := rfl

theorem run_cons (state : σ) (value : α) (rest : List α) :
    pass.run state (value :: rest) =
      (pass.step state value).2 ++ pass.run (pass.step state value).1 rest := rfl

@[simp] theorem reach_nil (state : σ) : pass.reach state [] = state := rfl

theorem reach_cons (state : σ) (value : α) (rest : List α) :
    pass.reach state (value :: rest) = pass.reach (pass.step state value).1 rest := rfl

theorem run_append (state : σ) (first second : List α) :
    pass.run state (first ++ second) =
      pass.run state first ++ pass.run (pass.reach state first) second := by
  induction first generalizing state with
  | nil => rfl
  | cons value rest ih => rw [List.cons_append, run_cons, ih, run_cons, reach_cons, List.append_assoc]

theorem reach_append (state : σ) (first second : List α) :
    pass.reach state (first ++ second) = pass.reach (pass.reach state first) second := by
  induction first generalizing state with
  | nil => rfl
  | cons value rest ih => rw [List.cons_append, reach_cons, ih, reach_cons]

end Transducer
