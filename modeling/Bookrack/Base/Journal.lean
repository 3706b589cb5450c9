/-
Stores that keep a journal of what was done to them.

* `Told holds tells start now trail`: whatever holds of the store now and did not at the start is told
  by an entry of the trail. `Told.step` carries it over one operation.
* `replay read initial trail`: what the entries, read in order, say a value is by now.
-/

import Mathlib.Data.List.Basic

namespace Journal

variable {σ φ ε ν : Type}

/-- Every fact that is new since the start is told by an entry. -/
def Told (holds : σ → φ → Prop) (tells : ε → φ → Prop) (start now : σ) (trail : List ε) : Prop :=
  ∀ fact, holds now fact → ¬holds start fact → ∃ entry ∈ trail, tells entry fact

variable {holds : σ → φ → Prop} {tells : ε → φ → Prop} {start now next : σ} {trail : List ε}

theorem Told.refl : Told holds tells start start trail :=
  fun _ isNow isNew => absurd isNow isNew

theorem Told.mono {tells' : ε → φ → Prop} (told : Told holds tells start now trail)
    (weaker : ∀ entry fact, tells entry fact → tells' entry fact) :
    Told holds tells' start now trail := by
  intro fact isNow isNew
  obtain ⟨entry, isEntry, isTold⟩ := told fact isNow isNew
  exact ⟨entry, isEntry, weaker entry fact isTold⟩

/-- **One operation**: what it makes true is told by what it appends. -/
theorem Told.step (told : Told holds tells start now trail) {added : List ε}
    (adds : ∀ fact, holds next fact → holds now fact ∨ ∃ entry ∈ added, tells entry fact) :
    Told holds tells start next (trail ++ added) := by
  intro fact isNext isNew
  rcases adds fact isNext with isNow | ⟨entry, isAdded, isTold⟩
  · obtain ⟨entry, isEntry, isTold⟩ := told fact isNow isNew
    exact ⟨entry, List.mem_append_left _ isEntry, isTold⟩
  · exact ⟨entry, List.mem_append_right _ isAdded, isTold⟩

/-- A fact that is new while nothing was written down is not told. -/
theorem not_told_nil {fact : φ} (isNow : holds now fact) (isNew : ¬holds start fact) :
    ¬Told holds tells start now [] := by
  intro told
  obtain ⟨entry, isEntry, -⟩ := told fact isNow isNew
  cases isEntry

/-- The value the entries lead to. -/
def replay (read : ν → ε → ν) (initial : ν) (trail : List ε) : ν := trail.foldl read initial

@[simp] theorem replay_nil {read : ν → ε → ν} {initial : ν} : replay read initial [] = initial := rfl

theorem replay_append {read : ν → ε → ν} {initial : ν} (trail added : List ε) :
    replay read initial (trail ++ added) = replay read (replay read initial trail) added :=
  List.foldl_append

end Journal
