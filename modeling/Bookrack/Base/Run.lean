/-
Runs of a labelled transition relation, as traces of labels with the state each one leads to.

* `Along P start trace` — `P` holds of every step of the trace. A run is a trace along which the
  step relation holds, and a side condition on the steps of a run is `Along` of that condition.
* `Along.invariant` — the induction every safety argument below goes through: what one step
  preserves, and what it yields under the invariant, holds of every step of a run.
* `Along.split` / `Along.held` — a run cut in two, and a state predicate that no step of a
  stretch breaks.
* `Reaches` — some run leads from one state to another.
-/

import Mathlib.Logic.Basic

namespace Run

variable {State Label : Type}

/-- `P` holds of every step of the trace from `start`. -/
def Along (P : State → Label → State → Prop) : State → List (Label × State) → Prop
  | _, [] => True
  | start, (label, next) :: rest => P start label next ∧ Along P next rest

/-- The state a trace ends in. -/
def finish (start : State) : List (Label × State) → State
  | [] => start
  | (_, next) :: rest => finish next rest

@[simp] theorem along_nil {P : State → Label → State → Prop} {start : State} :
    Along P start [] := trivial

@[simp] theorem along_cons {P : State → Label → State → Prop} {start next : State}
    {label : Label} {rest : List (Label × State)} :
    Along P start ((label, next) :: rest) ↔ P start label next ∧ Along P next rest := Iff.rfl

@[simp] theorem finish_nil {start : State} :
    finish start ([] : List (Label × State)) = start := rfl

@[simp] theorem finish_cons {start next : State} {label : Label} {rest : List (Label × State)} :
    finish start ((label, next) :: rest) = finish next rest := rfl

/-- A run cut in two: the second half starts where the first one ends. -/
theorem Along.split {P : State → Label → State → Prop} {start : State}
    {first second : List (Label × State)} :
    Along P start (first ++ second) ↔ Along P start first ∧ Along P (finish start first) second := by
  induction first generalizing start with
  | nil => simp
  | cons entry rest ih =>
    obtain ⟨label, next⟩ := entry
    simp only [List.cons_append, along_cons, finish_cons, ih, and_assoc]

theorem Along.mono {P Q : State → Label → State → Prop} {start : State}
    {trace : List (Label × State)} (along : Along P start trace)
    (weaker : ∀ before label after, P before label after → Q before label after) :
    Along Q start trace := by
  induction trace generalizing start with
  | nil => exact trivial
  | cons entry rest ih => exact ⟨weaker _ _ _ along.1, ih along.2⟩

theorem Along.and {P Q : State → Label → State → Prop} {start : State}
    {trace : List (Label × State)} (first : Along P start trace) (second : Along Q start trace) :
    Along (fun before label after => P before label after ∧ Q before label after) start trace := by
  induction trace generalizing start with
  | nil => exact trivial
  | cons entry rest ih => exact ⟨⟨first.1, second.1⟩, ih first.2 second.2⟩

/-- A property of every label and the state it leads to. -/
theorem Along.of_forall {Q : Label → State → Prop} {trace : List (Label × State)}
    (each : ∀ entry ∈ trace, Q entry.1 entry.2) (start : State) :
    Along (fun _ label next => Q label next) start trace := by
  induction trace generalizing start with
  | nil => exact trivial
  | cons entry rest ih =>
    exact ⟨each entry List.mem_cons_self,
      ih (fun later member => each later (List.mem_cons_of_mem _ member)) _⟩

/-- **The run lemma.** An invariant the steps preserve holds before and after every step of the
run, and whatever a step yields under it holds of every step. -/
theorem Along.invariant {step goal : State → Label → State → Prop} (inv : State → Prop)
    (preserved : ∀ before label after, inv before → step before label after →
      inv after ∧ goal before label after)
    {start : State} (initial : inv start) {trace : List (Label × State)}
    (along : Along step start trace) :
    Along (fun before label after => inv before ∧ inv after ∧ goal before label after) start trace := by
  induction trace generalizing start with
  | nil => exact trivial
  | cons entry rest ih =>
    obtain ⟨kept, yields⟩ := preserved _ _ _ initial along.1
    exact ⟨⟨initial, kept, yields⟩, ih kept along.2⟩

/-- The invariant at the end of a run. -/
theorem Along.finish_invariant {step : State → Label → State → Prop} (inv : State → Prop)
    (preserved : ∀ before label after, inv before → step before label after → inv after)
    {start : State} (initial : inv start) {trace : List (Label × State)}
    (along : Along step start trace) : inv (finish start trace) := by
  induction trace generalizing start with
  | nil => exact initial
  | cons entry rest ih => exact ih (preserved _ _ _ initial along.1) along.2

/-- **A stretch of a run keeps a state predicate** that none of its steps breaks. -/
theorem Along.held {step : State → Label → State → Prop} (holds : State → Prop)
    (kept : ∀ before label after, holds before → step before label after → holds after)
    {start : State} (initial : holds start) {trace : List (Label × State)}
    (along : Along step start trace) : ∀ entry ∈ trace, holds entry.2 := by
  induction trace generalizing start with
  | nil => exact fun _ member => by cases member
  | cons entry rest ih =>
    have next := kept _ _ _ initial along.1
    intro later member
    rcases List.mem_cons.mp member with rfl | member
    · exact next
    · exact ih next along.2 later member

/-! ### Reaching a state -/

section Reaching

variable {step : State → Label → State → Prop}

theorem finish_append {start : State} (first second : List (Label × State)) :
    finish start (first ++ second) = finish (finish start first) second := by
  induction first generalizing start with
  | nil => rfl
  | cons entry rest ih =>
    obtain ⟨label, next⟩ := entry
    exact ih

/-- Some run of the steps leads from one state to the other. -/
def Reaches (step : State → Label → State → Prop) (before after : State) : Prop :=
  ∃ trace, Along step before trace ∧ finish before trace = after

theorem Reaches.refl (state : State) : Reaches step state state := ⟨[], along_nil, rfl⟩

theorem Reaches.one {before after : State} {label : Label} (leads : step before label after) :
    Reaches step before after := ⟨[(label, after)], ⟨leads, trivial⟩, rfl⟩

theorem Reaches.trans {first second third : State} (early : Reaches step first second)
    (late : Reaches step second third) : Reaches step first third := by
  obtain ⟨steps, along, rfl⟩ := early
  obtain ⟨more, alongMore, rfl⟩ := late
  exact ⟨steps ++ more, Along.split.mpr ⟨along, alongMore⟩, finish_append steps more⟩

end Reaching

end Run
