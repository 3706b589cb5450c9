/-
Programs that tell what they do to the world outside, on a trail kept beside the store.

* `heard event` tells one event; `silent prog` tells nothing (`Ends.silent_bind`).
* `Echoes told prog` — with its trail forgotten, `told` is `prog`. `Echoes.bind` puts two together, and
  `Echoes.ends` carries a triple of `prog` over to `told`.
-/

import Bookrack.Base.Prog

namespace Prog

variable {σ ε α β ω : Type}

/-- Tells one event. -/
def heard (event : ω) : Prog (σ × List ω) ε Unit := fun state => (.value (), (state.1, state.2 ++ [event]))

/-- A program that tells nothing. -/
def silent (prog : Prog σ ε α) : Prog (σ × List ω) ε α := fun state =>
  (prog.ending state.1, (prog.left state.1, state.2))

/-- With its trail forgotten, `told` is `prog`. -/
def Echoes (told : Prog (σ × List ω) ε α) (prog : Prog σ ε α) : Prop :=
  ∀ store trail, (told (store, trail)).1 = (prog store).1 ∧ (told (store, trail)).2.1 = (prog store).2

section Triples

variable {prog : Prog σ ε α} {told : Prog (σ × List ω) ε α} {store : σ} {trail : List ω}

theorem Ends.heard {event : ω} {post : Unit → σ × List ω → Prop} {fail : ε → σ × List ω → Prop}
    {cut : σ × List ω → Prop} (holds : post () (store, trail ++ [event])) :
    Ends (Prog.heard event) (store, trail) post fail cut := holds

/-- The trail stays as it is. -/
theorem Ends.silent {post : α → σ → Prop} {fail : ε → σ → Prop} {cut : σ → Prop}
    (ends : Ends prog store post fail cut) :
    Ends (Prog.silent prog) (store, trail) (fun result state => post result state.1 ∧ state.2 = trail)
      (fun reason state => fail reason state.1 ∧ state.2 = trail)
      (fun state => cut state.1 ∧ state.2 = trail) := by
  unfold Ends Prog.silent Prog.ending Prog.left at *
  rcases isEnd : prog store with ⟨result | reason | _, after⟩ <;> rw [isEnd] at ends <;>
    exact ⟨ends, rfl⟩

/-- A program that tells nothing leaves the next one its trail. -/
theorem Ends.silent_bind {rest : α → Prog (σ × List ω) ε β} {after : β → σ × List ω → Prop}
    {stopped : List ω → Prop} (sofar : stopped trail)
    (goesOn : ∀ result left, Ends (rest result) (left, trail) after (fun _ state => stopped state.2)
      (fun state => stopped state.2)) :
    Ends (Prog.silent prog >>= rest) (store, trail) after (fun _ state => stopped state.2)
      (fun state => stopped state.2) := by
  rw [ends_bind]
  have anyway : Ends prog store (fun _ _ => True) (fun _ _ => True) (fun _ => True) :=
    ends_of_left trivial
  refine anyway.silent.mono ?_ ?_ ?_
  · intro result ⟨left, told⟩ ⟨_, same⟩
    obtain rfl : told = trail := same
    exact goesOn result left
  · exact fun _ _ ⟨_, same⟩ => same ▸ sofar
  · exact fun _ ⟨_, same⟩ => same ▸ sofar

/-- **A triple of the program holds of the told one.** -/
theorem Echoes.ends (echoes : Echoes told prog) {post : α → σ → Prop} {fail : ε → σ → Prop}
    {cut : σ → Prop} (ends : Ends prog store post fail cut) :
    Ends told (store, trail) (fun result state => post result state.1)
      (fun reason state => fail reason state.1) (fun state => cut state.1) := by
  obtain ⟨sameEnd, sameStore⟩ := echoes store trail
  unfold Ends at *
  rcases isTold : told (store, trail) with ⟨ending, after, trail'⟩
  rcases isEnd : prog store with ⟨plainEnding, plain⟩
  rw [isTold, isEnd] at sameEnd sameStore
  rw [isEnd] at ends
  obtain rfl : ending = plainEnding := sameEnd
  obtain rfl : after = plain := sameStore
  cases ending <;> exact ends

end Triples

section Rules

variable {prog : Prog σ ε α} {told : Prog (σ × List ω) ε α} {next : α → Prog σ ε β}
  {toldNext : α → Prog (σ × List ω) ε β}

theorem Echoes.pure (result : α) : Echoes (pure result : Prog (σ × List ω) ε α) (pure result) :=
  fun _ _ => ⟨rfl, rfl⟩

theorem Echoes.throw (reason : ε) : Echoes (throw reason : Prog (σ × List ω) ε α) (throw reason) :=
  fun _ _ => ⟨rfl, rfl⟩

theorem Echoes.silent (prog : Prog σ ε α) : Echoes (silent prog : Prog (σ × List ω) ε α) prog :=
  fun _ _ => ⟨rfl, rfl⟩

/-- An event is told, and the program does the rest. -/
theorem Echoes.heard {event : ω} (rest : Echoes told prog) :
    Echoes (Prog.heard event >>= fun _ => told) prog :=
  fun store trail => rest store (trail ++ [event])

theorem Echoes.bind (first : Echoes told prog) (second : ∀ result, Echoes (toldNext result) (next result)) :
    Echoes (told >>= toldNext) (prog >>= next) := by
  intro store trail
  obtain ⟨sameEnd, sameStore⟩ := first store trail
  show (andThen told toldNext (store, trail)).1 = (andThen prog next store).1 ∧
    (andThen told toldNext (store, trail)).2.1 = (andThen prog next store).2
  unfold andThen
  rcases isTold : told (store, trail) with ⟨ending, after, trail'⟩
  rcases isEnd : prog store with ⟨plainEnding, plain⟩
  rw [isTold, isEnd] at sameEnd sameStore
  obtain rfl : ending = plainEnding := sameEnd
  obtain rfl : after = plain := sameStore
  cases ending with
  | value result => exact second result after trail'
  | error reason => exact ⟨rfl, rfl⟩
  | cut => exact ⟨rfl, rfl⟩

end Rules

end Prog
