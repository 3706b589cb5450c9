/-
Programs over a store whose writes may fail, and which may be cut off between two writes.

* `Prog σ ε α` — from a store to how the program ends (a value, an error, cut off) and the store it
  leaves. A write takes its `Fate` as an argument, so a program with its fates is a function.
* `Ends prog store post fail cut` — a Hoare triple with a crash condition: `prog` returns in `post`,
  fails in `fail`, or is cut off in `cut`. `Ends.bind`, `Ends.attempt`, `Ends.loop` are its rules;
  `Ends.loopReached` knows of the turns before.
* `Moves R prog` — however `prog` ends, the store it leaves is `R`-related to the one it found.
  `R` is reflexive and transitive (`Frame`): what a program leaves alone, and what it keeps.
* `EndAlike prog prog'` — programs over two stores that return the same, or fail with the same error.
* `Raises allowed prog` — every error `prog` fails with is allowed.
-/

import Mathlib.Data.List.Basic
import Mathlib.Data.List.Induction

/-- How a program ends. -/
inductive Ending (ε α : Type)
  | value (result : α)
  | error (reason : ε)
  | cut
  deriving DecidableEq, Repr

/-- What happens to a write: it goes through, it is refused, or the program is cut off before it. -/
inductive Fate
  | done
  | failed
  | cut
  deriving DecidableEq, Repr

/-- A program over a store `σ`, with errors `ε` and results `α`. -/
def Prog (σ ε α : Type) := σ → Ending ε α × σ

namespace Prog

variable {σ ε α β : Type}

/-! ### Programs -/

/-- The next program runs when the first one returns. -/
def andThen (prog : Prog σ ε α) (next : α → Prog σ ε β) : Prog σ ε β := fun store =>
  match prog store with
  | (.value result, after) => next result after
  | (.error reason, after) => (.error reason, after)
  | (.cut, after) => (.cut, after)

instance : Monad (Prog σ ε) where
  pure result := fun store => (.value result, store)
  bind := andThen

/-- The store left behind. -/
def left (prog : Prog σ ε α) (store : σ) : σ := (prog store).2

/-- How the program ends. -/
def ending (prog : Prog σ ε α) (store : σ) : Ending ε α := (prog store).1

def read (view : σ → α) : Prog σ ε α := fun store => (.value (view store), store)

def throw (reason : ε) : Prog σ ε α := fun store => (.error reason, store)

def halt : Prog σ ε α := fun store => (.cut, store)

/-- A write whose failure is the program's error. -/
def write (fate : Fate) (reason : ε) (change : σ → σ) : Prog σ ε Unit := fun store =>
  match fate with
  | .done => (.value (), change store)
  | .failed => (.error reason, store)
  | .cut => (.cut, store)

/-- A write whose failure is logged: the program goes on, told whether the write went through. -/
def quietly (fate : Fate) (change : σ → σ) : Prog σ ε Bool := fun store =>
  match fate with
  | .done => (.value true, change store)
  | .failed => (.value false, store)
  | .cut => (.cut, store)

/-- The program with its error as a result. -/
def attempt (prog : Prog σ ε α) : Prog σ ε (Except ε α) := fun store =>
  match prog store with
  | (.value result, after) => (.value (.ok result), after)
  | (.error reason, after) => (.value (.error reason), after)
  | (.cut, after) => (.cut, after)

/-- `map_err`. -/
def mapError {ε' : Type} (f : ε → ε') (prog : Prog σ ε α) : Prog σ ε' α := fun store =>
  match prog store with
  | (.value result, after) => (.value result, after)
  | (.error reason, after) => (.error (f reason), after)
  | (.cut, after) => (.cut, after)

/-- A computation apart from the store. -/
def ofExcept : Except ε α → Prog σ ε α
  | .ok result => pure result
  | .error reason => throw reason

/-- The value of an `Option` that the source unwraps; `none` is the panic. -/
def unwrap : Option α → Prog σ ε α
  | some value => pure value
  | none => halt

/-- A loop over a list that carries a value; the position is passed to the body. -/
def loopFrom (body : Nat → α → β → Prog σ ε β) : Nat → β → List α → Prog σ ε β
  | _, carried, [] => pure carried
  | position, carried, value :: rest => do
    let carried ← body position value carried
    loopFrom body (position + 1) carried rest

def loop (values : List α) (initial : β) (body : Nat → α → β → Prog σ ε β) : Prog σ ε β :=
  loopFrom body 0 initial values

theorem bind_bind {γ : Type} (prog : Prog σ ε α) (next : α → Prog σ ε β) (later : β → Prog σ ε γ) :
    prog >>= next >>= later = prog >>= fun result => next result >>= later := by
  funext store
  show andThen (andThen prog next) later store = andThen prog (fun result => andThen (next result) later) store
  unfold andThen
  rcases prog store with ⟨result | reason | _, left⟩
  · rfl
  · rfl
  · rfl

/-! ### Triples -/

/-- From `store`, `prog` returns in `post`, fails in `fail` or is cut off in `cut`. -/
def Ends (prog : Prog σ ε α) (store : σ) (post : α → σ → Prop) (fail : ε → σ → Prop)
    (cut : σ → Prop) : Prop :=
  match prog store with
  | (.value result, after) => post result after
  | (.error reason, after) => fail reason after
  | (.cut, after) => cut after

section Triples

variable {prog : Prog σ ε α} {store : σ} {post post' : α → σ → Prop} {fail fail' : ε → σ → Prop}
  {cut cut' : σ → Prop} {next : α → Prog σ ε β} {after : β → σ → Prop}

theorem Ends.mono (ends : Ends prog store post fail cut)
    (ofPost : ∀ result left, post result left → post' result left)
    (ofFail : ∀ reason left, fail reason left → fail' reason left)
    (ofCut : ∀ left, cut left → cut' left) : Ends prog store post' fail' cut' := by
  unfold Ends at *
  split
  · rename_i isValue
    rw [isValue] at ends
    exact ofPost _ _ ends
  · rename_i isError
    rw [isError] at ends
    exact ofFail _ _ ends
  · rename_i isCut
    rw [isCut] at ends
    exact ofCut _ ends

theorem Ends.and (one : Ends prog store post fail cut) (other : Ends prog store post' fail' cut') :
    Ends prog store (fun result left => post result left ∧ post' result left)
      (fun reason left => fail reason left ∧ fail' reason left) (fun left => cut left ∧ cut' left) := by
  unfold Ends at *
  revert one other
  rcases prog store with ⟨result | reason | _, left⟩
  · exact And.intro
  · exact And.intro
  · exact And.intro

theorem ends_bind : Ends (prog >>= next) store after fail cut ↔
    Ends prog store (fun result left => Ends (next result) left after fail cut) fail cut := by
  show Ends (andThen prog next) store after fail cut ↔ _
  simp only [Ends, andThen]
  rcases prog store with ⟨_ | _ | _, left⟩ <;> rfl

/-- A sequence, by how its first program ends. -/
theorem bind_value {result : α} {midway : σ} (ended : prog store = (.value result, midway)) :
    (prog >>= next) store = next result midway := by
  show andThen prog next store = _
  rw [andThen, ended]

theorem bind_error {reason : ε} {midway : σ} (ended : prog store = (.error reason, midway)) :
    (prog >>= next) store = (.error reason, midway) := by
  show andThen prog next store = _
  rw [andThen, ended]

theorem bind_read {view : σ → α} : (read view >>= next) store = next (view store) store := rfl

theorem bind_write {reason : ε} {change : σ → σ} {next : Unit → Prog σ ε β} :
    (write .done reason change >>= next) store = next () (change store) := rfl

/-- **The rule of sequence**: what the first program leaves on an early end is left for good. -/
theorem Ends.bind (first : Ends prog store post fail cut)
    (second : ∀ result left, post result left → Ends (next result) left after fail cut) :
    Ends (prog >>= next) store after fail cut :=
  ends_bind.mpr (first.mono second (fun _ _ => id) fun _ => id)

@[simp] theorem ends_pure {result : α} :
    Ends (pure result : Prog σ ε α) store post fail cut ↔ post result store := Iff.rfl

@[simp] theorem ends_read {view : σ → α} :
    Ends (read view : Prog σ ε α) store post fail cut ↔ post (view store) store := Iff.rfl

@[simp] theorem ends_throw {reason : ε} :
    Ends (throw reason : Prog σ ε α) store post fail cut ↔ fail reason store := Iff.rfl

@[simp] theorem ends_halt : Ends (halt : Prog σ ε α) store post fail cut ↔ cut store := Iff.rfl

theorem Ends.unwrap {value : Option α} (isSome : ∀ result, value = some result → post result store)
    (isNone : value = none → cut store) :
    Ends (unwrap value : Prog σ ε α) store post fail cut := by
  cases value with
  | none => exact isNone rfl
  | some result => exact isSome result rfl

theorem Ends.write {fate : Fate} {reason : ε} {change : σ → σ} {post : Unit → σ → Prop}
    (done : fate = .done → post () (change store)) (failed : fate = .failed → fail reason store)
    (isCut : fate = .cut → cut store) : Ends (write fate reason change) store post fail cut := by
  cases fate with
  | done => exact done rfl
  | failed => exact failed rfl
  | cut => exact isCut rfl

theorem Ends.quietly {fate : Fate} {change : σ → σ} {post : Bool → σ → Prop}
    (done : fate = .done → post true (change store)) (failed : fate = .failed → post false store)
    (isCut : fate = .cut → cut store) :
    Ends (quietly fate change : Prog σ ε Bool) store post fail cut := by
  cases fate with
  | done => exact done rfl
  | failed => exact failed rfl
  | cut => exact isCut rfl

theorem Ends.attempt {post : Except ε α → σ → Prop}
    (ends : Ends prog store (fun result => post (.ok result)) (fun reason => post (.error reason)) cut) :
    Ends (attempt prog) store post fail cut := by
  unfold Ends at *
  split at ends <;> rename_i isEnding <;> simp only [Prog.attempt, isEnding] <;> exact ends

theorem Ends.mapError {ε' : Type} {f : ε → ε'} {fail : ε' → σ → Prop}
    (ends : Ends prog store post (fun reason => fail (f reason)) cut) :
    Ends (mapError f prog) store post fail cut := by
  unfold Ends at *
  split at ends <;> rename_i isEnding <;> simp only [Prog.mapError, isEnding] <;> exact ends

theorem Ends.loopFrom {body : Nat → α → β → Prog σ ε β} {inv : Nat → σ → Prop} {values : List α} :
    ∀ {start : Nat} {carried : β} {store : σ}, inv start store →
      (∀ position value carried store, values[position]? = some value → inv (start + position) store →
        Ends (body (start + position) value carried) store (fun _ => inv (start + position + 1)) fail cut) →
      Ends (loopFrom body start carried values) store (fun _ => inv (start + values.length)) fail cut := by
  induction values with
  | nil => exact fun initial _ => initial
  | cons value rest ih =>
    intro start carried store initial step
    refine (step 0 value carried store rfl initial).bind fun _ left kept => ?_
    rw [List.length_cons, show start + (rest.length + 1) = start + 1 + rest.length by omega]
    refine ih kept fun position value' carried' store' isValue holds => ?_
    rw [show start + 1 + position = start + (position + 1) by omega] at holds ⊢
    exact step (position + 1) value' carried' store' isValue holds

/-- **The rule of the loop.** -/
theorem Ends.loop {body : Nat → α → β → Prog σ ε β} (inv : Nat → σ → Prop) {values : List α}
    {initial : β} (first : inv 0 store)
    (step : ∀ position value carried store, values[position]? = some value → inv position store →
      Ends (body position value carried) store (fun _ => inv (position + 1)) fail cut) :
    Ends (loop values initial body) store (fun _ => inv values.length) fail cut := by
  have looped : Ends (Prog.loopFrom body 0 initial values) store (fun _ => inv (0 + values.length)) fail cut :=
    Ends.loopFrom first fun position value carried store isValue holds => by
      rw [Nat.zero_add] at holds ⊢
      exact step position value carried store isValue holds
  rwa [Nat.zero_add] at looped

/-- A triple whose three conditions are one says what is left however the program ends. -/
theorem Ends.left {rest : σ → Prop} (ends : Ends prog store (fun _ => rest) (fun _ => rest) rest) :
    rest (prog.left store) := by
  unfold Ends at ends
  unfold Prog.left
  split at ends <;> rename_i isEnding <;> rw [isEnding] <;> exact ends

/-- What a program that returned this value leaves. -/
theorem Ends.of_value (ends : Ends prog store post fail cut) {result : α}
    (returned : prog.ending store = .value result) : post result (prog.left store) := by
  unfold Ends at ends
  unfold Prog.ending at returned
  unfold Prog.left
  split at ends <;> rename_i isEnding <;> rw [isEnding] at returned ⊢ <;> cases returned
  exact ends

theorem ends_of_left {rest : σ → Prop} (holds : rest (prog.left store)) :
    Ends prog store (fun _ => rest) (fun _ => rest) rest := by
  unfold Prog.left at holds
  unfold Ends
  split <;> rename_i isEnding <;> rw [isEnding] at holds <;> exact holds

end Triples

/-! ### Programs that return -/

section Returned

variable {prog : Prog σ ε α} {next : α → Prog σ ε β} {store after : σ} {result : β}

/-- **A sequence returned** exactly when its two programs did. -/
theorem bind_returned : (prog >>= next) store = (.value result, after) ↔
    ∃ middle midway, prog store = (.value middle, midway) ∧ next middle midway = (.value result, after) := by
  show andThen prog next store = _ ↔ _
  unfold andThen
  rcases prog store with ⟨middle | reason | _, midway⟩
  · simp
  · simp
  · simp

theorem write_returned {fate : Fate} {reason : ε} {change : σ → σ} :
    write fate reason change store = (.value (), after) ↔ fate = .done ∧ after = change store := by
  cases fate with
  | done => simp [write, eq_comm]
  | failed => simp [write]
  | cut => simp [write]

theorem mapError_returned {ε' : Type} {f : ε → ε'} {value : α} :
    mapError f prog store = (.value value, after) ↔ prog store = (.value value, after) := by
  unfold mapError
  rcases prog store with ⟨middle | reason | _, midway⟩
  · simp
  · simp
  · simp

theorem ofExcept_returned {computed : Except ε α} {value : α} :
    ofExcept computed store = (.value value, after) ↔ computed = .ok value ∧ after = store := by
  cases computed with
  | ok result => simp [ofExcept, pure, eq_comm]
  | error reason => simp [ofExcept, throw]

theorem pure_returned {value other : α} :
    (pure value : Prog σ ε α) store = (.value other, after) ↔ other = value ∧ after = store := by
  simp [pure, eq_comm]

end Returned

/-! ### Loops by their turns -/

section Turns

variable {prog : Prog σ ε α} {store : σ} {fail : ε → σ → Prop} {cut : σ → Prop}

/-- A triple knows which run it is about. -/
theorem Ends.exact {post : α → σ → Prop} (ends : Ends prog store post fail cut) :
    Ends prog store (fun result after => post result after ∧ prog store = (.value result, after)) fail cut := by
  unfold Ends at *
  revert ends
  rcases prog store with ⟨result | reason | _, after⟩
  · exact fun holds => ⟨holds, rfl⟩
  · exact id
  · exact id

variable {body : Nat → α → β → Prog σ ε β}

theorem loopFrom_append (later : List α) : ∀ (first : List α) (start : Nat) (carried : β),
    Prog.loopFrom body start carried (first ++ later) = Prog.loopFrom body start carried first >>= fun carried =>
      Prog.loopFrom body (start + first.length) carried later := by
  intro first
  induction first with
  | nil => exact fun _ _ => rfl
  | cons value rest ih =>
    intro start carried
    show body start value carried >>= _ = (body start value carried >>= _) >>= _
    rw [bind_bind]
    congr 1
    funext carried
    rw [List.append_eq, ih, List.length_cons, Nat.add_assoc, Nat.add_comm 1]

/-- **The rule of the loop**, with the turns before each one at hand. -/
theorem Ends.loopReached (inv : σ → Prop) {values : List α} {initial : β} (start : inv store)
    (step : ∀ first value rest carried midway, values = first ++ value :: rest →
      Prog.loop first initial body store = (.value carried, midway) → inv midway →
      Ends (body first.length value carried) midway (fun _ => inv) fail cut) :
    Ends (Prog.loop values initial body) store (fun _ => inv) fail cut := by
  have prefixes : ∀ first rest, values = first ++ rest →
      Ends (Prog.loop first initial body) store (fun _ => inv) fail cut := by
    intro first
    induction first using List.reverseRecOn with
    | nil => exact fun _ _ => start
    | append_singleton first value ih =>
      intro rest isSplit
      have isSplit' : values = first ++ value :: rest := by
        rw [isSplit, List.append_assoc, List.singleton_append]
      unfold Prog.loop
      rw [loopFrom_append, Nat.zero_add]
      refine (ih _ isSplit').exact.bind fun carried midway reached => ?_
      show Ends (body first.length value carried >>= fun carried => pure carried) midway _ _ _
      rw [ends_bind]
      exact step first value rest carried midway isSplit' reached.2 reached.1
  exact prefixes values [] (List.append_nil _).symm

end Turns

/-! ### What a program leaves alone -/

/-- What a step may do to a store, closed under doing nothing and doing two steps. -/
structure Frame (R : σ → σ → Prop) : Prop where
  refl : ∀ store, R store store
  trans : ∀ {first second third}, R first second → R second third → R first third

/-- However `prog` ends, the store it leaves is `R`-related to the one it found. -/
def Moves (R : σ → σ → Prop) (prog : Prog σ ε α) : Prop := ∀ store, R store (prog.left store)

section Moves

variable {R : σ → σ → Prop} {prog : Prog σ ε α} {next : α → Prog σ ε β}

theorem Moves.ends (moves : Moves R prog) (store : σ) :
    Ends prog store (fun _ => R store) (fun _ => R store) (R store) := ends_of_left (moves store)

variable (frame : Frame R)
include frame

theorem Moves.pure (result : α) : Moves R (pure result : Prog σ ε α) := frame.refl

theorem Moves.read (view : σ → α) : Moves R (read view : Prog σ ε α) := frame.refl

theorem Moves.throw (reason : ε) : Moves R (throw reason : Prog σ ε α) := frame.refl

theorem Moves.halt : Moves R (halt : Prog σ ε α) := frame.refl

theorem Moves.unwrap (value : Option α) : Moves R (unwrap value : Prog σ ε α) := by
  cases value with
  | none => exact frame.refl
  | some result => exact frame.refl

theorem Moves.bind (first : Moves R prog) (second : ∀ result, Moves R (next result)) :
    Moves R (prog >>= next) := fun store => by
  have ends : Ends (prog >>= next) store (fun _ => R store) (fun _ => R store) (R store) :=
    (first.ends store).bind fun result left moved =>
      (second result).ends left |>.mono (fun _ _ => frame.trans moved) (fun _ _ => frame.trans moved)
        fun _ => frame.trans moved
  exact ends.left

/-- A program before another whose result is looked at. -/
theorem Moves.andThen {start store : σ} {post : β → σ → Prop} (moves : Moves R prog) (sofar : R start store)
    (rest : ∀ result left, R start left → Ends (next result) left post (fun _ => R start) (R start)) :
    Ends (prog >>= next) store post (fun _ => R start) (R start) := by
  have ends : Ends prog store (fun _ => R start) (fun _ => R start) (R start) :=
    (moves.ends store).mono (fun _ _ => frame.trans sofar) (fun _ _ => frame.trans sofar)
      fun _ => frame.trans sofar
  exact ends.bind rest

theorem Moves.write {fate : Fate} {reason : ε} {change : σ → σ} (allowed : ∀ store, R store (change store)) :
    Moves R (write fate reason change) := by
  intro store
  cases fate with
  | done => exact allowed store
  | failed => exact frame.refl store
  | cut => exact frame.refl store

theorem Moves.quietly {fate : Fate} {change : σ → σ} (allowed : ∀ store, R store (change store)) :
    Moves R (quietly fate change : Prog σ ε Bool) := by
  intro store
  cases fate with
  | done => exact allowed store
  | failed => exact frame.refl store
  | cut => exact frame.refl store

omit frame in
theorem Moves.attempt (moves : Moves R prog) : Moves R (attempt prog) := fun store => by
  have ends : Ends (Prog.attempt prog) store (fun _ => R store) (fun _ => R store) (R store) :=
    Ends.attempt (moves.ends store)
  exact ends.left

omit frame in
theorem Moves.mapError {ε' : Type} {f : ε → ε'} (moves : Moves R prog) : Moves R (mapError f prog) :=
    fun store => by
  have ends : Ends (Prog.mapError f prog) store (fun _ => R store) (fun _ => R store) (R store) :=
    Ends.mapError (moves.ends store)
  exact ends.left

theorem Moves.ofExcept (result : Except ε α) : Moves R (ofExcept result : Prog σ ε α) := by
  cases result with
  | ok value => exact Moves.pure frame value
  | error reason => exact Moves.throw frame reason

theorem Moves.loopFrom {body : Nat → α → β → Prog σ ε β}
    (each : ∀ position value carried, Moves R (body position value carried)) (values : List α) :
    ∀ start carried, Moves R (loopFrom body start carried values) := by
  induction values with
  | nil => exact fun _ carried => Moves.pure frame carried
  | cons value rest ih =>
    exact fun start carried => Moves.bind frame (each start value carried) fun carried => ih (start + 1) carried

theorem Moves.loop {body : Nat → α → β → Prog σ ε β}
    (each : ∀ position value carried, Moves R (body position value carried)) (values : List α) (initial : β) :
    Moves R (loop values initial body) := Moves.loopFrom frame each values 0 initial

end Moves

/-! ### Programs over two stores -/

section Endings

variable {σ' : Type}

/-- Programs over different stores that end alike in every turn. -/
def EndAlike (prog : Prog σ ε α) (prog' : Prog σ' ε α) : Prop := ∀ store store',
    prog.ending store = prog'.ending store'

theorem EndAlike.bind {prog : Prog σ ε α} {prog' : Prog σ' ε α} {next : α → Prog σ ε β} {next' : α → Prog σ' ε β}
    (first : EndAlike prog prog') (second : ∀ result, EndAlike (next result) (next' result)) :
    EndAlike (prog >>= next) (prog' >>= next') := by
  intro store store'
  have same := first store store'
  show (andThen prog next store).1 = (andThen prog' next' store').1
  unfold ending at same
  unfold andThen
  revert same
  rcases prog store with ⟨result | reason | _, after⟩ <;>
    rcases prog' store' with ⟨result' | reason' | _, after'⟩ <;> intro same <;> cases same
  · exact second result after after'
  · rfl
  · rfl

theorem EndAlike.write {fate : Fate} {reason : ε} {change : σ → σ} {change' : σ' → σ'} :
    EndAlike (write fate reason change) (write fate reason change') := by
  intro store store'
  cases fate <;> rfl

theorem EndAlike.loopFrom {body : Nat → α → β → Prog σ ε β} {body' : Nat → α → β → Prog σ' ε β}
    (each : ∀ position value carried, EndAlike (body position value carried) (body' position value carried))
    (values : List α) : ∀ start carried,
    EndAlike (loopFrom body start carried values) (loopFrom body' start carried values) := by
  induction values with
  | nil => exact fun _ _ _ _ => rfl
  | cons value rest ih =>
    exact fun start carried => (each start value carried).bind fun carried => ih (start + 1) carried

end Endings

/-! ### What a program may fail with -/

/-- Every error of `prog` is allowed. -/
def Raises (allowed : ε → Prop) (prog : Prog σ ε α) : Prop :=
  ∀ store, Ends prog store (fun _ _ => True) (fun reason _ => allowed reason) fun _ => True

section Raises

variable {allowed : ε → Prop} {prog : Prog σ ε α} {next : α → Prog σ ε β}

theorem Raises.pure (result : α) : Raises allowed (pure result : Prog σ ε α) := fun _ => trivial

theorem Raises.read (view : σ → α) : Raises allowed (read view : Prog σ ε α) := fun _ => trivial

theorem Raises.throw {reason : ε} (isAllowed : allowed reason) :
    Raises allowed (throw reason : Prog σ ε α) := fun _ => isAllowed

theorem Raises.unwrap (value : Option α) : Raises allowed (unwrap value : Prog σ ε α) := by
  intro store
  cases value with
  | none => exact trivial
  | some result => exact trivial

theorem Raises.bind (first : Raises allowed prog) (second : ∀ result, Raises allowed (next result)) :
    Raises allowed (prog >>= next) := fun store => (first store).bind fun result left _ => second result left

theorem Raises.write {fate : Fate} {reason : ε} {change : σ → σ} (isAllowed : allowed reason) :
    Raises allowed (write fate reason change) := fun _ =>
  Ends.write (fun _ => trivial) (fun _ => isAllowed) fun _ => trivial

theorem Raises.quietly {fate : Fate} {change : σ → σ} :
    Raises allowed (quietly fate change : Prog σ ε Bool) := fun _ =>
  Ends.quietly (fun _ => trivial) (fun _ => trivial) fun _ => trivial

/-- After an attempt, the error at hand is an allowed one. -/
theorem Raises.attempt {next : Except ε α → Prog σ ε β} (first : Raises allowed prog)
    (onError : ∀ reason, allowed reason → Raises allowed (next (.error reason)))
    (onValue : ∀ result, Raises allowed (next (.ok result))) :
    Raises allowed (attempt prog >>= next) := by
  intro store
  rw [ends_bind]
  exact Ends.attempt ((first store).mono (fun result left _ => onValue result left)
    (fun reason left isAllowed => onError reason isAllowed left) fun _ _ => trivial)

end Raises

end Prog
