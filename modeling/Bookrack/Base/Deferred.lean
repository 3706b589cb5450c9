/-
A value committed under a lock and published outside it.

Writers commit a value inside a critical section and publish it later, after they have left it. The
`pending` list holds what has been committed and not yet published, oldest first, and `published`
is what readers see now. Nothing makes the publications happen in commit order, so what readers end
up with may not be what was committed last.

* `Agrees` — once everything pending is published in commit order, readers see the committed value.
  With nothing pending it says they see it now.
* `agrees_commit`, `agrees_announce_iff`, `agrees_publish_iff`, `agrees_withdraw_iff` — what each of
  the four steps does to it, the last three with the exact condition under which it survives.
-/

import Mathlib.Data.List.Basic
import Mathlib.Data.Option.Basic

namespace Deferred

variable {V : Type}

/-- What readers see once every pending value is published in commit order. -/
def newest (published : Option V) (pending : List V) : Option V := pending.getLast?.or published

/-- Publishing in commit order ends at the committed value, if anything is published at all. -/
def Agrees (committed : V) (pending : List V) (published : Option V) : Prop :=
  ∀ value, newest published pending = some value → value = committed

@[simp] theorem newest_nil (published : Option V) : newest published [] = published := rfl

@[simp] theorem newest_concat (published : Option V) (pending : List V) (value : V) :
    newest published (pending ++ [value]) = some value := by
  simp [newest]

/-- Publishing the oldest pending value does not change where publishing them all ends. -/
@[simp] theorem newest_cons (published : Option V) (value : V) (newer : List V) :
    newest published (value :: newer) = newest (some value) newer := by
  rw [newest, newest, List.getLast?_cons]
  cases newer.getLast? <;> rfl

/-- **Committing** a value queues it behind the older ones and always agrees. -/
theorem agrees_commit (published : Option V) (pending : List V) (value : V) :
    Agrees value (pending ++ [value]) published := by
  intro last isLast
  rw [newest_concat] at isLast
  exact (Option.some.inj isLast).symm

/-- **Announcing** commits and publishes at once, overtaking everything pending: it agrees exactly
when the newest pending value, if any, is the announced one. -/
theorem agrees_announce_iff {pending : List V} {value : V} :
    Agrees value pending (some value) ↔ ∀ last, pending.getLast? = some last → last = value := by
  constructor
  · intro agrees last isLast
    exact agrees last (by rw [newest, isLast]; rfl)
  · intro same last isLast
    cases newestPending : pending.getLast? with
    | none =>
      rw [newest, newestPending] at isLast
      exact (Option.some.inj isLast).symm
    | some other =>
      rw [newest, newestPending] at isLast
      exact same last (newestPending.trans isLast)

/-- The value of the newest pending publication is the committed one. -/
theorem Agrees.last {committed value : V} {pending : List V} {published : Option V}
    (agrees : Agrees committed (pending ++ [value]) published) : value = committed :=
  agrees value (newest_concat published pending value)

/-- **Publishing** one pending value keeps agreement unless it is the newest one and overtakes an
older one with another value. -/
theorem agrees_publish_iff {committed value : V} {older newer : List V} {published : Option V}
    (agrees : Agrees committed (older ++ value :: newer) published) :
    Agrees committed (older ++ newer) (some value) ↔
      (newer = [] → ∀ last, older.getLast? = some last → last = value) := by
  rcases List.eq_nil_or_concat newer with rfl | ⟨front, last, rfl⟩
  · rw [List.append_nil, ← agrees.last, agrees_announce_iff]
    exact ⟨fun same _ => same, fun same => same rfl⟩
  · rw [List.concat_eq_append] at agrees ⊢
    refine iff_of_true ?_ fun absent => absurd absent (by simp)
    intro found isFound
    rw [← List.append_assoc, newest_concat] at isFound
    refine agrees found ?_
    rw [← List.cons_append, ← List.append_assoc, newest_concat, isFound]

/-- **Withdrawing** one pending value, when its publication fails, keeps agreement unless it was the
newest one and what readers are left with is another value. -/
theorem agrees_withdraw_iff {committed value : V} {older newer : List V} {published : Option V}
    (agrees : Agrees committed (older ++ value :: newer) published) :
    Agrees committed (older ++ newer) published ↔
      (newer = [] → ∀ left, newest published older = some left → left = value) := by
  rcases List.eq_nil_or_concat newer with rfl | ⟨front, last, rfl⟩
  · rw [List.append_nil, ← agrees.last]
    exact ⟨fun same _ => same, fun same => same rfl⟩
  · rw [List.concat_eq_append] at agrees ⊢
    refine iff_of_true ?_ fun absent => absurd absent (by simp)
    intro found isFound
    rw [← List.append_assoc, newest_concat] at isFound
    refine agrees found ?_
    rw [← List.cons_append, ← List.append_assoc, newest_concat, isFound]

/-! ### Picking one pending entry -/

/-- The entry at an index, with what is older and what is newer. -/
theorem pick_split {entries : List V} {index : Nat} {entry : V}
    (found : entries[index]? = some entry) :
    ∃ older newer, entries = older ++ entry :: newer ∧ older.length = index ∧
      entries.eraseIdx index = older ++ newer ∧
        ∀ other, entries.set index other = older ++ other :: newer := by
  obtain ⟨inside, here⟩ := List.getElem?_eq_some_iff.mp found
  refine ⟨entries.take index, entries.drop (index + 1), ?_, List.length_take_of_le (Nat.le_of_lt inside),
    List.eraseIdx_eq_take_drop_succ .., fun other => ?_⟩
  · rw [← here, ← List.drop_eq_getElem_cons inside, List.take_append_drop]
  · rw [List.set_eq_take_append_cons_drop, if_pos inside]

/-- Two ways to cut the entries at the same place agree. -/
theorem pick_unique {older newer older' newer' : List V} {entry entry' : V}
    (same : older ++ entry :: newer = older' ++ entry' :: newer')
    (length : older.length = older'.length) :
    older = older' ∧ entry = entry' ∧ newer = newer' := by
  obtain ⟨rfl, rest⟩ := List.append_inj same length
  cases rest
  exact ⟨rfl, rfl, rfl⟩

end Deferred
