/-
The first occurrence of a needle in a text.

* `find_eq_some`: where it is found it begins, and nowhere before.
* `RunsInto`: a needle whose end is the beginning of what follows.
* **`first_behind`** — behind a text free of the needle, the next mark is found where it stands unless
  the needle runs into it.
-/

import Mathlib.Data.List.Infix
import Mathlib.Data.Nat.Find

namespace Bookrack.Occurrence

variable {α : Type*} {needle mark text head tail : List α}

section Find

variable [DecidableEq α]

/-- Where a needle first begins. -/
def find (needle : List α) : List α → Option Nat
  | [] => if needle = [] then some 0 else none
  | value :: rest =>
    if needle <+: value :: rest then some 0 else (find needle rest).map (· + 1)

theorem find_eq_some {position : Nat} : find needle text = some position ↔
    position ≤ text.length ∧ needle <+: text.drop position ∧
      ∀ earlier < position, ¬ needle <+: text.drop earlier := by
  induction text generalizing position with
  | nil =>
    unfold find
    split_ifs with isEmpty
    · subst isEmpty
      cases position <;> simp
    · simp [isEmpty]
  | cons value rest ih =>
    unfold find
    split_ifs with here
    · constructor
      · rintro ⟨⟩
        simp [here]
      · rintro ⟨-, -, noEarlier⟩
        cases position with
        | zero => rfl
        | succ position => exact absurd here (noEarlier 0 (Nat.succ_pos _))
    · rw [Option.map_eq_some_iff]
      constructor
      · rintro ⟨inner, found, rfl⟩
        obtain ⟨inside, begins, noEarlier⟩ := ih.mp found
        refine ⟨Nat.succ_le_succ inside, begins, fun earlier isEarlier => ?_⟩
        cases earlier with
        | zero => exact here
        | succ earlier => exact noEarlier earlier (Nat.lt_of_succ_lt_succ isEarlier)
      · rintro ⟨inside, begins, noEarlier⟩
        cases position with
        | zero => exact absurd begins here
        | succ position =>
          exact ⟨position, ih.mpr ⟨Nat.le_of_succ_le_succ inside, begins, fun earlier isEarlier =>
            noEarlier (earlier + 1) (Nat.succ_lt_succ isEarlier)⟩, rfl⟩

/-- A needle that begins somewhere is found there or before. -/
theorem find_le {position : Nat} (inside : position ≤ text.length) (begins : needle <+: text.drop position) :
    ∃ first ≤ position, find needle text = some first := by
  have some : ∃ first, first ≤ text.length ∧ needle <+: text.drop first := ⟨position, inside, begins⟩
  classical
  refine ⟨Nat.find some, Nat.find_min' some ⟨inside, begins⟩, find_eq_some.mpr
    ⟨(Nat.find_spec some).1, (Nat.find_spec some).2, fun earlier isEarlier isPrefix => ?_⟩⟩
  exact Nat.find_min some isEarlier ⟨isEarlier.le.trans (Nat.find_spec some).1, isPrefix⟩

/-- A mark behind what holds no needle is found where it stands. -/
theorem find_behind (noEarlier : ∀ position < head.length,
    ¬ needle <+: (head ++ (needle ++ tail)).drop position) :
    find needle (head ++ (needle ++ tail)) = some head.length := by
  refine find_eq_some.mpr ⟨by simp, ?_, noEarlier⟩
  rw [List.drop_left]
  exact List.prefix_append _ _

end Find

/-! ### Needles that run into a mark -/

/-- An end of the needle, but not all of it, is how the mark begins. -/
def RunsInto (needle mark : List α) : Prop :=
  ∃ shared, shared ≠ [] ∧ shared ≠ needle ∧ shared <:+ needle ∧ shared <+: mark

/-- **A free text with a mark behind it** holds the needle nowhere before the mark. -/
theorem first_behind (free : ¬ needle <:+: head) (apart : ¬ RunsInto needle mark)
    (short : needle.length ≤ mark.length) (tail : List α) :
    ∀ position < head.length, ¬ needle <+: (head ++ (mark ++ tail)).drop position := by
  intro position inside begins
  rw [List.drop_append_of_le_length inside.le] at begins
  obtain ⟨rest, whole⟩ := begins
  rcases List.append_eq_append_iff.mp whole with ⟨middle, isHead, -⟩ | ⟨shared, isNeedle, isMark⟩
  · refine free ⟨head.take position, middle, ?_⟩
    rw [List.append_assoc, ← isHead, List.take_append_drop]
  · have length := congrArg List.length isNeedle
    rw [List.length_append, List.length_drop] at length
    refine apart ⟨shared, ?_, ?_, ⟨_, isNeedle.symm⟩, ?_⟩
    · rintro rfl
      rw [List.append_nil] at isNeedle
      exact free ⟨head.take position, [], by rw [isNeedle, List.append_nil, List.take_append_drop]⟩
    · intro same
      rw [← same] at length
      omega
    · exact List.prefix_of_prefix_length_le ⟨rest, isMark.symm⟩ (List.prefix_append mark tail) (by omega)

/-- A needle as long as the mark, and none the same, begins nowhere inside it. -/
theorem none_inside (differ : needle ≠ mark) (same : needle.length = mark.length)
    (apart : ¬ RunsInto mark needle) (tail : List α) :
    ∀ position < mark.length, ¬ needle <+: (mark ++ tail).drop position := by
  intro position inside begins
  rw [List.drop_append_of_le_length inside.le] at begins
  have isPrefix : mark.drop position <+: needle :=
    List.prefix_of_prefix_length_le (List.prefix_append _ _) begins (by rw [List.length_drop]; omega)
  by_cases start : position = 0
  · subst start
    rw [List.drop_zero] at isPrefix
    exact differ (isPrefix.eq_of_length same.symm).symm
  · refine apart ⟨mark.drop position, ?_, ?_, List.drop_suffix _ _, isPrefix⟩
    · intro empty
      have length := congrArg List.length empty
      rw [List.length_drop, List.length_nil] at length
      omega
    · intro whole
      have length := congrArg List.length whole
      rw [List.length_drop] at length
      omega

end Bookrack.Occurrence
