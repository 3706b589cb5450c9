/-
Texts cut at byte positions, as `&text[a..b]` cuts them.

* `dropBytes`, `slice`: `none` where the cut panics, off the character boundaries or out of bounds.
* `findBytes`, `rfindBytes`: the byte position of a first or last occurrence.
* **`dropBytes_append`**, **`slice_append`**, **`findBytes_cutAt`**: what they give at the end of a part
  of the text.
-/

import Mathlib.Data.List.DropRight
import Bookrack.Base.Occurrence
import Bookrack.Core.Text

namespace Bookrack

open Occurrence (find find_eq_some)

/-- `&text[position..]`. -/
def dropBytes : Nat → List Char → Option (List Char)
  | 0, text => some text
  | _ + 1, [] => none
  | bytes + 1, c :: text =>
    if c.utf8Size ≤ bytes + 1 then dropBytes (bytes + 1 - c.utf8Size) text else none

/-- `&text[start..stop]`. -/
def slice (start stop : Nat) (text : List Char) : Option (List Char) :=
  if start ≤ stop then (dropBytes start text).bind (takeBytes (stop - start)) else none

/-- `text.find(needle)`. -/
def findBytes (needle text : List Char) : Option Nat :=
  (find needle text).map fun position => String.utf8Len (text.take position)

/-- `text.rfind(c)`. -/
def rfindBytes (c : Char) (text : List Char) : Option Nat :=
  if c ∈ text then some (String.utf8Len (text.rdropWhile (· != c)).dropLast) else none

theorem dropBytes_append (head rest : List Char) :
    dropBytes (String.utf8Len head) (head ++ rest) = some rest := by
  induction head with
  | nil => cases rest <;> rfl
  | cons c head ih =>
    obtain ⟨bytes, isSucc⟩ : ∃ bytes, String.utf8Len (c :: head) = bytes + 1 :=
      ⟨_, (Nat.sub_add_cancel (Nat.le_add_left_of_le c.utf8Size_pos)).symm⟩
    have size : bytes + 1 = String.utf8Len head + c.utf8Size := by
      rw [← isSucc, String.utf8Len_cons]
    rw [isSucc, List.cons_append, dropBytes, if_pos (by omega), size, Nat.add_sub_cancel, ih]

theorem slice_append (head mid rest : List Char) :
    slice (String.utf8Len head) (String.utf8Len head + String.utf8Len mid)
      (head ++ (mid ++ rest)) = some mid := by
  rw [slice, if_pos (Nat.le_add_right _ _), dropBytes_append, Nat.add_sub_cancel_left]
  exact takeBytes_append mid rest

/-- A slice between two positions of the text. -/
theorem slice_eq {text head mid rest : List Char} {start stop : Nat} (isText : text = head ++ (mid ++ rest))
    (isStart : start = String.utf8Len head) (isStop : stop = String.utf8Len head + String.utf8Len mid) :
    slice start stop text = some mid := by
  rw [isText, isStart, isStop, slice_append]

/-- A character that is not in the head is found behind it. -/
theorem findBytes_char {c : Char} {head : List Char} (free : c ∉ head) (tail : List Char) :
    findBytes [c] (head ++ c :: tail) = some (String.utf8Len head) := by
  have noEarlier : ∀ position < head.length, ¬ [c] <+: (head ++ ([c] ++ tail)).drop position := by
    intro position inside begins
    rw [List.drop_append_of_le_length inside.le, ← List.cons_getElem_drop_succ (h := inside)] at begins
    exact free ((List.cons_prefix_cons.mp begins).1 ▸ List.getElem_mem inside)
  rw [findBytes, ← List.singleton_append, Occurrence.find_behind noEarlier, Option.map_some, List.take_left]

theorem findBytes_eq_some {needle text : List Char} {bytes : Nat} (found : findBytes needle text = some bytes) :
    ∃ head tail, text = head ++ (needle ++ tail) ∧ bytes = String.utf8Len head ∧
      ∀ position < head.length, ¬ needle <+: text.drop position := by
  obtain ⟨position, isFirst, rfl⟩ := Option.map_eq_some_iff.mp found
  obtain ⟨inside, ⟨tail, isTail⟩, noEarlier⟩ := find_eq_some.mp isFirst
  refine ⟨text.take position, tail, ?_, rfl, ?_⟩
  · rw [isTail, List.take_append_drop]
  · rw [List.length_take, Nat.min_eq_left inside]
    exact noEarlier

/-- What stands before the first occurrence of a needle, and what behind it. -/
def cutAt (needle text : List Char) : Option (List Char × List Char) :=
  (find needle text).map fun position => (text.take position, text.drop (position + needle.length))

/-- A needle is found where the text is cut at it. -/
theorem findBytes_cutAt (needle text : List Char) : (findBytes needle text = none ∧ cutAt needle text = none) ∨
    ∃ head tail, text = head ++ (needle ++ tail) ∧ findBytes needle text = some (String.utf8Len head) ∧
      cutAt needle text = some (head, tail) := by
  rw [findBytes, cutAt]
  cases found : find needle text with
  | none => exact .inl ⟨rfl, rfl⟩
  | some position =>
    obtain ⟨-, ⟨tail, isTail⟩, -⟩ := find_eq_some.mp found
    refine .inr ⟨text.take position, tail, ?_, rfl, ?_⟩
    · rw [isTail, List.take_append_drop]
    · rw [Option.map_some, ← List.drop_drop, ← isTail, List.drop_left]

theorem findBytes_eq_none {needle text : List Char} :
    findBytes needle text = none ↔ ¬ needle <:+: text := by
  rw [findBytes, Option.map_eq_none_iff]
  constructor
  · rintro none ⟨head, tail, rfl⟩
    have begins : needle <+: (head ++ needle ++ tail).drop head.length := by
      rw [List.append_assoc, List.drop_left]
      exact List.prefix_append _ _
    obtain ⟨first, -, found⟩ := Occurrence.find_le (by simp) begins
    exact Option.some_ne_none first (found.symm.trans none)
  · intro free
    cases found : find needle text with
    | none => rfl
    | some position =>
      obtain ⟨-, begins, -⟩ := find_eq_some.mp found
      exact absurd (begins.isInfix.trans (List.drop_suffix _ _).isInfix) free

/-- The last line break is the one before a text that has none. -/
theorem rfindBytes_append {c : Char} (head : List Char) {rest : List Char} (free : c ∉ rest) :
    rfindBytes c (head ++ c :: rest) = some (String.utf8Len head) := by
  have dropped : (head ++ c :: rest).rdropWhile (· != c) = head ++ [c] := by
    induction rest using List.reverseRecOn with
    | nil => exact List.rdropWhile_concat_neg _ _ _ (by simp)
    | append_singleton rest d ih =>
      rw [List.mem_append, not_or] at free
      have isOther : (d != c) = true := bne_iff_ne.mpr fun same => free.2 (by simp [same])
      rw [← List.cons_append, ← List.append_assoc, List.rdropWhile_concat_pos (· != c) _ _ isOther]
      exact ih free.1
  rw [rfindBytes, if_pos (by simp), dropped, List.dropLast_concat]

theorem rfindBytes_none {c : Char} {text : List Char} (free : c ∉ text) : rfindBytes c text = none :=
  if_neg free

end Bookrack
