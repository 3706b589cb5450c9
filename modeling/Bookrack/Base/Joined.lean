/-
Texts joined by a separator, and where a slice of the joined text lies.

* `exists_text`: a position off the separator belongs to one text.
* **`covers`**: a slice that starts and ends off the separator lies inside one text, or runs from
  the end of one to the beginning of a later one, over everything in between.
-/

import Mathlib.Data.List.Basic

namespace Bookrack.Joined

variable {α ι : Type*} {sep : List α} {text : ι → List α}

/-! ### Lead and trail -/

/-- What leads up to the item after `items`: their texts, each with the separator behind it. -/
def lead (sep : List α) (text : ι → List α) (items : List ι) : List α :=
  items.flatMap fun item => text item ++ sep

/-- What trails the item before `items`: their texts, each with the separator in front. -/
def trail (sep : List α) (text : ι → List α) (items : List ι) : List α :=
  items.flatMap fun item => sep ++ text item

theorem lead_cons (item : ι) (items : List ι) :
    lead sep text (item :: items) = text item ++ sep ++ lead sep text items := List.flatMap_cons

theorem lead_append (front back : List ι) :
    lead sep text (front ++ back) = lead sep text front ++ lead sep text back := List.flatMap_append

theorem intercalate_cons (item : ι) (items : List ι) :
    sep.intercalate ((item :: items).map text) = text item ++ trail sep text items := by
  induction items generalizing item with
  | nil => rw [List.map_singleton, List.intercalate_singleton, trail, List.flatMap_nil,
      List.append_nil]
  | cons next items ih =>
    rw [List.map_cons, List.map_cons, List.intercalate_cons_cons, ← List.map_cons, ih, trail, trail,
      List.flatMap_cons, List.append_assoc, List.append_assoc]

theorem trail_cons (item : ι) (items : List ι) :
    trail sep text (item :: items) = sep ++ text item ++ trail sep text items := List.flatMap_cons

theorem trail_append (front back : List ι) :
    trail sep text (front ++ back) = trail sep text front ++ trail sep text back := List.flatMap_append

/-- A list is its rows between the separators, one value each. -/
theorem splitOn_rows [DecidableEq α] (c : α) (values : List α) : ∃ row rest,
    values.splitOn c = row :: rest ∧ values = row ++ trail [c] id rest ∧ ∀ one ∈ row :: rest, c ∉ one := by
  induction values with
  | nil => exact ⟨[], [], rfl, rfl, fun one isIn => List.mem_singleton.mp isIn ▸ List.not_mem_nil⟩
  | cons value values ih =>
    obtain ⟨row, rest, isSplit, whole, free⟩ := ih
    rw [List.splitOn_cons_eq_if_modifyHead, isSplit]
    by_cases isSep : value = c
    · rw [if_pos (beq_iff_eq.mpr isSep)]
      refine ⟨[], row :: rest, rfl, ?_, List.forall_mem_cons.mpr ⟨List.not_mem_nil, free⟩⟩
      rw [whole, trail_cons, isSep]
      rfl
    · rw [if_neg (mt beq_iff_eq.mp isSep)]
      obtain ⟨first, others⟩ := List.forall_mem_cons.mp free
      refine ⟨value :: row, rest, rfl, by rw [whole]; rfl, List.forall_mem_cons.mpr ⟨?_, others⟩⟩
      exact List.not_mem_cons_of_ne_of_not_mem (Ne.symm isSep) first

/-- The join of two ends and the whole texts between them. -/
theorem intercalate_ends (tail : List α) (mid : List ι) (head : List α) :
    sep.intercalate (tail :: (mid.map text ++ [head])) =
      tail ++ sep ++ lead sep text mid ++ head := by
  induction mid generalizing tail with
  | nil => simp [lead]
  | cons item mid ih =>
    rw [List.map_cons, List.cons_append, List.intercalate_cons_cons, ih, lead_cons]
    simp only [List.append_assoc]

/-! ### The text a position belongs to -/

/-- An element of an append is in the one part or in the other. -/
theorem append_eq_cons {xs ys before after : List α} {c : α}
    (split : xs ++ ys = before ++ c :: after) :
    (∃ rest, xs = before ++ c :: rest ∧ after = rest ++ ys) ∨
      ∃ rest, before = xs ++ rest ∧ ys = rest ++ c :: after := by
  rcases List.append_eq_append_iff.mp split with ⟨rest, isBefore, isAfter⟩ | ⟨rest, isXs, isRest⟩
  · exact .inr ⟨rest, isBefore, isAfter⟩
  · cases rest with
    | nil => exact .inr ⟨[], by simpa using isXs.symm, isRest.symm⟩
    | cons first rest =>
      obtain ⟨rfl, rfl⟩ := List.cons.inj isRest
      exact .inl ⟨rest, isXs, rfl⟩

/-- **A position off the separator belongs to one text.** -/
theorem exists_text {items : List ι} {before after : List α} {c : α} (off : c ∉ sep)
    (joined : sep.intercalate (items.map text) = before ++ c :: after) :
    ∃ front item back head rest, items = front ++ item :: back ∧ text item = head ++ c :: rest ∧
      before = lead sep text front ++ head := by
  induction items generalizing before with
  | nil => exact absurd joined (by simp)
  | cons item items ih =>
    have inFirst : ∀ {rest}, text item = before ++ c :: rest →
        ∃ front item' back head rest, item :: items = front ++ item' :: back ∧
          text item' = head ++ c :: rest ∧ before = lead sep text front ++ head :=
      fun isText => ⟨[], item, items, before, _, rfl, isText, rfl⟩
    cases items with
    | nil =>
      rw [List.map_singleton, List.intercalate_singleton] at joined
      exact inFirst joined
    | cons next items =>
      rw [List.map_cons, List.map_cons, List.intercalate_cons_cons, ← List.map_cons] at joined
      rcases append_eq_cons joined with ⟨rest, isFirst, -⟩ | ⟨rest, rfl, isRest⟩
      · rcases append_eq_cons isFirst with ⟨rest', isText, -⟩ | ⟨rest', -, isSep⟩
        · exact inFirst isText
        · exact absurd (isSep ▸ by simp) off
      · obtain ⟨front, item', back, head, tail, isItems, isText, rfl⟩ := ih isRest
        refine ⟨item :: front, item', back, head, tail, ?_, isText, ?_⟩
        · rw [isItems, List.cons_append]
        · simp only [lead_cons, List.append_assoc]

/-! ### The texts a slice covers -/

/-- Where a slice of the joined text lies, `before` being what precedes it. -/
inductive Covers (sep : List α) (text : ι → List α) (items : List ι) (before chunk : List α) : Prop
  /-- Inside one text. -/
  | inside {front back : List ι} {item : ι} {head rest : List α}
      (isItems : items = front ++ item :: back)
      (isText : text item = head ++ chunk ++ rest)
      (isBefore : before = lead sep text front ++ head)
  /-- From the end of one text to the beginning of a later one. -/
  | across {front mid back : List ι} {first last : ι} {skipped head tail rest : List α}
      (isItems : items = front ++ first :: (mid ++ last :: back))
      (isFirst : text first = skipped ++ tail) (tailInk : tail ≠ [])
      (isLast : text last = head ++ rest) (headInk : head ≠ [])
      (isBefore : before = lead sep text front ++ skipped)
      (isChunk : chunk = tail ++ sep ++ lead sep text mid ++ head)

/-- **A slice that starts and ends off the separator covers texts, whole but for the two ends.** -/
theorem covers {items : List ι} {before chunk after body front : List α} {c d : α}
    (fromFirst : chunk = c :: body) (toLast : chunk = front ++ [d]) (firstOff : c ∉ sep)
    (lastOff : d ∉ sep) (joined : sep.intercalate (items.map text) = before ++ chunk ++ after) :
    Covers sep text items before chunk := by
  have atFirst : sep.intercalate (items.map text) = before ++ c :: (body ++ after) := by
    rw [joined, fromFirst, List.append_assoc, List.cons_append]
  have atLast : sep.intercalate (items.map text) = before ++ front ++ d :: after := by
    rw [joined, toLast, List.append_assoc, List.append_assoc, List.append_assoc,
      List.singleton_append]
  obtain ⟨before', first, back, skipped, tail, rfl, isFirst, rfl⟩ := exists_text firstOff atFirst
  obtain ⟨before'', last, back', head, rest, isItems, isLast, isLead⟩ := exists_text lastOff atLast
  rcases append_eq_cons isItems with ⟨between, rfl, -⟩ | ⟨between, rfl, isBack⟩
  · -- the last position would come before the first
    have length := congrArg List.length isLead
    have lastLength := congrArg List.length isLast
    simp only [lead_append, lead_cons, List.length_append, List.length_cons] at length lastLength
    omega
  · rw [lead_append, List.append_assoc, List.append_assoc, List.append_cancel_left_eq] at isLead
    cases between with
    | nil =>
      obtain ⟨rfl, rfl⟩ := List.cons.inj isBack
      have isText : text first = skipped ++ chunk ++ rest := by
        rw [isLast, toLast, ← List.append_assoc, isLead]
        simp [lead]
      exact .inside rfl isText rfl
    | cons item mid =>
      obtain ⟨rfl, rfl⟩ := List.cons.inj isBack
      have isText : text last = (head ++ [d]) ++ rest := by
        rw [isLast, List.append_assoc, List.singleton_append]
      refine .across rfl isFirst (List.cons_ne_nil c tail) isText (by simp) rfl ?_
      have isFront : front = c :: tail ++ sep ++ lead sep text mid ++ head := by
        rw [lead_cons, isFirst] at isLead
        simpa only [List.append_assoc, List.append_cancel_left_eq] using isLead
      rw [toLast, isFront]
      simp only [List.append_assoc]

end Bookrack.Joined
