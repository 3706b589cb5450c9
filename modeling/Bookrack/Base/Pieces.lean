/-
The pieces of a list between separators.

* `pieces sep values`: the non-empty runs of values that are no separators, in order.
* `pieces_append_sep`, `pieces_flatMap`: what leaves the pieces as they are.
* `cut_induction`: a list is free of separators, or a free list, a separator and a list.
* `flatten_pieces`, `pieces_map`: the pieces hold the values that are no separators.
* **`pieces_two`**: with some separators dropped the pieces stay the same exactly where none of the
  others is needed (`Parted`); elsewhere they get fewer.
* **`iff_forall_pieces`**: a property that holds of a list exactly when it holds of both sides of
  each separator holds exactly when it holds of every piece.
-/

import Mathlib.Data.List.Basic
import Mathlib.Data.List.TakeWhile

namespace Pieces

variable {α : Type} (sep : α → Bool)

/-- The piece read so far, where there is one. -/
def close (current : List α) : List (List α) := if current.isEmpty then [] else [current]

/-- The pieces, with the piece read so far. -/
def piecesFrom (current : List α) : List α → List (List α)
  | [] => close current
  | value :: rest =>
    if sep value then close current ++ piecesFrom [] rest else piecesFrom (current ++ [value]) rest

def pieces (values : List α) : List (List α) := piecesFrom sep [] values

variable {sep} {current values : List α} {value : α}

theorem piecesFrom_sep (isSep : sep value = true) (rest : List α) :
    piecesFrom sep current (value :: rest) = close current ++ pieces sep rest := if_pos isSep

theorem piecesFrom_value (isValue : sep value = false) (rest : List α) :
    piecesFrom sep current (value :: rest) = piecesFrom sep (current ++ [value]) rest :=
  if_neg (by simp [isValue])

theorem pieces_sep (isSep : sep value = true) (rest : List α) :
    pieces sep (value :: rest) = pieces sep rest := by
  rw [pieces, piecesFrom_sep isSep]
  rfl

theorem piecesFrom_append_sep (isSep : sep value = true) (rest : List α) :
    piecesFrom sep current (values ++ value :: rest) =
      piecesFrom sep current values ++ pieces sep rest := by
  induction values generalizing current with
  | nil => exact piecesFrom_sep isSep rest
  | cons first values ih =>
    rw [List.cons_append]
    by_cases isFirst : sep first = true
    · rw [piecesFrom_sep isFirst, piecesFrom_sep isFirst, List.append_assoc, pieces, ih]
      rfl
    · rw [Bool.not_eq_true] at isFirst
      rw [piecesFrom_value isFirst, piecesFrom_value isFirst, ih]

theorem pieces_append_sep (isSep : sep value = true) (values rest : List α) :
    pieces sep (values ++ value :: rest) = pieces sep values ++ pieces sep rest :=
  piecesFrom_append_sep isSep rest

/-- Separators end the piece read so far. -/
theorem piecesFrom_seps (seps : ∀ value ∈ values, sep value = true) (isCons : values ≠ [])
    (rest : List α) :
    piecesFrom sep current (values ++ rest) = close current ++ pieces sep rest := by
  induction values generalizing current with
  | nil => exact absurd rfl isCons
  | cons first values ih =>
    rw [List.cons_append, piecesFrom_sep (seps first List.mem_cons_self)]
    rcases List.eq_nil_or_concat values with rfl | isCons'
    · rfl
    · rw [pieces, ih (fun value member => seps value (List.mem_cons_of_mem _ member)) (by
        obtain ⟨_, _, rfl⟩ := isCons'
        simp)]
      rfl

/-- Separators in front are no part of any piece. -/
theorem pieces_seps_append (seps : ∀ value ∈ values, sep value = true) (rest : List α) :
    pieces sep (values ++ rest) = pieces sep rest := by
  induction values with
  | nil => rfl
  | cons first values ih =>
    rw [List.cons_append, pieces_sep (seps first List.mem_cons_self),
      ih fun value member => seps value (List.mem_cons_of_mem _ member)]

theorem pieces_append_seps {seps : List α} (areSeps : ∀ value ∈ seps, sep value = true)
    (values : List α) : pieces sep (values ++ seps) = pieces sep values := by
  cases seps with
  | nil => rw [List.append_nil]
  | cons first seps =>
    rw [pieces_append_sep (areSeps first List.mem_cons_self)]
    have none := pieces_seps_append (fun value member => areSeps value (List.mem_cons_of_mem _ member))
      ([] : List α)
    rw [List.append_nil] at none
    rw [none]
    exact List.append_nil _

/-- The pieces stay where separators are replaced by separators. -/
theorem piecesFrom_flatMap {f : α → List α}
    (ofSep : ∀ value ∈ values, sep value = true → f value ≠ [] ∧ ∀ image ∈ f value, sep image = true)
    (ofValue : ∀ value ∈ values, sep value = false → f value = [value]) :
    piecesFrom sep current (values.flatMap f) = piecesFrom sep current values := by
  induction values generalizing current with
  | nil => rfl
  | cons first values ih =>
    have ih' : ∀ {current}, piecesFrom sep current (values.flatMap f) =
        piecesFrom sep current values := fun {_} =>
      ih (fun value member => ofSep value (List.mem_cons_of_mem _ member))
        fun value member => ofValue value (List.mem_cons_of_mem _ member)
    rw [List.flatMap_cons]
    by_cases isFirst : sep first = true
    · obtain ⟨isCons, seps⟩ := ofSep first List.mem_cons_self isFirst
      rw [piecesFrom_seps seps isCons, piecesFrom_sep isFirst, pieces, ih']
      rfl
    · rw [Bool.not_eq_true] at isFirst
      rw [ofValue first List.mem_cons_self isFirst, List.singleton_append, piecesFrom_value isFirst,
        piecesFrom_value isFirst, ih']

/-! ### Properties that separators cut -/

/-- A list is free of separators, or a free list, a separator and a list. -/
theorem cut_induction (sep : α → Bool) {P : List α → Prop}
    (free : ∀ values, (∀ value ∈ values, sep value = false) → P values)
    (cut : ∀ first value last, (∀ value ∈ first, sep value = false) → sep value = true → P last →
      P (first ++ value :: last)) : ∀ values, P values := by
  intro values
  induction length : values.length using Nat.strongRecOn generalizing values with
  | _ n ih =>
    subst length
    by_cases isFree : ∀ value ∈ values, sep value = false
    · exact free values isFree
    · have whole : values.takeWhile (fun value => !sep value) ++
          values.dropWhile (fun value => !sep value) = values := List.takeWhile_append_dropWhile
      cases isDropped : values.dropWhile fun value => !sep value with
      | nil =>
        rw [List.dropWhile_eq_nil_iff] at isDropped
        exact absurd (fun value member => by simpa using isDropped value member) isFree
      | cons value last =>
        have isSep : sep value = true := by
          have isCons : values.dropWhile (fun value => !sep value) ≠ [] := by simp [isDropped]
          have := List.head_dropWhile_not (fun value => !sep value) isCons
          simpa [isDropped] using this
        rw [isDropped] at whole
        have shorter : last.length < values.length := by
          rw [← whole, List.length_append, List.length_cons]
          omega
        rw [← whole]
        exact cut _ value last (fun other member => by simpa using List.mem_takeWhile_imp member)
          isSep (ih _ shorter last rfl)

theorem piecesFrom_free (free : ∀ value ∈ values, sep value = false) :
    piecesFrom sep current values = close (current ++ values) := by
  induction values generalizing current with
  | nil => rw [List.append_nil]; rfl
  | cons first values ih =>
    rw [piecesFrom_value (free first List.mem_cons_self),
      ih fun value member => free value (List.mem_cons_of_mem _ member), List.append_assoc]
    rfl

theorem forall_mem_close {P : List α → Prop} (nil : P []) :
    (∀ piece ∈ close current, P piece) ↔ P current := by
  cases current with
  | nil => exact iff_of_true (fun _ member => absurd member List.not_mem_nil) nil
  | cons first rest => exact List.forall_mem_singleton

/-- **A property that separators cut holds of a list exactly when it holds of every piece.** -/
theorem iff_forall_pieces {P : List α → Prop} (nil : P [])
    (cut : ∀ first value last, sep value = true → (P (first ++ value :: last) ↔ P first ∧ P last))
    (values : List α) : P values ↔ ∀ piece ∈ pieces sep values, P piece := by
  induction values using cut_induction sep with
  | free values free =>
    rw [pieces, piecesFrom_free free, List.nil_append, forall_mem_close nil]
  | cut first value last free isSep ih =>
    rw [cut first value last isSep, pieces_append_sep isSep, List.forall_mem_append, ← ih, pieces,
      piecesFrom_free free, List.nil_append, forall_mem_close nil]

/-! ### The values in the pieces -/

theorem flatten_close (current : List α) : (close current).flatten = current := by
  cases current with
  | nil => rfl
  | cons first rest => exact List.append_nil _

theorem flatten_piecesFrom (current values : List α) :
    (piecesFrom sep current values).flatten = current ++ values.filter fun value => !sep value := by
  induction values generalizing current with
  | nil => rw [List.filter_nil, List.append_nil]; exact flatten_close current
  | cons value rest ih =>
    by_cases isSep : sep value = true
    · rw [piecesFrom_sep isSep, List.flatten_append, flatten_close, pieces, ih,
        List.filter_cons_of_neg (by simp [isSep]), List.nil_append]
    · rw [Bool.not_eq_true] at isSep
      rw [piecesFrom_value isSep, ih, List.filter_cons_of_pos (by simp [isSep]), List.append_assoc]
      rfl

/-- **The pieces hold the values that are no separators.** -/
theorem flatten_pieces (sep : α → Bool) (values : List α) :
    (pieces sep values).flatten = values.filter fun value => !sep value := flatten_piecesFrom [] values

/-- There is no piece exactly where there are only separators. -/
theorem pieces_eq_nil (sep : α → Bool) (values : List α) :
    pieces sep values = [] ↔ ∀ value ∈ values, sep value = true := by
  constructor
  · intro none
    have flat := flatten_pieces sep values
    rw [none, List.flatten_nil, eq_comm, List.filter_eq_nil_iff] at flat
    exact fun value isIn => by simpa using flat value isIn
  · intro seps
    have none := pieces_seps_append seps []
    rw [List.append_nil] at none
    exact none

theorem map_close {β : Type} (f : α → β) (current : List α) :
    close (current.map f) = (close current).map (·.map f) := by
  cases current <;> rfl

/-- The pieces of what a function makes of the values. -/
theorem piecesFrom_map {β : Type} (f : α → β) (sep : β → Bool) (current values : List α) :
    piecesFrom sep (current.map f) (values.map f) = (piecesFrom (sep ∘ f) current values).map (·.map f) := by
  induction values generalizing current with
  | nil => exact map_close f current
  | cons value rest ih =>
    rw [List.map_cons]
    by_cases isSep : sep (f value) = true
    · rw [piecesFrom_sep isSep, @piecesFrom_sep _ (sep ∘ f) _ _ isSep, List.map_append, map_close]
      exact congrArg (_ ++ ·) (ih [])
    · rw [Bool.not_eq_true] at isSep
      rw [piecesFrom_value isSep, @piecesFrom_value _ (sep ∘ f) _ _ isSep, ← ih, List.map_append]
      rfl

theorem pieces_map {β : Type} (f : α → β) (sep : β → Bool) (values : List α) :
    pieces sep (values.map f) = (pieces (sep ∘ f) values).map (·.map f) := piecesFrom_map f sep [] values

theorem piecesFrom_congr {other : α → Bool} (same : ∀ value ∈ values, sep value = other value) :
    piecesFrom sep current values = piecesFrom other current values := by
  induction values generalizing current with
  | nil => rfl
  | cons value rest ih =>
    obtain ⟨here, later⟩ := List.forall_mem_cons.mp same
    rw [piecesFrom, piecesFrom, here, ih later, ih later]

/-! ### Separators dropped -/

section Two

variable {strong weak : α → Bool}

/-- Separators behind a value, with another value behind them, have a strong one among them. -/
def Behind (strong weak : α → Bool) (rest : List α) : Prop :=
  rest.takeWhile weak = [] ∨ rest.dropWhile weak = [] ∨ ∃ value ∈ rest.takeWhile weak, strong value = true

/-- **Between two values with separators between them there is a strong one.** -/
def Parted (strong weak : α → Bool) : List α → Prop
  | [] => True
  | value :: rest => (weak value = false → Behind strong weak rest) ∧ Parted strong weak rest

/-- What is left where the other separators are dropped. -/
def kept (strong weak : α → Bool) (values : List α) : List α :=
  values.filter fun value => strong value || !weak value

theorem kept_strong {value : α} (isStrong : strong value = true) (rest : List α) :
    kept strong weak (value :: rest) = value :: kept strong weak rest :=
      List.filter_cons_of_pos (by simp [isStrong])

theorem kept_value {value : α} (isValue : weak value = false) (rest : List α) :
    kept strong weak (value :: rest) = value :: kept strong weak rest :=
      List.filter_cons_of_pos (by simp [isValue])

theorem kept_weak {value : α} (notStrong : strong value = false) (isWeak : weak value = true) (rest : List α) :
    kept strong weak (value :: rest) = kept strong weak rest :=
  List.filter_cons_of_neg (by simp [notStrong, isWeak])

/-- The pieces are the same under a condition, and fewer without it. -/
def SameOrFewer (condition : Prop) (pieces others : List (List α)) : Prop :=
  (condition ∧ pieces = others) ∨ (¬condition ∧ pieces.length < others.length)

theorem SameOrFewer.congr {condition condition' : Prop} {one other : List (List α)}
    (same : condition ↔ condition')
    (holds : SameOrFewer condition one other) : SameOrFewer condition' one other :=
  holds.imp (And.imp_left same.mp) (And.imp_left (mt same.mpr))

theorem SameOrFewer.append {condition : Prop} {one other : List (List α)} (first : List (List α))
    (holds : SameOrFewer condition one other) : SameOrFewer condition (first ++ one) (first ++ other) :=
  holds.imp (And.imp_right (congrArg (first ++ ·)))
    (And.imp_right fun fewer => by simp only [List.length_append]; omega)

theorem SameOrFewer.length {condition : Prop} {one other : List (List α)}
    (holds : SameOrFewer condition one other) :
    one.length ≤ other.length := by
  rcases holds with ⟨-, rfl⟩ | ⟨-, fewer⟩
  · exact Nat.le_refl _
  · exact fewer.le

/-- How many pieces there are does not depend on what the first one starts with. -/
theorem length_piecesFrom {first : List α} (isAny : current ≠ []) (isAny' : first ≠ []) :
    (piecesFrom sep current values).length = (piecesFrom sep first values).length := by
  induction values generalizing current first with
  | nil =>
    cases current with
    | nil => exact absurd rfl isAny
    | cons => cases first with
      | nil => exact absurd rfl isAny'
      | cons => rfl
  | cons value rest ih =>
    by_cases isSep : sep value = true
    · rw [piecesFrom_sep isSep, piecesFrom_sep isSep, List.length_append, List.length_append]
      cases current with
      | nil => exact absurd rfl isAny
      | cons => cases first with
        | nil => exact absurd rfl isAny'
        | cons => rfl
    · rw [Bool.not_eq_true] at isSep
      rw [piecesFrom_value isSep, piecesFrom_value isSep]
      exact ih (by simp) (by simp)

theorem behind_value {value : α} (isValue : weak value = false) (rest : List α) :
    Behind strong weak (value :: rest) := .inl (List.takeWhile_cons_of_neg (by simp [isValue]))

theorem behind_strong {value : α} (isStrong : strong value = true) (isWeak : weak value = true) (rest : List α) :
    Behind strong weak (value :: rest) := by
  refine .inr (.inr ⟨value, ?_, isStrong⟩)
  rw [List.takeWhile_cons_of_pos isWeak]
  exact List.mem_cons_self

/-- Behind a separator dropped: no further value, or a strong separator before it. -/
def Cut (strong weak : α → Bool) (rest : List α) : Prop :=
  rest.dropWhile weak = [] ∨ ∃ value ∈ rest.takeWhile weak, strong value = true

theorem behind_weak {value : α} (notStrong : strong value = false) (isWeak : weak value = true) (rest : List α) :
    Behind strong weak (value :: rest) ↔ Cut strong weak rest := by
  rw [Behind, Cut, List.takeWhile_cons_of_pos isWeak, List.dropWhile_cons_of_pos isWeak,
    List.exists_mem_cons_iff,
    notStrong]
  simp

theorem cut_weak {value : α} (notStrong : strong value = false) (isWeak : weak value = true) (rest : List α) :
    Cut strong weak (value :: rest) ↔ Cut strong weak rest := by
  rw [Cut, Cut, List.takeWhile_cons_of_pos isWeak, List.dropWhile_cons_of_pos isWeak, List.exists_mem_cons_iff,
    notStrong]
  simp

/-- **With the other separators dropped the pieces stay the same exactly where strong ones part the
values**; elsewhere they get fewer. -/
theorem piecesFrom_two (isSep : ∀ value, strong value = true → weak value = true) (values : List α) :
    (∀ current, SameOrFewer (Parted strong weak values ∧ (current ≠ [] → Behind strong weak values))
      (piecesFrom strong current (kept strong weak values)) (piecesFrom weak current values)) ∧
    ∀ current, current ≠ [] → SameOrFewer (Parted strong weak values ∧ Cut strong weak values)
      (piecesFrom strong current (kept strong weak values)) (current :: pieces weak values) := by
  induction values with
  | nil =>
    refine ⟨fun current => .inl ⟨⟨trivial, fun _ => .inl rfl⟩, rfl⟩, fun current isAny =>
      .inl ⟨⟨trivial, .inl rfl⟩, ?_⟩⟩
    cases current with
    | nil => exact absurd rfl isAny
    | cons => rfl
  | cons value rest ih =>
    obtain ⟨whole, afterDrop⟩ := ih
    by_cases isWeak : weak value = true
    · have partedRest : Parted strong weak (value :: rest) ↔ Parted strong weak rest :=
        and_iff_right fun isValue => absurd (isWeak.symm.trans isValue) (by decide)
      by_cases isStrong : strong value = true
      · -- a strong separator ends the piece on both sides
        rw [kept_strong isStrong]
        refine ⟨fun current => ?_, fun current isAny => ?_⟩
        · rw [piecesFrom_sep isStrong, piecesFrom_sep isWeak]
          refine ((whole []).append _).congr ?_
          rw [partedRest]
          exact and_congr_right fun _ => iff_of_true (absurd rfl) fun _ => behind_strong isStrong isWeak rest
        · rw [piecesFrom_sep isStrong, pieces_sep isWeak, close, if_neg (by simpa using isAny)]
          refine ((whole []).append [current]).congr ?_
          rw [partedRest]
          refine and_congr_right fun _ => iff_of_true (absurd rfl) (.inr ⟨value, ?_, isStrong⟩)
          rw [List.takeWhile_cons_of_pos isWeak]
          exact List.mem_cons_self
      · -- any other ends it on one side only
        rw [Bool.not_eq_true] at isStrong
        rw [kept_weak isStrong isWeak]
        refine ⟨fun current => ?_, fun current isAny => ?_⟩
        · rw [piecesFrom_sep isWeak, partedRest, behind_weak isStrong isWeak]
          by_cases isNil : current = []
          · subst isNil
            exact (whole []).congr (and_congr_right fun _ => iff_of_true (absurd rfl) (absurd rfl))
          · rw [close, if_neg (by simpa using isNil)]
            exact (afterDrop current isNil).congr
              (and_congr_right fun _ => ⟨fun cut _ => cut, fun cut => cut isNil⟩)
        · rw [pieces_sep isWeak, partedRest, cut_weak isStrong isWeak]
          exact afterDrop current isAny
    · rw [Bool.not_eq_true] at isWeak
      have notStrong : strong value = false := by
        rw [← Bool.not_eq_true]
        exact fun isStrong => Bool.false_ne_true (isWeak.symm.trans (isSep value isStrong))
      rw [kept_value isWeak]
      refine ⟨fun current => ?_, fun current _ => .inr ⟨?_, ?_⟩⟩
      · rw [piecesFrom_value notStrong, piecesFrom_value isWeak]
        refine (whole (current ++ [value])).congr ⟨?_, ?_⟩
        · exact fun ⟨parted, behind⟩ => ⟨⟨fun _ => behind (by simp), parted⟩, fun _ => behind_value isWeak rest⟩
        · exact fun ⟨⟨behind, parted⟩, _⟩ => ⟨parted, fun _ => behind isWeak⟩
      · rintro ⟨-, none | ⟨other, isIn, -⟩⟩
        · rw [List.dropWhile_cons_of_neg (by simp [isWeak])] at none
          exact List.cons_ne_nil _ _ none
        · rw [List.takeWhile_cons_of_neg (by simp [isWeak])] at isIn
          exact List.not_mem_nil isIn
      · have atMost := (whole (current ++ [value])).length
        have same : (piecesFrom weak (current ++ [value]) rest).length =
          (piecesFrom weak ([] ++ [value]) rest).length :=
          length_piecesFrom (by simp) (by simp)
        rw [piecesFrom_value notStrong, pieces, piecesFrom_value isWeak, List.length_cons]
        omega

/-- **With the other separators dropped the pieces stay the same exactly where strong ones part the
values.** -/
theorem pieces_two (isSep : ∀ value, strong value = true → weak value = true) (values : List α) :
    SameOrFewer (Parted strong weak values) (pieces strong (kept strong weak values)) (pieces weak values) :=
  ((piecesFrom_two isSep values).1 []).congr (and_iff_left (absurd rfl))

end Two

end Pieces
