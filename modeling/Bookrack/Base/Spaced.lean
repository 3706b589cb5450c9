/-
Texts that differ in the shape of their blanks only, and what a reader that takes blanks as they come
makes of them.

* `Alike space one other` — the same characters, with a run of blanks for each run of blanks; at the end
  the blanks may be missing.
* `Alike.literal`, `Alike.blanks`, `Alike.number` — the steps of such a reader go the same way on both.
-/

import Mathlib.Data.List.TakeWhile

namespace Spaced

variable {α : Type} (space : α → Bool)

/-- The same characters, with a run of blanks for each run of blanks. -/
inductive Alike : List α → List α → Prop
  | blank {one other : List α} (isBlank : ∀ c ∈ one, space c = true) (isBlank' : ∀ c ∈ other, space c = true) :
      Alike one other
  | run {gap gap' one other : List α} (first last : α) (isSpace : space first = true)
    (isSpace' : space last = true)
      (isGap : ∀ c ∈ gap, space c = true) (isGap' : ∀ c ∈ gap', space c = true) (rest : Alike one other) :
      Alike (first :: (gap ++ one)) (last :: (gap' ++ other))
  | char {one other : List α} (c : α) (rest : Alike one other) : Alike (c :: one) (c :: other)

/-! ### The steps of a reader -/

/-- What follows a literal. -/
def literal [DecidableEq α] : List α → List α → Option (List α)
  | [], text => some text
  | _ :: _, [] => none
  | c :: expected, d :: text => if c = d then literal expected text else none

/-- `\s*`. -/
def blanks (text : List α) : List α := text.dropWhile space

/-- `\s+`. -/
def blanks1 : List α → Option (List α)
  | [] => none
  | c :: text => if space c then some (blanks space text) else none

/-- `(\d+)`: the digits, and what follows them. -/
def digits1 (digit : α → Bool) (text : List α) : Option (List α × List α) :=
  if (text.takeWhile digit).isEmpty then none else some (text.takeWhile digit, text.dropWhile digit)

/-- `\s+(\d+)`. -/
def number (digit : α → Bool) (text : List α) : Option (List α × List α) :=
  (blanks1 space text).bind (digits1 digit)

/-! ### Texts of one shape -/

section Alike

variable {space} {one other : List α}

theorem Alike.refl : ∀ text : List α, Alike space text text
  | [] => .blank (fun _ member => nomatch member) fun _ member => nomatch member
  | c :: text => .char c (Alike.refl text)

theorem Alike.append_left (first : List α) (alike : Alike space one other) :
    Alike space (first ++ one) (first ++ other) := by
  induction first with
  | nil => exact alike
  | cons c _ ih => exact .char c ih

theorem dropWhile_all {p : α → Bool} {text : List α} (all : ∀ c ∈ text, p c = true) : text.dropWhile p = [] :=
  List.dropWhile_eq_nil_iff.mpr all

theorem dropWhile_gap {p : α → Bool} {gap : List α} (all : ∀ c ∈ gap, p c = true) (text : List α) :
    (gap ++ text).dropWhile p = text.dropWhile p := by
  rw [List.dropWhile_append, dropWhile_all all]
  rfl

/-- **Blanks skipped.** -/
theorem Alike.blanks (alike : Alike space one other) : Alike space (blanks space one) (blanks space other) := by
  unfold Spaced.blanks
  induction alike with
  | blank isBlank isBlank' =>
    rw [dropWhile_all isBlank, dropWhile_all isBlank']
    exact Alike.refl []
  | run first last isSpace isSpace' isGap isGap' _ ih =>
    rw [List.dropWhile_cons_of_pos isSpace, List.dropWhile_cons_of_pos isSpace', dropWhile_gap isGap,
      dropWhile_gap isGap']
    exact ih
  | @char one other c rest ih =>
    by_cases isSpace : space c = true
    · rw [List.dropWhile_cons_of_pos isSpace, List.dropWhile_cons_of_pos isSpace]
      exact ih
    · rw [List.dropWhile_cons_of_neg isSpace, List.dropWhile_cons_of_neg isSpace]
      exact .char c rest

/-- Two readers step by step. -/
theorem rel_bind {β γ : Type} {R : β → β → Prop} {S : γ → γ → Prop} {read read' : Option β} {next : β → Option γ}
    (steps : Option.Rel R read read') (each : ∀ {left right}, R left right →
      Option.Rel S (next left) (next right)) :
    Option.Rel S (read >>= next) (read' >>= next) := by
  cases steps with
  | none => exact .none
  | some related => exact each related

/-- **A literal without blanks is read.** -/
theorem Alike.literal [DecidableEq α] {expected : List α} (isText : ∀ c ∈ expected, space c = false)
    (alike : Alike space one other) :
    Option.Rel (Alike space) (literal expected one) (literal expected other) := by
  induction expected generalizing one other with
  | nil => exact .some alike
  | cons c expected ih =>
    obtain ⟨isChar, areChars⟩ := List.forall_mem_cons.mp isText
    have fails : ∀ {text : List α}, (∀ d ∈ text.head?, space d = true) →
        Spaced.literal (c :: expected) text = none := by
      intro text headSpace
      cases text with
      | nil => rfl
      | cons d text =>
        have differ : c ≠ d := by
          rintro rfl
          exact Bool.false_ne_true (isChar.symm.trans (headSpace c rfl))
        exact if_neg differ
    cases alike with
    | blank isBlank isBlank' =>
      rw [fails fun d isHead => isBlank d (List.mem_of_mem_head? isHead),
        fails fun d isHead => isBlank' d (List.mem_of_mem_head? isHead)]
      exact .none
    | @run gap gap' one other first last isSpace isSpace' =>
      have here : ∀ d ∈ (first :: (gap ++ one)).head?, space d = true := by
        rintro d ⟨⟩
        exact isSpace
      have here' : ∀ d ∈ (last :: (gap' ++ other)).head?, space d = true := by
        rintro d ⟨⟩
        exact isSpace'
      rw [fails here, fails here']
      exact .none
    | char d rest =>
      by_cases same : c = d
      · rw [Spaced.literal, Spaced.literal, if_pos same, if_pos same]
        exact ih areChars rest
      · rw [Spaced.literal, Spaced.literal, if_neg same, if_neg same]
        exact .none

/-- What two readers have read is one, and what is left is alike. -/
def SameRead {β : Type} (space : α → Bool) (left right : β × List α) : Prop :=
  left.1 = right.1 ∧ Alike space left.2 right.2

variable {digit : α → Bool} (apart : ∀ c, space c = true → digit c = false)
include apart

/-- Digits are read. -/
theorem Alike.takeWhile (alike : Alike space one other) :
    one.takeWhile digit = other.takeWhile digit ∧
      Alike space (one.dropWhile digit) (other.dropWhile digit) := by
  have stops : ∀ {text : List α}, (∀ d ∈ text.head?, space d = true) →
      text.takeWhile digit = [] ∧ text.dropWhile digit = text := by
    intro text headSpace
    cases text with
    | nil => exact ⟨rfl, rfl⟩
    | cons d text =>
      have notDigit : ¬digit d = true := by
        rw [apart d (headSpace d rfl)]
        exact Bool.false_ne_true
      exact ⟨List.takeWhile_cons_of_neg notDigit, List.dropWhile_cons_of_neg notDigit⟩
  induction alike with
  | blank isBlank isBlank' =>
    obtain ⟨taken, left⟩ := stops fun d isHead => isBlank d (List.mem_of_mem_head? isHead)
    obtain ⟨taken', left'⟩ := stops fun d isHead => isBlank' d (List.mem_of_mem_head? isHead)
    rw [taken, taken', left, left']
    exact ⟨rfl, .blank isBlank isBlank'⟩
  | @run gap gap' one other first last isSpace isSpace' isGap isGap' rest _ =>
    have here : ∀ d ∈ (first :: (gap ++ one)).head?, space d = true := by
      rintro d ⟨⟩
      exact isSpace
    have here' : ∀ d ∈ (last :: (gap' ++ other)).head?, space d = true := by
      rintro d ⟨⟩
      exact isSpace'
    rw [(stops here).1, (stops here').1, (stops here).2, (stops here').2]
    exact ⟨rfl, .run first last isSpace isSpace' isGap isGap' rest⟩
  | @char one other c rest ih =>
    by_cases isDigit : digit c = true
    · rw [List.takeWhile_cons_of_pos isDigit, List.takeWhile_cons_of_pos isDigit,
        List.dropWhile_cons_of_pos isDigit, List.dropWhile_cons_of_pos isDigit, ih.1]
      exact ⟨rfl, ih.2⟩
    · rw [List.takeWhile_cons_of_neg isDigit, List.takeWhile_cons_of_neg isDigit,
        List.dropWhile_cons_of_neg isDigit, List.dropWhile_cons_of_neg isDigit]
      exact ⟨rfl, .char c rest⟩

theorem Alike.digits1 (alike : Alike space one other) :
    Option.Rel (SameRead space) (digits1 digit one) (digits1 digit other) := by
  obtain ⟨same, left⟩ := alike.takeWhile apart
  unfold Spaced.digits1
  rw [← same]
  by_cases isEmpty : (one.takeWhile digit).isEmpty = true
  · rw [if_pos isEmpty, if_pos isEmpty]
    exact .none
  · rw [if_neg isEmpty, if_neg isEmpty]
    exact .some ⟨rfl, left⟩

/-- **A number behind blanks is read.** -/
theorem Alike.number (alike : Alike space one other) :
    Option.Rel (SameRead space) (number space digit one) (number space digit other) := by
  have noDigits : ∀ {text : List α}, (∀ c ∈ text, space c = true) → Spaced.number space digit text = none := by
    intro text isBlank
    unfold Spaced.number
    cases text with
    | nil => rfl
    | cons c text =>
      obtain ⟨isSpace, isBlank⟩ := List.forall_mem_cons.mp isBlank
      rw [blanks1, if_pos isSpace, Spaced.blanks, dropWhile_all isBlank]
      rfl
  have skips : ∀ {c : α} {text : List α}, space c = true →
      Spaced.number space digit (c :: text) = Spaced.digits1 digit (Spaced.blanks space text) := by
    intro c text isSpace
    rw [Spaced.number, blanks1, if_pos isSpace]
    rfl
  cases alike with
  | blank isBlank isBlank' =>
    rw [noDigits isBlank, noDigits isBlank']
    exact .none
  | run first last isSpace isSpace' isGap isGap' rest =>
    rw [skips isSpace, skips isSpace', Spaced.blanks, Spaced.blanks, dropWhile_gap isGap, dropWhile_gap isGap']
    exact Alike.digits1 apart rest.blanks
  | char c rest =>
    by_cases isSpace : space c = true
    · rw [skips isSpace, skips isSpace]
      exact Alike.digits1 apart rest.blanks
    · rw [Spaced.number, Spaced.number, blanks1, blanks1, if_neg isSpace, if_neg isSpace]
      exact .none

end Alike

end Spaced
