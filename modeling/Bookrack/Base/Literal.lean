/-
Reading a text: what stands before its first separator and after it, and decimal literals.

* `splitFirst_eq_some`: the split is the only one whose head is free of the separator.
* `readSigned_eq_some`: what is read is an optional sign and at least one digit.
* `readSigned_toString`: a printed integer is read back.
-/

import Mathlib.Data.List.Basic
import Mathlib.Data.Int.Notation

namespace Literal

/-! ### The first separator -/

section Split

variable {α : Type} [DecidableEq α] {separator : α} {values head tail : List α}

/-- The values before and after the first separator. -/
def splitFirst (separator : α) : List α → Option (List α × List α)
  | [] => none
  | value :: rest =>
    if value = separator then some ([], rest)
    else (splitFirst separator rest).map fun parts => (value :: parts.1, parts.2)

theorem splitFirst_append (free : separator ∉ head) (tail : List α) :
    splitFirst separator (head ++ separator :: tail) = some (head, tail) := by
  induction head with
  | nil => simp [splitFirst]
  | cons value rest ih =>
    rw [List.mem_cons, not_or] at free
    rw [List.cons_append, splitFirst, if_neg (Ne.symm free.1), ih free.2]
    rfl

theorem splitFirst_eq_none : splitFirst separator values = none ↔ separator ∉ values := by
  induction values with
  | nil => simp [splitFirst]
  | cons value rest ih =>
    by_cases isHere : value = separator
    · simp [splitFirst, isHere]
    · simp [splitFirst, isHere, Ne.symm isHere, ih]

/-- **The split at the first separator.** -/
theorem splitFirst_eq_some : splitFirst separator values = some (head, tail) ↔
    values = head ++ separator :: tail ∧ separator ∉ head := by
  constructor
  · intro isSplit
    induction values generalizing head with
    | nil => cases isSplit
    | cons value rest ih =>
      by_cases isHere : value = separator
      · rw [splitFirst, if_pos isHere] at isSplit
        obtain ⟨rfl, rfl⟩ := Prod.mk.inj (Option.some.inj isSplit)
        simp [isHere]
      · rw [splitFirst, if_neg isHere, Option.map_eq_some_iff] at isSplit
        obtain ⟨parts, isParts, isPair⟩ := isSplit
        obtain ⟨rfl, rfl⟩ := Prod.mk.inj isPair
        obtain ⟨isRest, free⟩ := ih isParts
        exact ⟨congrArg (value :: ·) isRest, by simp [free, Ne.symm isHere]⟩
  · intro split
    rw [split.1]
    exact splitFirst_append split.2 tail

/-- Two texts with the same separator behind heads free of it are the same piece by piece. -/
theorem append_inj_of_free {head' tail' : List α} (free : separator ∉ head) (free' : separator ∉ head')
    (same : head ++ separator :: tail = head' ++ separator :: tail') : head = head' ∧ tail = tail' := by
  have split := splitFirst_append free tail
  rw [same, splitFirst_append free' tail'] at split
  obtain ⟨rfl, rfl⟩ := Prod.mk.inj (Option.some.inj split)
  exact ⟨rfl, rfl⟩

end Split

/-! ### Decimal literals -/

/-- At least one decimal digit, and nothing else. -/
def Digits (chars : List Char) : Prop := chars ≠ [] ∧ ∀ c ∈ chars, c.isDigit = true

instance (chars : List Char) : Decidable (Digits chars) :=
  @instDecidableAnd _ _ _ (List.decidableBAll (·.isDigit = true) chars)

/-- The number the digits write. -/
def value (digits : List Char) : Nat := Nat.ofDigitChars 10 digits 0

/-- A literal and the number it writes: digits with or without a sign. -/
inductive Denotes : List Char → Int → Prop
  | unsigned {digits : List Char} (isNumber : Digits digits) : Denotes digits (value digits)
  | plus {digits : List Char} (isNumber : Digits digits) : Denotes ('+' :: digits) (value digits)
  | minus {digits : List Char} (isNumber : Digits digits) : Denotes ('-' :: digits) (-value digits)

def readDigits (chars : List Char) : Option Nat :=
  if Digits chars then some (value chars) else none

/-- An optional sign, then digits. -/
def readSigned : List Char → Option Int
  | [] => none
  | c :: rest =>
    if c = '-' then (readDigits rest).map fun read : Nat => -(read : Int)
    else if c = '+' then (readDigits rest).map fun read : Nat => (read : Int)
    else (readDigits (c :: rest)).map fun read : Nat => (read : Int)

theorem readDigits_eq_some {chars : List Char} {read : Nat} :
    readDigits chars = some read ↔ Digits chars ∧ value chars = read := by
  simp [readDigits]

theorem not_digits_sign {c : Char} (isSign : c.isDigit = false) (rest : List Char) :
    ¬Digits (c :: rest) := by
  intro isNumber
  simp [isNumber.2 c (List.mem_cons_self ..)] at isSign

/-- **The reader accepts the literals**, each for the number it writes. -/
theorem readSigned_eq_some {chars : List Char} {read : Int} :
    readSigned chars = some read ↔ Denotes chars read := by
  constructor
  · intro isRead
    cases chars with
    | nil => cases isRead
    | cons c rest =>
      rw [readSigned] at isRead
      split_ifs at isRead with isMinus isPlus
      · obtain ⟨n, isNumber, rfl⟩ := Option.map_eq_some_iff.mp isRead
        obtain ⟨isDigits, rfl⟩ := readDigits_eq_some.mp isNumber
        exact isMinus ▸ .minus isDigits
      · obtain ⟨n, isNumber, rfl⟩ := Option.map_eq_some_iff.mp isRead
        obtain ⟨isDigits, rfl⟩ := readDigits_eq_some.mp isNumber
        exact isPlus ▸ .plus isDigits
      · obtain ⟨n, isNumber, rfl⟩ := Option.map_eq_some_iff.mp isRead
        obtain ⟨isDigits, rfl⟩ := readDigits_eq_some.mp isNumber
        exact .unsigned isDigits
  · intro denotes
    cases denotes with
    | plus isNumber => simp [readSigned, readDigits, isNumber]
    | minus isNumber => simp [readSigned, readDigits, isNumber]
    | unsigned isNumber =>
      cases chars with
      | nil => exact absurd rfl isNumber.1
      | cons c rest =>
        have notMinus : c ≠ '-' := fun isMinus => not_digits_sign (by simp [isMinus]) rest isNumber
        have notPlus : c ≠ '+' := fun isPlus => not_digits_sign (by simp [isPlus]) rest isNumber
        simp [readSigned, readDigits, isNumber, notMinus, notPlus]

theorem digits_repr (n : Nat) : Digits n.repr.toList := by
  rw [Nat.toList_repr]
  exact ⟨Nat.toDigits_ne_nil, fun c isChar =>
    Nat.isDigit_of_mem_toDigits (by decide) (by decide) isChar⟩

theorem value_repr (n : Nat) : value n.repr.toList = n := by
  rw [Nat.toList_repr, value, Nat.ofDigitChars_ten_toDigits]

/-- **A printed integer is read back.** -/
theorem readSigned_toString (n : Int) : readSigned (toString n).toList = some n := by
  rw [readSigned_eq_some]
  cases n with
  | ofNat n =>
    have isText : (toString (Int.ofNat n)).toList = n.repr.toList := rfl
    have literal := Denotes.unsigned (digits_repr n)
    rw [value_repr] at literal
    exact isText ▸ literal
  | negSucc n =>
    have isText : (toString (Int.negSucc n)).toList = '-' :: (n + 1).repr.toList := by
      show ("-" ++ (n + 1).repr).toList = _
      simp
    have literal := Denotes.minus (digits_repr (n + 1))
    rw [value_repr] at literal
    exact isText ▸ literal

end Literal
