/-
The pieces the repository's regular expressions are written with: `\s`, `\b`, the line anchors and
words under `(?i)`.
-/

import Bookrack.Base.Regex
import Bookrack.Core.Text

namespace Bookrack

open Regex

/-- `\s*`. -/
def spaces : Regex Char := many isWhitespace 0 none

/-- `\s+`. -/
def someSpaces : Regex Char := many isWhitespace 1 none

/-- `^` under `(?m)`. -/
def atLineStart : Regex Char := look fun before _ => before.all (· == '\n')

/-- `\b`, by what `\w` is. -/
def wordBoundary (isWord : Char → Bool) : Regex Char :=
  look fun before next => before.any isWord != next.any isWord

/-- One letter under `(?i)`: its ASCII cases, and for `s` and `k` the letter outside ASCII with the
same folding. -/
def foldsTo (letter c : Char) : Bool :=
  c.toLower == letter.toLower || (letter.toLower == 's' && c.toNat == 0x17F) ||
    (letter.toLower == 'k' && c.toNat == 0x212A)

/-- A word under `(?i)`. -/
def folded (letters : String) : Regex Char := word (letters.toList.map foldsTo)

/-- A word as it is written. -/
def literal (letters : String) : Regex Char := word (letters.toList.map fun letter c => c == letter)

theorem takes_spaces {before : Option Char} {taken rest : List Char} {groups : List (List Char)} :
    spaces.Takes before taken rest groups ↔ groups = [] ∧ ∀ c ∈ taken, isWhitespace c = true := by
  simp [spaces, Takes]

theorem takes_literal {letters : String} {before : Option Char} {taken rest : List Char}
    {groups : List (List Char)} :
    (literal letters).Takes before taken rest groups ↔ groups = [] ∧ taken = letters.toList := by
  rw [literal, takes_word, List.forall₂_map_left_iff]
  refine and_congr_right fun _ => ?_
  constructor
  · intro same
    rw [← List.forall₂_eq_eq_eq]
    exact (same.imp fun letter c isLetter => (beq_iff_eq.mp isLetter)).flip
  · rintro rfl
    exact List.forall₂_same.mpr fun c _ => beq_self_eq_true c

theorem takes_exactly {accepts : Char → Bool} {n : Nat} {before : Option Char} {taken rest : List Char}
    {groups : List (List Char)} : (many accepts n (some n)).Takes before taken rest groups ↔
      groups = [] ∧ taken.length = n ∧ ∀ c ∈ taken, accepts c = true := by
  constructor
  · rintro ⟨rfl, all, enough, few⟩
    exact ⟨rfl, Nat.le_antisymm (few n rfl) enough, all⟩
  · rintro ⟨rfl, rfl, all⟩
    exact ⟨rfl, all, Nat.le_refl _, by simp⟩

/-! ### ASCII -/

theorem isLower_iff_toNat {c : Char} : c.isLower = true ↔ 97 ≤ c.toNat ∧ c.toNat ≤ 122 := by
  have ends : c.isLower = (decide (c.val ≥ 'a'.val) && decide (c.val ≤ 'z'.val)) := rfl
  rw [ends, Bool.and_eq_true, decide_eq_true_iff, decide_eq_true_iff]
  exact Iff.rfl

theorem isUpper_iff_toNat {c : Char} : c.isUpper = true ↔ 65 ≤ c.toNat ∧ c.toNat ≤ 90 := by
  have ends : c.isUpper = decide (c.val ≥ 'A'.val ∧ c.val ≤ 'Z'.val) := rfl
  rw [ends, decide_eq_true_iff]
  exact Iff.rfl

theorem isAlpha_iff_toNat {c : Char} :
    c.isAlpha = true ↔ (65 ≤ c.toNat ∧ c.toNat ≤ 90) ∨ (97 ≤ c.toNat ∧ c.toNat ≤ 122) := by
  have either : c.isAlpha = (c.isUpper || c.isLower) := rfl
  rw [either, Bool.or_eq_true, isUpper_iff_toNat, isLower_iff_toNat]

theorem toNat_toLower (c : Char) :
    c.toLower.toNat = if 65 ≤ c.toNat ∧ c.toNat ≤ 90 then c.toNat + 32 else c.toNat := by
  have bounds : (c.val ≥ 'A'.val ∧ c.val ≤ 'Z'.val) ↔ 65 ≤ c.toNat ∧ c.toNat ≤ 90 := Iff.rfl
  by_cases upper : c.val ≥ 'A'.val ∧ c.val ≤ 'Z'.val
  · have inside := bounds.mp upper
    have lowered : c.toLower.val = c.val + 32 := congrArg Char.val (dif_pos upper)
    rw [if_pos inside]
    show c.toLower.val.toNat = c.val.toNat + 32
    rw [lowered]
    have small : c.val.toNat ≤ 90 := inside.2
    rw [UInt32.toNat_add, show (32 : UInt32).toNat = 32 from rfl]
    omega
  · have unchanged : c.toLower = c := dif_neg upper
    rw [if_neg (mt bounds.mpr upper), unchanged]

/-- A letter is no whitespace under any of its cases. -/
theorem not_space_of_foldsTo {letter c : Char} (isLetter : 97 ≤ letter.toNat ∧ letter.toNat ≤ 122)
    (folds : foldsTo letter c = true) : isWhitespace c = false := by
  have lower := toNat_toLower letter
  rw [if_neg (by omega)] at lower
  have places : c.toNat = letter.toNat ∨ c.toNat + 32 = letter.toNat ∨ c.toNat = 0x17F ∨
      c.toNat = 0x212A := by
    simp only [foldsTo, Bool.or_eq_true, Bool.and_eq_true, beq_iff_eq] at folds
    obtain (same | ⟨-, long⟩) | ⟨-, kelvin⟩ := folds
    · have code := toNat_toLower c
      rw [same, lower] at code
      split at code <;> omega
    · exact .inr (.inr (.inl long))
    · exact .inr (.inr (.inr kelvin))
  simp only [isWhitespace, Bool.or_eq_false_iff, Bool.and_eq_false_iff, decide_eq_false_iff_not,
    beq_eq_false_iff_ne]
  omega

end Bookrack
