/-
The lines of a text.

* `lines_alike` — the lines put together again, a line break behind each, are the text up to its blanks.
-/

import Bookrack.Base.Spaced
import Bookrack.Core.Text

namespace Lines

open Bookrack (isWhitespace)
open Spaced (Alike)

/-- A line without the return at its end. -/
def stripReturn (line : List Char) : List Char := if line.getLast? = some '\r' then line.dropLast else line

/-- The lines of a text, `current` being what the line has so far. -/
def linesFrom (current : List Char) : List Char → List (List Char)
  | [] => if current.isEmpty then [] else [current]
  | c :: text => if c = '\n' then stripReturn current :: linesFrom [] text else linesFrom (current ++ [c]) text

/-- `str::lines`: a return belongs to the break behind it. -/
def lines (text : List Char) : List (List Char) := linesFrom [] text

/-- The lines with a break behind each. -/
def broken (rows : List (List Char)) : List Char := rows.flatMap fun row => row ++ ['\n']

theorem intercalate_broken {rows : List (List Char)} (some : rows ≠ []) :
    ['\n'].intercalate rows ++ ['\n'] = broken rows := by
  induction rows with
  | nil => exact absurd rfl some
  | cons row rest ih =>
    cases rest with
    | nil => simp [broken]
    | cons next rest =>
      have joined : ['\n'].intercalate (row :: next :: rest) = row ++
        '\n' :: ['\n'].intercalate (next :: rest) := by
        simp
      rw [joined, List.append_assoc, List.cons_append, ih (List.cons_ne_nil _ _)]
      simp [broken]

theorem stripReturn_cases (line : List Char) : stripReturn line = line ∨ line = stripReturn line ++ ['\r'] := by
  unfold stripReturn
  split_ifs with isReturn
  · exact .inr (List.dropLast_append_getLast? '\r' isReturn).symm
  · exact .inl rfl

theorem linesFrom_alike (text : List Char) : ∀ current : List Char,
    Alike isWhitespace (current ++ text) (broken (linesFrom current text)) := by
  induction text with
  | nil =>
    intro current
    unfold linesFrom
    split_ifs with isEmpty
    · rw [List.isEmpty_iff.mp isEmpty]
      exact Alike.refl []
    · show Alike isWhitespace (current ++ []) ((current ++ ['\n']) ++ [])
      rw [List.append_nil (current ++ ['\n'])]
      refine Alike.append_left current (.blank (fun _ member => nomatch member) ?_)
      decide
  | cons c text ih =>
    intro current
    by_cases isBreak : c = '\n'
    · subst isBreak
      rw [linesFrom, if_pos rfl]
      show Alike isWhitespace (current ++ '\n' :: text)
        ((stripReturn current ++ ['\n']) ++ broken (linesFrom [] text))
      rw [List.append_assoc]
      rcases stripReturn_cases current with same | isReturn
      · rw [same]
        exact Alike.append_left current (.char '\n' (ih []))
      · rw [isReturn, List.append_assoc]
        have noReturn : stripReturn (stripReturn current ++ ['\r']) = stripReturn current := by
          simp [stripReturn]
        rw [noReturn]
        have next : Alike isWhitespace ('\r' :: (['\n'] ++ text)) ('\n' :: ([] ++ broken (linesFrom [] text))) :=
          .run '\r' '\n' (by decide) (by decide) (by decide) (by decide) (ih [])
        exact Alike.append_left _ next
    · rw [linesFrom, if_neg isBreak]
      have pushed := ih (current ++ [c])
      rwa [List.append_assoc] at pushed

theorem linesFrom_ne_nil (text : List Char) : ∀ {current : List Char}, current ≠ [] →
    linesFrom current text ≠ [] := by
  induction text with
  | nil =>
    intro current some none
    rw [linesFrom, if_neg (by simpa using some)] at none
    cases none
  | cons c text ih =>
    intro current _
    unfold linesFrom
    split_ifs
    · exact List.cons_ne_nil _ _
    · exact ih (List.append_ne_nil_of_right_ne_nil _ (List.cons_ne_nil _ _))

theorem lines_ne_nil {text : List Char} (some : text ≠ []) : lines text ≠ [] := by
  cases text with
  | nil => exact absurd rfl some
  | cons c text =>
    unfold lines linesFrom
    split_ifs
    · exact List.cons_ne_nil _ _
    · exact linesFrom_ne_nil text (List.cons_ne_nil _ _)

/-- **The lines put together again are the text up to its blanks.** -/
theorem lines_alike (text : List Char) :
    Alike isWhitespace text (['\n'].intercalate (lines text) ++ ['\n']) := by
  by_cases isEmpty : text = []
  · subst isEmpty
    exact .blank (fun _ member => nomatch member) (by decide)
  · rw [intercalate_broken (lines_ne_nil isEmpty)]
    exact linesFrom_alike text []

end Lines
