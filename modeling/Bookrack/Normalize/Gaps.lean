/-
What steps 4 to 9 do to the pieces of a text between inert characters.

* `closeCjkGaps`: the text without the blank runs between two CJK characters.
* **`pieces_tidy`**: steps 4 to 9 leave the pieces of that text. They change the inert characters
  around them only.
-/

import Bookrack.Base.Pieces
import Bookrack.Normalize.Tidy

namespace Bookrack.Normalize

open Pieces SpacingState

def isBlank (c : Char) : Bool := c == ' ' || c == '\t'

/-- The text behind a character (CJK or not) and a blank run. -/
def closeGapsFrom (prevCjk : Bool) (gap : List Char) : List Char → List Char
  | [] => gap
  | c :: rest =>
    if isBlank c then closeGapsFrom prevCjk (gap ++ [c]) rest
    else (if prevCjk && isCjk c then [] else gap) ++ c :: closeGapsFrom (isCjk c) [] rest

/-- The text without the blank runs between two CJK characters. -/
def closeCjkGaps (text : List Char) : List Char := closeGapsFrom false [] text

theorem closeGapsFrom_blank {c : Char} (blank : isBlank c = true) (prevCjk : Bool) (gap rest : List Char) :
    closeGapsFrom prevCjk gap (c :: rest) = closeGapsFrom prevCjk (gap ++ [c]) rest :=
  if_pos blank

theorem closeGapsFrom_char {c : Char} (isChar : isBlank c = false) (prevCjk : Bool)
    (gap rest : List Char) : closeGapsFrom prevCjk gap (c :: rest) =
      (if prevCjk && isCjk c then [] else gap) ++ c :: closeGapsFrom (isCjk c) [] rest :=
  if_neg (by simp [isChar])

theorem not_blank_iff {c : Char} : isBlank c = false ↔ c ≠ ' ' ∧ c ≠ '\t' := by
  simp [isBlank]

/-! ### Steps 4 and 5 -/

/-- What steps 4 and 5 make of a character. -/
def plainOf (c : Char) : List Char := (unified c).map fun d => if d = '\t' then ' ' else d

theorem plain_cons (c : Char) (rest : List Char) : plain (c :: rest) = plainOf c ++ plain rest := by
  simp [plain, horizontalWhitespaceToSpace, unifyPunctuation, plainOf]

theorem plain_eq (text : List Char) : plain text = text.flatMap plainOf := by
  induction text with
  | nil => rfl
  | cons c rest ih => rw [plain_cons, ih, List.flatMap_cons]

theorem plain_append (first second : List Char) :
    plain (first ++ second) = plain first ++ plain second := by
  rw [plain_eq, plain_eq, plain_eq, List.flatMap_append]

theorem plainOf_blank {c : Char} (blank : isBlank c = true) : plainOf c = [' '] := by
  have isOne : c = ' ' ∨ c = '\t' := by simpa [isBlank] using blank
  rcases isOne with rfl | rfl <;> decide

/-- A character that is neither blank nor CJK nor a line feed. -/
def IsMark (c : Char) : Prop := isBlank c = false ∧ isCjk c = false ∧ c ≠ '\n'

instance : DecidablePred IsMark := fun _ => inferInstanceAs (Decidable (_ ∧ _))

/-- A character off the table is left; one of the table becomes one or more marks. -/
theorem plainOf_cases {c : Char} (isChar : isBlank c = false) : plainOf c = [c] ∨
    IsMark c ∧ plainOf c ≠ [] ∧ ∀ d ∈ plainOf c, IsMark d := by
  by_cases off : unified c = [c]
  · left
    rw [plainOf, off, List.map_singleton, if_neg (not_blank_iff.mp isChar).2]
  · right
    unfold plainOf
    rw [unified] at off ⊢
    split_ifs at off ⊢ with bar two three hyphen midline double single
    · subst bar; decide
    · subst two; decide
    · subst three; decide
    · subst hyphen; decide
    · subst midline; decide
    · rcases double with rfl | rfl <;> decide
    · rcases single with rfl | rfl <;> decide
    · exact absurd rfl off

/-- Marks end a gap. -/
theorem closeGapsFrom_marks {marks : List Char} (areMarks : ∀ c ∈ marks, IsMark c)
    (isCons : marks ≠ []) (prevCjk : Bool) (gap rest : List Char) :
    closeGapsFrom prevCjk gap (marks ++ rest) = gap ++ marks ++ closeGapsFrom false [] rest := by
  induction marks generalizing prevCjk gap with
  | nil => exact absurd rfl isCons
  | cons c marks ih =>
    obtain ⟨isChar, notCjk, -⟩ := areMarks c List.mem_cons_self
    rw [List.cons_append, closeGapsFrom_char isChar, notCjk, Bool.and_false, if_neg (by decide)]
    cases marks with
    | nil => simp
    | cons d marks =>
      rw [ih (fun e member => areMarks e (List.mem_cons_of_mem _ member)) (List.cons_ne_nil _ _)]
      simp

/-- Steps 4 and 5 and the closing of gaps in either order. -/
theorem closeGapsFrom_plain (text : List Char) : ∀ (prevCjk : Bool) (gap : List Char),
    closeGapsFrom prevCjk (plain gap) (plain text) = plain (closeGapsFrom prevCjk gap text) := by
  induction text with
  | nil => exact fun _ _ => rfl
  | cons c rest ih =>
    intro prevCjk gap
    rw [plain_cons]
    by_cases blank : isBlank c = true
    · rw [plainOf_blank blank, List.singleton_append, closeGapsFrom_blank (by decide),
        closeGapsFrom_blank blank, ← ih, plain_append, plain_cons, plainOf_blank blank]
      rfl
    · rw [Bool.not_eq_true] at blank
      have next := ih (isCjk c) []
      rw [closeGapsFrom_char blank, plain_append, plain_cons, ← next]
      rcases plainOf_cases blank with same | ⟨isMark, isCons, areMarks⟩
      · rw [same, List.singleton_append, closeGapsFrom_char blank]
        split_ifs <;> rfl
      · rw [closeGapsFrom_marks areMarks isCons, isMark.2.1, Bool.and_false, if_neg (by decide),
          List.append_assoc]
        rfl

theorem closeCjkGaps_plain (text : List Char) :
    closeCjkGaps (plain text) = plain (closeCjkGaps text) := closeGapsFrom_plain text false []

/-! ### Steps 6 to 8 -/

/-- **The spacing pass and the closing of gaps leave the same pieces.** Between the two runs the
state is the same, but for a gap at the start of a line that only the closing emits. -/
theorem pieces_spacing {text : List Char} (noTab : ∀ c ∈ text, c ≠ '\t') :
    ∀ {state : SpacingState} {gap current : List Char}, (∀ c ∈ gap, isInert c = true) →
      state.gap = !gap.isEmpty →
      (state.started = false ∨ 0 < state.newlines → current = [] ∧ state.prevCjk = false) →
      piecesFrom isInert current (spacing.run state text) =
        piecesFrom isInert current (closeGapsFrom state.prevCjk gap text) := by
  induction text with
  | nil =>
    intro state gap current inert _ _
    cases gap with
    | nil => rfl
    | cons c gap =>
      have ends : piecesFrom isInert current (c :: gap ++ []) =
          close current ++ pieces isInert [] :=
        piecesFrom_seps inert (List.cons_ne_nil c gap) []
      rw [List.append_nil] at ends
      rw [closeGapsFrom, ends]
      exact (List.append_nil _).symm
  | cons c rest ih =>
    intro state gap current inert sameGap fresh
    have ih' := @ih fun d member => noTab d (List.mem_cons_of_mem _ member)
    by_cases isSpace : c = ' '
    · subst isSpace
      rw [spacing_space, closeGapsFrom_blank (by decide)]
      refine ih' ?_ (by simp) fresh
      intro d member
      rcases List.mem_append.mp member with before | isLast
      · exact inert d before
      · rw [List.mem_singleton.mp isLast]
        decide
    have isChar : isBlank c = false := not_blank_iff.mpr ⟨isSpace, noTab c List.mem_cons_self⟩
    by_cases isNewline : c = '\n'
    · subst isNewline
      have later := @ih' ⟨false, false, false, state.newlines + 1⟩ [] []
        (fun _ member => absurd member List.not_mem_nil) rfl fun _ => ⟨rfl, rfl⟩
      have seps : ∀ d ∈ gap ++ ['\n'], isInert d = true := by
        intro d member
        rcases List.mem_append.mp member with before | isLast
        · exact inert d before
        · rw [List.mem_singleton.mp isLast]
          decide
      have ends : piecesFrom isInert current (gap ++ ['\n'] ++ closeGapsFrom false [] rest) =
          close current ++ pieces isInert (closeGapsFrom false [] rest) :=
        piecesFrom_seps seps (by simp) (closeGapsFrom false [] rest)
      rw [List.append_assoc, List.singleton_append] at ends
      have notFlanked : ¬ (state.prevCjk && isCjk '\n') = true := by
        rw [show isCjk '\n' = false by decide, Bool.and_false]
        decide
      rw [spacing_newline, closeGapsFrom_char isChar, if_neg notFlanked,
        show isCjk '\n' = false by decide, ends]
      split_ifs with few
      · rw [List.singleton_append, piecesFrom_sep (by decide)]
        exact congrArg _ later
      · -- a line feed that is dropped follows one that is out
        rw [(fresh (.inr (by omega))).1]
        exact later
    · have next : ∀ current', piecesFrom isInert current' (c :: spacing.run (behind c) rest) =
          piecesFrom isInert current' (c :: closeGapsFrom (isCjk c) [] rest) := by
        intro current'
        have later : ∀ current'', piecesFrom isInert current'' (spacing.run (behind c) rest) =
            piecesFrom isInert current'' (closeGapsFrom (isCjk c) [] rest) := fun current'' =>
          ih' (fun _ member => absurd member List.not_mem_nil) rfl fun never => by
            rcases never with never | never
            · cases never
            · exact absurd never (Nat.lt_irrefl 0)
        by_cases isSep : isInert c = true
        · rw [piecesFrom_sep isSep, piecesFrom_sep isSep]
          exact congrArg _ (later [])
        · rw [Bool.not_eq_true] at isSep
          rw [piecesFrom_value isSep, piecesFrom_value isSep, later]
      rw [spacing_char _ ⟨isSpace, isNewline⟩, closeGapsFrom_char isChar]
      by_cases flanked : (state.prevCjk && isCjk c) = true
      · have closed : state.opens c = false := by
          rw [SpacingState.opens, flanked, Bool.not_true, Bool.and_false]
        rw [if_pos flanked, closed]
        exact next current
      · rw [if_neg flanked]
        rw [Bool.not_eq_true] at flanked
        cases gap with
        | nil =>
          have closed : state.opens c = false := by
            rw [SpacingState.opens, sameGap, List.isEmpty_nil, Bool.not_true, Bool.and_false,
              Bool.false_and]
          rw [closed]
          exact next current
        | cons d gap =>
          rw [piecesFrom_seps inert (List.cons_ne_nil d gap)]
          by_cases isStarted : state.started = true
          · have opens : state.opens c = true := by
              rw [SpacingState.opens, sameGap, isStarted, flanked]
              rfl
            rw [if_pos opens, List.cons_append, piecesFrom_sep (by decide)]
            exact congrArg _ (next [])
          · rw [Bool.not_eq_true] at isStarted
            have closed : state.opens c = false := by
              rw [SpacingState.opens, isStarted, Bool.false_and, Bool.false_and]
            rw [closed, (fresh (.inl isStarted)).1]
            exact next []

/-! ### Steps 4 to 9 -/

/-- What steps 1 to 3 leave of the characters. -/
structure Prepared (text : List Char) : Prop where
  noHyphen : '\u2011' ∉ text
  spaces : ∀ c ∈ text, isWhitespace c = true → isInert c = true

theorem inert_image {c : Char} (inert : isInert c = true) (off : c ≠ '\u22EF') :
    plainOf c ≠ [] ∧ ∀ d ∈ plainOf c, isInert d = true := by
  have each : ∀ c ∈ inertChars, c ≠ '\u22EF' →
      plainOf c ≠ [] ∧ ∀ d ∈ plainOf c, isInert d = true := by decide
  exact each c (List.contains_iff_mem.mp inert) off

theorem settled_of_active {c : Char} (active : isInert c = false) (off : c ≠ '\u2011') :
    Settled c := by
  have outside : ∀ {d : Char}, isInert d = true → c ≠ d := by
    rintro d inert rfl
    rw [active] at inert
    cases inert
  refine ⟨?_, outside (by decide)⟩
  rw [unified, if_neg (outside (by decide)), if_neg (outside (by decide)),
    if_neg (outside (by decide)), if_neg off, if_neg (outside (by decide)), if_neg, if_neg]
  · exact not_or.mpr ⟨outside (by decide), outside (by decide)⟩
  · exact not_or.mpr ⟨outside (by decide), outside (by decide)⟩

theorem active_image {c : Char} (active : isInert c = false) (off : c ≠ '\u2011') :
    plainOf c = [c] := by
  obtain ⟨left, noTab⟩ := settled_of_active active off
  rw [plainOf, left, List.map_singleton, if_neg noTab]

theorem mem_closeGapsFrom {text : List Char} {c : Char} : ∀ {prevCjk : Bool} {gap : List Char},
    c ∈ closeGapsFrom prevCjk gap text → c ∈ gap ∨ c ∈ text := by
  induction text with
  | nil => exact fun member => .inl member
  | cons d rest ih =>
    intro prevCjk gap member
    by_cases blank : isBlank d = true
    · rw [closeGapsFrom_blank blank] at member
      rcases ih member with held | later
      · rcases List.mem_append.mp held with before | isLast
        · exact .inl before
        · exact .inr (List.mem_singleton.mp isLast ▸ List.mem_cons_self)
      · exact .inr (List.mem_cons_of_mem _ later)
    · rw [Bool.not_eq_true] at blank
      rw [closeGapsFrom_char blank] at member
      rcases List.mem_append.mp member with isHead | isTail
      · split_ifs at isHead
        · exact absurd isHead List.not_mem_nil
        · exact .inl isHead
      · rcases List.mem_cons.mp isTail with rfl | later
        · exact .inr List.mem_cons_self
        · exact .inr (List.mem_cons_of_mem _ ((ih later).resolve_left List.not_mem_nil))

theorem mem_of_mem_closeCjkGaps {text : List Char} {c : Char} (isIn : c ∈ closeCjkGaps text) :
    c ∈ text := (mem_closeGapsFrom isIn).resolve_left List.not_mem_nil

theorem pieces_plain {text : List Char} (noHyphen : '\u2011' ∉ text)
    (noMidline : '\u22EF' ∉ text) : pieces isInert (plain text) = pieces isInert text := by
  rw [plain_eq]
  refine piecesFrom_flatMap (fun c isIn inert => inert_image inert ?_)
    fun c isIn active => active_image active ?_
  · rintro rfl
    exact noMidline isIn
  · rintro rfl
    exact noHyphen isIn

/-- Trimming leaves the pieces where whitespace is inert. -/
theorem pieces_trim {text : List Char}
    (spaces : ∀ c ∈ text, isWhitespace c = true → isInert c = true) :
    pieces isInert (trim text) = pieces isInert text := by
  rcases trim_cases text with ⟨isEmpty, all⟩ | ⟨lead, first, rest, trail, rfl, isTrim, areLead, -,
    areTrail, -⟩
  · have none := pieces_seps_append (fun c isIn => spaces c isIn (all c isIn)) ([] : List Char)
    rw [List.append_nil] at none
    rw [isEmpty, none]
  · rw [isTrim, pieces_append_seps, pieces_seps_append]
    · exact fun c isIn => spaces c (by simp [isIn]) (areLead c isIn)
    · exact fun c isIn => spaces c (by simp [isIn]) (areTrail c isIn)

theorem spaces_plain {text : List Char} (prepared : Prepared text) :
    ∀ c ∈ plain text, isWhitespace c = true → isInert c = true := by
  intro c isIn isSpace
  rw [plain_eq] at isIn
  obtain ⟨source, isSource, isImage⟩ := List.mem_flatMap.mp isIn
  by_cases midline : source = '\u22EF'
  · subst midline
    rw [List.mem_singleton.mp (show c ∈ ['\u2026'] from isImage)] at isSpace
    exact absurd isSpace (by decide)
  by_cases inert : isInert source = true
  · exact (inert_image inert midline).2 c isImage
  · rw [Bool.not_eq_true] at inert
    rw [active_image inert fun isHyphen => prepared.noHyphen (isHyphen ▸ isSource)] at isImage
    rw [List.mem_singleton.mp isImage] at isSpace ⊢
    exact prepared.spaces source isSource isSpace

theorem spaces_spacing {text : List Char}
    (spaces : ∀ c ∈ text, isWhitespace c = true → isInert c = true) (state : SpacingState) :
    ∀ c ∈ spacing.run state text, isWhitespace c = true → isInert c = true := by
  intro c isIn isSpace
  rcases mem_spacing _ _ isIn with isRead | rfl
  · exact spaces c isRead isSpace
  · decide

/-- **Steps 4 to 9 leave the pieces of the text without its CJK gaps.** -/
theorem pieces_tidy {text : List Char} (prepared : Prepared text) (noMidline : '\u22EF' ∉ text) :
    pieces isInert (tidy text) = pieces isInert (closeCjkGaps text) := by
  have spaces := spaces_spacing (spaces_plain prepared) start
  have closes : pieces isInert (spacing.run start (plain text)) =
      pieces isInert (closeCjkGaps (plain text)) :=
    pieces_spacing (fun c isIn => (settled_of_mem_plain isIn).2)
      (fun _ member => absurd member List.not_mem_nil) rfl fun _ => ⟨rfl, rfl⟩
  rw [tidy_eq, pieces_trim spaces, closes, closeCjkGaps_plain, pieces_plain]
  · exact fun isIn => prepared.noHyphen (mem_of_mem_closeCjkGaps isIn)
  · exact fun isIn => noMidline (mem_of_mem_closeCjkGaps isIn)

/-! ### The characters that are not inert -/

/-- The characters of a text that are not inert. -/
def active (text : List Char) : List Char := text.filter fun c => !isInert c

theorem active_append (first second : List Char) :
    active (first ++ second) = active first ++ active second := List.filter_append ..

theorem active_eq_nil {text : List Char} (inert : ∀ c ∈ text, isInert c = true) :
    active text = [] := List.filter_eq_nil_iff.mpr fun c isIn => by simp [inert c isIn]

theorem active_spacing (text : List Char) : ∀ state : SpacingState,
    active (spacing.run state text) = active text := by
  induction text with
  | nil => exact fun _ => rfl
  | cons c rest ih =>
    intro state
    by_cases isSpace : c = ' '
    · subst isSpace
      exact ih _
    by_cases isNewline : c = '\n'
    · subst isNewline
      rw [spacing_newline, active_append, ih]
      split_ifs <;> rfl
    · rw [spacing_char _ ⟨isSpace, isNewline⟩, active_append, ih]
      split_ifs
      · exact (active_append [' ', c] rest).symm
      · exact (active_append [c] rest).symm

theorem active_trim {text : List Char}
    (spaces : ∀ c ∈ text, isWhitespace c = true → isInert c = true) :
    active (trim text) = active text := by
  rcases trim_cases text with ⟨isEmpty, all⟩ | ⟨lead, first, rest, trail, rfl, isTrim, areLead, -,
    areTrail, -⟩
  · rw [isEmpty, active_eq_nil fun c isIn => spaces c isIn (all c isIn)]
    rfl
  · rw [isTrim, active_append, active_append,
      active_eq_nil fun c isIn => spaces c (by simp [isIn]) (areLead c isIn),
      active_eq_nil fun c isIn => spaces c (by simp [isIn]) (areTrail c isIn), List.append_nil,
      List.nil_append]

theorem active_tidy {text : List Char} (prepared : Prepared text) :
    active (tidy text) = active (plain text) := by
  rw [tidy_eq, active_trim (spaces_spacing (spaces_plain prepared) start), active_spacing]

/-- The pass only drops characters: a space that goes out is one that was held back. -/
theorem spacing_sublist (text : List Char) : ∀ state : SpacingState,
    (spacing.run state text).Sublist (if state.gap then ' ' :: text else text) := by
  induction text with
  | nil => exact fun _ => List.nil_sublist _
  | cons c rest ih =>
    intro state
    have widen : (c :: rest).Sublist (if state.gap then ' ' :: c :: rest else c :: rest) := by
      split_ifs
      · exact List.sublist_cons_self _ _
      · exact List.Sublist.refl _
    by_cases isSpace : c = ' '
    · subst isSpace
      exact (ih { state with gap := true }).trans widen
    by_cases isNewline : c = '\n'
    · subst isNewline
      have later : (spacing.run ⟨false, false, false, state.newlines + 1⟩ rest).Sublist rest := ih _
      rw [spacing_newline]
      refine List.Sublist.trans ?_ widen
      split_ifs
      · exact later.cons_cons _
      · exact later.cons _
    · have later : (spacing.run (behind c) rest).Sublist rest := ih (behind c)
      rw [spacing_char _ ⟨isSpace, isNewline⟩]
      split_ifs with opens held
      · exact (later.cons_cons c).cons_cons ' '
      · simp only [SpacingState.opens, Bool.and_eq_true] at opens
        exact absurd opens.1.2 held
      · exact (later.cons_cons c).cons ' '
      · exact later.cons_cons c

theorem trim_sublist (text : List Char) : (trim text).Sublist text :=
  (List.rdropWhile_prefix _ _).sublist.trans (List.dropWhile_sublist _)

end Bookrack.Normalize
