/-
Steps 4 to 9 of the pipeline.

* **`tidy_tidy`**: they leave what they produce.
-/

import Bookrack.Normalize.Spacing

namespace Bookrack.Normalize

open SpacingState

/-! ### Trimming -/

theorem ne_blank {c : Char} (isText : isWhitespace c = false) : c ≠ ' ' ∧ c ≠ '\n' := by
  constructor
  · rintro rfl
    exact absurd isText (by decide)
  · rintro rfl
    exact absurd isText (by decide)

/-- A trimmed text is empty, or it starts and ends with text. -/
theorem trim_cases (text : List Char) : (trim text = [] ∧ ∀ c ∈ text, isWhitespace c = true) ∨
    ∃ lead first rest trail, text = lead ++ first :: rest ++ trail ∧ trim text = first :: rest ∧
      (∀ c ∈ lead, isWhitespace c = true) ∧ isWhitespace first = false ∧
      (∀ c ∈ trail, isWhitespace c = true) ∧
      ∀ c ∈ (first :: rest).getLast?, isWhitespace c = false := by
  unfold trim trimMatches
  have whole : text.takeWhile isWhitespace ++ text.dropWhile isWhitespace = text :=
    List.takeWhile_append_dropWhile
  cases isDropped : text.dropWhile isWhitespace with
  | nil => exact .inl ⟨rfl, List.dropWhile_eq_nil_iff.mp isDropped⟩
  | cons first rest =>
    have isText : isWhitespace first = false := by
      have isCons : text.dropWhile isWhitespace ≠ [] := by simp [isDropped]
      have := List.head_dropWhile_not isWhitespace isCons
      simpa [isDropped] using this
    have kept := rdropWhile_cons isWhitespace first rest
    rw [isText, Bool.and_false, if_neg (by decide)] at kept
    refine .inr ⟨text.takeWhile isWhitespace, first, rest.rdropWhile isWhitespace,
      (first :: rest).rtakeWhile isWhitespace, ?_, kept, fun c member => ?_, isText,
      fun c member => ?_, fun c isLast => ?_⟩
    · rw [← kept, List.append_assoc, List.rdropWhile_append_rtakeWhile, ← isDropped]
      exact whole.symm
    · exact List.mem_takeWhile_imp member
    · exact List.mem_rtakeWhile_imp member
    · have isCons : (first :: rest).rdropWhile isWhitespace ≠ [] := by rw [kept]; simp
      have := List.rdropWhile_last_not isWhitespace _ isCons
      rw [← kept, List.getLast?_eq_getLast_of_ne_nil isCons] at isLast
      rw [← Option.some.inj isLast]
      simpa using this

theorem trim_eq_self {first : Char} {rest : List Char} (isText : isWhitespace first = false)
    (isLast : ∀ c ∈ (first :: rest).getLast?, isWhitespace c = false) :
    trim (first :: rest) = first :: rest := by
  unfold trim trimMatches
  rw [List.dropWhile_cons_of_neg (by simp [isText]), List.rdropWhile_eq_self_iff]
  intro isCons
  simpa using isLast _ (List.getLast?_eq_getLast_of_ne_nil isCons)

theorem trim_trim (text : List Char) : trim (trim text) = trim text := by
  rcases trim_cases text with ⟨isEmpty, -⟩ | ⟨lead, first, rest, trail, -, isTrim, -, isText, -, isLast⟩
  · rw [isEmpty]
    rfl
  · rw [isTrim, trim_eq_self isText isLast]

/-- Where the pass leaves a text, it leaves each of two halves that hold back no spaces between
them. -/
theorem spacing_halves {state : SpacingState} {first second : List Char}
    (noGap : state.gap = false) (between : (spacing.reach state first).gap = false)
    (isLeft : spacing.run state (first ++ second) = first ++ second) :
    spacing.run state first = first ∧
      spacing.run (spacing.reach state first) second = second := by
  rw [Transducer.run_append] at isLeft
  have atMost := spacing_length first state
  have atMost' := spacing_length second (spacing.reach state first)
  have total := congrArg List.length isLeft
  rw [List.length_append, List.length_append] at total
  rw [noGap, between] at atMost
  rw [between] at atMost'
  exact List.append_inj isLeft (by simp only [Bool.toNat_false] at *; omega)

/-- Trimming a text that the spacing pass leaves keeps it so. -/
theorem spacing_trim {text : List Char} (isLeft : spacing.run start text = text) :
    spacing.run start (trim text) = trim text := by
  rcases trim_cases text with ⟨isEmpty, -⟩ | ⟨lead, first, rest, trail, rfl, isTrim, -, isText, -, isLast⟩
  · rw [isEmpty]
    rfl
  · have isChar := ne_blank isText
    have later : spacing.run (behind first) (rest ++ trail) = rest ++ trail := by
      have between : spacing.reach start (lead ++ [first]) = behind first :=
        spacing_reach_last start isChar lead
      have cut : lead ++ first :: rest ++ trail = (lead ++ [first]) ++ (rest ++ trail) := by simp
      rw [cut] at isLeft
      exact between ▸ (spacing_halves rfl (by rw [between]; rfl) isLeft).2
    have noGap : (spacing.reach (behind first) rest).gap = false := by
      rcases List.eq_nil_or_concat rest with rfl | ⟨init, last, rfl⟩
      · rfl
      · have ends : last ∈ (first :: init.concat last).getLast? := by
          rw [List.concat_eq_append, ← List.cons_append, List.getLast?_concat]
          rfl
        rw [List.concat_eq_append, spacing_reach_last _ (ne_blank (isLast last ends))]
        rfl
    rw [isTrim, spacing_char_noGap rfl isChar, (spacing_halves rfl noGap later).1]

/-! ### Steps 4 and 5 -/

/-- Steps 4 and 5. -/
def plain (text : List Char) : List Char := horizontalWhitespaceToSpace (unifyPunctuation text)

theorem tidy_eq (text : List Char) : tidy text = trim (spacing.run start (plain text)) := by
  rw [← spacing_eq]
  rfl

/-- A character that steps 4 and 5 leave. -/
def Settled (c : Char) : Prop := unified c = [c] ∧ c ≠ '\t'

theorem unified_of_mem_unified {source c : Char} (isImage : c ∈ unified source) :
    unified c = [c] := by
  have image := isImage
  rw [unified] at image
  split_ifs at image
  -- the seven images, and a character outside the table
  all_goals simp only [List.mem_cons, List.not_mem_nil, or_false, or_self] at image
  all_goals subst image
  iterate 7 decide
  rw [unified]
  split_ifs
  rfl

theorem settled_of_mem_plain {text : List Char} {c : Char} (isIn : c ∈ plain text) : Settled c := by
  obtain ⟨d, isMark, rfl⟩ := List.mem_map.mp isIn
  obtain ⟨source, -, isImage⟩ := List.mem_flatMap.mp isMark
  by_cases isTab : d = '\t'
  · rw [if_pos isTab]
    exact ⟨by decide, by decide⟩
  · rw [if_neg isTab]
    exact ⟨unified_of_mem_unified isImage, isTab⟩

theorem plain_eq_self {text : List Char} (settled : ∀ c ∈ text, Settled c) : plain text = text := by
  have unifies : unifyPunctuation text = text := by
    rw [unifyPunctuation, List.flatMap_congr fun c member => (settled c member).1]
    exact List.flatMap_singleton' text
  rw [plain, unifies, horizontalWhitespaceToSpace]
  refine (List.map_congr_left fun c member => ?_).trans (List.map_id text)
  exact if_neg (settled c member).2

theorem mem_of_mem_trim {text : List Char} {c : Char} (isIn : c ∈ trim text) : c ∈ text := by
  unfold trim trimMatches at isIn
  exact (List.dropWhile_sublist _).subset ((List.rdropWhile_prefix _ _).subset isIn)

theorem settled_of_mem_tidy {text : List Char} {c : Char} (isIn : c ∈ tidy text) : Settled c := by
  rw [tidy_eq] at isIn
  rcases mem_spacing _ _ (mem_of_mem_trim isIn) with isRead | rfl
  · exact settled_of_mem_plain isRead
  · exact ⟨by decide, by decide⟩

/-- **Steps 4 to 9 leave what they produce.** -/
theorem tidy_tidy (text : List Char) : tidy (tidy text) = tidy text := by
  have again : spacing.run start (tidy text) = tidy text := by
    rw [tidy_eq]
    exact spacing_trim (spacing_spacing _ ⟨rfl, rfl, rfl, .inl rfl,
      fun positive => absurd positive (Nat.lt_irrefl 0)⟩)
  rw [tidy_eq (tidy text), plain_eq_self fun c => settled_of_mem_tidy, again, tidy_eq, trim_trim]

end Bookrack.Normalize
