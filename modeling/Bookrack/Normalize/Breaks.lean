/-
A line break beside another one.

* `runs_before`, `runs_behind`: what the spacing pass makes of the line feeds that end a text and of
  those that start one.
* **`tidy_second_break_iff`**: a second line feed changes nothing exactly when a blank line is beside
  the break, or nothing but whitespace is before or behind it.
-/

import Bookrack.Normalize.Gaps

namespace Bookrack.Normalize

open SpacingState

/-- The text ends in a line feed and blanks. -/
def EndsBlank (text : List Char) : Prop :=
  ∃ before blanks, text = before ++ '\n' :: blanks ∧ ∀ c ∈ blanks, isBlank c = true

/-- The text starts with blanks and a line feed. -/
def StartsBlank (text : List Char) : Prop :=
  ∃ blanks behind, text = blanks ++ '\n' :: behind ∧ ∀ c ∈ blanks, isBlank c = true

def AllSpace (text : List Char) : Prop := ∀ c ∈ text, isWhitespace c = true

/-- A second line feed between the two texts is absorbed. -/
def Absorbed (before behind : List Char) : Prop :=
  EndsBlank before ∨ StartsBlank behind ∨ AllSpace before ∨ AllSpace behind

/-! ### Characters of steps 4 and 5 -/

theorem plainOf_newline : plainOf '\n' = ['\n'] := by decide

/-- What steps 4 and 5 make of a character that is neither blank nor a line feed. -/
theorem plainOf_char {c : Char} (isChar : isBlank c = false) (notNewline : c ≠ '\n') :
    plainOf c ≠ [] ∧ ∀ d ∈ plainOf c, d ≠ ' ' ∧ d ≠ '\n' := by
  rcases plainOf_cases isChar with same | ⟨-, isCons, areMarks⟩
  · rw [same]
    refine ⟨List.cons_ne_nil _ _, fun d isIn => ?_⟩
    rw [List.mem_singleton.mp isIn]
    exact ⟨(not_blank_iff.mp isChar).1, notNewline⟩
  · exact ⟨isCons, fun d isIn => ⟨(not_blank_iff.mp (areMarks d isIn).1).1, (areMarks d isIn).2.2⟩⟩

/-- The pass over characters that are neither spaces nor line feeds. -/
theorem spacing_chars {chars : List Char} (areChars : ∀ c ∈ chars, c ≠ ' ' ∧ c ≠ '\n')
    (isCons : chars ≠ []) (state : SpacingState) :
    ∃ last, spacing.reach state chars = behind last := by
  obtain ⟨init, last, rfl⟩ := (List.eq_nil_or_concat chars).resolve_left isCons
  rw [List.concat_eq_append] at areChars ⊢
  exact ⟨last, spacing_reach_last state (areChars last (by simp)) init⟩

/-! ### Before the break -/

theorem endsBlank_concat {text : List Char} {c : Char} : EndsBlank (text ++ [c]) ↔
    c = '\n' ∨ isBlank c = true ∧ EndsBlank text := by
  constructor
  · rintro ⟨before, blanks, isText, areBlank⟩
    rcases List.eq_nil_or_concat blanks with rfl | ⟨init, last, rfl⟩
    · exact .inl (List.singleton_inj.mp (List.append_inj' isText rfl).2)
    · rw [List.concat_eq_append, ← List.cons_append, ← List.append_assoc] at isText
      obtain ⟨rfl, isLast⟩ := List.append_inj' isText rfl
      rw [List.singleton_inj.mp isLast]
      rw [List.concat_eq_append] at areBlank
      exact .inr ⟨areBlank last (by simp), before, init, rfl,
        fun d isIn => areBlank d (by simp [isIn])⟩
  · rintro (rfl | ⟨blank, before, blanks, rfl, areBlank⟩)
    · exact ⟨text, [], rfl, fun _ isIn => absurd isIn List.not_mem_nil⟩
    · refine ⟨before, blanks ++ [c], by simp, fun d isIn => ?_⟩
      rcases List.mem_append.mp isIn with isOld | isNew
      · exact areBlank d isOld
      · rw [List.mem_singleton.mp isNew]
        exact blank

/-- The line feeds the pass counts at the end of a text: there are some exactly when the text ends
in a blank line. -/
theorem newlines_pos_iff (text : List Char) :
    0 < (spacing.reach start (plain text)).newlines ↔ EndsBlank text := by
  induction text using List.reverseRecOn with
  | nil =>
    refine iff_of_false (Nat.lt_irrefl 0) ?_
    rintro ⟨before, blanks, isText, -⟩
    simp at isText
  | append_singleton text c ih =>
    rw [plain_append, plain_cons, show plain [] = [] from rfl, List.append_nil,
      Transducer.reach_append, endsBlank_concat]
    by_cases isNewline : c = '\n'
    · subst isNewline
      rw [plainOf_newline]
      exact iff_of_true (Nat.succ_pos _) (.inl rfl)
    by_cases blank : isBlank c = true
    · rw [plainOf_blank blank, ← ih]
      simp [isNewline, blank, spacing_reach_space]
    · obtain ⟨isCons, areChars⟩ := plainOf_char (by simpa using blank) isNewline
      obtain ⟨last, isBehind⟩ := spacing_chars areChars isCons
        (spacing.reach start (plain text))
      rw [isBehind]
      refine iff_of_false (Nat.lt_irrefl 0) ?_
      rintro (isLf | ⟨isBlank, -⟩)
      · exact isNewline isLf
      · exact blank isBlank

/-! ### Behind the break -/

theorem startsBlank_cons {c : Char} {text : List Char} : StartsBlank (c :: text) ↔
    c = '\n' ∨ isBlank c = true ∧ StartsBlank text := by
  constructor
  · rintro ⟨blanks, behind, isText, areBlank⟩
    cases blanks with
    | nil => exact .inl (List.cons.inj isText).1
    | cons d blanks =>
      obtain ⟨rfl, rfl⟩ := List.cons.inj isText
      exact .inr ⟨areBlank c List.mem_cons_self, blanks, behind, rfl,
        fun e isIn => areBlank e (List.mem_cons_of_mem _ isIn)⟩
  · rintro (rfl | ⟨blank, blanks, behind, rfl, areBlank⟩)
    · exact ⟨[], text, rfl, fun _ isIn => absurd isIn List.not_mem_nil⟩
    · exact ⟨c :: blanks, behind, rfl, List.forall_mem_cons.mpr ⟨blank, areBlank⟩⟩

/-- The state behind so many line feeds. -/
def behindBreaks (gap : Bool) (newlines : Nat) : SpacingState := ⟨false, false, gap, newlines⟩

/-- A line feed goes out where there is room, and leaves room for one less. -/
theorem break_replicate (breaks newlines : Nat) :
    (if newlines + 1 ≤ 2 then ['\n'] else []) ++
        List.replicate (min breaks (2 - (newlines + 1))) '\n' =
      List.replicate (min (breaks + 1) (2 - newlines)) '\n' := by
  by_cases few : newlines + 1 ≤ 2
  · have room : min (breaks + 1) (2 - newlines) = min breaks (2 - (newlines + 1)) + 1 := by omega
    rw [if_pos few, room, List.replicate_succ]
    rfl
  · have none : 2 - newlines = 0 ∧ 2 - (newlines + 1) = 0 := by omega
    rw [if_neg few, none.1, none.2, Nat.min_zero, Nat.min_zero]
    rfl

/-- **What goes out behind a break**: those of the line feeds that start the text which the line
feeds before it leave room for, and a rest that does not depend on them. -/
theorem runs_behind (text : List Char) : ∃ breaks out, (0 < breaks ↔ StartsBlank text) ∧
    ∀ gap newlines, spacing.run (behindBreaks gap newlines) (plain text) =
      List.replicate (min breaks (2 - newlines)) '\n' ++ out := by
  induction text with
  | nil =>
    refine ⟨0, [], iff_of_false (Nat.lt_irrefl 0) ?_, fun _ _ => by simp [plain_eq]⟩
    rintro ⟨blanks, behind, isText, -⟩
    simp at isText
  | cons c text ih =>
    obtain ⟨breaks, out, starts, runs⟩ := ih
    rw [startsBlank_cons, plain_cons]
    by_cases isNewline : c = '\n'
    · subst isNewline
      refine ⟨breaks + 1, out, iff_of_true (Nat.succ_pos _) (.inl rfl), fun gap newlines => ?_⟩
      have later : spacing.run ⟨false, false, false, newlines + 1⟩ (plain text) =
          List.replicate (min breaks (2 - (newlines + 1))) '\n' ++ out := runs false (newlines + 1)
      have reads : spacing.run (behindBreaks gap newlines) ('\n' :: plain text) =
          (if newlines + 1 ≤ 2 then ['\n'] else []) ++
            spacing.run ⟨false, false, false, newlines + 1⟩ (plain text) := spacing_newline _ _
      rw [plainOf_newline, List.singleton_append, reads, later, ← List.append_assoc, break_replicate]
    by_cases blank : isBlank c = true
    · rw [plainOf_blank blank]
      refine ⟨breaks, out, ?_, fun gap newlines => runs true newlines⟩
      simp [isNewline, blank, starts]
    · obtain ⟨isCons, areChars⟩ := plainOf_char (by simpa using blank) isNewline
      obtain ⟨first, rest, isImage⟩ := List.exists_cons_of_ne_nil isCons
      have isChar := areChars first (by simp [isImage])
      refine ⟨0, first :: spacing.run (behind first) (rest ++ plain text), ?_, fun gap newlines => ?_⟩
      · refine iff_of_false (Nat.lt_irrefl 0) ?_
        rintro (isLf | ⟨isBlank, -⟩)
        · exact isNewline isLf
        · exact blank isBlank
      · have closed : (behindBreaks gap newlines).opens first = false := rfl
        rw [isImage, List.cons_append, spacing_char _ isChar, closed]
        simp

/-! ### Whitespace -/

theorem isWhitespace_of_mem_plainOf {c d : Char} (isImage : d ∈ plainOf c) :
    isWhitespace d = isWhitespace c := by
  rw [plainOf, unified] at isImage
  split_ifs at isImage with bar two three hyphen midline double single
  · subst bar; revert d; decide
  · subst two; revert d; decide
  · subst three; revert d; decide
  · subst hyphen; revert d; decide
  · subst midline; revert d; decide
  · rcases double with rfl | rfl <;> (revert d; decide)
  · rcases single with rfl | rfl <;> (revert d; decide)
  · rw [List.map_singleton, List.mem_singleton] at isImage
    rw [isImage]
    split_ifs with isTab
    · subst isTab
      decide
    · rfl

/-- A character that is no space and no line feed goes out. -/
theorem mem_spacing_of_char {text : List Char} {c : Char} (isChar : c ≠ ' ' ∧ c ≠ '\n')
    (isIn : c ∈ text) : ∀ state : SpacingState, c ∈ spacing.run state text := by
  induction text with
  | nil => exact absurd isIn List.not_mem_nil
  | cons d rest ih =>
    intro state
    rcases List.mem_cons.mp isIn with rfl | later
    · rw [spacing_char _ isChar]
      split_ifs <;> simp
    · rw [Transducer.run_cons]
      exact List.mem_append_right _ (ih later _)

/-- **The passes leave whitespace whitespace and text text.** -/
theorem allSpace_spacing_iff (state : SpacingState) (text : List Char) :
    AllSpace (spacing.run state (plain text)) ↔ AllSpace text := by
  constructor
  · intro all c isIn
    by_contra isText
    rw [Bool.not_eq_true] at isText
    have isChar := ne_blank isText
    have notBlank : isBlank c = false := by
      refine not_blank_iff.mpr ⟨isChar.1, ?_⟩
      rintro rfl
      exact absurd isText (by decide)
    obtain ⟨isCons, areChars⟩ := plainOf_char notBlank isChar.2
    obtain ⟨d, rest, isImage⟩ := List.exists_cons_of_ne_nil isCons
    have isOf : d ∈ plainOf c := by simp [isImage]
    have isPlain : d ∈ plain text := by
      rw [plain_eq]
      exact List.mem_flatMap.mpr ⟨c, isIn, isOf⟩
    have := all d (mem_spacing_of_char (areChars d isOf) isPlain state)
    rw [isWhitespace_of_mem_plainOf isOf, isText] at this
    cases this
  · intro all d isOut
    rcases mem_spacing _ _ isOut with isPlain | rfl
    · rw [plain_eq] at isPlain
      obtain ⟨c, isIn, isImage⟩ := List.mem_flatMap.mp isPlain
      rw [isWhitespace_of_mem_plainOf isImage]
      exact all c isIn
    · decide

/-! ### Trimming around the break -/

theorem trim_space_append {lead : List Char} (all : AllSpace lead) (text : List Char) :
    trim (lead ++ text) = trim text := by
  rw [trim, trim, trimMatches, trimMatches, List.dropWhile_append_of_pos all]

theorem rdropWhile_append_space (text : List Char) {trail : List Char} (all : AllSpace trail) :
    (text ++ trail).rdropWhile isWhitespace = text.rdropWhile isWhitespace := by
  rw [List.rdropWhile, List.rdropWhile, List.reverse_append,
    List.dropWhile_append_of_pos fun c isIn => all c (List.mem_reverse.mp isIn)]

theorem rdropWhile_append_text (text : List Char) {last : List Char} (hasText : ¬ AllSpace last) :
    (text ++ last).rdropWhile isWhitespace = text ++ last.rdropWhile isWhitespace := by
  have isCons : last.reverse.dropWhile isWhitespace ≠ [] := fun isNil =>
    hasText fun c isIn => List.dropWhile_eq_nil_iff.mp isNil c (List.mem_reverse.mpr isIn)
  rw [List.rdropWhile, List.rdropWhile, List.reverse_append, List.dropWhile_append,
    if_neg (by simpa using isCons), List.reverse_append, List.reverse_reverse]

theorem dropWhile_append_text {first : List Char} (hasText : ¬ AllSpace first) (text : List Char) :
    (first ++ text).dropWhile isWhitespace = first.dropWhile isWhitespace ++ text := by
  have isCons : first.dropWhile isWhitespace ≠ [] := fun isNil =>
    hasText (List.dropWhile_eq_nil_iff.mp isNil)
  rw [List.dropWhile_append, if_neg (by simpa using isCons)]

theorem trim_append_space (text : List Char) {trail : List Char} (all : AllSpace trail) :
    trim (text ++ trail) = trim text := by
  by_cases allText : AllSpace text
  · have noText : text.dropWhile isWhitespace = [] := List.dropWhile_eq_nil_iff.mpr allText
    have none : trail.dropWhile isWhitespace = [] := List.dropWhile_eq_nil_iff.mpr all
    rw [trim_space_append allText, trim, trim, trimMatches, trimMatches, noText, none]
  · rw [trim, trim, trimMatches, trimMatches, dropWhile_append_text allText,
      rdropWhile_append_space _ all]

/-- What is between two texts is trimmed on neither side. -/
theorem trim_between {before behind : List Char} (hasText : ¬ AllSpace before)
    (hasText' : ¬ AllSpace behind) (between : List Char) :
    trim (before ++ (between ++ behind)) =
      before.dropWhile isWhitespace ++ between ++ behind.rdropWhile isWhitespace := by
  rw [trim, trimMatches, dropWhile_append_text hasText, ← List.append_assoc,
    rdropWhile_append_text _ hasText']

/-! ### The second break -/

/-- **A second line feed changes nothing exactly when it is absorbed.** -/
theorem tidy_second_break_iff (before behind : List Char) :
    tidy (before ++ '\n' :: '\n' :: behind) = tidy (before ++ '\n' :: behind) ↔
      Absorbed before behind := by
  obtain ⟨breaks, out, starts, runs⟩ := runs_behind behind
  have ends := newlines_pos_iff before
  have isBefore := allSpace_spacing_iff start before
  generalize isCount : (spacing.reach start (plain before)).newlines = count at ends
  generalize isOut : spacing.run start (plain before) = first at isBefore
  have breakOut : ∀ rest, spacing.run start (plain before ++ '\n' :: rest) = first ++
      ((if count + 1 ≤ 2 then ['\n'] else []) ++ spacing.run (behindBreaks false (count + 1)) rest) := by
    intro rest
    rw [Transducer.run_append, isOut, spacing_newline, isCount]
    rfl
  have newlineOut : ∀ newlines rest, spacing.run (behindBreaks false newlines) ('\n' :: rest) =
      (if newlines + 1 ≤ 2 then ['\n'] else []) ++
        spacing.run (behindBreaks false (newlines + 1)) rest := fun _ _ => spacing_newline _ _
  have one : spacing.run start (plain (before ++ '\n' :: behind)) =
      first ++ (List.replicate (min (breaks + 1) (2 - count)) '\n' ++ out) := by
    rw [plain_append, plain_cons, plainOf_newline, List.singleton_append, breakOut, runs,
      ← List.append_assoc (if count + 1 ≤ 2 then ['\n'] else []), break_replicate]
  have two : spacing.run start (plain (before ++ '\n' :: '\n' :: behind)) =
      first ++ (List.replicate (min (breaks + 1 + 1) (2 - count)) '\n' ++ out) := by
    rw [plain_append, plain_cons, plain_cons, plainOf_newline, List.singleton_append,
      List.singleton_append, breakOut, newlineOut, runs,
      ← List.append_assoc (if count + 1 + 1 ≤ 2 then ['\n'] else []), break_replicate,
      ← List.append_assoc (if count + 1 ≤ 2 then ['\n'] else []), break_replicate]
  have isBehind : AllSpace out ↔ AllSpace behind := by
    have whole := allSpace_spacing_iff (behindBreaks false 0) behind
    rw [runs] at whole
    rw [← whole]
    refine ⟨fun all c isIn => ?_, fun all c isIn => all c (List.mem_append_right _ isIn)⟩
    rcases List.mem_append.mp isIn with isBreak | isRest
    · rw [List.eq_of_mem_replicate isBreak]
      decide
    · exact all c isRest
  have breaksAll : ∀ n, AllSpace (List.replicate n '\n') := by
    intro n c isIn
    rw [List.eq_of_mem_replicate isIn]
    decide
  rw [tidy_eq, tidy_eq, one, two]
  constructor
  · intro same
    by_contra beside
    unfold Absorbed at beside
    rw [← ends, ← starts, ← isBefore, ← isBehind] at beside
    push Not at beside
    obtain ⟨noCount, noBreaks, hasText, hasText'⟩ := beside
    rw [trim_between hasText hasText', trim_between hasText hasText'] at same
    have lengths := congrArg List.length same
    simp only [List.length_append, List.length_replicate] at lengths
    omega
  · rintro (endsBlank | startsBlank | allBefore | allBehind)
    · have isPositive := ends.mpr endsBlank
      rw [show min (breaks + 1 + 1) (2 - count) = min (breaks + 1) (2 - count) by omega]
    · have isPositive := starts.mpr startsBlank
      rw [show min (breaks + 1 + 1) (2 - count) = min (breaks + 1) (2 - count) by omega]
    · have allFirst := isBefore.mpr allBefore
      rw [trim_space_append allFirst, trim_space_append allFirst, trim_space_append (breaksAll _),
        trim_space_append (breaksAll _)]
    · have allOut := isBehind.mpr allBehind
      rw [← List.append_assoc, ← List.append_assoc, trim_append_space _ allOut,
        trim_append_space _ allOut, trim_append_space _ (breaksAll _),
        trim_append_space _ (breaksAll _)]

end Bookrack.Normalize
