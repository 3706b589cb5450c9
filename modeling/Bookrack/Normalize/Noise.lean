/-
Which surface noise the normal form ignores.

* `Noise`: one edit of a text that exchanges a line break encoding, a stripped invisible character or
  a punctuation encoding, with the text before and behind it.
* **`noise_erased_iff`**: the exact condition, edit by edit, under which both texts have one normal
  form and so one content hash.
-/

import Bookrack.Normalize.Breaks
import Bookrack.Normalize.Idempotent

namespace Bookrack.Normalize

open Pieces SpacingState

/-! ### Line endings -/

/-- `normalize_line_endings` as a pass; the state is whether the last character was a CR. -/
def lineBreakPass : Transducer Bool Char Char where
  step afterCr c :=
    if afterCr && c == '\n' then (false, [])
    else (c == '\r', [if c = '\r' then '\n' else if isHardBreak c then '\n' else c])

theorem lineBreak_behind {text : List Char} (apart : text.head? ≠ some '\n') (afterCr : Bool) :
    lineBreakPass.run afterCr text = lineBreakPass.run false text := by
  cases text with
  | nil => rfl
  | cons c rest =>
    have notNewline : (c == '\n') = false := beq_eq_false_iff_ne.mpr fun same => apart (by rw [same]; rfl)
    rw [Transducer.run_cons, Transducer.run_cons]
    simp only [lineBreakPass, notNewline, Bool.and_false]

theorem lineEndings_eq (text : List Char) :
    normalizeLineEndings text = lineBreakPass.run false text := by
  induction text using normalizeLineEndings.induct with
  | case1 => rfl
  | case2 rest ih =>
    rw [normalizeLineEndings, ih]
    rfl
  | case3 c rest noPair ih =>
    have next : lineBreakPass.run (c == '\r') rest = lineBreakPass.run false rest := by
      by_cases isReturn : c = '\r'
      · refine lineBreak_behind (fun starts => ?_) _
        obtain ⟨rest', rfl⟩ := List.head?_eq_some_iff.mp starts
        exact noPair rest' isReturn rfl
      · rw [beq_eq_false_iff_ne.mpr isReturn]
    have reads : lineBreakPass.run false (c :: rest) =
        (if c = '\r' then '\n' else if isHardBreak c then '\n' else c) ::
          lineBreakPass.run (c == '\r') rest := rfl
    rw [normalizeLineEndings, ih, reads, next]
    assumption

/-- The text ends in a CR. -/
def EndsCr (text : List Char) : Prop := text.getLast? = some '\r'

instance : DecidablePred EndsCr := fun _ => inferInstanceAs (Decidable (_ = _))

theorem reach_lineBreakPass (text : List Char) :
    lineBreakPass.reach false text = decide (EndsCr text) := by
  induction text using List.reverseRecOn with
  | nil => rfl
  | append_singleton text c _ =>
    have ends : decide (EndsCr (text ++ [c])) = (c == '\r') := by
      rw [Bool.eq_iff_iff, decide_eq_true_iff]
      simp [EndsCr]
    rw [Transducer.reach_append, ends, Transducer.reach_cons, Transducer.reach_nil]
    generalize lineBreakPass.reach false text = afterCr
    by_cases isNewline : c = '\n'
    · subst isNewline
      cases afterCr <;> rfl
    · have notNewline : (c == '\n') = false := beq_eq_false_iff_ne.mpr isNewline
      simp only [lineBreakPass, notNewline, Bool.and_false]
      rfl

/-- **Two texts that do not part a CRLF pair.** -/
theorem lineEndings_append {first second : List Char}
    (apart : EndsCr first → second.head? ≠ some '\n') :
    normalizeLineEndings (first ++ second) =
      normalizeLineEndings first ++ normalizeLineEndings second := by
  rw [lineEndings_eq, lineEndings_eq, lineEndings_eq, Transducer.run_append, reach_lineBreakPass]
  by_cases ends : EndsCr first
  · rw [lineBreak_behind (apart ends)]
  · rw [decide_eq_false ends]

theorem lineEndings_append_cons (first : List Char) {c : Char} (isChar : c ≠ '\n')
    (second : List Char) : normalizeLineEndings (first ++ c :: second) =
      normalizeLineEndings first ++ normalizeLineEndings (c :: second) :=
  lineEndings_append fun _ starts => isChar (Option.some.inj (List.head?_cons ▸ starts))

theorem lineEndings_pair (first second : List Char) :
    normalizeLineEndings (first ++ '\r' :: '\n' :: second) =
      normalizeLineEndings first ++ '\n' :: normalizeLineEndings second := by
  rw [lineEndings_append_cons _ (by decide), normalizeLineEndings]

/-- A character that breaks no line. -/
theorem lineEndings_cons {c : Char} (isChar : c ≠ '\r' ∧ isHardBreak c = false) (rest : List Char) :
    normalizeLineEndings (c :: rest) = c :: normalizeLineEndings rest := by
  rw [normalizeLineEndings, if_neg isChar.1, isChar.2, if_neg (by decide)]
  exact fun _ isReturn _ => isChar.1 isReturn

/-! ### Edits -/

/-- `LineBreak`: the encodings of step 1. -/
inductive LineBreak
  | crlf
  | cr
  | verticalTab
  | formFeed
  | nextLine
  | lineSeparator
  | paragraphSeparator
  deriving DecidableEq, Repr

def LineBreak.chars : LineBreak → List Char
  | .crlf => ['\r', '\n']
  | .cr => ['\r']
  | .verticalTab => ['\u000B']
  | .formFeed => ['\u000C']
  | .nextLine => ['\u0085']
  | .lineSeparator => ['\u2028']
  | .paragraphSeparator => ['\u2029']

/-- An edit between the text before and the text behind it: a line break encoding against LF, an
invisible character against nothing, a mark against what step 4 writes for it. -/
inductive Noise
  | lineBreak (before : List Char) (encoding : LineBreak) (behind : List Char)
  | invisible (before : List Char) (c : Char) (behind : List Char)
  | punctuation (before : List Char) (mark : Char) (behind : List Char)
  deriving DecidableEq, Repr

namespace Noise

def noisy : Noise → List Char
  | .lineBreak before encoding behind => before ++ (encoding.chars ++ behind)
  | .invisible before c behind => before ++ c :: behind
  | .punctuation before mark behind => before ++ mark :: behind

def clean : Noise → List Char
  | .lineBreak before _ behind => before ++ '\n' :: behind
  | .invisible before _ behind => before ++ behind
  | .punctuation before mark behind => before ++ (unified mark ++ behind)

/-- The edit is one of those: a CR before an LF is half of a break, not one. -/
def WellFormed : Noise → Prop
  | .lineBreak _ encoding behind => encoding = .cr → behind.head? ≠ some '\n'
  | .invisible _ c _ => isInvisible c = true
  | .punctuation _ mark _ => unified mark ≠ [mark]

instance : DecidablePred WellFormed
  | .lineBreak _ encoding behind =>
    inferInstanceAs (Decidable (encoding = .cr → behind.head? ≠ some '\n'))
  | .invisible _ c _ => inferInstanceAs (Decidable (isInvisible c = true))
  | .punctuation _ mark _ => inferInstanceAs (Decidable (unified mark ≠ [mark]))

/-- The normal form ignores the edit. -/
def ErasedWhen (nfkc : List Char → List Char) : Noise → Prop
  | .lineBreak before _ behind =>
    EndsCr before → Absorbed (prepare nfkc before.dropLast) (prepare nfkc behind)
  | .invisible before _ behind =>
    if EndsCr before ∧ behind.head? = some '\n' then
      Absorbed (prepare nfkc before.dropLast) (prepare nfkc behind.tail)
    else
      nfkc (normalizeLineEndings before ++ normalizeLineEndings behind) =
        nfkc (normalizeLineEndings before) ++ nfkc (normalizeLineEndings behind)
  | .punctuation _ mark _ => mark ≠ '\u22EF'

end Noise

variable {nfkc : List Char → List Char}

/-! ### Line breaks -/

theorem prepare_break (ok : IsNfkc nfkc) {text first second : List Char}
    (isText : normalizeLineEndings text =
      normalizeLineEndings first ++ '\n' :: normalizeLineEndings second) :
    prepare nfkc text = prepare nfkc first ++ '\n' :: prepare nfkc second := by
  rw [prepare, isText, ok.inert _ _ _ (by decide), stripInvisibles, List.filter_append,
    List.filter_cons_of_pos (by decide)]
  rfl

/-- An encoding is read as one line feed. -/
theorem lineEndings_encoding (first : List Char) {encoding : LineBreak} {second : List Char}
    (isWhole : encoding = .cr → second.head? ≠ some '\n') :
    normalizeLineEndings (first ++ (encoding.chars ++ second)) =
      normalizeLineEndings first ++ '\n' :: normalizeLineEndings second := by
  cases encoding with
  | crlf => exact lineEndings_pair first second
  | cr =>
    rw [LineBreak.chars, List.singleton_append, lineEndings_append_cons _ (by decide),
      normalizeLineEndings]
    · rfl
    · rintro rest - rfl
      exact isWhole rfl rfl
  | verticalTab | formFeed | nextLine | lineSeparator | paragraphSeparator =>
    rw [LineBreak.chars, List.singleton_append, lineEndings_append_cons _ (by decide),
      normalizeLineEndings]
    · rfl
    · exact fun _ isReturn _ => absurd isReturn (by decide)

theorem prepare_nil (ok : IsNfkc nfkc) : prepare nfkc [] = [] := by
  have isNil : nfkc [] = [] := ok.nil
  rw [prepare, normalizeLineEndings, isNil]
  rfl

theorem eq_dropLast_of_endsCr {text : List Char} (ends : EndsCr text) :
    text = text.dropLast ++ ['\r'] := (List.dropLast_append_getLast? _ ends).symm

/-- A text that ends in a CR has a line feed there. -/
theorem prepare_endsCr (ok : IsNfkc nfkc) {text : List Char} (ends : EndsCr text) :
    prepare nfkc text = prepare nfkc text.dropLast ++ ['\n'] := by
  have isText : normalizeLineEndings text =
      normalizeLineEndings text.dropLast ++ '\n' :: normalizeLineEndings [] := by
    conv_lhs => rw [eq_dropLast_of_endsCr ends]
    rw [lineEndings_append_cons _ (by decide)]
    rfl
  rw [prepare_break ok isText, prepare_nil ok]

/-- The LF of a clean text behind a CR is half of a pair. -/
theorem prepare_pair (ok : IsNfkc nfkc) {before : List Char} (ends : EndsCr before)
    (behind : List Char) : prepare nfkc (before ++ '\n' :: behind) =
      prepare nfkc before.dropLast ++ '\n' :: prepare nfkc behind := by
  refine prepare_break ok ?_
  conv_lhs => rw [eq_dropLast_of_endsCr ends]
  rw [List.append_assoc]
  exact lineEndings_pair _ _

theorem lineBreak_erased_iff (ok : IsNfkc nfkc) (before : List Char) {encoding : LineBreak}
    {behind : List Char} (isWhole : encoding = .cr → behind.head? ≠ some '\n') :
    normalize nfkc (before ++ (encoding.chars ++ behind)) =
        normalize nfkc (before ++ '\n' :: behind) ↔
      (EndsCr before → Absorbed (prepare nfkc before.dropLast) (prepare nfkc behind)) := by
  rw [normalize, normalize, prepare_break ok (lineEndings_encoding before isWhole)]
  by_cases ends : EndsCr before
  · rw [prepare_endsCr ok ends, prepare_pair ok ends, List.append_assoc, List.singleton_append,
      tidy_second_break_iff]
    exact ⟨fun absorbed _ => absorbed, fun absorbed => absorbed ends⟩
  · have isText : normalizeLineEndings (before ++ '\n' :: behind) =
        normalizeLineEndings before ++ '\n' :: normalizeLineEndings behind := by
      rw [lineEndings_append fun isCr => absurd isCr ends, lineEndings_cons (by decide)]
    rw [prepare_break ok isText]
    exact iff_of_true rfl fun isCr => absurd isCr ends

/-! ### Invisible characters -/

namespace IsNfkc

variable (ok : IsNfkc nfkc)
include ok

/-- A form in front of a text: only what follows its last inert character changes. -/
theorem seam_left {form : List Char} (stable : Stable nfkc form) : ∃ head last, form = head ++ last ∧
    (∀ c ∈ last, isInert c = false) ∧ ∀ text, nfkc (form ++ text) = head ++ nfkc (last ++ text) := by
  induction form using cut_induction isInert with
  | free form free => exact ⟨[], form, rfl, free, fun _ => rfl⟩
  | cut first c form free inert ih =>
    obtain ⟨isFirst, isForm⟩ := (ok.stable_cut first c form inert).mp stable
    obtain ⟨head, last, rfl, isFree, joins⟩ := ih isForm
    refine ⟨first ++ c :: head, last, by simp, isFree, fun text => ?_⟩
    unfold Stable at isFirst
    rw [List.append_assoc, List.cons_append, ok.inert _ _ _ inert, isFirst, joins]
    simp

/-- A form behind a text: only what precedes its first inert character changes. -/
theorem seam_right {form : List Char} (stable : Stable nfkc form) : ∃ first tail,
    form = first ++ tail ∧ (∀ c ∈ first, isInert c = false) ∧
      ∀ text, nfkc (text ++ form) = nfkc (text ++ first) ++ tail := by
  induction form using cut_induction isInert with
  | free form free => exact ⟨form, [], (List.append_nil _).symm, free, fun _ => (List.append_nil _).symm⟩
  | cut first c form free inert _ =>
    obtain ⟨-, isForm⟩ := (ok.stable_cut first c form inert).mp stable
    refine ⟨first, c :: form, rfl, free, fun text => ?_⟩
    unfold Stable at isForm
    rw [← List.append_assoc, ok.inert _ _ _ inert, isForm]

end IsNfkc

/-- What the normal form of a prepared text is made of, line feeds, spaces and quotes apart. -/
def letters (text : List Char) : List Char := active (plain (stripInvisibles text))

theorem letters_append (first second : List Char) :
    letters (first ++ second) = letters first ++ letters second := by
  rw [letters, stripInvisibles, List.filter_append, plain_append, active_append]
  rfl

theorem letters_free {text : List Char}
    (free : ∀ c ∈ text, isInert c = false ∧ c ≠ '\u2011') : letters text = text := by
  have visible : stripInvisibles text = text := strip_eq_self fun c isIn => by
    by_contra hidden
    rw [Bool.not_eq_false] at hidden
    have := inert_of_invisible hidden
    rw [(free c isIn).1] at this
    cases this
  rw [letters, visible, plain_eq_self fun c isIn => settled_of_active (free c isIn).1 (free c isIn).2]
  exact List.filter_eq_self.mpr fun c isIn => by simp [(free c isIn).1]

theorem invisible_char {c : Char} (hidden : isInvisible c = true) :
    c ≠ '\n' ∧ c ≠ '\r' ∧ isHardBreak c = false := by
  simp only [isInvisible, Bool.or_eq_true, beq_iff_eq] at hidden
  rcases hidden with ((((rfl | rfl) | rfl) | rfl) | rfl) | rfl <;> decide

/-- An inert character that breaks no line stays between the two sides. -/
theorem form_char (ok : IsNfkc nfkc) (before : List Char) {c : Char} (inert : isInert c = true)
    (isChar : c ≠ '\n' ∧ c ≠ '\r' ∧ isHardBreak c = false) (behind : List Char) :
    nfkc (normalizeLineEndings (before ++ c :: behind)) =
      nfkc (normalizeLineEndings before) ++ c :: nfkc (normalizeLineEndings behind) := by
  rw [lineEndings_append_cons _ isChar.1, lineEndings_cons isChar.2, ok.inert _ _ _ inert]

/-- Two forms whose concatenation normalizes to the same letters are in form together. -/
theorem concat_of_letters (ok : IsNfkc nfkc) {one other : List Char}
    (isForm : ∀ c ∈ one, Stable nfkc [c] ∧ c ≠ '\u2011') (stable : Stable nfkc one)
    (isForm' : ∀ c ∈ other, Stable nfkc [c] ∧ c ≠ '\u2011') (stable' : Stable nfkc other)
    (same : letters (nfkc (one ++ other)) = letters (one ++ other)) :
    nfkc (one ++ other) = one ++ other := by
  obtain ⟨head, last, rfl, lastFree, joinsLeft⟩ := ok.seam_left stable
  obtain ⟨first, tail, rfl, firstFree, joinsRight⟩ := ok.seam_right stable'
  -- only the seam between the two forms changes
  have isSeam : nfkc ((head ++ last) ++ (first ++ tail)) =
      head ++ (nfkc (last ++ first) ++ tail) := by
    rw [joinsLeft, joinsRight]
  have free : ∀ c ∈ last ++ first, isInert c = false ∧ c ≠ '\u2011' := by
    intro c isIn
    rcases List.mem_append.mp isIn with isLast | isFirst
    · exact ⟨lastFree c isLast, (isForm c (by simp [isLast])).2⟩
    · exact ⟨firstFree c isFirst, (isForm' c (by simp [isFirst])).2⟩
  have isStable : ∀ c ∈ last ++ first, Stable nfkc [c] ∧ isInert c = false := by
    intro c isIn
    refine ⟨?_, (free c isIn).1⟩
    rcases List.mem_append.mp isIn with isLast | isFirst
    · exact (isForm c (by simp [isLast])).1
    · exact (isForm' c (by simp [isFirst])).1
  have free' : ∀ c ∈ nfkc (last ++ first), isInert c = false ∧ c ≠ '\u2011' := fun c isIn =>
    ⟨ok.keepsActive _ isStable c isIn, (ok.folds _ c isIn).2.1⟩
  have seam : nfkc (last ++ first) = last ++ first := by
    rw [isSeam] at same
    simp only [letters_append] at same
    have inner : letters head ++ (letters (nfkc (last ++ first)) ++ letters tail) =
        letters head ++ (letters (last ++ first) ++ letters tail) := by
      rw [same, letters_append]
      simp only [List.append_assoc]
    rw [letters_free free', letters_free free] at inner
    exact List.append_cancel_right (List.append_cancel_left inner)
  rw [isSeam, seam]
  simp only [List.append_assoc]

/-- **An invisible character is ignored exactly when the two sides do not compose.** -/
theorem invisible_erased_iff (ok : IsNfkc nfkc) {before : List Char} {c : Char} {behind : List Char}
    (hidden : isInvisible c = true) (apart : EndsCr before → behind.head? ≠ some '\n') :
    normalize nfkc (before ++ c :: behind) = normalize nfkc (before ++ behind) ↔
      nfkc (normalizeLineEndings before ++ normalizeLineEndings behind) =
        nfkc (normalizeLineEndings before) ++ nfkc (normalizeLineEndings behind) := by
  have isNoisy : prepare nfkc (before ++ c :: behind) = stripInvisibles
      (nfkc (normalizeLineEndings before) ++ nfkc (normalizeLineEndings behind)) := by
    rw [prepare, form_char ok before (inert_of_invisible hidden) (invisible_char hidden),
      stripInvisibles, List.filter_append, List.filter_cons_of_neg (by simp [hidden]),
      ← List.filter_append]
    rfl
  have isClean : prepare nfkc (before ++ behind) = stripInvisibles
      (nfkc (normalizeLineEndings before ++ normalizeLineEndings behind)) := by
    rw [prepare, lineEndings_append apart]
  constructor
  · intro same
    have sameLetters : letters (nfkc (normalizeLineEndings before ++ normalizeLineEndings behind)) =
        letters (nfkc (normalizeLineEndings before) ++ nfkc (normalizeLineEndings behind)) := by
      rw [letters, letters, ← isClean, ← isNoisy, ← active_tidy (prepared_prepare ok),
        ← active_tidy (prepared_prepare ok)]
      exact congrArg active same.symm
    rw [← ok.concat] at sameLetters ⊢
    exact concat_of_letters ok
      (fun c isIn => ⟨ok.stable_of_mem isIn, (ok.folds _ c isIn).2.1⟩) (ok.idempotent _)
      (fun c isIn => ⟨ok.stable_of_mem isIn, (ok.folds _ c isIn).2.1⟩) (ok.idempotent _) sameLetters
  · intro composes
    rw [normalize, normalize, isNoisy, isClean, composes]

/-- **Inside a CRLF pair** an invisible character makes two breaks of one. -/
theorem invisible_in_pair_iff (ok : IsNfkc nfkc) {before : List Char} {c : Char}
    {behind : List Char} (hidden : isInvisible c = true) (ends : EndsCr before) :
    normalize nfkc (before ++ c :: '\n' :: behind) = normalize nfkc (before ++ '\n' :: behind) ↔
      Absorbed (prepare nfkc before.dropLast) (prepare nfkc behind) := by
  have isTail : nfkc (normalizeLineEndings ('\n' :: behind)) =
      '\n' :: nfkc (normalizeLineEndings behind) := by
    have isNil : nfkc [] = [] := ok.nil
    have cut := ok.inert [] '\n' (normalizeLineEndings behind) (by decide)
    rw [lineEndings_cons (by decide)]
    rw [isNil] at cut
    exact cut
  have isNoisy : prepare nfkc (before ++ c :: '\n' :: behind) =
      prepare nfkc before ++ '\n' :: prepare nfkc behind := by
    rw [prepare, form_char ok before (inert_of_invisible hidden) (invisible_char hidden), isTail,
      stripInvisibles, List.filter_append, List.filter_cons_of_neg (by simp [hidden]),
      List.filter_cons_of_pos (by decide)]
    rfl
  rw [normalize, normalize, isNoisy, prepare_pair ok ends, prepare_endsCr ok ends, List.append_assoc,
    List.singleton_append, tidy_second_break_iff]

/-! ### Punctuation -/

/-- An inert character that is seen and breaks no line. -/
def IsPlainInert (c : Char) : Prop :=
  isInert c = true ∧ isInvisible c = false ∧ c ≠ '\n' ∧ c ≠ '\r' ∧ isHardBreak c = false

instance : DecidablePred IsPlainInert := fun _ => inferInstanceAs (Decidable (_ ∧ _))

theorem prepare_append_inert (ok : IsNfkc nfkc) (before : List Char) {c : Char}
    (isPlain : IsPlainInert c) (behind : List Char) : prepare nfkc (before ++ c :: behind) =
      prepare nfkc before ++ c :: prepare nfkc behind := by
  obtain ⟨inert, visible, isChar⟩ := isPlain
  rw [prepare, form_char ok before inert isChar, stripInvisibles, List.filter_append,
    List.filter_cons_of_pos (by simp [visible])]
  rfl

theorem prepare_append_inerts (ok : IsNfkc nfkc) (before : List Char) {marks : List Char}
    (arePlain : ∀ c ∈ marks, IsPlainInert c) (isCons : marks ≠ []) (behind : List Char) :
    prepare nfkc (before ++ (marks ++ behind)) =
      prepare nfkc before ++ (marks ++ prepare nfkc behind) := by
  induction marks generalizing before with
  | nil => exact absurd rfl isCons
  | cons c marks ih =>
    rw [List.cons_append, prepare_append_inert ok before (arePlain c List.mem_cons_self)]
    cases marks with
    | nil => rfl
    | cons d marks =>
      have later := ih [] (fun e isIn => arePlain e (List.mem_cons_of_mem _ isIn))
        (List.cons_ne_nil _ _)
      rw [List.nil_append, prepare_nil ok, List.nil_append] at later
      rw [later]
      rfl

/-- The marks of step 4 but for the hyphen and the midline ellipsis. -/
theorem mark_cases {mark : Char} (isMark : unified mark ≠ [mark]) : mark = '\u22EF' ∨
    mark = '\u2011' ∨ IsPlainInert mark ∧ unified mark ≠ [] ∧ (∀ c ∈ unified mark, IsPlainInert c) ∧
      plainOf mark = unified mark := by
  rw [unified] at isMark
  split_ifs at isMark with bar two three hyphen midline double single
  · subst bar; decide
  · subst two; decide
  · subst three; decide
  · exact .inr (.inl hyphen)
  · exact .inl midline
  · rcases double with rfl | rfl <;> decide
  · rcases single with rfl | rfl <;> decide
  · exact absurd rfl isMark

theorem count_plainOf {c : Char} (off : c ≠ '\u2026') :
    (plainOf c).count '\u2026' = [c].count '\u22EF' := by
  rw [plainOf, unified]
  split_ifs with bar two three hyphen midline double single
  · subst bar; decide
  · subst two; decide
  · subst three; decide
  · subst hyphen; decide
  · subst midline; decide
  · rcases double with rfl | rfl <;> decide
  · rcases single with rfl | rfl <;> decide
  · rw [List.map_singleton]
    split_ifs with isTab
    · subst isTab
      decide
    · rw [List.count_singleton, List.count_singleton, beq_eq_false_iff_ne.mpr off,
        beq_eq_false_iff_ne.mpr midline]

theorem count_plain {text : List Char} (off : '\u2026' ∉ text) :
    (plain text).count '\u2026' = text.count '\u22EF' := by
  induction text with
  | nil => rfl
  | cons c text ih =>
    have isChar : c ≠ '\u2026' := fun same => off (same ▸ List.mem_cons_self)
    rw [plain_cons, List.count_append, ih fun isIn => off (List.mem_cons_of_mem _ isIn),
      count_plainOf isChar]
    exact List.count_append.symm

/-- NFKC neither makes nor takes a midline ellipsis. -/
theorem count_form (ok : IsNfkc nfkc) (text : List Char) :
    (nfkc text).count '\u22EF' = text.count '\u22EF' := by
  induction text using cut_induction isInert with
  | free text free =>
    have isOut : '\u22EF' ∉ text := fun isIn => absurd (free _ isIn) (by decide)
    have isOut' : '\u22EF' ∉ nfkc text := fun isIn =>
      isOut (ok.introduces text _ isIn (.inr (.inr rfl)))
    rw [List.count_eq_zero.mpr isOut, List.count_eq_zero.mpr isOut']
  | cut first c last free inert ih =>
    have isOut : '\u22EF' ∉ first := fun isIn => absurd (free _ isIn) (by decide)
    have isOut' : '\u22EF' ∉ nfkc first := fun isIn =>
      isOut (ok.introduces first _ isIn (.inr (.inr rfl)))
    rw [ok.inert first c last inert, List.count_append, List.count_append, List.count_cons,
      List.count_cons, ih, List.count_eq_zero.mpr isOut, List.count_eq_zero.mpr isOut']

theorem count_lineEndings (text : List Char) :
    (normalizeLineEndings text).count '\u22EF' = text.count '\u22EF' := by
  induction text using normalizeLineEndings.induct with
  | case1 => rfl
  | case2 rest ih =>
    rw [normalizeLineEndings, List.count_cons, ih, List.count_cons, List.count_cons]
    rfl
  | case3 c rest _ ih =>
    have same : ((if c = '\r' then '\n' else if isHardBreak c then '\n' else c) == '\u22EF') =
        (c == '\u22EF') := by
      split_ifs with isReturn isBreak
      · subst isReturn
        rfl
      · have isOther : c ≠ '\u22EF' := by
          rintro rfl
          exact absurd isBreak (by decide)
        rw [beq_eq_false_iff_ne.mpr isOther]
        rfl
      · rfl
    rw [normalizeLineEndings, List.count_cons, ih, same, ← List.count_cons]
    assumption

/-- The ellipses of the result are the midline ellipses of the text. -/
theorem count_normalize (ok : IsNfkc nfkc) (text : List Char) :
    (normalize nfkc text).count '\u2026' = text.count '\u22EF' := by
  have isOut : '\u2026' ∉ prepare nfkc text := fun isIn =>
    (left_of_mem_prepare ok isIn).noEllipsis rfl
  calc (normalize nfkc text).count '\u2026'
      = (active (normalize nfkc text)).count '\u2026' := (List.count_filter (by decide)).symm
    _ = (active (plain (prepare nfkc text))).count '\u2026' := by
        rw [normalize, active_tidy (prepared_prepare ok)]
    _ = (plain (prepare nfkc text)).count '\u2026' := List.count_filter (by decide)
    _ = (prepare nfkc text).count '\u22EF' := count_plain isOut
    _ = (nfkc (normalizeLineEndings text)).count '\u22EF' := List.count_filter (by decide)
    _ = text.count '\u22EF' := by rw [count_form ok, count_lineEndings]

/-- **A mark and what step 4 writes for it have one normal form, but for the midline ellipsis:** NFKC
comes first and writes three full stops for the ellipsis. -/
theorem punctuation_erased_iff (ok : IsNfkc nfkc) (before : List Char) {mark : Char}
    (isMark : unified mark ≠ [mark]) (behind : List Char) :
    normalize nfkc (before ++ mark :: behind) = normalize nfkc (before ++ (unified mark ++ behind)) ↔
      mark ≠ '\u22EF' := by
  rcases mark_cases isMark with rfl | rfl | ⟨isPlain, isCons, arePlain, isImage⟩
  · refine iff_of_false (fun same => ?_) fun different => different rfl
    have counts := congrArg (List.count '\u2026') same
    rw [count_normalize ok, count_normalize ok] at counts
    simp [unified] at counts
  · refine iff_of_true ?_ (by decide)
    have isText : ∀ c, c = '\u2011' ∨ c = '\u2010' → normalizeLineEndings (before ++ c :: behind) =
        normalizeLineEndings before ++ c :: normalizeLineEndings behind := by
      rintro c (rfl | rfl)
      · rw [lineEndings_append_cons _ (by decide), lineEndings_cons (by decide)]
      · rw [lineEndings_append_cons _ (by decide), lineEndings_cons (by decide)]
    have isHyphen : before ++ (unified '\u2011' ++ behind) = before ++ '\u2010' :: behind := rfl
    rw [isHyphen, normalize, normalize, prepare, prepare, isText _ (.inl rfl), isText _ (.inr rfl),
      ok.hyphen]
  · refine iff_of_true ?_ ?_
    · have settled : ∀ c ∈ unified mark, Settled c := by
        intro c isIn
        have isPlainOf : c ∈ plain [mark] := by
          rw [plain_cons, isImage]
          exact List.mem_append_left _ isIn
        exact settled_of_mem_plain isPlainOf
      rw [normalize, normalize, prepare_append_inert ok before isPlain,
        prepare_append_inerts ok before arePlain isCons, tidy_eq, tidy_eq, plain_append, plain_cons,
        plain_append, plain_append, plain_eq_self settled, isImage]
    · rintro rfl
      have notPlain : ¬ IsPlainInert '\u2026' := by decide
      exact notPlain (arePlain '\u2026' List.mem_cons_self)

/-! ### The edits -/

/-- **The normal form, and with it the content hash, ignores an edit exactly when** the edit is a line
break encoding that is not read with a CR before it or whose second break is absorbed, an invisible
character that parts no CRLF pair whose second break shows and keeps nothing from composing, or a
punctuation encoding other than the midline ellipsis. -/
theorem noise_erased_iff (ok : IsNfkc nfkc) (sha256 : List UInt8 → List UInt8) {noise : Noise}
    (wellFormed : noise.WellFormed) :
    (normalize nfkc noise.noisy = normalize nfkc noise.clean ∧
        normTextSha256 nfkc sha256 noise.noisy = normTextSha256 nfkc sha256 noise.clean) ↔
      noise.ErasedWhen nfkc := by
  have hashes : normalize nfkc noise.noisy = normalize nfkc noise.clean →
      normTextSha256 nfkc sha256 noise.noisy = normTextSha256 nfkc sha256 noise.clean := by
    intro same
    rw [normTextSha256, normTextSha256, same]
  rw [and_iff_left_of_imp hashes]
  cases noise with
  | lineBreak before encoding behind => exact lineBreak_erased_iff ok before wellFormed
  | invisible before c behind =>
    dsimp only [Noise.noisy, Noise.clean, Noise.ErasedWhen]
    split_ifs with parts
    · obtain ⟨ends, starts⟩ := parts
      obtain ⟨rest, rfl⟩ := List.head?_eq_some_iff.mp starts
      exact invisible_in_pair_iff ok wellFormed ends
    · exact invisible_erased_iff ok wellFormed fun ends starts => parts ⟨ends, starts⟩
  | punctuation before mark behind => exact punctuation_erased_iff ok before wellFormed behind

/-- A soft hyphen inside a word. -/
def softHyphen : Noise := .invisible "re".toList '\u00AD' "ad".toList

theorem noise_erased_iff_softHyphen :
    normalize foldChars softHyphen.noisy = normalize foldChars softHyphen.clean ∧
      normTextSha256 foldChars id softHyphen.noisy = normTextSha256 foldChars id softHyphen.clean := by
  have wellFormed : softHyphen.WellFormed := by decide
  have erased : softHyphen.ErasedWhen foldChars := by
    dsimp only [Noise.ErasedWhen, softHyphen]
    rw [if_neg (by decide)]
    decide
  exact (noise_erased_iff isNfkc_foldChars id wellFormed).mpr erased

/-- A midline ellipsis between two letters. -/
def midlineEllipsis : Noise := .punctuation ['a'] '\u22EF' ['b']

/-- **The midline ellipsis and the ellipsis have two normal forms.** -/
theorem midline_not_erased : ¬ ∀ nfkc, IsNfkc nfkc → ∀ noise : Noise, noise.WellFormed →
    normalize nfkc noise.noisy = normalize nfkc noise.clean := by
  intro always
  have wellFormed : midlineEllipsis.WellFormed := by decide
  have same := always foldChars isNfkc_foldChars midlineEllipsis wellFormed
  exact (punctuation_erased_iff isNfkc_foldChars ['a'] wellFormed ['b']).mp same rfl

end Bookrack.Normalize
