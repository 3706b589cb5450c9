/-
When text normalization is idempotent.

* `IsNfkc.stable_iff_pieces`: a text is its own NFKC form exactly when its pieces between inert
  characters are.
* `stable_tidy_iff`, `normalize_tidy_iff`: a second run leaves the text exactly when it is in NFKC
  form, and that is decided by the text that steps 1 to 3 leave.
* **`normalize_idempotent_iff`**: a second run changes nothing exactly when that text has no midline
  ellipsis and, without the blank runs between its CJK characters, is in NFKC form.
-/

import Bookrack.Normalize.Gaps

namespace Bookrack.Normalize

open Pieces SpacingState

/-! ### What follows for NFKC -/

namespace IsNfkc

variable {nfkc : List Char → List Char} (ok : IsNfkc nfkc)
include ok

theorem nil : Stable nfkc [] := by
  refine ok.substring (nfkc []) [] [] ?_
  rw [List.append_nil, List.append_nil]
  exact ok.idempotent []

theorem stable_cut (first : List Char) (c : Char) (last : List Char) (inert : isInert c = true) :
    Stable nfkc (first ++ c :: last) ↔ Stable nfkc first ∧ Stable nfkc last := by
  constructor
  · intro stable
    refine ⟨ok.substring [] first (c :: last) stable, ok.substring (first ++ [c]) last [] ?_⟩
    simpa using stable
  · rintro ⟨isFirst, isLast⟩
    unfold Stable at *
    rw [ok.inert first c last inert, isFirst, isLast]

/-- **A text is its own form exactly when its pieces are.** -/
theorem stable_iff_pieces (text : List Char) :
    Stable nfkc text ↔ ∀ piece ∈ pieces isInert text, Stable nfkc piece :=
  iff_forall_pieces ok.nil ok.stable_cut text

theorem stable_inert {c : Char} (inert : isInert c = true) : Stable nfkc [c] :=
  (ok.stable_cut [] c [] inert).mpr ⟨ok.nil, ok.nil⟩

theorem stable_of_mem {text : List Char} {c : Char} (isIn : c ∈ nfkc text) : Stable nfkc [c] := by
  obtain ⟨first, last, isWhole⟩ := List.append_of_mem isIn
  refine ok.substring first [c] last ?_
  rw [List.append_assoc, List.singleton_append, ← isWhole]
  exact ok.idempotent text

/-- The inert characters of a text are those of its form, where each character is its own form. -/
theorem filter_inert {text : List Char} (stable : ∀ c ∈ text, Stable nfkc [c]) :
    (nfkc text).filter isInert = text.filter isInert := by
  induction text using cut_induction isInert with
  | free text free =>
    have none := ok.keepsActive text fun c isIn => ⟨stable c isIn, free c isIn⟩
    rw [List.filter_eq_nil_iff.mpr fun c isIn => by simp [none c isIn],
      List.filter_eq_nil_iff.mpr fun c isIn => by simp [free c isIn]]
  | cut first c last free inert ih =>
    have none := ok.keepsActive first fun d isIn => ⟨stable d (by simp [isIn]), free d isIn⟩
    have ofForm : (nfkc first).filter isInert = [] :=
      List.filter_eq_nil_iff.mpr fun d isIn => by simp [none d isIn]
    have ofFirst : first.filter isInert = [] :=
      List.filter_eq_nil_iff.mpr fun d isIn => by simp [free d isIn]
    rw [ok.inert first c last inert, List.filter_append, List.filter_append,
      List.filter_cons_of_pos inert, List.filter_cons_of_pos inert, ofForm, ofFirst,
      ih fun d isIn => stable d (by simp [isIn])]

end IsNfkc

/-! ### Steps 1 to 3 -/

theorem of_mem_lineEndings {text : List Char} {c : Char} (isIn : c ∈ normalizeLineEndings text) :
    c ≠ '\r' ∧ isHardBreak c = false := by
  induction text using normalizeLineEndings.induct with
  | case1 => exact absurd isIn List.not_mem_nil
  | case2 rest ih =>
    rw [normalizeLineEndings] at isIn
    rcases List.mem_cons.mp isIn with rfl | later
    · decide
    · exact ih later
  | case3 d rest _ ih =>
    rw [normalizeLineEndings] at isIn
    · rcases List.mem_cons.mp isIn with rfl | later
      · split_ifs with isReturn isBreak
        · decide
        · decide
        · exact ⟨isReturn, by simpa using isBreak⟩
      · exact ih later
    · assumption

theorem lineEndings_eq_self {text : List Char}
    (noBreak : ∀ c ∈ text, c ≠ '\r' ∧ isHardBreak c = false) : normalizeLineEndings text = text := by
  induction text using normalizeLineEndings.induct with
  | case1 => rfl
  | case2 rest ih => exact absurd rfl (noBreak '\r' List.mem_cons_self).1
  | case3 d rest _ ih =>
    obtain ⟨isReturn, isBreak⟩ := noBreak d List.mem_cons_self
    rw [normalizeLineEndings, if_neg isReturn, isBreak, if_neg (by decide),
      ih fun c isIn => noBreak c (List.mem_cons_of_mem _ isIn)]
    assumption

variable {nfkc : List Char → List Char} {text : List Char} {c : Char}

theorem strip_eq_self (visible : ∀ c ∈ text, isInvisible c = false) : stripInvisibles text = text :=
  List.filter_eq_self.mpr fun c isIn => by simp [visible c isIn]

/-- What is known of a character that steps 1 to 3 leave. -/
structure LeftByPrepare (nfkc : List Char → List Char) (c : Char) : Prop where
  stable : Stable nfkc [c]
  visible : isInvisible c = false
  noBreak : c ≠ '\r' ∧ isHardBreak c = false
  noEllipsis : c ≠ '\u2026'
  noHyphen : c ≠ '\u2011'
  space : isWhitespace c = true → isInert c = true

theorem left_of_mem_prepare (ok : IsNfkc nfkc) (isIn : c ∈ prepare nfkc text) :
    LeftByPrepare nfkc c := by
  obtain ⟨isForm, isVisible⟩ := List.mem_filter.mp isIn
  obtain ⟨noEllipsis, noHyphen, space⟩ := ok.folds _ c isForm
  have noBreak : c ≠ '\r' ∧ isHardBreak c = false := by
    constructor
    · rintro rfl
      exact (of_mem_lineEndings (ok.introduces _ _ isForm (.inl rfl))).1 rfl
    · by_contra isBreak
      rw [Bool.not_eq_false] at isBreak
      have := (of_mem_lineEndings (ok.introduces _ _ isForm (.inr (.inl isBreak)))).2
      rw [isBreak] at this
      cases this
  refine ⟨ok.stable_of_mem isForm, by simpa using isVisible, noBreak, noEllipsis, noHyphen, ?_⟩
  intro isSpace
  rcases space isSpace with inert | isReturn | isBreak
  · exact inert
  · exact absurd isReturn noBreak.1
  · rw [noBreak.2] at isBreak
    cases isBreak

theorem prepared_prepare (ok : IsNfkc nfkc) : Prepared (prepare nfkc text) :=
  ⟨fun isIn => (left_of_mem_prepare ok isIn).noHyphen rfl,
    fun _ isIn => (left_of_mem_prepare ok isIn).space⟩

/-! ### The second run -/

/-- A character of the result is one that steps 1 to 3 leave, or an image of step 4 or 5. -/
theorem mem_tidy (isIn : c ∈ tidy text) : (∃ d ∈ text, c ∈ plainOf d) ∨ c = ' ' := by
  rw [tidy_eq] at isIn
  refine (mem_spacing _ _ (mem_of_mem_trim isIn)).imp_left fun isPlain => ?_
  rw [plain_eq] at isPlain
  exact List.mem_flatMap.mp isPlain

/-- The images of step 4 and 5 are seen, break no line and are their own forms, but for the
ellipsis. -/
theorem mem_plainOf {d : Char} (isImage : c ∈ plainOf d) : c = d ∨ c = '\u2026' ∧ d = '\u22EF' ∨
    isInert c = true ∧ isInvisible c = false ∧ c ≠ '\r' ∧ isHardBreak c = false := by
  by_cases midline : d = '\u22EF'
  · subst midline
    exact .inr (.inl ⟨List.mem_singleton.mp isImage, rfl⟩)
  by_cases hyphen : d = '\u2011'
  · subst hyphen
    rw [List.mem_singleton.mp (show c ∈ ['\u2010'] from isImage)]
    decide
  by_cases inert : isInert d = true
  · have each : ∀ d ∈ inertChars, d ≠ '\u22EF' → ∀ c ∈ plainOf d, c = d ∨
        isInert c = true ∧ isInvisible c = false ∧ c ≠ '\r' ∧ isHardBreak c = false := by decide
    exact (each d (List.contains_iff_mem.mp inert) midline c isImage).imp_right .inr
  · rw [Bool.not_eq_true] at inert
    rw [active_image inert hyphen] at isImage
    exact .inl (List.mem_singleton.mp isImage)

/-- A character of the result is seen and breaks no line but as LF. -/
theorem left_of_mem_tidy (ok : IsNfkc nfkc) (isIn : c ∈ tidy (prepare nfkc text)) :
    isInvisible c = false ∧ c ≠ '\r' ∧ isHardBreak c = false := by
  rcases mem_tidy isIn with ⟨d, isRead, isImage⟩ | rfl
  · have left := left_of_mem_prepare ok isRead
    rcases mem_plainOf isImage with rfl | ⟨rfl, -⟩ | ⟨-, known⟩
    · exact ⟨left.visible, left.noBreak⟩
    · decide
    · exact known
  · decide

theorem stable_of_mem_tidy (ok : IsNfkc nfkc) (noMidline : '\u22EF' ∉ prepare nfkc text)
    (isIn : c ∈ tidy (prepare nfkc text)) : Stable nfkc [c] := by
  rcases mem_tidy isIn with ⟨d, isRead, isImage⟩ | rfl
  · rcases mem_plainOf isImage with rfl | ⟨-, rfl⟩ | ⟨inert, -⟩
    · exact (left_of_mem_prepare ok isRead).stable
    · exact absurd isRead noMidline
    · exact ok.stable_inert inert
  · exact ok.stable_inert (by decide)

theorem prepare_tidy (ok : IsNfkc nfkc) : prepare nfkc (tidy (prepare nfkc text)) =
    stripInvisibles (nfkc (tidy (prepare nfkc text))) := by
  rw [prepare, lineEndings_eq_self fun c isIn => (left_of_mem_tidy ok isIn).2]

/-- A result in NFKC form is left by a second run. -/
theorem normalize_of_stable (ok : IsNfkc nfkc) (stable : Stable nfkc (normalize nfkc text)) :
    normalize nfkc (normalize nfkc text) = normalize nfkc text := by
  have prepares : prepare nfkc (normalize nfkc text) = normalize nfkc text := by
    rw [normalize, prepare_tidy ok]
    rw [normalize, Stable] at stable
    rw [stable, strip_eq_self fun c isIn => (left_of_mem_tidy ok isIn).1]
  have again : normalize nfkc (normalize nfkc text) = tidy (normalize nfkc text) :=
    congrArg tidy prepares
  rw [again]
  exact tidy_tidy _

theorem inert_of_invisible (hidden : isInvisible c = true) : isInert c = true := by
  simp only [isInvisible, Bool.or_eq_true, beq_iff_eq] at hidden
  rcases hidden with ((((rfl | rfl) | rfl) | rfl) | rfl) | rfl <;> decide

/-- **A text that steps 2 to 9 leave is in NFKC form.** NFKC brings no inert character in and takes
none away, the other steps only drop inert characters, and the run ends with as many. -/
theorem stable_of_left (ok : IsNfkc nfkc) (stable : ∀ c ∈ text, Stable nfkc [c])
    (settled : ∀ c ∈ text, Settled c)
    (left : ∀ c ∈ text, isInvisible c = false ∧ c ≠ '\r' ∧ isHardBreak c = false)
    (same : tidy (stripInvisibles (nfkc text)) = text) : Stable nfkc text := by
  have isInerts := ok.filter_inert stable
  have inertIn : ∀ c ∈ nfkc text, isInert c = true → c ∈ text := by
    intro c isIn inert
    have isKept := List.mem_filter.mpr ⟨isIn, inert⟩
    rw [isInerts] at isKept
    exact (List.mem_filter.mp isKept).1
  have visible : ∀ c ∈ nfkc text, isInvisible c = false := by
    intro c isIn
    by_contra hidden
    rw [Bool.not_eq_false] at hidden
    rw [(left c (inertIn c isIn (inert_of_invisible hidden))).1] at hidden
    cases hidden
  have settled' : ∀ c ∈ nfkc text, Settled c := by
    intro c isIn
    by_cases inert : isInert c = true
    · exact settled c (inertIn c isIn inert)
    · exact settled_of_active (by simpa using inert) (ok.folds text c isIn).2.1
  have spaces : ∀ c ∈ nfkc text, isWhitespace c = true → isInert c = true := by
    intro c isIn isSpace
    rcases (ok.folds text c isIn).2.2 isSpace with inert | isReturn | isBreak
    · exact inert
    · exact absurd isReturn (left c (ok.introduces text c isIn (.inl isReturn))).2.1
    · rw [(left c (ok.introduces text c isIn (.inr (.inl isBreak)))).2.2] at isBreak
      cases isBreak
  have tidied : trim (spacing.run start (nfkc text)) = text := by
    rw [strip_eq_self visible, tidy_eq, plain_eq_self settled'] at same
    exact same
  have shorter : text.Sublist (nfkc text) := by
    have dropped := (trim_sublist (spacing.run start (nfkc text))).trans
      (spacing_sublist (nfkc text) start)
    rw [tidied] at dropped
    exact dropped
  have isActive : active text = active (nfkc text) := by
    rw [← active_spacing (nfkc text) start, ← active_trim (spaces_spacing spaces start), tidied]
  have sameLength : text.length = (nfkc text).length := by
    rw [List.length_eq_length_filter_add isInert, ← isInerts, ← active, isActive, active,
      ← List.length_eq_length_filter_add]
  exact (shorter.eq_of_length sameLength).symm

/-- The ellipsis that step 4 makes is gone after a second run. -/
theorem normalize_ne_of_midline (ok : IsNfkc nfkc) (midline : '\u22EF' ∈ prepare nfkc text) :
    normalize nfkc (normalize nfkc text) ≠ normalize nfkc text := by
  have isMade : '\u2026' ∈ normalize nfkc text := by
    have isPlain : '\u2026' ∈ plain (prepare nfkc text) := by
      rw [plain_eq]
      exact List.mem_flatMap.mpr ⟨_, midline, by decide⟩
    have isActive : '\u2026' ∈ active (plain (prepare nfkc text)) :=
      List.mem_filter.mpr ⟨isPlain, by decide⟩
    rw [← active_tidy (prepared_prepare ok)] at isActive
    exact (List.mem_filter.mp isActive).1
  intro same
  rw [← same] at isMade
  rcases mem_tidy isMade with ⟨d, isRead, isImage⟩ | isSpace
  · rcases mem_plainOf isImage with rfl | ⟨-, rfl⟩ | ⟨inert, -⟩
    · exact (left_of_mem_prepare ok isRead).noEllipsis rfl
    · -- step 4 has left no midline ellipsis for NFKC to keep
      have isForm := (List.mem_filter.mp isRead).1
      have isIn := ok.introduces _ _ isForm (.inr (.inr rfl))
      rw [normalize, lineEndings_eq_self fun c isIn => (left_of_mem_tidy ok isIn).2] at isIn
      exact absurd (settled_of_mem_tidy isIn).1 (by decide)
    · exact absurd inert (by decide)
  · exact absurd isSpace (by decide)

/-- **Normalization is idempotent on a text exactly when** what steps 1 to 3 leave of it holds no
midline ellipsis and, without the blank runs between its CJK characters, is in NFKC form. -/
theorem normalize_idempotent_iff (ok : IsNfkc nfkc) (text : List Char) :
    normalize nfkc (normalize nfkc text) = normalize nfkc text ↔
      '\u22EF' ∉ prepare nfkc text ∧ Stable nfkc (closeCjkGaps (prepare nfkc text)) := by
  have closes : '\u22EF' ∉ prepare nfkc text →
      (Stable nfkc (normalize nfkc text) ↔ Stable nfkc (closeCjkGaps (prepare nfkc text))) := by
    intro noMidline
    rw [ok.stable_iff_pieces, ok.stable_iff_pieces, normalize,
      pieces_tidy (prepared_prepare ok) noMidline]
  constructor
  · intro same
    have noMidline : '\u22EF' ∉ prepare nfkc text := fun midline =>
      normalize_ne_of_midline ok midline same
    refine ⟨noMidline, (closes noMidline).mp ?_⟩
    have left : normalize nfkc (normalize nfkc text) =
        tidy (stripInvisibles (nfkc (normalize nfkc text))) := congrArg tidy (prepare_tidy ok)
    exact stable_of_left ok (fun c isIn => stable_of_mem_tidy ok noMidline isIn)
      (fun c => settled_of_mem_tidy) (fun c isIn => left_of_mem_tidy ok isIn) (left.symm.trans same)
  · rintro ⟨noMidline, stable⟩
    exact normalize_of_stable ok ((closes noMidline).mpr stable)

/-! ### A text without compositions -/

/-- A whitespace character that NFKC folds. -/
def isExoticSpace (c : Char) : Bool :=
  isWhitespace c && !(isInert c || c == '\r' || isHardBreak c)

/-- The NFKC form of a character that is folded to ASCII or left. -/
def foldChar (c : Char) : List Char :=
  if c = '\u2026' then "...".toList
  else if c = '\u2011' then ['\u2010']
  else if isExoticSpace c then [' ']
  else [c]

/-- NFKC on texts of such characters. -/
def foldChars (text : List Char) : List Char := text.flatMap foldChar

theorem foldChar_image {d : Char} (isImage : c ∈ foldChar d) : foldChar c = [c] := by
  have image := isImage
  rw [foldChar] at image
  split_ifs at image with ellipsis hyphen space
  · exact (by decide : ∀ c ∈ "...".toList, foldChar c = [c]) c image
  · rw [List.mem_singleton.mp image]; decide
  · rw [List.mem_singleton.mp image]; decide
  · rw [List.mem_singleton.mp image, foldChar, if_neg ellipsis, if_neg hyphen, if_neg space]

theorem foldChar_ne_nil (c : Char) : foldChar c ≠ [] := by
  unfold foldChar
  split_ifs <;> simp

theorem foldChars_eq_self (each : ∀ c ∈ text, foldChar c = [c]) : foldChars text = text := by
  rw [foldChars, List.flatMap_congr each]
  exact List.flatMap_singleton' text

theorem length_foldChars (text : List Char) : text.length ≤ (foldChars text).length := by
  induction text with
  | nil => exact Nat.le_refl 0
  | cons c rest ih =>
    have := List.length_pos_iff.mpr (foldChar_ne_nil c)
    rw [foldChars, List.flatMap_cons, List.length_append, List.length_cons, ← foldChars]
    omega

theorem stable_foldChars_iff (text : List Char) :
    Stable foldChars text ↔ ∀ c ∈ text, foldChar c = [c] := by
  refine ⟨fun stable => ?_, foldChars_eq_self⟩
  induction text with
  | nil => exact fun _ isIn => absurd isIn List.not_mem_nil
  | cons c rest ih =>
    have parts : foldChar c ++ foldChars rest = [c] ++ rest := stable
    have atLeast := length_foldChars rest
    have positive := List.length_pos_iff.mpr (foldChar_ne_nil c)
    have total := congrArg List.length parts
    rw [List.length_append, List.length_append, List.length_singleton] at total
    obtain ⟨isChar, isRest⟩ := List.append_inj parts (by rw [List.length_singleton]; omega)
    exact List.forall_mem_cons.mpr ⟨isChar, ih isRest⟩

theorem foldChars_append (first second : List Char) :
    foldChars (first ++ second) = foldChars first ++ foldChars second := List.flatMap_append

theorem foldChar_inert (inert : isInert c = true) : foldChar c = [c] :=
  (by decide : ∀ c ∈ inertChars, foldChar c = [c]) c (List.contains_iff_mem.mp inert)

theorem foldChars_foldChars (text : List Char) : foldChars (foldChars text) = foldChars text :=
  foldChars_eq_self fun c isIn => by
    obtain ⟨d, -, isImage⟩ := List.mem_flatMap.mp isIn
    exact foldChar_image isImage

theorem isNfkc_foldChars : IsNfkc foldChars where
  idempotent := foldChars_foldChars
  concat first second := by
    rw [foldChars_append, foldChars_append, foldChars_foldChars, foldChars_foldChars]
  substring first middle last stable := by
    rw [stable_foldChars_iff] at stable ⊢
    exact fun c isIn => stable c (by simp [isIn])
  inert first c last inert := by
    rw [foldChars_append, foldChars, foldChars, foldChars, List.flatMap_cons, foldChar_inert inert]
    rfl
  keepsActive text each := by
    have same : foldChars text = text := foldChars_eq_self fun c isIn =>
      (stable_foldChars_iff [c]).mp (each c isIn).1 c (List.mem_singleton_self c)
    rw [same]
    exact fun c isIn => (each c isIn).2
  ellipsis first last := by
    rw [List.append_assoc, foldChars_append, foldChars_append, foldChars_append]
    rfl
  hyphen first last := by
    rw [foldChars_append, foldChars_append]
    rfl
  introduces text c isIn known := by
    obtain ⟨d, isRead, isImage⟩ := List.mem_flatMap.mp isIn
    rw [foldChar] at isImage
    split_ifs at isImage
    · have each : ∀ c ∈ "...".toList, ¬ (c = '\r' ∨ isHardBreak c ∨ c = '\u22EF') := by decide
      exact absurd known (each c isImage)
    · rw [List.mem_singleton.mp isImage] at known
      exact absurd known (by decide)
    · rw [List.mem_singleton.mp isImage] at known
      exact absurd known (by decide)
    · exact List.mem_singleton.mp isImage ▸ isRead
  folds text c isIn := by
    obtain ⟨d, -, isImage⟩ := List.mem_flatMap.mp isIn
    have kept := foldChar_image isImage
    refine ⟨?_, ?_, fun isSpace => ?_⟩
    · rintro rfl
      exact absurd kept (by decide)
    · rintro rfl
      exact absurd kept (by decide)
    · by_contra exotic
      have isExotic : isExoticSpace c = true := by
        simpa [isExoticSpace, isSpace, not_or, and_assoc] using exotic
      have notSpecial : c ≠ '\u2026' ∧ c ≠ '\u2011' := by
        constructor
        · rintro rfl
          exact absurd isSpace (by decide)
        · rintro rfl
          exact absurd isSpace (by decide)
      rw [foldChar, if_neg notSpecial.1, if_neg notSpecial.2, if_pos isExotic] at kept
      obtain rfl : ' ' = c := by simpa using kept
      exact absurd isExotic (by decide)

/-- An ellipsis, a line break, a no-break space, and a blank between two CJK characters. -/
theorem normalize_idempotent_iff_ellipsis :
    normalize foldChars (normalize foldChars "a\u2026\r\n b\u00A0\u4E00 \u4E8C".toList) =
      normalize foldChars "a\u2026\r\n b\u00A0\u4E00 \u4E8C".toList := by
  refine (normalize_idempotent_iff isNfkc_foldChars _).mpr ⟨?_, ?_⟩
  · decide +kernel
  · show foldChars _ = _
    decide +kernel

/-- **The midline ellipsis becomes an ellipsis, and that three full stops.** -/
theorem midline_not_idempotent :
    ¬ ∀ nfkc, IsNfkc nfkc → ∀ text, normalize nfkc (normalize nfkc text) = normalize nfkc text := by
  intro always
  have midline : '\u22EF' ∈ prepare foldChars ['\u22EF'] := by decide
  exact normalize_ne_of_midline isNfkc_foldChars midline (always foldChars isNfkc_foldChars _)

end Bookrack.Normalize
