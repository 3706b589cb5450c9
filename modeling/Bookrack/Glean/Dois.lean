/-
The form of the DOIs a paper is given: which of the DOIs that `detect_doi` reads the audit's format
check accepts.

* `doiAccepted_iff` — the format check, on a text that starts like a DOI.
* `detectDoi_accepted_iff` — what is detected is accepted exactly when the first pattern that matches the file
  stem is matched in its canonical form, or else the stretch taken from the text names more than
  punctuation behind its slash.
-/

import Bookrack.Glean.ArxivIds
import Bookrack.Normalize.Breaks

namespace Bookrack.Glean

open Audit (UnicodeTables)
open Literal (splitFirst)
open Normalize (trim)
open Regex (Takes seq alt many group around textStart textEnd maybe Groupless groupless_many groupless_look)

variable {unicode : UnicodeTables}

/-! ### The format check -/

/-- `[-._;()/:A-Za-z0-9]` under `(?i)`. -/
def isAuditChar (c : Char) : Bool :=
  "-._;()/:".toList.contains c || c.isAlphanum || c.toNat == 0x17F || c.toNat == 0x212A

/-- The format check of `grade_doi`. -/
def doiAccepted (unicode : UnicodeTables) (doi : List Char) : Bool :=
    (Audit.Paper.doiRe unicode).isMatch (trim doi)

theorem doiInvalidFormat_mem_iff {input : Audit.Paper.PaperAuditInput}
    {profile : Audit.Paper.PaperAuditProfile} {doi : List Char}
    (isValue : input.value "doi" = some doi) :
    .doiInvalidFormat ∈ (Audit.Paper.gradeDoi unicode input profile).flags ↔
      profile.identifier.doiFormatCheck = true ∧ doiAccepted unicode doi = false := by
  simp only [Audit.Paper.gradeDoi, Audit.Paper.weakenToIf, isValue, Option.any_some,
    Graded.mem_signal (Audit.Paper.pushes_pushFlag _), Audit.Paper.not_mem_startField, List.mem_singleton,
    and_true, false_or, Bool.and_eq_true, Bool.not_eq_true', doiAccepted]

/-- `10\.\d{4,9}`. -/
def Registrant (unicode : UnicodeTables) (front : List Char) : Prop := ∃ number, front = "10.".toList ++ number ∧
  (4 ≤ number.length ∧ number.length ≤ 9) ∧ ∀ c ∈ number, unicode.isDigit c = true

theorem Registrant.noSlash (lawful : LawfulTables unicode) {front : List Char}
    (isFront : Registrant unicode front) :
    '/' ∉ front := by
  obtain ⟨number, rfl, -, isNumber⟩ := isFront
  intro member
  obtain inside | inside := List.mem_append.mp member
  · exact absurd inside (by decide)
  · exact lawful.not_digit (by decide) (by decide) (isNumber _ inside)

theorem doiRe_iff {text : List Char} : (Audit.Paper.doiRe unicode).isMatch text = true ↔ ∃ front behind,
    text = front ++ '/' :: behind ∧ Registrant unicode front ∧ behind ≠ [] ∧ ∀ c ∈ behind,
      isAuditChar c = true := by
  rw [Audit.Paper.doiRe, Regex.isMatch_textStart]
  constructor
  · rintro ⟨_, _, _, rfl, ten, _, _, _, rfl, rfl, isTen, number, _, _, _, rfl, rfl,
      ⟨rfl, isNumber, four, nine⟩, slash, _,
      _, _, rfl, rfl, isSlash, behind, _, _, _, rfl, rfl, ⟨rfl, isBehind, some, -⟩, isEnd⟩
    obtain ⟨-, rfl⟩ := takes_literal.mp isTen
    obtain ⟨-, rfl⟩ := takes_literal.mp isSlash
    obtain ⟨rfl, -, rfl⟩ := Regex.takes_textEnd.mp isEnd
    exact ⟨"10.".toList ++ number, behind, by simp, ⟨number, rfl, ⟨four, nine 9 rfl⟩, isNumber⟩,
      List.ne_nil_of_length_pos some, isBehind⟩
  · rintro ⟨_, behind, rfl, ⟨number, rfl, ⟨four, nine⟩, isNumber⟩, some, isBehind⟩
    exact ⟨_, [], [], (List.append_nil _).symm, "10.".toList, number ++ '/' :: behind, [], [],
      List.append_assoc _ _ _, rfl, takes_literal.mpr ⟨rfl, rfl⟩, number, _, [], [], rfl, rfl,
      ⟨rfl, isNumber, four, by simp [nine]⟩, ['/'], behind, [], [], rfl, rfl, takes_literal.mpr ⟨rfl, rfl⟩,
        behind, [],
      [], [], (List.append_nil _).symm, rfl, ⟨rfl, isBehind, List.length_pos_of_ne_nil some, nofun⟩, rfl, rfl,
        rfl⟩

/-- What is trimmed off a text that starts like a DOI is at its end. -/
theorem trim_registrant {front behind : List Char} (isFront : Registrant unicode front) :
    trim (front ++ '/' :: behind) = front ++ '/' :: behind.rdropWhile isWhitespace := by
  obtain ⟨number, rfl, -⟩ := isFront
  have slash : ('/' :: behind).rdropWhile isWhitespace = '/' :: behind.rdropWhile isWhitespace := by
    rw [Normalize.rdropWhile_cons, show isWhitespace '/' = false from rfl, Bool.and_false,
      if_neg Bool.false_ne_true]
  have hasText : ¬Normalize.AllSpace ('/' :: behind) := fun all =>
    absurd (all '/' List.mem_cons_self) (by decide)
  show Normalize.trimMatches isWhitespace _ = _
  rw [Normalize.trimMatches, ← slash, ← Normalize.rdropWhile_append_text _ hasText]
  rfl

/-- **The format check on a text that starts like a DOI** looks at what is behind the slash. -/
theorem doiAccepted_iff (lawful : LawfulTables unicode) {front behind : List Char}
    (isFront : Registrant unicode front) : doiAccepted unicode (front ++ '/' :: behind) = true ↔
      behind.rdropWhile isWhitespace ≠ [] ∧ ∀ c ∈ behind.rdropWhile isWhitespace, isAuditChar c = true := by
  rw [doiAccepted, trim_registrant isFront, doiRe_iff]
  constructor
  · rintro ⟨front', behind', same, isFront', accepted⟩
    obtain ⟨rfl, rfl⟩ := Literal.append_inj_of_free (isFront.noSlash lawful) (isFront'.noSlash lawful) same
    exact accepted
  · exact fun accepted => ⟨front, _, rfl, isFront, accepted⟩

/-- A text without whitespace behind the slash is accepted by its characters. -/
theorem doiAccepted_noSpace (lawful : LawfulTables unicode) {front behind : List Char}
    (isFront : Registrant unicode front) (some : behind ≠ []) (noSpace : ∀ c ∈ behind, isWhitespace c = false) :
    doiAccepted unicode (front ++ '/' :: behind) = true ↔ ∀ c ∈ behind, isAuditChar c = true := by
  have isSelf : behind.rdropWhile isWhitespace = behind := List.rdropWhile_eq_self_iff.mpr fun nonempty =>
    Bool.eq_false_iff.mp (noSpace _ (List.getLast_mem nonempty))
  rw [doiAccepted_iff lawful isFront, isSelf]
  exact and_iff_right some

/-! ### A numeric file stem -/

/-- `replace('_', "/")`. -/
def slashed (c : Char) : Char := if c = '_' then '/' else c

theorem isAuditChar_slashed (c : Char) : isAuditChar (slashed c) = isAuditChar c := by
  rw [slashed]
  split
  · rename_i isLow
    rw [isLow]
    decide
  · rfl

theorem isWhitespace_slashed (c : Char) : isWhitespace (slashed c) = isWhitespace c := by
  rw [slashed]
  split
  · rename_i isLow
    rw [isLow]
    decide
  · rfl

theorem not_space_of_isAuditChar {c : Char} (isAudit : isAuditChar c = true) : isWhitespace c = false := by
  simp only [isAuditChar, Bool.or_eq_true, beq_iff_eq] at isAudit
  obtain ((isMark | isAlphanum) | long) | kelvin := isAudit
  · revert isMark
    have marks : ∀ d ∈ "-._;()/:".toList, isWhitespace d = false := by decide
    exact fun isMark => marks c (List.contains_iff_mem.mp isMark)
  · have places : c.isAlpha = true ∨ c.isDigit = true := by
      rw [← Bool.or_eq_true]
      exact isAlphanum
    obtain isAlpha | isDigit := places
    · exact not_space_of_isLetterFold (by rw [isLetterFold, isAlpha]; rfl)
    · have code := Char.isDigit_iff_toNat.mp isDigit
      have low : 48 ≤ c.toNat ∧ c.toNat ≤ 57 := code
      simp only [isWhitespace, Bool.or_eq_false_iff, Bool.and_eq_false_iff, decide_eq_false_iff_not,
        beq_eq_false_iff_ne]
      omega
  · exact not_space_of_isLetterFold (isLetterFold_iff.mpr (.inr (.inl long)))
  · exact not_space_of_isLetterFold (isLetterFold_iff.mpr (.inr (.inr kelvin)))

/-- What `FN_DOI_NUMERIC_RE` takes. -/
def NumericStem (unicode : UnicodeTables) (stem front rest : List Char) : Prop :=
  stem = front ++ '_' :: rest ∧ Registrant unicode front ∧ rest ≠ [] ∧ ∀ c ∈ rest, (c != '\n') = true

theorem fnDoiNumeric_captures {stem : List Char} {groups : List (List Char)}
    (captured : (fnDoiNumericRe unicode).captures stem = some groups) :
    ∃ front rest, groups = [front, rest] ∧ NumericStem unicode stem front rest := by
  obtain ⟨_, _, rfl, front, _, _, _, rfl, rfl, ⟨_, rfl, isFront⟩, low, _, _, _, rfl, rfl, isLow, rest, _, _,
    _, rfl, rfl,
    ⟨_, rfl, rfl, isRest, some, -⟩, isEnd⟩ := Regex.captures_textStart_takes captured
  obtain ⟨ten, number, _, _, rfl, rfl, isTen, rfl, isNumber, four, nine⟩ := isFront
  obtain ⟨rfl, rfl⟩ := takes_literal.mp isTen
  obtain ⟨rfl, rfl⟩ := takes_literal.mp isLow
  obtain ⟨rfl, rfl, rfl⟩ := Regex.takes_textEnd.mp isEnd
  exact ⟨_, rest, rfl, by simp, ⟨number, rfl, ⟨four, nine 9 rfl⟩, isNumber⟩, List.ne_nil_of_length_pos some,
    isRest⟩

/-- `FN_DOI_NUMERIC_RE` with the characters of the format check, and with whitespace at the end. -/
def fnDoiNumericPlain (unicode : UnicodeTables) : Regex Char :=
  seq textStart (seq (seq (literal "10.") (many unicode.isDigit 4 (some 9)))
    (seq (literal "_") (seq (many isAuditChar 1 none) (seq spaces textEnd))))

theorem fnDoiNumericPlain_iff {stem : List Char} : (fnDoiNumericPlain unicode).isMatch stem = true ↔
    ∃ front rest, stem = front ++ '_' :: rest ∧ Registrant unicode front ∧ rest.rdropWhile isWhitespace ≠ [] ∧
      ∀ c ∈ rest.rdropWhile isWhitespace, isAuditChar c = true := by
  rw [fnDoiNumericPlain, Regex.isMatch_textStart]
  constructor
  · rintro ⟨_, _, _, rfl, front, _, _, _, rfl, rfl, isFront, low, _, _, _, rfl, rfl, isLow, named, _, _,
      _, rfl, rfl,
      ⟨rfl, isNamed, some, -⟩, blank, _, _, _, rfl, rfl, takesBlank, isEnd⟩
    obtain ⟨ten, number, _, _, rfl, rfl, isTen, rfl, isNumber, four, nine⟩ := isFront
    obtain ⟨-, rfl⟩ := takes_literal.mp isTen
    obtain ⟨-, rfl⟩ := takes_literal.mp isLow
    obtain ⟨-, isBlank⟩ := takes_spaces.mp takesBlank
    obtain ⟨rfl, -, rfl⟩ := Regex.takes_textEnd.mp isEnd
    have isDropped : (named ++ blank).rdropWhile isWhitespace = named := by
      rw [Normalize.rdropWhile_append_space _ isBlank, List.rdropWhile_eq_self_iff]
      exact fun nonempty => Bool.eq_false_iff.mp
        (not_space_of_isAuditChar (isNamed _ (List.getLast_mem nonempty)))
    refine ⟨_, named ++ blank, by simp, ⟨number, rfl, ⟨four, nine 9 rfl⟩, isNumber⟩, ?_⟩
    rw [isDropped]
    exact ⟨List.ne_nil_of_length_pos some, isNamed⟩
  · rintro ⟨_, rest, rfl, ⟨number, rfl, ⟨four, nine⟩, isNumber⟩, some, isNamed⟩
    refine ⟨_, [], [], (List.append_nil _).symm, "10.".toList ++ number, '_' :: rest, [], [], rfl, rfl,
      ⟨_, number, [], [], rfl, rfl, takes_literal.mpr ⟨rfl, rfl⟩, rfl, isNumber, four, by simp [nine]⟩, ['_'],
        rest, [],
      [], rfl, rfl, takes_literal.mpr ⟨rfl, rfl⟩, rest.rdropWhile isWhitespace, rest.rtakeWhile isWhitespace,
        [], [],
      List.rdropWhile_append_rtakeWhile.symm, rfl, ⟨rfl, isNamed, List.length_pos_of_ne_nil some, nofun⟩,
      rest.rtakeWhile isWhitespace, [], [], [], (List.append_nil _).symm, rfl, takes_spaces.mpr ⟨rfl, ?_⟩, rfl,
        rfl, rfl⟩
    exact fun c member => List.mem_rtakeWhile_imp member

theorem rdropWhile_map_slashed (rest : List Char) :
    (rest.map slashed).rdropWhile isWhitespace = (rest.rdropWhile isWhitespace).map slashed := by
  rw [List.rdropWhile, List.rdropWhile, ← List.map_reverse, List.dropWhile_map, List.map_reverse,
    show isWhitespace ∘ slashed = isWhitespace from funext isWhitespace_slashed]

/-- A DOI read off a numeric file stem is accepted where the canonical pattern matches the stem. -/
theorem numeric_accepted_iff (lawful : LawfulTables unicode) {stem front rest : List Char}
    (isStem : NumericStem unicode stem front rest) :
    doiAccepted unicode (front ++ '/' :: rest.map slashed) = true ↔
      (fnDoiNumericPlain unicode).isMatch stem = true := by
  obtain ⟨rfl, isFront, -, -⟩ := isStem
  have chars : (∀ c ∈ (rest.rdropWhile isWhitespace).map slashed, isAuditChar c = true) ↔
      ∀ c ∈ rest.rdropWhile isWhitespace, isAuditChar c = true := by
    simp only [List.forall_mem_map, isAuditChar_slashed]
  rw [doiAccepted_iff lawful isFront, rdropWhile_map_slashed, fnDoiNumericPlain_iff, chars, ne_eq,
    List.map_eq_nil_iff]
  have noLow {front : List Char} (isFront : Registrant unicode front) : '_' ∉ front := by
    obtain ⟨number, rfl, -, isNumber⟩ := isFront
    intro member
    obtain inside | inside := List.mem_append.mp member
    · exact absurd inside (by decide)
    · exact lawful.not_digit (by decide) (by decide) (isNumber _ inside)
  constructor
  · exact fun accepted => ⟨front, rest, rfl, isFront, accepted⟩
  · rintro ⟨front', rest', same, isFront', accepted⟩
    obtain ⟨rfl, rfl⟩ := Literal.append_inj_of_free (noLow isFront) (noLow isFront') same
    exact accepted

/-! ### File stems with a code -/

theorem isAuditChar_of_isAlphanum {c : Char} (isAlphanum : c.isAlphanum = true) : isAuditChar c = true := by
  rw [isAuditChar, isAlphanum, Bool.or_true, Bool.true_or, Bool.true_or]

/-- A digit is a character of the format check where it is an ASCII digit, also in lower case. -/
theorem isAuditChar_digit (lawful : LawfulTables unicode) {c : Char} (isDigit : unicode.isDigit c = true) :
    lowerOf c = c ∧ (isAuditChar c = true ↔ c.isDigit = true) := by
  obtain ⟨-, noLong, noKelvin⟩ := lawful.digit c isDigit
  by_cases low : c.toNat < 128
  · rw [lawful.ascii c low] at isDigit
    have code : 48 ≤ c.toNat ∧ c.toNat ≤ 57 := Char.isDigit_iff_toNat.mp isDigit
    have same : c.toLower = c := by
      rw [← Char.toNat_inj, toNat_toLower, if_neg (by omega)]
    rw [lowerOf, if_neg noKelvin, same]
    exact ⟨rfl, iff_of_true (isAuditChar_of_isAlphanum (Bool.or_eq_true_iff.mpr (.inr isDigit))) isDigit⟩
  · have same : c.toLower = c := by
      rw [← Char.toNat_inj, toNat_toLower, if_neg (by omega)]
    rw [lowerOf, if_neg noKelvin, same]
    refine ⟨rfl, iff_of_false ?_ fun isDigit => ?_⟩
    · simp only [isAuditChar, Bool.or_eq_true, beq_iff_eq, noLong, noKelvin, or_false, not_or]
      refine ⟨fun isMark => ?_, fun isAlphanum => ?_⟩
      · have marks : ∀ d ∈ "-._;()/:".toList, d.toNat < 128 := by decide
        exact low (marks c (List.contains_iff_mem.mp isMark))
      · obtain isAlpha | isDigit := Bool.or_eq_true_iff.mp isAlphanum
        · have code := isAlpha_iff_toNat.mp isAlpha
          omega
        · have code : 48 ≤ c.toNat ∧ c.toNat ≤ 57 := Char.isDigit_iff_toNat.mp isDigit
          omega
    · have code : 48 ≤ c.toNat ∧ c.toNat ≤ 57 := Char.isDigit_iff_toNat.mp isDigit
      omega

/-- A letter in lower case is a character of the format check. -/
theorem isAuditChar_lowerOf {c : Char} (isLetter : isLetterFold c = true) : isAuditChar (lowerOf c) = true := by
  rw [lowerOf]
  split
  · decide
  · rename_i noKelvin
    have code := toNat_toLower c
    obtain (upper | lower) | long | kelvin := isLetterFold_iff.mp isLetter
    · rw [if_pos upper] at code
      exact isAuditChar_of_isAlphanum (Bool.or_eq_true_iff.mpr (.inl (isAlpha_iff_toNat.mpr (.inr (by omega)))))
    · rw [if_neg (by omega)] at code
      exact isAuditChar_of_isAlphanum (Bool.or_eq_true_iff.mpr (.inl (isAlpha_iff_toNat.mpr (.inr (by omega)))))
    · rw [if_neg (by omega), long] at code
      rw [isAuditChar, code]
      simp
    · exact absurd kelvin noKelvin

theorem not_digit_of_isLetterFold (lawful : LawfulTables unicode) {c : Char} (isLetter : isLetterFold c = true) :
    unicode.isDigit c ≠ true := by
  intro isDigit
  obtain ⟨-, noLong, noKelvin⟩ := lawful.digit c isDigit
  obtain places | long | kelvin := isLetterFold_iff.mp isLetter
  · rw [lawful.ascii c (by omega)] at isDigit
    have code : 48 ≤ c.toNat ∧ c.toNat ≤ 57 := Char.isDigit_iff_toNat.mp isDigit
    omega
  · exact noLong long
  · exact noKelvin kelvin

/-- Letters and hyphens around digits: what the stems with a code are made of. -/
def Coded (unicode : UnicodeTables) (stem : List Char) : Prop :=
  stem ≠ [] ∧ ∀ c ∈ stem, isLetterFold c = true ∨ c = '-' ∨ unicode.isDigit c = true

/-- **A DOI made of a code** is accepted where the digits of the code are ASCII. -/
theorem coded_accepted_iff (lawful : LawfulTables unicode) {front path stem : List Char}
    (isFront : Registrant unicode front) (isPath : ∀ c ∈ path, isAuditChar c = true)
      (isCoded : Coded unicode stem) :
    doiAccepted unicode (front ++ '/' :: (path ++ unicode.toLowercase stem)) = true ↔
      ∀ c ∈ stem, unicode.isDigit c = true → c.isDigit = true := by
  have isLower : unicode.toLowercase stem = stem.map lowerOf := lawful.lower stem fun c member => by
    obtain isLetter | rfl | isDigit := isCoded.2 c member
    · obtain places | long | kelvin := isLetterFold_iff.mp isLetter
      · exact .inl (by omega)
      · exact .inr (.inl long)
      · exact .inr (.inr (.inl kelvin))
    · exact .inl (by decide)
    · exact .inr (.inr (.inr isDigit))
  have noSpace : ∀ c ∈ path ++ stem.map lowerOf, isWhitespace c = false := by
    refine List.forall_mem_append.mpr ⟨fun c member => not_space_of_isAuditChar (isPath c member),
      List.forall_mem_map.mpr fun c member => ?_⟩
    obtain isLetter | rfl | isDigit := isCoded.2 c member
    · exact not_space_of_isAuditChar (isAuditChar_lowerOf isLetter)
    · decide
    · rw [(isAuditChar_digit lawful isDigit).1]
      exact (lawful.digit c isDigit).1
  rw [isLower, doiAccepted_noSpace lawful isFront (by simp [isCoded.1]) noSpace, List.forall_mem_append,
    List.forall_mem_map, and_iff_right isPath]
  refine forall₂_congr fun c member => ?_
  obtain isLetter | rfl | isDigit := isCoded.2 c member
  · exact iff_of_true (isAuditChar_lowerOf isLetter) fun isDigit =>
      absurd isDigit (not_digit_of_isLetterFold lawful isLetter)
  · exact iff_of_true (by decide) fun isDigit => absurd isDigit (lawful.not_digit (by decide) (by decide))
  · rw [(isAuditChar_digit lawful isDigit).1, (isAuditChar_digit lawful isDigit).2]
    exact (imp_iff_right isDigit).symm

theorem isLetterFold_of_foldsTo {letter c : Char}
    (isLetter : 97 ≤ letter.toLower.toNat ∧ letter.toLower.toNat ≤ 122)
    (folds : foldsTo letter c = true) : isLetterFold c = true := by
  simp only [foldsTo, Bool.or_eq_true, Bool.and_eq_true, beq_iff_eq] at folds
  obtain (same | ⟨-, long⟩) | ⟨-, kelvin⟩ := folds
  · have code := toNat_toLower c
    rw [same] at code
    refine isLetterFold_iff.mpr (.inl ?_)
    split at code <;> omega
  · exact isLetterFold_iff.mpr (.inr (.inl long))
  · exact isLetterFold_iff.mpr (.inr (.inr kelvin))

/-- What `FN_ACL_RE` takes. -/
theorem fnAcl_iff {digit : Char → Bool} {stem : List Char} : (fnAclRe digit).isMatch stem = true ↔
    ∃ c volume number, stem = c :: (volume ++ '-' :: number) ∧ isLetterFold c = true ∧
      (volume.length = 2 ∧ ∀ d ∈ volume, digit d = true) ∧ (3 ≤ number.length ∧ number.length ≤ 4) ∧
        ∀ d ∈ number, digit d = true := by
  rw [fnAclRe, Regex.isMatch_textStart]
  constructor
  · rintro ⟨_, _, _, rfl, _, _, _, _, rfl, rfl, ⟨c, rfl, rfl, isLetter⟩, volume, _, _, _, rfl, rfl,
      takesVolume, mark, _,
      _, _, rfl, rfl, isMark, number, _, _, _, rfl, rfl, ⟨rfl, isNumber, three, four⟩, isEnd⟩
    obtain ⟨-, isVolume⟩ := takes_exactly.mp takesVolume
    obtain ⟨-, rfl⟩ := takes_literal.mp isMark
    obtain ⟨rfl, -, rfl⟩ := Regex.takes_textEnd.mp isEnd
    exact ⟨c, volume, number, by simp, isLetter, isVolume, ⟨three, four 4 rfl⟩, isNumber⟩
  · rintro ⟨c, volume, number, rfl, isLetter, isVolume, ⟨three, four⟩, isNumber⟩
    exact ⟨_, [], [], (List.append_nil _).symm, [c], volume ++ '-' :: number, [], [], rfl, rfl,
      ⟨c, rfl, rfl, isLetter⟩,
      volume, _, [], [], rfl, rfl, takes_exactly.mpr ⟨rfl, isVolume⟩, ['-'], number, [], [], rfl, rfl,
      takes_literal.mpr ⟨rfl, rfl⟩, number, [], [], [], (List.append_nil _).symm, rfl,
      ⟨rfl, isNumber, three, by simp [four]⟩, rfl, rfl, rfl⟩

/-- What `FN_RJ_RE` takes. -/
theorem fnRj_iff {digit : Char → Bool} {stem : List Char} : (fnRjRe digit).isMatch stem = true ↔
    ∃ code year number, stem = code ++ '-' :: (year ++ '-' :: number) ∧
      List.Forall₂ (fun letter c => foldsTo letter c = true) "RJ".toList code ∧
        (year.length = 4 ∧ ∀ d ∈ year, digit d = true) ∧ (3 ≤ number.length ∧ number.length ≤ 4) ∧
          ∀ d ∈ number, digit d = true := by
  rw [fnRjRe, Regex.isMatch_textStart]
  constructor
  · rintro ⟨_, _, _, rfl, code, _, _, _, rfl, rfl, isCode, mark, _, _, _, rfl, rfl, isMark, year, _, _,
      _, rfl, rfl,
      takesYear, mark', _, _, _, rfl, rfl, isMark', number, _, _, _, rfl, rfl, ⟨rfl, isNumber, three, four⟩,
        isEnd⟩
    obtain ⟨-, isYear⟩ := takes_exactly.mp takesYear
    obtain ⟨-, rfl⟩ := takes_literal.mp isMark
    obtain ⟨-, rfl⟩ := takes_literal.mp isMark'
    obtain ⟨rfl, -, rfl⟩ := Regex.takes_textEnd.mp isEnd
    exact ⟨code, year, number, by simp, List.forall₂_map_left_iff.mp (Regex.takes_word.mp isCode).2, isYear,
      ⟨three, four 4 rfl⟩, isNumber⟩
  · rintro ⟨code, year, number, rfl, isCode, isYear, ⟨three, four⟩, isNumber⟩
    exact ⟨_, [], [], (List.append_nil _).symm, code, '-' :: (year ++ '-' :: number), [], [], rfl, rfl,
      Regex.takes_word.mpr ⟨rfl, List.forall₂_map_left_iff.mpr isCode⟩, ['-'], _, [], [], rfl, rfl,
      takes_literal.mpr ⟨rfl, rfl⟩, year, _, [], [], rfl, rfl, takes_exactly.mpr ⟨rfl, isYear⟩, ['-'], number,
        [], [],
      rfl, rfl, takes_literal.mpr ⟨rfl, rfl⟩, number, [], [], [], (List.append_nil _).symm, rfl,
      ⟨rfl, isNumber, three, by simp [four]⟩, rfl, rfl, rfl⟩

theorem registrant_of_isDigit (lawful : LawfulTables unicode) {number : List Char}
    (few : 4 ≤ number.length ∧ number.length ≤ 9) (isNumber : ∀ c ∈ number, c.isDigit = true) :
    Registrant unicode ("10.".toList ++ number) :=
  ⟨number, rfl, few, fun c member => lawful.digit_of_isDigit (isNumber c member)⟩

/-- The DOI of an ACL code is accepted where the canonical pattern matches the stem. -/
theorem acl_accepted_iff (lawful : LawfulTables unicode) {stem : List Char}
    (isStem : (fnAclRe unicode.isDigit).isMatch stem = true) :
    doiAccepted unicode ("10.18653/v1/".toList ++ unicode.toLowercase stem) = true ↔
      (fnAclRe Char.isDigit).isMatch stem = true := by
  have isFront := @registrant_of_isDigit _ lawful "18653".toList (by decide) (by decide)
  obtain ⟨c, volume, number, rfl, isLetter, ⟨two, isVolume⟩, few, isNumber⟩ := fnAcl_iff.mp isStem
  have isCoded : Coded unicode (c :: (volume ++ '-' :: number)) := by
    refine ⟨List.cons_ne_nil _ _, List.forall_mem_cons.mpr ⟨.inl isLetter, List.forall_mem_append.mpr
      ⟨fun d member => .inr (.inr (isVolume d member)), List.forall_mem_cons.mpr ⟨.inr (.inl rfl),
        fun d member => .inr (.inr (isNumber d member))⟩⟩⟩⟩
  rw [show "10.18653/v1/".toList = "10.".toList ++ "18653".toList ++ '/' :: "v1/".toList from rfl,
    List.append_assoc,
    List.cons_append, coded_accepted_iff lawful isFront (by decide) isCoded, fnAcl_iff]
  constructor
  · intro ascii
    exact ⟨c, volume, number, rfl, isLetter, ⟨two, fun d member =>
      ascii d (by simp [member]) (isVolume d member)⟩, few,
      fun d member => ascii d (by simp [member]) (isNumber d member)⟩
  · rintro ⟨c', volume', number', same, isLetter', ⟨-, isVolume'⟩, -, isNumber'⟩ d member isDigit
    rw [same] at member
    obtain rfl | inside | rfl | inside : d = c' ∨ d ∈ volume' ∨ d = '-' ∨ d ∈ number' := by simpa using member
    · exact absurd isDigit (not_digit_of_isLetterFold lawful isLetter')
    · exact isVolume' d inside
    · exact absurd isDigit (lawful.not_digit (by decide) (by decide))
    · exact isNumber' d inside

/-- The DOI of an R Journal code is accepted where the canonical pattern matches the stem. -/
theorem rj_accepted_iff (lawful : LawfulTables unicode) {stem : List Char}
    (isStem : (fnRjRe unicode.isDigit).isMatch stem = true) :
    doiAccepted unicode ("10.32614/".toList ++ unicode.toLowercase stem) = true ↔
      (fnRjRe Char.isDigit).isMatch stem = true := by
  have isFront := @registrant_of_isDigit _ lawful "32614".toList (by decide) (by decide)
  have letters {code : List Char} (isCode : List.Forall₂ (fun letter c =>
    foldsTo letter c = true) "RJ".toList code) :
      ∀ c ∈ code, isLetterFold c = true := by
    have isCode : List.Forall₂ (fun letter c => foldsTo letter c = true) ['R', 'J'] code := isCode
    obtain ⟨r, rest, isR, isRest, rfl⟩ := List.forall₂_cons_left_iff.mp isCode
    obtain ⟨j, more, isJ, none, rfl⟩ := List.forall₂_cons_left_iff.mp isRest
    obtain rfl := List.forall₂_nil_left_iff.mp none
    exact List.forall_mem_cons.mpr ⟨isLetterFold_of_foldsTo (by decide) isR,
      List.forall_mem_singleton.mpr (isLetterFold_of_foldsTo (by decide) isJ)⟩
  obtain ⟨code, year, number, rfl, isCode, ⟨four, isYear⟩, few, isNumber⟩ := fnRj_iff.mp isStem
  have isCoded : Coded unicode (code ++ '-' :: (year ++ '-' :: number)) := by
    refine ⟨by simp, fun c member => ?_⟩
    obtain inside | rfl | inside | rfl | inside : c ∈ code ∨ c = '-' ∨ c ∈ year ∨ c = '-' ∨ c ∈ number := by
      simpa using member
    · exact .inl (letters isCode c inside)
    · exact .inr (.inl rfl)
    · exact .inr (.inr (isYear c inside))
    · exact .inr (.inl rfl)
    · exact .inr (.inr (isNumber c inside))
  rw [show "10.32614/".toList = "10.".toList ++ "32614".toList ++ '/' :: [] from rfl, List.append_assoc,
    List.cons_append, coded_accepted_iff lawful isFront (List.forall_mem_nil _) isCoded, fnRj_iff]
  constructor
  · intro ascii
    exact ⟨code, year, number, rfl, isCode, ⟨four, fun d member =>
      ascii d (by simp [member]) (isYear d member)⟩, few,
      fun d member => ascii d (by simp [member]) (isNumber d member)⟩
  · rintro ⟨code', year', number', same, isCode', ⟨-, isYear'⟩, -, isNumber'⟩ d member isDigit
    rw [same] at member
    obtain inside | rfl | inside | rfl | inside : d ∈ code' ∨ d = '-' ∨ d ∈ year' ∨ d = '-' ∨ d ∈ number' := by
      simpa using member
    · exact absurd isDigit (not_digit_of_isLetterFold lawful (letters isCode' d inside))
    · exact absurd isDigit (lawful.not_digit (by decide) (by decide))
    · exact isYear' d inside
    · exact absurd isDigit (lawful.not_digit (by decide) (by decide))
    · exact isNumber' d inside

/-- An id whose digits are ASCII. -/
def AsciiId (id : List Char) : Prop := ∀ c ∈ id, c = '.' ∨ c.isDigit = true

theorem newForm_ascii_iff (lawful : LawfulTables unicode) {id : List Char} :
    NewForm Char.isDigit Char.isDigit id ↔ NewForm unicode.isDigit unicode.isDigit id ∧ AsciiId id := by
  constructor
  · rintro ⟨year, month, number, rfl, ⟨two, isYear⟩, ⟨three, isMonth⟩, few, isNumber⟩
    refine ⟨⟨year, month, number, rfl, ⟨two, fun c member => lawful.digit_of_isDigit (isYear c member)⟩,
      ⟨three, fun c member => lawful.digit_of_isDigit (isMonth c member)⟩, few,
      fun c member => lawful.digit_of_isDigit (isNumber c member)⟩, fun c member => ?_⟩
    obtain inside | inside | rfl | inside : c ∈ year ∨ c ∈ month ∨ c = '.' ∨ c ∈ number := by simpa using member
    · exact .inr (isYear c inside)
    · exact .inr (isMonth c inside)
    · exact .inl rfl
    · exact .inr (isNumber c inside)
  · rintro ⟨⟨year, month, number, rfl, ⟨two, isYear⟩, ⟨three, isMonth⟩, few, isNumber⟩, ascii⟩
    have digit {c : Char} (isDigit : unicode.isDigit c = true) (either : c = '.' ∨ c.isDigit = true) :
      c.isDigit = true := by
      obtain rfl | isDigit := either
      · exact absurd isDigit (lawful.not_digit (by decide) (by decide))
      · exact isDigit
    exact ⟨year, month, number, rfl, ⟨two, fun c member => digit (isYear c member) (ascii c (by simp [member]))⟩,
      ⟨three, fun c member => digit (isMonth c member) (ascii c (by simp [member]))⟩, few,
      fun c member => digit (isNumber c member) (ascii c (by simp [member]))⟩

/-- The DOI of an arXiv id is accepted where the digits of the id are ASCII. -/
theorem arxivDoi_accepted_iff (lawful : LawfulTables unicode) {id : List Char}
    (form : NewForm unicode.isDigit unicode.isDigit id) :
    doiAccepted unicode ("10.48550/arxiv.".toList ++ id) = true ↔ AsciiId id := by
  have isFront := @registrant_of_isDigit _ lawful "48550".toList (by decide) (by decide)
  have chars : ∀ c ∈ id, c = '.' ∨ unicode.isDigit c = true := by
    obtain ⟨year, month, number, rfl, ⟨-, isYear⟩, ⟨-, isMonth⟩, -, isNumber⟩ := form
    intro c member
    obtain inside | inside | rfl | inside : c ∈ year ∨ c ∈ month ∨ c = '.' ∨ c ∈ number := by simpa using member
    · exact .inr (isYear c inside)
    · exact .inr (isMonth c inside)
    · exact .inl rfl
    · exact .inr (isNumber c inside)
  have noSpace : ∀ c ∈ "arxiv.".toList ++ id, isWhitespace c = false := by
    refine List.forall_mem_append.mpr ⟨by decide, fun c member => ?_⟩
    obtain rfl | isDigit := chars c member
    · decide
    · exact (lawful.digit c isDigit).1
  rw [show "10.48550/arxiv.".toList = "10.".toList ++ "48550".toList ++ '/' :: "arxiv.".toList from rfl,
    List.append_assoc, List.cons_append, doiAccepted_noSpace lawful isFront (by simp) noSpace,
      List.forall_mem_append,
    and_iff_right (by decide)]
  refine forall₂_congr fun c member => ?_
  obtain rfl | isDigit := chars c member
  · exact iff_of_true (by decide) (.inl rfl)
  · rw [(isAuditChar_digit lawful isDigit).2]
    refine (or_iff_right ?_).symm
    rintro rfl
    exact lawful.not_digit (by decide) (by decide) isDigit

/-! ### The routes of a DOI -/

variable (unicode) in
/-- Where `doi_from_filename` looks, in its order. -/
def doiRoutes (filenameStem : Option (List Char)) : List Route := filenameStem.toList.flatMap fun stem =>
  [ { pattern := fnDoiNumericRe unicode
      strict := fnDoiNumericPlain unicode
      text := stem
      read := ((fnDoiNumericRe unicode).captures stem).bind fun caps => caps.head?.bind fun front =>
        (caps[1]?).map fun rest => front ++ '/' :: rest.map slashed },
    { pattern := fnAclRe unicode.isDigit
      strict := fnAclRe Char.isDigit
      text := stem
      read := if (fnAclRe unicode.isDigit).isMatch stem then some
        ("10.18653/v1/".toList ++ unicode.toLowercase stem)
        else none },
    { pattern := fnRjRe unicode.isDigit
      strict := fnRjRe Char.isDigit
      text := stem
      read := if (fnRjRe unicode.isDigit).isMatch stem then some ("10.32614/".toList ++ unicode.toLowercase stem)
        else none },
    { pattern := fnArxivNewRe (newCore unicode.isDigit unicode.isDigit)
      strict := fnArxivNewRe (newCore Char.isDigit Char.isDigit)
      text := stem
      read := ((fnArxivNewRe (newCore unicode.isDigit unicode.isDigit)).firstGroup stem).map
        ("10.48550/arxiv.".toList ++ ·) } ]

theorem doiFromFilename_eq (filenameStem : Option (List Char)) :
    filenameStem.bind (doiFromFilename unicode) = (doiRoutes unicode filenameStem).findSome? Route.read := by
  cases filenameStem with
  | none => rfl
  | some stem =>
    simp only [doiRoutes, Option.toList_some, List.flatMap_singleton, findSome?_cons_or, List.findSome?_nil,
      Option.or_none, Option.bind_some]
    rw [doiFromFilename]
    cases captured : (fnDoiNumericRe unicode).captures stem with
    | some groups =>
      obtain ⟨front, rest, rfl, -⟩ := fnDoiNumeric_captures captured
      rfl
    | none =>
      simp only [Option.bind_none, Option.none_or]
      by_cases isAcl : (fnAclRe unicode.isDigit).isMatch stem = true
      · rw [if_pos isAcl, if_pos isAcl, Option.some_or]
      · rw [if_neg isAcl, if_neg isAcl, Option.none_or]
        by_cases isRj : (fnRjRe unicode.isDigit).isMatch stem = true
        · rw [if_pos isRj, if_pos isRj, Option.some_or]
        · rw [if_neg isRj, if_neg isRj, Option.none_or]

theorem faithful_code {good : List Char → Prop} {pattern strict : Regex Char} {stem doi : List Char}
    (isGood : (seq textStart pattern).isMatch stem = true →
      (good doi ↔ (seq textStart strict).isMatch stem = true)) :
    Route.Faithful good ⟨seq textStart pattern, seq textStart strict, stem,
      if (seq textStart pattern).isMatch stem then some doi else none⟩ := by
  refine faithful_anchored ?_ fun matched id isRead => ?_
  · split
    · rename_i matched
      exact iff_of_false (Option.some_ne_none _) fun unmatched => Bool.eq_false_iff.mp unmatched matched
    · rename_i unmatched
      exact iff_of_true rfl (Bool.eq_false_iff.mpr unmatched)
  · rw [if_pos matched] at isRead
    exact Option.some.inj isRead ▸ isGood matched

theorem faithful_numeric (lawful : LawfulTables unicode) (stem : List Char) :
    Route.Faithful (doiAccepted unicode · = true) ⟨fnDoiNumericRe unicode, fnDoiNumericPlain unicode, stem,
      ((fnDoiNumericRe unicode).captures stem).bind fun caps => caps.head?.bind fun front =>
        (caps[1]?).map fun rest => front ++ '/' :: rest.map slashed⟩ := by
  refine faithful_anchored ?_ fun matched id isRead => ?_
  · show _ ↔ (fnDoiNumericRe unicode).isMatch stem = false
    rw [← Regex.captures_eq_none]
    cases captured : (fnDoiNumericRe unicode).captures stem with
    | none => exact iff_of_true rfl rfl
    | some groups =>
      obtain ⟨front, rest, rfl, -⟩ := fnDoiNumeric_captures captured
      exact iff_of_false (Option.some_ne_none _) (Option.some_ne_none _)
  · show doiAccepted unicode id = true ↔ (fnDoiNumericPlain unicode).isMatch stem = true
    cases captured : (fnDoiNumericRe unicode).captures stem with
    | none =>
      rw [captured] at isRead
      cases isRead
    | some groups =>
      obtain ⟨front, rest, rfl, isStem⟩ := fnDoiNumeric_captures captured
      rw [captured] at isRead
      obtain rfl := Option.some.inj isRead
      exact numeric_accepted_iff lawful isStem

theorem faithful_arxivDoi (lawful : LawfulTables unicode) (stem : List Char) :
    Route.Faithful (doiAccepted unicode · = true) ⟨fnArxivNewRe (newCore unicode.isDigit unicode.isDigit),
      fnArxivNewRe (newCore Char.isDigit Char.isDigit), stem,
      ((fnArxivNewRe (newCore unicode.isDigit unicode.isDigit)).firstGroup stem).map
        ("10.48550/arxiv.".toList ++ ·)⟩ := by
  have noHead : (seq textStart (literal "arxiv-")).Groupless := (groupless_look _).seq (groupless_literal _)
  refine ⟨?_, fun doi isRead => ?_⟩
  · rw [Option.map_eq_none_iff]
    exact Regex.firstGroup_eq_none noHead (groupless_newCore _ _) (groupless_look _)
  · obtain ⟨id, captured, rfl⟩ := Option.map_eq_some_iff.mp isRead
    have ⟨⟨before, rest, takes⟩, plain_iff⟩ :=
      Regex.firstGroup_strict noHead (groupless_newCore _ _) (groupless_look _)
      AsciiId (groupless_newCore Char.isDigit Char.isDigit)
      (fun before taken rest => by rw [takes_newCore, takes_newCore, newForm_ascii_iff lawful, and_assoc])
      (fun before front inner back rest front' inner' back' rest' isHead _ isTail isHead' _ isTail' same
        isPlain => by
        obtain ⟨rfl, -, rfl⟩ := Regex.takes_textEnd.mp isTail
        obtain ⟨rfl, -, rfl⟩ := Regex.takes_textEnd.mp isTail'
        have reads := behind_fnArxiv isHead
        rw [same, behind_fnArxiv isHead'] at reads
        simp only [List.append_nil] at reads
        exact reads ▸ isPlain) captured
    exact (arxivDoi_accepted_iff lawful (takes_newCore.mp takes).2).trans plain_iff

theorem faithful_doiRoutes (lawful : LawfulTables unicode) (filenameStem : Option (List Char)) :
    ∀ route ∈ doiRoutes unicode filenameStem, route.Faithful (doiAccepted unicode · = true) := by
  intro route member
  simp only [doiRoutes, List.mem_flatMap, Option.mem_toList, List.mem_cons, List.not_mem_nil, or_false] at member
  obtain ⟨stem, -, rfl | rfl | rfl | rfl⟩ := member
  · exact faithful_numeric lawful stem
  · exact faithful_code (acl_accepted_iff lawful)
  · exact faithful_code (rj_accepted_iff lawful)
  · exact faithful_arxivDoi lawful stem

/-! ### A DOI in a text -/

/-- What `strip_trailing_punct` strips. -/
def isStripped (c : Char) : Bool := ".,;:)]\x7d\x27\x22".toList.contains c

/-- The stretch names something behind its slash. -/
def StretchPlain (stretch : List Char) : Prop :=
  ∃ parts ∈ splitFirst '/' stretch, ∃ c ∈ parts.2, isStripped c = false

/-- The first stretch of the text that is no placeholder names something behind its slash. -/
def TextPlain (unicode : UnicodeTables) (text : List Char) : Prop :=
  ∀ stretch ∈ (doiStretches unicode text).find? fun stretch =>
    !doiPlaceholderRe.isMatch (stripTrailingPunct stretch),
    StretchPlain stretch

/-- What `DOI_RE` takes. -/
theorem doiStretch_form {text stretch : List Char} (member : stretch ∈ doiStretches unicode text) :
    ∃ front behind,
    stretch = front ++ '/' :: behind ∧ Registrant unicode front ∧ behind ≠ [] ∧ ∀ c ∈ behind,
      isDoiChar c = true := by
  have took : (doiRe unicode).Took stretch := by
    obtain strict | loose := List.mem_append.mp member
    · exact Regex.took_of_mem_findIter strict
    · obtain ⟨_, -, found⟩ := List.mem_filterMap.mp loose
      exact Regex.took_of_findText found
  obtain ⟨_, _, _, ten, _, _, _, rfl, -, isTen, number, _, _, _, rfl, -, ⟨-, isNumber, four, nine⟩, slash,
    behind, _, _,
    rfl, -, isSlash, -, isBehind, some, -⟩ := took
  obtain ⟨-, rfl⟩ := takes_literal.mp isTen
  obtain ⟨-, rfl⟩ := takes_literal.mp isSlash
  exact ⟨"10.".toList ++ number, behind, by simp, ⟨number, rfl, ⟨four, nine 9 rfl⟩, isNumber⟩,
    List.ne_nil_of_length_pos some, isBehind⟩

theorem isAuditChar_of_isDoiChar {c : Char} (isDoi : isDoiChar c = true) : isAuditChar c = true := by
  rw [isDoiChar] at isDoi
  rw [isAuditChar, isDoi, Bool.true_or, Bool.true_or]

/-- Stripping stops at the slash. -/
theorem stripTrailingPunct_slash (front behind : List Char) :
    stripTrailingPunct (front ++ '/' :: behind) = front ++ '/' :: behind.rdropWhile isStripped := by
  have stop : ('/' :: behind).rdropWhile isStripped = '/' :: behind.rdropWhile isStripped := by
    rw [Normalize.rdropWhile_cons, show isStripped '/' = false by decide, Bool.and_false,
      if_neg Bool.false_ne_true]
  have stays : ('/' :: behind).reverse.dropWhile isStripped ≠ [] := fun none =>
    absurd (List.dropWhile_eq_nil_iff.mp none '/' (by simp)) (by decide)
  show (front ++ '/' :: behind).rdropWhile isStripped = _
  rw [← stop, List.rdropWhile, List.rdropWhile, List.reverse_append, List.dropWhile_append,
    if_neg (by simpa using stays),
    List.reverse_append, List.reverse_reverse]

/-- **The DOI of a stretch** is accepted where the stretch names something behind its slash. -/
theorem stretch_accepted_iff (lawful : LawfulTables unicode) {text stretch : List Char}
    (member : stretch ∈ doiStretches unicode text) :
    doiAccepted unicode (stripTrailingPunct stretch) = true ↔ StretchPlain stretch := by
  obtain ⟨front, behind, rfl, isFront, -, isBehind⟩ := doiStretch_form member
  have named : ∀ c ∈ behind.rdropWhile isStripped, isAuditChar c = true := fun c member =>
    isAuditChar_of_isDoiChar (isBehind c ((List.rdropWhile_prefix isStripped _).subset member))
  have plain_iff : StretchPlain (front ++ '/' :: behind) ↔ behind.rdropWhile isStripped ≠ [] := by
    simp [StretchPlain, Literal.splitFirst_append (isFront.noSlash lawful), List.rdropWhile_eq_nil_iff]
  rw [plain_iff, stripTrailingPunct_slash]
  constructor
  · intro accepted none
    rw [none, doiAccepted_iff lawful isFront] at accepted
    exact accepted.1 rfl
  · intro some
    rw [doiAccepted_noSpace lawful isFront some fun c member => not_space_of_isAuditChar (named c member)]
    exact named

theorem doiFromText_accepted_iff (lawful : LawfulTables unicode) (text : List Char) :
    (∀ doi ∈ doiFromText unicode text, doiAccepted unicode doi = true) ↔ TextPlain unicode text := by
  rw [doiFromText, List.find?_map, TextPlain]
  show (∀ doi ∈ ((doiStretches unicode text).find? fun stretch =>
    !doiPlaceholderRe.isMatch (stripTrailingPunct stretch)).map stripTrailingPunct, _) ↔ _
  cases found : (doiStretches unicode text).find? fun stretch =>
      !doiPlaceholderRe.isMatch (stripTrailingPunct stretch) with
  | none => exact iff_of_true (fun _ member => by cases member) (fun _ member => by cases member)
  | some stretch =>
    simp only [Option.map_some, Option.mem_some_iff, forall_eq']
    exact stretch_accepted_iff lawful (List.mem_of_find?_eq_some found)

/-- The first pattern that matches the file stem is plain; where none matches, the stretch of the text
is. -/
def DoiPlain (unicode : UnicodeTables) (metadataText filenameStem : Option (List Char)) : Prop :=
  FirstPlain (doiRoutes unicode filenameStem) ∧
    ((∀ route ∈ doiRoutes unicode filenameStem, route.pattern.isMatch route.text = false) →
      ∀ text ∈ metadataText, TextPlain unicode text)

theorem forall_or_iff {α : Type} {good : α → Prop} (one other : Option α) :
    (∀ a ∈ one.or other, good a) ↔ (∀ a ∈ one, good a) ∧ (one = none → ∀ a ∈ other, good a) := by
  cases one with
  | none => simp
  | some a => simp

/-- **The DOI that is detected is accepted** exactly when the first pattern that matches the file stem
and its canonical form match first at the same place, and, where no pattern matches the stem, the
stretch taken from the text names something behind its slash. -/
theorem detectDoi_accepted_iff (lawful : LawfulTables unicode) (metadataText filenameStem : Option (List Char)) :
    (∀ doi ∈ detectDoi unicode metadataText filenameStem, doiAccepted unicode doi = true) ↔
      DoiPlain unicode metadataText filenameStem := by
  have faithful := faithful_doiRoutes lawful filenameStem
  have unread : (doiRoutes unicode filenameStem).findSome? Route.read = none ↔
      ∀ route ∈ doiRoutes unicode filenameStem, route.pattern.isMatch route.text = false := by
    rw [List.findSome?_eq_none_iff]
    exact forall₂_congr fun route member => (faithful route member).reads
  rw [detectDoi, doiFromFilename_eq, forall_or_iff, forall_read_iff faithful, unread, DoiPlain]
  refine and_congr_right fun _ => imp_congr_right fun _ => ?_
  cases metadataText with
  | none => exact iff_of_true (fun _ member => by cases member) (fun _ member => by cases member)
  | some text => simpa using doiFromText_accepted_iff lawful text

/-- A stretch with nothing but punctuation behind its slash is detected, and the format check rejects it. -/
theorem detectDoi_accepted_paren : detectDoi asciiTables (some "10.1234/).. there".toList) none =
    some "10.1234/".toList ∧ ¬TextPlain asciiTables "10.1234/).. there".toList := by
  have detected : detectDoi asciiTables (some "10.1234/).. there".toList) none = some "10.1234/".toList := by
    decide +kernel
  refine ⟨detected, fun isPlain => ?_⟩
  have plain : DoiPlain asciiTables (some "10.1234/).. there".toList) none :=
    ⟨fun _ _ => by contradiction, fun _ text isText => by rwa [← Option.some.inj isText]⟩
  have accepted := (detectDoi_accepted_iff lawful_asciiTables _ none).mpr plain
  rw [detected] at accepted
  exact absurd (accepted _ rfl) (by decide +kernel)

end Bookrack.Glean
