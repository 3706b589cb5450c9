/-
The form of the arXiv ids a paper is given: which of the ids that the detectors read the audit's format
check accepts and `year_from_arxiv` finds a year in.

* `new_canonical` — a new-form id, where its first two digits are ASCII.
* `old_canonical` — an old-form id, where the archive is lower case without a subject class and the
  first two digits are ASCII.
* `detectArxivId_canonical_iff` — what is detected is canonical exactly when the first pattern that matches and
  its canonical form match first at the same place.
-/

import Bookrack.Base.Literal
import Bookrack.Glean.Identify
import Bookrack.Normalize.Tidy

namespace Bookrack.Glean

open Audit (UnicodeTables parseI32)
open Literal (splitFirst)
open Normalize (trim trim_eq_self)
open Regex (Takes seq alt many group around textStart textEnd maybe Groupless
  groupless_many groupless_word groupless_look)

/-! ### The tables -/

/-- `char::to_lowercase` of an ASCII character, of the two letters that fold into ASCII, and of a
digit. -/
def lowerOf (c : Char) : Char := if c.toNat = 0x212A then 'k' else c.toLower

/-- What the ids rely on of the Unicode tables. -/
structure LawfulTables (unicode : UnicodeTables) : Prop where
  ascii : ∀ c, c.toNat < 128 → unicode.isDigit c = c.isDigit
  digit : ∀ c, unicode.isDigit c = true → isWhitespace c = false ∧ c.toNat ≠ 0x17F ∧ c.toNat ≠ 0x212A
  lower : ∀ text, (∀ c ∈ text, c.toNat < 128 ∨ c.toNat = 0x17F ∨ c.toNat = 0x212A ∨ unicode.isDigit c = true) →
    unicode.toLowercase text = text.map lowerOf

/-- The tables of ASCII. -/
def asciiTables : UnicodeTables := ⟨fun text => text.map lowerOf, Char.isAlphanum, Char.isAlpha, Char.isDigit,
    Char.isDigit⟩

theorem lawful_asciiTables : LawfulTables asciiTables := by
  refine ⟨fun _ _ => rfl, fun c isDigit => ?_, fun _ _ => rfl⟩
  have code : 48 ≤ c.toNat ∧ c.toNat ≤ 57 := Char.isDigit_iff_toNat.mp isDigit
  simp only [isWhitespace, Bool.or_eq_false_iff, Bool.and_eq_false_iff, decide_eq_false_iff_not,
    beq_eq_false_iff_ne]
  omega

variable {unicode : UnicodeTables}

theorem LawfulTables.digit_of_isDigit (lawful : LawfulTables unicode) {c : Char} (isDigit : c.isDigit = true) :
    unicode.isDigit c = true := by
  have low : c.toNat < 128 := by
    have bound : c.toNat ≤ 57 := (Char.isDigit_iff_toNat.mp isDigit).2
    omega
  rw [lawful.ascii c low, isDigit]

theorem LawfulTables.not_digit (lawful : LawfulTables unicode) {c : Char} (low : c.toNat < 128)
    (other : c.isDigit = false) : unicode.isDigit c ≠ true := by
  rw [lawful.ascii c low, other]
  exact Bool.false_ne_true

/-! ### The new form -/

/-- Two digits for the year and `more` for the month and the number. -/
def NewForm (lead digit : Char → Bool) (id : List Char) : Prop := ∃ year month number,
  id = year ++ (month ++ ('.' :: number)) ∧ (year.length = 2 ∧ ∀ c ∈ year, lead c = true) ∧
    (month.length = 2 ∧ ∀ c ∈ month, digit c = true) ∧
    (4 ≤ number.length ∧ number.length ≤ 5) ∧ ∀ c ∈ number, digit c = true

theorem takes_newCore {lead digit : Char → Bool} {before : Option Char} {taken rest : List Char}
    {groups : List (List Char)} :
    (newCore lead digit).Takes before taken rest groups ↔ groups = [] ∧ NewForm lead digit taken := by
  constructor
  · rintro ⟨year, _, _, _, rfl, rfl, ⟨rfl, isYear, two, two'⟩, month, _, _, _, rfl, rfl,
      ⟨rfl, isMonth, three, three'⟩, dot, number, _, _, rfl, rfl, isDot, rfl, isNumber, four, five⟩
    obtain ⟨rfl, rfl⟩ := takes_literal.mp isDot
    exact ⟨rfl, year, month, number, rfl, ⟨Nat.le_antisymm (two' 2 rfl) two, isYear⟩,
      ⟨Nat.le_antisymm (three' 2 rfl) three, isMonth⟩, ⟨four, five 5 rfl⟩, isNumber⟩
  · rintro ⟨rfl, year, month, number, rfl, ⟨two, isYear⟩, ⟨three, isMonth⟩, ⟨four, five⟩, isNumber⟩
    exact ⟨year, _, [], [], rfl, rfl, ⟨rfl, isYear, two.ge, by simp [two]⟩, month, _, [], [], rfl, rfl,
      ⟨rfl, isMonth, three.ge, by simp [three]⟩, ['.'], number, [], [], rfl, rfl, takes_literal.mpr ⟨rfl, rfl⟩,
        rfl, isNumber,
      four, by simp [five]⟩

theorem parseI32_isSome (lawful : LawfulTables unicode) {year : List Char} (two : year.length = 2)
    (isYear : ∀ c ∈ year, unicode.isDigit c = true) :
    (parseI32 year).isSome = true ↔ ∀ c ∈ year, c.isDigit = true := by
  obtain ⟨c, d, rfl⟩ := List.length_eq_two.mp two
  have noMinus : c ≠ '-' := fun isMinus =>
    lawful.not_digit (by decide) (by decide) (isMinus ▸ isYear c List.mem_cons_self)
  have noPlus : c ≠ '+' := fun isPlus =>
    lawful.not_digit (by decide) (by decide) (isPlus ▸ isYear c List.mem_cons_self)
  rw [parseI32, Literal.readSigned, if_neg noMinus, if_neg noPlus, Literal.readDigits]
  by_cases isNumber : Literal.Digits [c, d]
  · have small : Literal.value [c, d] ≤ 99 := by
      have isC := (Char.isDigit_iff_toNat.mp (isNumber.2 c (by simp))).2
      have isD := (Char.isDigit_iff_toNat.mp (isNumber.2 d (by simp))).2
      simp only [Literal.value, Nat.ofDigitChars, List.foldl_cons, List.foldl_nil]
      simp at isC isD ⊢
      omega
    rw [if_pos isNumber, Option.map_some, Option.filter_some, if_pos (by simp; omega)]
    exact iff_of_true rfl isNumber.2
  · rw [if_neg isNumber]
    exact iff_of_false Bool.false_ne_true fun all => isNumber ⟨by simp, all⟩

/-- The format check of `grade_arxiv`. -/
def arxivAccepted (unicode : UnicodeTables) (id : List Char) : Bool :=
  (Audit.Paper.arxivNewRe unicode).isMatch (trim id) || (Audit.Paper.arxivOldRe unicode).isMatch (trim id)

theorem arxivIdInvalidFormat_mem_iff {input : Audit.Paper.PaperAuditInput}
    {profile : Audit.Paper.PaperAuditProfile} {id : List Char}
    (isValue : input.value "arxiv_id" = some id) :
    .arxivIdInvalidFormat ∈ (Audit.Paper.gradeArxiv unicode input profile).flags ↔
      profile.identifier.arxivFormatCheck = true ∧ arxivAccepted unicode id = false := by
  simp only [Audit.Paper.gradeArxiv, Audit.Paper.weakenToIf, isValue, Option.any_some,
    Graded.mem_signal (Audit.Paper.pushes_pushFlag _), Audit.Paper.not_mem_startField, List.mem_singleton,
    and_true, false_or, Bool.and_eq_true, Bool.not_eq_true', arxivAccepted, Bool.or_eq_false_iff]

/-- **A canonical id**: the format check accepts it, and a year is found in it. -/
def ArxivCanonical (unicode : UnicodeTables) (id : List Char) : Prop :=
  arxivAccepted unicode id = true ∧ (yearFromArxiv unicode id).isSome = true

/-- A text without whitespace has nothing to trim. -/
theorem trim_of_noSpace {text : List Char} (noSpace : ∀ c ∈ text, isWhitespace c = false) :
    trim text = text := by
  cases text with
  | nil => rfl
  | cons first rest =>
    exact trim_eq_self (noSpace first List.mem_cons_self) fun c isLast => noSpace c (List.mem_of_getLast? isLast)

/-- The year of the new form. -/
def YearPlain (id : List Char) : Prop := ∀ c ∈ id.take 2, c.isDigit = true

section New

variable {lead digit : Char → Bool} {id : List Char}

theorem NewForm.take_two {id : List Char} (form : NewForm lead digit id) :
    ∃ year behind, id = year ++ behind ∧ id.take 2 = year ∧ year.length = 2 ∧ ∀ c ∈ year, lead c = true := by
  obtain ⟨year, month, number, rfl, ⟨two, isYear⟩, -⟩ := form
  exact ⟨year, _, rfl, List.take_left' two, two, isYear⟩

theorem NewForm.trim (lawful : LawfulTables unicode) (form : NewForm unicode.isDigit unicode.isDigit id) :
    trim id = id := by
  obtain ⟨year, month, number, rfl, ⟨-, isYear⟩, ⟨-, isMonth⟩, -, isNumber⟩ := form
  refine trim_of_noSpace fun c member => ?_
  simp only [List.mem_append, List.mem_cons] at member
  obtain inside | inside | rfl | inside := member
  · exact (lawful.digit c (isYear c inside)).1
  · exact (lawful.digit c (isMonth c inside)).1
  · decide
  · exact (lawful.digit c (isNumber c inside)).1

theorem newRe_iff : (Audit.Paper.arxivNewRe unicode).isMatch id = true ↔
    NewForm unicode.isDigit unicode.isDigit id := by
  constructor
  · intro isMatched
    obtain ⟨_, _, _, rfl, first, _, _, _, rfl, rfl, isFirst, dot, _, _, _, rfl, rfl, isDot, number, _, _, _, rfl,
      rfl, ⟨-, isNumber, four, five⟩, isEnd⟩ := Regex.isMatch_textStart.mp isMatched
    obtain ⟨-, isFour, isDigit⟩ := takes_exactly.mp isFirst
    obtain ⟨-, rfl⟩ := takes_literal.mp isDot
    obtain ⟨rfl, -, rfl⟩ := Regex.takes_textEnd.mp isEnd
    refine ⟨first.take 2, first.drop 2, number, ?_, ⟨by simp [isFour], ?_⟩, ⟨by simp [isFour], ?_⟩,
      ⟨four, five 5 rfl⟩, isNumber⟩
    · rw [List.append_nil, List.append_nil, ← List.append_assoc (first.take 2), List.take_append_drop]
      rfl
    · exact fun c member => isDigit c (List.mem_of_mem_take member)
    · exact fun c member => isDigit c (List.mem_of_mem_drop member)
  · rintro ⟨year, month, number, rfl, ⟨two, isYear⟩, ⟨three, isMonth⟩, ⟨four, five⟩, isNumber⟩
    refine Regex.isMatch_textStart.mpr ⟨_, [], [], (List.append_nil _).symm, year ++ month, '.' :: number,
      [], [],
      (List.append_assoc _ _ _).symm, rfl, ?_, ['.'], number, [], [], rfl, rfl, takes_literal.mpr ⟨rfl, rfl⟩,
      number, [], [], [], (List.append_nil _).symm, rfl, ⟨rfl, isNumber, four, by simp [five]⟩, rfl, rfl, rfl⟩
    exact takes_exactly.mpr ⟨rfl, by simp [two, three], List.forall_mem_append.mpr ⟨isYear, isMonth⟩⟩

theorem newFmt_captures {groups : List (List Char)}
    (captured : (arxivNewFmtRe unicode).captures id = some groups) :
    groups = [id.take 2] ∧ NewForm unicode.isDigit unicode.isDigit id := by
  obtain ⟨_, _, rfl, year, _, _, _, rfl, rfl, ⟨_, rfl, takesYear⟩, month, _, _, _, rfl, rfl, takesMonth, dot,
    _, _, _, rfl,
    rfl, isDot, number, _, _, _, rfl, rfl, ⟨rfl, isNumber, four, five⟩, isEnd⟩ :=
    Regex.captures_textStart_takes captured
  obtain ⟨rfl, two, isYear⟩ := takes_exactly.mp takesYear
  obtain ⟨rfl, three, isMonth⟩ := takes_exactly.mp takesMonth
  obtain ⟨rfl, rfl⟩ := takes_literal.mp isDot
  obtain ⟨rfl, rfl, rfl⟩ := Regex.takes_textEnd.mp isEnd
  simp only [List.append_nil]
  refine ⟨?_, year, month, number, rfl, ⟨two, isYear⟩, ⟨three, isMonth⟩, ⟨four, five 5 rfl⟩, isNumber⟩
  rw [List.take_left' two]

theorem NewForm.fmt (form : NewForm unicode.isDigit unicode.isDigit id) :
    (arxivNewFmtRe unicode).firstGroup id = some (id.take 2) := by
  have ⟨groups, captured⟩ : ∃ groups, (arxivNewFmtRe unicode).captures id = some groups := by
    obtain ⟨year, month, number, rfl, ⟨two, isYear⟩, ⟨three, isMonth⟩, ⟨four, five⟩, isNumber⟩ := form
    exact Regex.captures_of_takes (List.append_nil _).symm ⟨year, month ++ '.' :: number, [year], [], rfl, rfl,
      ⟨[], rfl, takes_exactly.mpr ⟨rfl, two, isYear⟩⟩, month, '.' :: number, [], [], rfl, rfl,
      takes_exactly.mpr ⟨rfl, three, isMonth⟩, ['.'], number, [], [], rfl, rfl, takes_literal.mpr ⟨rfl, rfl⟩,
      number, [], [], [], (List.append_nil _).symm, rfl, ⟨rfl, isNumber, four, by simp [five]⟩, rfl, rfl, rfl⟩
  rw [Regex.firstGroup, captured, (newFmt_captures captured).1]
  rfl

theorem new_canonical (lawful : LawfulTables unicode) (form : NewForm unicode.isDigit unicode.isDigit id) :
    ArxivCanonical unicode id ↔ YearPlain id := by
  obtain ⟨year, behind, isId, isTake, two, isYear⟩ := form.take_two
  rw [ArxivCanonical, arxivAccepted, form.trim lawful, newRe_iff.mpr form, Bool.true_or, yearFromArxiv, form.fmt,
    YearPlain, isTake, ← parseI32_isSome lawful two isYear]
  exact (and_iff_right rfl).trans (by rw [Option.isSome_map])

end New

/-! ### The old form -/

/-- An archive, with or without a subject class. -/
def Archive (letter subclass : Char → Bool) (front : List Char) : Prop := ∃ c more class_,
  front = c :: (more ++ class_) ∧ letter c = true ∧ (∀ d ∈ more, (letter d || d == '-') = true) ∧
    (class_ = [] ∨ ∃ name, class_ = '.' :: name ∧ name ≠ [] ∧ ∀ d ∈ name, (subclass d || d == '-') = true)

/-- Two digits for the year and five more. -/
def Serial (lead digit : Char → Bool) (back : List Char) : Prop := ∃ year number,
  back = year ++ number ∧ (year.length = 2 ∧ ∀ c ∈ year, lead c = true) ∧
    number.length = 5 ∧ ∀ c ∈ number, digit c = true

theorem takes_oldCore {letter subclass lead : Char → Bool} {before : Option Char} {taken rest : List Char}
    {groups : List (List Char)} : (oldCore unicode letter subclass lead).Takes before taken rest groups ↔
      groups = [] ∧ ∃ front back, taken = front ++ '/' :: back ∧ Archive letter subclass front ∧
        Serial lead unicode.isDigit back := by
  constructor
  · rintro ⟨_, _, _, _, rfl, rfl, ⟨c, rfl, rfl, isLetter⟩, more, _, _, _, rfl, rfl, ⟨rfl, isMore, -, -⟩,
      class_, _, caught, _, rfl, rfl, isClass, slash, _, _, _, rfl, rfl, isSlash, year, number, _, _, rfl, rfl,
      isYear, isNumber⟩
    obtain ⟨rfl, rfl⟩ := takes_literal.mp isSlash
    obtain ⟨rfl, two, isYear⟩ := takes_exactly.mp isYear
    obtain ⟨rfl, five, isNumber⟩ := takes_exactly.mp isNumber
    obtain ⟨rfl, classForm⟩ : caught = [] ∧ (class_ = [] ∨ ∃ name, class_ = '.' :: name ∧ name ≠ [] ∧
        ∀ d ∈ name, (subclass d || d == '-') = true) := by
      obtain ⟨dot, name, _, _, rfl, rfl, isDot, rfl, isName, some, -⟩ | ⟨rfl, rfl, -⟩ := isClass
      · obtain ⟨rfl, rfl⟩ := takes_literal.mp isDot
        exact ⟨rfl, .inr ⟨name, rfl, List.ne_nil_of_length_pos some, isName⟩⟩
      · exact ⟨rfl, .inl rfl⟩
    exact ⟨rfl, c :: (more ++ class_), year ++ number, by simp,
      ⟨c, more, class_, rfl, isLetter, isMore, classForm⟩,
      year, number, rfl, ⟨two, isYear⟩, five, isNumber⟩
  · rintro ⟨rfl, _, _, rfl, ⟨c, more, class_, rfl, isLetter, isMore, isClass⟩, year, number, rfl,
      ⟨two, isYear⟩, five,
      isNumber⟩
    refine ⟨[c], more ++ (class_ ++ ('/' :: (year ++ number))), [], [], by simp, rfl, ⟨c, rfl, rfl, isLetter⟩,
      more, _, [], [], rfl, rfl, ⟨rfl, isMore, Nat.zero_le _, nofun⟩, class_, _, [], [], rfl, rfl, ?_,
      ['/'], year ++ number, [], [], rfl, rfl, takes_literal.mpr ⟨rfl, rfl⟩, year, number, [], [], rfl, rfl,
      takes_exactly.mpr ⟨rfl, two, isYear⟩, takes_exactly.mpr ⟨rfl, five, isNumber⟩⟩
    obtain rfl | ⟨name, rfl, some, isName⟩ := isClass
    · exact .inr ⟨rfl, rfl, rfl⟩
    · exact .inl ⟨['.'], name, [], [], rfl, rfl, takes_literal.mpr ⟨rfl, rfl⟩, rfl, isName,
        List.length_pos_of_ne_nil some, nofun⟩

theorem isLetterFold_iff {c : Char} : isLetterFold c = true ↔
    ((65 ≤ c.toNat ∧ c.toNat ≤ 90) ∨ (97 ≤ c.toNat ∧ c.toNat ≤ 122)) ∨ c.toNat = 0x17F ∨ c.toNat = 0x212A := by
  rw [isLetterFold, Bool.or_eq_true, Bool.or_eq_true, beq_iff_eq, beq_iff_eq, isAlpha_iff_toNat, or_assoc]

theorem isLetterFold_of_isLower {c : Char} (isLower : c.isLower = true) : isLetterFold c = true :=
  isLetterFold_iff.mpr (.inl (.inr (isLower_iff_toNat.mp isLower)))

theorem not_space_of_isLetterFold {c : Char} (isLetter : isLetterFold c = true) : isWhitespace c = false := by
  have places := isLetterFold_iff.mp isLetter
  simp only [isWhitespace, Bool.or_eq_false_iff, Bool.and_eq_false_iff, decide_eq_false_iff_not,
    beq_eq_false_iff_ne]
  omega

/-- The archive as the format check and the year pattern both want it. -/
def ArchivePlain (front : List Char) : Prop := ∀ c ∈ front, (c.isLower || c == '-') = true

/-- The old form as both want it. -/
def OldPlain (id : List Char) : Prop :=
  ∃ parts ∈ splitFirst '/' id, ArchivePlain parts.1 ∧ YearPlain parts.2

theorem oldPlain_iff {front back : List Char} (free : '/' ∉ front) :
    OldPlain (front ++ '/' :: back) ↔ ArchivePlain front ∧ YearPlain back := by
  simp [OldPlain, Literal.splitFirst_append free]

theorem Archive.mono {letter subclass letter' subclass' : Char → Bool} {front : List Char}
    (isArchive : Archive letter subclass front) (letters : ∀ c, letter c = true → letter' c = true)
    (subclasses : ∀ c, subclass c = true → subclass' c = true) : Archive letter' subclass' front := by
  obtain ⟨c, more, class_, rfl, isLetter, isMore, isClass⟩ := isArchive
  refine ⟨c, more, class_, rfl, letters c isLetter, fun d member => ?_, isClass.imp_right ?_⟩
  · exact Bool.or_eq_true_iff.mpr ((Bool.or_eq_true_iff.mp (isMore d member)).imp_left (letters d))
  · rintro ⟨name, rfl, some, isName⟩
    exact ⟨name, rfl, some, fun d member =>
      Bool.or_eq_true_iff.mpr ((Bool.or_eq_true_iff.mp (isName d member)).imp_left (subclasses d))⟩

section Old

variable {front back : List Char} (lawful : LawfulTables unicode)
  (isArchive : Archive isLetterFold isLetterFold front) (isSerial : Serial unicode.isDigit unicode.isDigit back)

include isArchive in
theorem Archive.all : ∀ c ∈ front, isLetterFold c = true ∨ c = '-' ∨ c = '.' := by
  obtain ⟨c, more, class_, rfl, isLetter, isMore, isClass⟩ := isArchive
  intro d member
  have either {e : Char} (fits : (isLetterFold e || e == '-') = true) : isLetterFold e = true ∨ e = '-' ∨
    e = '.' := by
    obtain letter | hyphen := Bool.or_eq_true_iff.mp fits
    · exact .inl letter
    · exact .inr (.inl (beq_iff_eq.mp hyphen))
  simp only [List.mem_cons, List.mem_append] at member
  obtain rfl | inside | inside := member
  · exact .inl isLetter
  · exact either (isMore d inside)
  · obtain rfl | ⟨name, rfl, -, isName⟩ := isClass
    · cases inside
    · obtain rfl | inside := List.mem_cons.mp inside
      · exact .inr (.inr rfl)
      · exact either (isName d inside)

include isArchive in
theorem Archive.free : '/' ∉ front := by
  intro member
  obtain letter | hyphen | dot := isArchive.all _ member
  · exact absurd letter (by decide)
  · exact absurd hyphen (by decide)
  · exact absurd dot (by decide)

include isSerial in
theorem Serial.take_two : ∃ number, back = back.take 2 ++ number ∧ (back.take 2).length = 2 ∧
    (∀ c ∈ back.take 2, unicode.isDigit c = true) ∧ number.length = 5 ∧ ∀ c ∈ number,
      unicode.isDigit c = true := by
  obtain ⟨year, number, rfl, ⟨two, isYear⟩, five, isNumber⟩ := isSerial
  rw [List.take_left' two]
  exact ⟨number, rfl, two, isYear, five, isNumber⟩

include lawful isArchive isSerial in
theorem trim_old : trim (front ++ '/' :: back) = front ++ '/' :: back := by
  refine trim_of_noSpace fun c member => ?_
  obtain inside | rfl | inside : c ∈ front ∨ c = '/' ∨ c ∈ back := by simpa using member
  · obtain letter | rfl | rfl := isArchive.all c inside
    · exact not_space_of_isLetterFold letter
    · decide
    · decide
  · decide
  · obtain ⟨year, number, rfl, ⟨-, isYear⟩, -, isNumber⟩ := isSerial
    exact (lawful.digit c ((List.mem_append.mp inside).elim (isYear c) (isNumber c))).1

include lawful in
theorem NewForm.noSlash {id : List Char} (form : NewForm unicode.isDigit unicode.isDigit id) : '/' ∉ id := by
  obtain ⟨year, month, number, rfl, ⟨-, isYear⟩, ⟨-, isMonth⟩, -, isNumber⟩ := form
  have noDigit : unicode.isDigit '/' ≠ true := lawful.not_digit (by decide) (by decide)
  intro member
  obtain inside | inside | same | inside :
      '/' ∈ year ∨ '/' ∈ month ∨ '/' = '.' ∨ '/' ∈ number := by simpa using member
  · exact noDigit (isYear _ inside)
  · exact noDigit (isMonth _ inside)
  · exact absurd same (by decide)
  · exact noDigit (isNumber _ inside)

/-- What `ARXIV_OLD_FMT_RE` takes before the slash. -/
def Dotted (front : List Char) : Prop := ∃ c more, front = c :: more ∧ c.isLower = true ∧
  ∀ d ∈ more, (d.isLower || d == '-' || d == '.') = true

theorem Dotted.free {front : List Char} (isDotted : Dotted front) : '/' ∉ front := by
  obtain ⟨c, more, rfl, isLower, isMore⟩ := isDotted
  intro member
  obtain rfl | inside := List.mem_cons.mp member
  · exact absurd isLower (by decide)
  · exact absurd (isMore _ inside) (by decide)

theorem oldFmt_captures {id : List Char} {groups : List (List Char)}
    (captured : (arxivOldFmtRe unicode).captures id = some groups) : ∃ front back,
      id = front ++ '/' :: back ∧ groups = [back.take 2] ∧ Dotted front ∧
        Serial unicode.isDigit unicode.isDigit back := by
  obtain ⟨_, _, rfl, _, _, _, _, rfl, rfl, ⟨c, rfl, rfl, isLower⟩, more, _, _, _, rfl, rfl, ⟨rfl, isMore, -, -⟩,
    slash, _, _, _, rfl, rfl, isSlash, year, _, _, _, rfl, rfl, ⟨_, rfl, takesYear⟩, number, _, _, _, rfl, rfl,
    takesNumber, isEnd⟩ := Regex.captures_textStart_takes captured
  obtain ⟨rfl, rfl⟩ := takes_literal.mp isSlash
  obtain ⟨rfl, two, isYear⟩ := takes_exactly.mp takesYear
  obtain ⟨rfl, five, isNumber⟩ := takes_exactly.mp takesNumber
  obtain ⟨rfl, rfl, rfl⟩ := Regex.takes_textEnd.mp isEnd
  refine ⟨c :: more, year ++ number, by simp, ?_, ⟨c, more, rfl, isLower, isMore⟩, year, number, rfl,
    ⟨two, isYear⟩,
    five, isNumber⟩
  rw [List.take_left' two]
  rfl

theorem Dotted.captures {front back : List Char} (isDotted : Dotted front)
    (isSerial : Serial unicode.isDigit unicode.isDigit back) :
    (arxivOldFmtRe unicode).captures (front ++ '/' :: back) = some [back.take 2] := by
  have ⟨groups, captured⟩ : ∃ groups, (arxivOldFmtRe unicode).captures (front ++ '/' :: back) = some groups := by
    obtain ⟨c, more, rfl, isLower, isMore⟩ := isDotted
    obtain ⟨year, number, rfl, ⟨two, isYear⟩, five, isNumber⟩ := isSerial
    exact Regex.captures_of_takes (List.append_nil _).symm ⟨[c], more ++ '/' :: (year ++ number), [],
      [year], rfl, rfl,
      ⟨c, rfl, rfl, isLower⟩, more, _, [], [year], rfl, rfl, ⟨rfl, isMore, Nat.zero_le _, nofun⟩, ['/'], _, [],
        [year],
      rfl, rfl, takes_literal.mpr ⟨rfl, rfl⟩, year, number, [year], [], rfl, rfl,
      ⟨[], rfl, takes_exactly.mpr ⟨rfl, two, isYear⟩⟩, number, [], [], [], (List.append_nil _).symm, rfl,
      takes_exactly.mpr ⟨rfl, five, isNumber⟩, rfl, rfl, rfl⟩
  obtain ⟨front', back', same, isGroups, isDotted', -⟩ := oldFmt_captures captured
  obtain ⟨rfl, rfl⟩ := Literal.append_inj_of_free isDotted.free isDotted'.free same
  rw [captured, isGroups]

/-- What `ARXIV_OLD_RE` takes before the slash. -/
def Audited (front : List Char) : Prop := ∃ c more class_, front = c :: (more ++ class_) ∧ c.isLower = true ∧
  (∀ d ∈ more, (d.isLower || d == '-') = true) ∧
    (class_ = [] ∨ ∃ name, class_ = '.' :: name ∧ name.length = 2 ∧ ∀ d ∈ name, d.isUpper = true)

theorem Audited.free {front : List Char} (isAudited : Audited front) : '/' ∉ front := by
  obtain ⟨c, more, class_, rfl, isLower, isMore, isClass⟩ := isAudited
  intro member
  simp only [List.mem_cons, List.mem_append] at member
  obtain rfl | inside | inside := member
  · exact absurd isLower (by decide)
  · exact absurd (isMore _ inside) (by decide)
  · obtain rfl | ⟨name, rfl, -, isName⟩ := isClass
    · cases inside
    · obtain same | inside := List.mem_cons.mp inside
      · exact absurd same (by decide)
      · exact absurd (isName _ inside) (by decide)

theorem oldRe_iff {id : List Char} : (Audit.Paper.arxivOldRe unicode).isMatch id = true ↔ ∃ front back,
    id = front ++ '/' :: back ∧ Audited front ∧ Serial unicode.isDigit unicode.isDigit back := by
  rw [Audit.Paper.arxivOldRe, Regex.isMatch_textStart]
  constructor
  · rintro ⟨_, _, _, rfl, _, _, _, _, rfl, rfl, ⟨c, rfl, rfl, isLower⟩, more, _, _, _, rfl, rfl,
      ⟨rfl, isMore, -, -⟩,
      class_, _, _, _, rfl, rfl, isClass, slash, _, _, _, rfl, rfl, isSlash, serial, _, _, _, rfl, rfl,
        takesSerial,
      isEnd⟩
    obtain ⟨-, rfl⟩ := takes_literal.mp isSlash
    obtain ⟨-, seven, isSerial⟩ := takes_exactly.mp takesSerial
    obtain ⟨rfl, -, rfl⟩ := Regex.takes_textEnd.mp isEnd
    refine ⟨c :: (more ++ class_), serial, by simp, ⟨c, more, class_, rfl, isLower, isMore, ?_⟩, serial.take 2,
      serial.drop 2, (List.take_append_drop _ _).symm, ⟨by simp [seven], ?_⟩, by simp [seven], ?_⟩
    · obtain ⟨dot, name, _, _, rfl, -, isDot, takesName⟩ | ⟨rfl, -⟩ := isClass
      · obtain ⟨-, rfl⟩ := takes_literal.mp isDot
        exact .inr ⟨name, rfl, (takes_exactly.mp takesName).2⟩
      · exact .inl rfl
    · exact fun d member => isSerial d (List.mem_of_mem_take member)
    · exact fun d member => isSerial d (List.mem_of_mem_drop member)
  · rintro ⟨_, _, rfl, ⟨c, more, class_, rfl, isLower, isMore, isClass⟩, year, number, rfl, ⟨two, isYear⟩, five,
      isNumber⟩
    refine ⟨_, [], [], (List.append_nil _).symm, [c], more ++ (class_ ++ '/' :: (year ++ number)), [], [],
      by simp, rfl, ⟨c, rfl, rfl, isLower⟩, more, _, [], [], rfl, rfl, ⟨rfl, isMore, Nat.zero_le _, nofun⟩,
      class_, _, [], [], rfl, rfl, ?_, ['/'], year ++ number, [], [], rfl, rfl, takes_literal.mpr ⟨rfl, rfl⟩,
      year ++ number, [], [], [], (List.append_nil _).symm, rfl,
      takes_exactly.mpr ⟨rfl, by simp [two, five], ?_⟩, rfl, rfl, rfl⟩
    · obtain rfl | ⟨name, rfl, isName⟩ := isClass
      · exact .inr ⟨rfl, rfl, rfl⟩
      · exact .inl ⟨['.'], name, [], [], rfl, rfl, takes_literal.mpr ⟨rfl, rfl⟩, takes_exactly.mpr ⟨rfl, isName⟩⟩
    · exact List.forall_mem_append.mpr ⟨isYear, isNumber⟩

include lawful isArchive isSerial in
theorem year_old : (yearFromArxiv unicode (front ++ '/' :: back)).isSome = true ↔ Dotted front ∧
    YearPlain back := by
  have slash : '/' ∈ front ++ '/' :: back := List.mem_append_right _ List.mem_cons_self
  have noNew : (arxivNewFmtRe unicode).captures (front ++ '/' :: back) = none :=
    Option.eq_none_iff_forall_ne_some.mpr fun groups captured =>
      (newFmt_captures captured).2.noSlash lawful slash
  obtain ⟨-, -, two, isYear, -⟩ := isSerial.take_two
  rw [yearFromArxiv, Regex.firstGroup, noNew, Option.bind_none]
  simp only [Regex.firstGroup]
  constructor
  · intro found
    cases captured : (arxivOldFmtRe unicode).captures (front ++ '/' :: back) with
    | none =>
      rw [captured] at found
      cases found
    | some groups =>
      obtain ⟨front', back', same, rfl, isDotted, -⟩ := oldFmt_captures captured
      obtain ⟨rfl, rfl⟩ := Literal.append_inj_of_free isArchive.free isDotted.free same
      rw [captured, Option.bind_some, List.head?_cons, Option.bind_some, Option.isSome_map,
        parseI32_isSome lawful two isYear] at found
      exact ⟨isDotted, found⟩
  · rintro ⟨isDotted, isPlain⟩
    rw [isDotted.captures isSerial, Option.bind_some, List.head?_cons, Option.bind_some, Option.isSome_map,
      parseI32_isSome lawful two isYear]
    exact isPlain

/-- No character of a plain archive starts a subject class. -/
theorem ArchivePlain.not_dot {front : List Char} (isPlain : ArchivePlain front) : '.' ∉ front :=
  fun member => absurd (isPlain _ member) (by decide)

include isArchive in
theorem ArchivePlain.audited (isPlain : ArchivePlain front) : Audited front := by
  obtain ⟨c, more, class_, rfl, isLetter, -, isClass⟩ := isArchive
  have noClass : class_ = [] := by
    obtain rfl | ⟨name, rfl, -⟩ := isClass
    · rfl
    · exact absurd (by simp) isPlain.not_dot
  subst noClass
  refine ⟨c, more, [], rfl, ?_, fun d member => isPlain d (by simp [member]), .inl rfl⟩
  obtain isLower | hyphen := Bool.or_eq_true_iff.mp (isPlain c List.mem_cons_self)
  · exact isLower
  · rw [beq_iff_eq.mp hyphen] at isLetter
    exact absurd isLetter (by decide)

/-- An archive that the format check and the year pattern both take is plain. -/
theorem Audited.plain {front : List Char} (isAudited : Audited front) (isDotted : Dotted front) :
    ArchivePlain front := by
  obtain ⟨c, more, class_, rfl, isLower, isMore, isClass⟩ := isAudited
  obtain ⟨_, _, isFront, -, isDotted⟩ := isDotted
  obtain ⟨rfl, rfl⟩ := List.cons.inj isFront
  have noClass : class_ = [] := by
    obtain rfl | ⟨name, rfl, two, isName⟩ := isClass
    · rfl
    · obtain ⟨d, e, rfl⟩ := List.length_eq_two.mp two
      have isUpper := isUpper_iff_toNat.mp (isName d List.mem_cons_self)
      have fits := isDotted d (by simp)
      simp only [Bool.or_eq_true, beq_iff_eq, isLower_iff_toNat] at fits
      obtain (low | rfl) | rfl := fits
      · omega
      · exact absurd isUpper (by decide)
      · exact absurd isUpper (by decide)
  subst noClass
  intro d member
  obtain rfl | inside : d = c ∨ d ∈ more := by simpa using member
  · rw [isLower, Bool.true_or]
  · exact isMore d inside

include lawful isArchive isSerial in
/-- **The canonical ids of the old form**: a lower-case archive without a subject class, and ASCII
digits for the year. -/
theorem old_canonical : ArxivCanonical unicode (front ++ '/' :: back) ↔ ArchivePlain front ∧ YearPlain back := by
  have slash : '/' ∈ front ++ '/' :: back := List.mem_append_right _ List.mem_cons_self
  have noNew : (Audit.Paper.arxivNewRe unicode).isMatch (front ++ '/' :: back) = false :=
    Bool.eq_false_iff.mpr fun isNew => (newRe_iff.mp isNew).noSlash lawful slash
  rw [ArxivCanonical, arxivAccepted, trim_old lawful isArchive isSerial, noNew, Bool.false_or,
    year_old lawful isArchive isSerial, oldRe_iff]
  constructor
  · rintro ⟨⟨front', back', same, isAudited, -⟩, isDotted, isYear⟩
    obtain ⟨rfl, rfl⟩ := Literal.append_inj_of_free isArchive.free isAudited.free same
    exact ⟨isAudited.plain isDotted, isYear⟩
  · rintro ⟨isPlain, isYear⟩
    have isAudited := isPlain.audited isArchive
    refine ⟨⟨front, back, rfl, isAudited, isSerial⟩, ?_, isYear⟩
    obtain ⟨c, more, class_, rfl, isLower, -⟩ := isAudited
    exact ⟨c, more ++ class_, rfl, isLower, fun d member => by
      rw [isPlain d (List.mem_cons_of_mem _ member), Bool.true_or]⟩

end Old

/-! ### Routes -/

/-- A pattern that is looked for in a text, its canonical form, and what is read where it matches. -/
structure Route where
  pattern : Regex Char
  strict : Regex Char
  text : List Char
  read : Option (List Char)

/-- The pattern and its canonical form match first at the same place. -/
def Route.Plain (route : Route) : Prop := route.strict.findStart route.text = route.pattern.findStart route.text

instance (route : Route) : Decidable route.Plain :=
  inferInstanceAs (Decidable (route.strict.findStart route.text = route.pattern.findStart route.text))

/-- The first route whose pattern matches is plain. -/
def FirstPlain (routes : List Route) : Prop :=
  ∀ route ∈ routes.find? fun route => route.pattern.isMatch route.text, route.Plain

instance (routes : List Route) : Decidable (FirstPlain routes) :=
  inferInstanceAs (Decidable (∀ route ∈ routes.find? fun route => route.pattern.isMatch route.text, route.Plain))

/-- A route reads where its pattern matches, and what it reads is good where it is plain. -/
structure Route.Faithful (good : List Char → Prop) (route : Route) : Prop where
  reads : route.read = none ↔ route.pattern.isMatch route.text = false
  plain : ∀ id, route.read = some id → (good id ↔ route.Plain)

/-- **The first of several faithful routes** reads something good exactly when it is plain. -/
theorem forall_read_iff {good : List Char → Prop} {routes : List Route}
    (faithful : ∀ route ∈ routes, route.Faithful good) :
    (∀ id ∈ routes.findSome? Route.read, good id) ↔ FirstPlain routes := by
  induction routes with
  | nil => exact iff_of_true (fun _ member => by cases member) (fun _ member => by cases member)
  | cons route routes ih =>
    have here := faithful route List.mem_cons_self
    rw [FirstPlain]
    cases isRead : route.read with
    | none =>
      rw [List.findSome?_cons_of_isNone (by rw [isRead]; rfl), List.find?_cons_of_neg (by
        rw [here.reads.mp isRead]; exact Bool.false_ne_true)]
      exact ih fun other member => faithful other (List.mem_cons_of_mem _ member)
    | some id =>
      have isMatched : route.pattern.isMatch route.text = true := by
        rw [← Bool.not_eq_false, ← here.reads, isRead]
        exact Option.some_ne_none id
      rw [List.findSome?_cons_of_isSome (by rw [isRead]; rfl), List.find?_cons_of_pos (by exact isMatched),
        isRead]
      simp only [Option.mem_some_iff, forall_eq']
      exact here.plain id isRead

/-- An anchored route, by whether its canonical form matches. -/
theorem faithful_anchored {good : List Char → Prop} {pattern strict : Regex Char} {text : List Char}
    {read : Option (List Char)} (reads : read = none ↔ (seq textStart pattern).isMatch text = false)
    (isGood : (seq textStart pattern).isMatch text = true → ∀ id, read = some id →
      (good id ↔ (seq textStart strict).isMatch text = true)) :
    Route.Faithful good ⟨seq textStart pattern, seq textStart strict, text, read⟩ := by
  refine ⟨reads, fun id isRead => ?_⟩
  have isRead : read = some id := isRead
  have matched : (seq textStart pattern).isMatch text = true := by
    rw [← Bool.not_eq_false, ← reads, isRead]
    exact Option.some_ne_none id
  exact (isGood matched id isRead).trans (Regex.findStart_textStart_eq_iff matched).symm

section Captured

variable {head core strict tail : Regex Char} {good : List Char → Prop} {text : List Char}
  (noHead : head.Groupless) (noCore : core.Groupless) (noTail : tail.Groupless) (noStrict : strict.Groupless)

include noHead noCore noTail noStrict in
/-- A route with one group, where what is behind the head can be told from the text and a core is plain
or not whatever follows it. -/
theorem faithful_firstGroup (plain : List Char → Prop) (behind : List Char → List Char)
    (isBehind : ∀ before front inner more, head.Takes before front (inner ++ more) [] →
      core.Takes (Regex.after before front) inner more [] → behind (front ++ (inner ++ more)) = inner ++ more)
    (plain_append : ∀ before inner more, core.Takes before inner more [] → (plain (inner ++ more) ↔ plain inner))
    (narrows : ∀ before taken rest, strict.Takes before taken rest [] ↔
      core.Takes before taken rest [] ∧ plain taken)
    (isGood : ∀ before taken rest, core.Takes before taken rest [] → (good taken ↔ plain taken)) :
    Route.Faithful good ⟨around head core tail, around head strict tail, text,
      (around head core tail).firstGroup text⟩ := by
  refine ⟨Regex.firstGroup_eq_none noHead noCore noTail, fun id captured => ?_⟩
  have ⟨⟨before, rest, takes⟩, plain_iff⟩ := Regex.firstGroup_strict noHead noCore noTail plain noStrict narrows
    (fun before front inner back rest front' inner' back' rest' isHead isCore _ isHead' isCore' _ same
      isPlain => by
      have reads := isBehind before front inner (back ++ rest) isHead isCore
      rw [same, isBehind before front' inner' (back' ++ rest') isHead' isCore'] at reads
      rw [← plain_append _ _ _ isCore', reads, plain_append _ _ _ isCore]
      exact isPlain) captured
  exact (isGood _ _ _ takes).trans plain_iff

end Captured

/-! ### Heads -/

theorem behind_arxivBanner {before : Option Char} {front inner more : List Char} {c : Char}
    (takes : arxivBanner.Takes before front (inner ++ more) []) (starts : inner.head? = some c)
    (noBreak : isBreak c = false) : ((front ++ (inner ++ more)).drop 5).dropWhile isBreak = inner ++ more := by
  obtain ⟨banner, breaks, _, _, rfl, -, isBanner, isBreaks⟩ := takes
  obtain ⟨-, isBanner⟩ := Regex.takes_word.mp isBanner
  obtain ⟨-, isBreaks, -⟩ := isBreaks
  have five : banner.length = 5 := isBanner.length_eq.symm
  obtain ⟨inner, rfl⟩ : ∃ rest, inner = c :: rest := List.head?_eq_some_iff.mp starts
  rw [List.append_assoc, List.drop_left' five, List.dropWhile_append_of_pos isBreaks, List.cons_append,
    List.dropWhile_cons_of_neg (by rw [noBreak]; exact Bool.false_ne_true)]

theorem behind_wordBoundary {isWord : Char → Bool} {before : Option Char} {front rest : List Char}
    (takes : (wordBoundary isWord).Takes before front rest []) : front = [] := takes.1

theorem behind_fnArxiv {before : Option Char} {front rest : List Char}
    (takes : (seq textStart (literal "arxiv-")).Takes before front rest []) : (front ++ rest).drop 6 = rest := by
  obtain ⟨_, name, _, _, rfl, -, ⟨rfl, -, -⟩, isName⟩ := takes
  obtain ⟨-, rfl⟩ := takes_literal.mp isName
  rfl

/-! ### Groups -/

theorem groupless_literal (letters : String) : (literal letters).Groupless := groupless_word _

theorem groupless_maybe {pattern : Regex Char} (no : pattern.Groupless) : (maybe pattern).Groupless :=
  no.alt (groupless_look _)

theorem groupless_newCore (lead digit : Char → Bool) : (newCore lead digit).Groupless :=
  (groupless_many _ _ _).seq ((groupless_many _ _ _).seq ((groupless_literal _).seq (groupless_many _ _ _)))

theorem groupless_oldCore (letter subclass lead : Char → Bool) :
    (oldCore unicode letter subclass lead).Groupless :=
  (Regex.groupless_one _).seq ((groupless_many _ _ _).seq ((groupless_maybe ((groupless_literal _).seq
    (groupless_many _ _ _))).seq ((groupless_literal _).seq
      ((groupless_many _ _ _).seq (groupless_many _ _ _)))))

theorem groupless_version (v : Char → Bool) : (version unicode v).Groupless :=
  groupless_maybe ((Regex.groupless_one _).seq (groupless_many _ _ _))

theorem groupless_arxivBanner : arxivBanner.Groupless := (groupless_word _).seq (groupless_many _ _ _)

theorem groupless_bracketSubject : bracketSubject.Groupless := by
  unfold bracketSubject
  simp only [List.foldr_cons, List.foldr_nil]
  repeat' first
    | exact groupless_literal _
    | exact groupless_many _ _ _
    | apply Groupless.alt
    | apply Groupless.seq

/-! ### Canonical cores -/

theorem NewForm.yearPlain_append {lead digit : Char → Bool} {id : List Char} (form : NewForm lead digit id)
    (more : List Char) : YearPlain (id ++ more) ↔ YearPlain id := by
  obtain ⟨year, behind, rfl, isTake, two, -⟩ := form.take_two
  rw [YearPlain, YearPlain, isTake, List.append_assoc, List.take_left' two]

theorem newForm_plain_iff (lawful : LawfulTables unicode) {id : List Char} :
    NewForm Char.isDigit unicode.isDigit id ↔ NewForm unicode.isDigit unicode.isDigit id ∧ YearPlain id := by
  constructor
  · intro form
    obtain ⟨_, _, -, isTake, -, isYear⟩ := form.take_two
    obtain ⟨year, month, number, rfl, ⟨two, isYear'⟩, later⟩ := form
    refine ⟨⟨year, month, number, rfl, ⟨two, fun c member => lawful.digit_of_isDigit (isYear' c member)⟩,
      later⟩, ?_⟩
    rw [YearPlain, isTake]
    exact isYear
  · rintro ⟨⟨year, month, number, rfl, ⟨two, -⟩, later⟩, isPlain⟩
    rw [YearPlain, List.take_left' two] at isPlain
    exact ⟨year, month, number, rfl, ⟨two, isPlain⟩, later⟩

/-- The core of an old-form id as the format check and the year pattern both take it. -/
def oldCanonicalCore (unicode : UnicodeTables) : Regex Char :=
  seq (.one Char.isLower) (seq (many (fun c => c.isLower || c == '-') 0 none)
    (seq (literal "/") (seq (many Char.isDigit 2 (some 2)) (digits unicode 5))))

theorem takes_oldCanonicalCore {before : Option Char} {taken rest : List Char} {groups : List (List Char)} :
    (oldCanonicalCore unicode).Takes before taken rest groups ↔ groups = [] ∧ ∃ c more back,
      taken = c :: more ++ '/' :: back ∧ c.isLower = true ∧ ArchivePlain more ∧
        Serial Char.isDigit unicode.isDigit back := by
  constructor
  · rintro ⟨_, _, _, _, rfl, rfl, ⟨c, rfl, rfl, isLower⟩, more, _, _, _, rfl, rfl, ⟨rfl, isMore, -, -⟩,
      slash, _, _, _, rfl, rfl, isSlash, year, number, _, _, rfl, rfl, takesYear, takesNumber⟩
    obtain ⟨rfl, rfl⟩ := takes_literal.mp isSlash
    obtain ⟨rfl, two, isYear⟩ := takes_exactly.mp takesYear
    obtain ⟨rfl, five, isNumber⟩ := takes_exactly.mp takesNumber
    exact ⟨rfl, c, more, year ++ number, rfl, isLower, isMore, year, number, rfl, ⟨two, isYear⟩, five, isNumber⟩
  · rintro ⟨rfl, c, more, _, rfl, isLower, isMore, year, number, rfl, ⟨two, isYear⟩, five, isNumber⟩
    exact ⟨[c], more ++ '/' :: (year ++ number), [], [], rfl, rfl, ⟨c, rfl, rfl, isLower⟩, more, _, [],
      [], rfl, rfl,
      ⟨rfl, isMore, Nat.zero_le _, nofun⟩, ['/'], _, [], [], rfl, rfl, takes_literal.mpr ⟨rfl, rfl⟩, year,
        number, [],
      [], rfl, rfl, takes_exactly.mpr ⟨rfl, two, isYear⟩, takes_exactly.mpr ⟨rfl, five, isNumber⟩⟩

theorem groupless_oldCanonicalCore : (oldCanonicalCore unicode).Groupless :=
  (Regex.groupless_one _).seq ((groupless_many _ _ _).seq ((groupless_literal _).seq
    ((groupless_many _ _ _).seq (groupless_many _ _ _))))

theorem Serial.yearPlain_append {lead digit : Char → Bool} {back : List Char} (isSerial : Serial lead digit back)
    (more : List Char) : YearPlain (back ++ more) ↔ YearPlain back := by
  obtain ⟨year, number, rfl, ⟨two, -⟩, -⟩ := isSerial
  rw [YearPlain, YearPlain, List.append_assoc, List.take_left' two, List.take_left' two]

theorem serial_plain_iff (lawful : LawfulTables unicode) {back : List Char} :
    Serial Char.isDigit unicode.isDigit back ↔ Serial unicode.isDigit unicode.isDigit back ∧ YearPlain back := by
  constructor
  · rintro ⟨year, number, rfl, ⟨two, isYear⟩, later⟩
    refine ⟨⟨year, number, rfl, ⟨two, fun c member => lawful.digit_of_isDigit (isYear c member)⟩, later⟩, ?_⟩
    rw [YearPlain, List.take_left' two]
    exact isYear
  · rintro ⟨⟨year, number, rfl, ⟨two, -⟩, later⟩, isPlain⟩
    rw [YearPlain, List.take_left' two] at isPlain
    exact ⟨year, number, rfl, ⟨two, isPlain⟩, later⟩

section OldCore

variable {letter subclass : Char → Bool} (letters : ∀ c, letter c = true → isLetterFold c = true)
  (subclasses : ∀ c, subclass c = true → isLetterFold c = true)
    (lowers : ∀ c, c.isLower = true → letter c = true)
include letters subclasses

theorem oldPlain_append {before : Option Char} {inner more : List Char}
    (takes : (oldCore unicode letter subclass unicode.isDigit).Takes before inner more []) :
    OldPlain (inner ++ more) ↔ OldPlain inner := by
  obtain ⟨-, front, back, rfl, isArchive, isSerial⟩ := takes_oldCore.mp takes
  have free := (isArchive.mono letters subclasses).free
  rw [List.append_assoc, List.cons_append, oldPlain_iff free, oldPlain_iff free, isSerial.yearPlain_append]

theorem arxivCanonical_old (lawful : LawfulTables unicode) {before : Option Char} {taken rest : List Char}
    (takes : (oldCore unicode letter subclass unicode.isDigit).Takes before taken rest []) :
    ArxivCanonical unicode taken ↔ OldPlain taken := by
  obtain ⟨-, front, back, rfl, isArchive, isSerial⟩ := takes_oldCore.mp takes
  have folded := isArchive.mono letters subclasses
  rw [old_canonical lawful folded isSerial, oldPlain_iff folded.free]

include lowers in
theorem oldCanonical_narrows (lawful : LawfulTables unicode) (before : Option Char) (taken rest : List Char) :
    (oldCanonicalCore unicode).Takes before taken rest [] ↔
      (oldCore unicode letter subclass unicode.isDigit).Takes before taken rest [] ∧ OldPlain taken := by
  rw [takes_oldCanonicalCore, takes_oldCore]
  constructor
  · rintro ⟨-, c, more, back, rfl, isLower, isMore, isSerial⟩
    have isArchive : Archive letter subclass (c :: more) := by
      refine ⟨c, more, [], by rw [List.append_nil], lowers c isLower, fun d member => ?_, .inl rfl⟩
      exact Bool.or_eq_true_iff.mpr ((Bool.or_eq_true_iff.mp (isMore d member)).imp_left (lowers d))
    have isPlain : ArchivePlain (c :: more) :=
      List.forall_mem_cons.mpr ⟨by rw [isLower, Bool.true_or], isMore⟩
    obtain ⟨isSerial, isYear⟩ := (serial_plain_iff lawful).mp isSerial
    exact ⟨⟨rfl, _, back, rfl, isArchive, isSerial⟩,
      (oldPlain_iff (isArchive.mono letters subclasses).free).mpr ⟨isPlain, isYear⟩⟩
  · rintro ⟨⟨-, front, back, rfl, isArchive, isSerial⟩, isPlain⟩
    have folded := isArchive.mono letters subclasses
    obtain ⟨isPlain, isYear⟩ := (oldPlain_iff folded.free).mp isPlain
    obtain ⟨c, more, class_, rfl, isLower, -⟩ := isPlain.audited folded
    exact ⟨rfl, c, more ++ class_, back, rfl, isLower, fun d member => isPlain d (List.mem_cons_of_mem _ member),
      (serial_plain_iff lawful).mpr ⟨isSerial, isYear⟩⟩

end OldCore

/-! ### The routes of an arXiv id -/

/-- What `FN_ARXIV_OLD_RE` takes, by what the first two digits are taken from. -/
def FileStem (unicode : UnicodeTables) (lead : Char → Bool) (stem cat num : List Char) : Prop :=
  stem = "arxiv-".toList ++ (cat ++ '_' :: num) ∧ (∃ c more, cat = c :: more ∧ c.isLower = true) ∧
    ArchivePlain cat ∧ Serial lead unicode.isDigit num

theorem fnArxivOld_captures {lead : Char → Bool} {stem : List Char} {groups : List (List Char)}
    (captured : (fnArxivOldRe unicode lead).captures stem = some groups) :
    ∃ cat num, groups = [cat, num] ∧ FileStem unicode lead stem cat num := by
  obtain ⟨_, _, rfl, name, _, _, _, rfl, rfl, isName, cat, _, _, _, rfl, rfl, ⟨_, rfl, isCat⟩, low, _, _,
    _, rfl, rfl,
    isLow, num, _, _, _, rfl, rfl, ⟨_, rfl, isNum⟩, isEnd⟩ := Regex.captures_textStart_takes captured
  obtain ⟨_, more, _, _, rfl, rfl, ⟨c, rfl, rfl, isLower⟩, rfl, isMore, -, -⟩ := isCat
  obtain ⟨year, number, _, _, rfl, rfl, takesYear, takesNumber⟩ := isNum
  obtain ⟨rfl, rfl⟩ := takes_literal.mp isName
  obtain ⟨rfl, rfl⟩ := takes_literal.mp isLow
  obtain ⟨rfl, two, isYear⟩ := takes_exactly.mp takesYear
  obtain ⟨rfl, five, isNumber⟩ := takes_exactly.mp takesNumber
  obtain ⟨rfl, rfl, rfl⟩ := Regex.takes_textEnd.mp isEnd
  refine ⟨[c] ++ more, year ++ number, rfl, by simp, ⟨c, more, rfl, isLower⟩, ?_, year, number, rfl,
    ⟨two, isYear⟩,
    five, isNumber⟩
  exact List.forall_mem_cons.mpr ⟨by rw [isLower, Bool.true_or], isMore⟩

theorem fnArxivOld_isMatch {lead : Char → Bool} {stem : List Char} :
    (fnArxivOldRe unicode lead).isMatch stem = true ↔ ∃ cat num, FileStem unicode lead stem cat num := by
  constructor
  · intro isMatched
    have some : (fnArxivOldRe unicode lead).captures stem ≠ none := fun none => by
      rw [Regex.captures_eq_none.mp none] at isMatched
      cases isMatched
    obtain ⟨groups, captured⟩ := Option.ne_none_iff_exists'.mp some
    obtain ⟨cat, num, -, isStem⟩ := fnArxivOld_captures captured
    exact ⟨cat, num, isStem⟩
  · rintro ⟨_, _, rfl, ⟨c, more, rfl, isLower⟩, isPlain, year, number, rfl, ⟨two, isYear⟩, five, isNumber⟩
    refine Regex.isMatch_textStart.mpr ⟨_, [], [c :: more, year ++ number], (List.append_nil _).symm,
      "arxiv-".toList, (c :: more) ++ '_' :: (year ++ number), [], _, rfl, rfl, takes_literal.mpr ⟨rfl, rfl⟩,
      c :: more, '_' :: (year ++ number), [c :: more], [year ++ number], rfl, rfl, ⟨[], rfl, ?_⟩,
      ['_'], year ++ number, [], _, rfl, rfl, takes_literal.mpr ⟨rfl, rfl⟩, year ++ number, [],
        [year ++ number], [],
      (List.append_nil _).symm, rfl, ⟨[], rfl, ?_⟩, rfl, rfl, rfl⟩
    · exact ⟨[c], more, [], [], rfl, rfl, ⟨c, rfl, rfl, isLower⟩, rfl,
        fun d member => isPlain d (List.mem_cons_of_mem _ member), Nat.zero_le _, nofun⟩
    · exact ⟨year, number, [], [], rfl, rfl, takes_exactly.mpr ⟨rfl, two, isYear⟩,
        takes_exactly.mpr ⟨rfl, five, isNumber⟩⟩

theorem ArchivePlain.noLow {front : List Char} (isPlain : ArchivePlain front) : '_' ∉ front :=
  fun member => absurd (isPlain _ member) (by decide)

variable (unicode) (isWord : Char → Bool)

/-- A new-form id, by the pattern around its core. -/
def newRoute (pattern : Regex Char → Regex Char) (text : List Char) : Route where
  pattern := pattern (newCore unicode.isDigit unicode.isDigit)
  strict := pattern (newCore Char.isDigit unicode.isDigit)
  text := text
  read := (pattern (newCore unicode.isDigit unicode.isDigit)).firstGroup text

/-- An old-form id, by its core and the pattern around it. -/
def oldRoute (core : Regex Char) (pattern : Regex Char → Regex Char) (text : List Char) : Route where
  pattern := pattern core
  strict := pattern (oldCanonicalCore unicode)
  text := text
  read := (pattern core).firstGroup text

/-- An old-form id in a file stem. -/
def stemRoute (stem : List Char) : Route where
  pattern := fnArxivOldRe unicode unicode.isDigit
  strict := fnArxivOldRe unicode Char.isDigit
  text := stem
  read := ((fnArxivOldRe unicode unicode.isDigit).captures stem).bind fun caps =>
    caps.head?.bind fun cat => (caps[1]?).map fun num => cat ++ '/' :: num

/-- Where `detect_arxiv_id` looks, in its order. -/
def arxivRoutes (infoTitle metadataText filenameStem : Option (List Char)) : List Route :=
  (filenameStem.toList.flatMap fun stem => [newRoute unicode fnArxivNewRe stem, stemRoute unicode stem]) ++
  ((infoTitle.toList.flatMap fun title => [newRoute unicode (arxivNewPrefixedRe unicode) title,
    oldRoute unicode (oldCoreFold unicode) (arxivOldPrefixedRe unicode) title,
    oldRoute unicode (oldCoreRaw unicode) (arxivOldRawInTitleRe unicode isWord) title]) ++
  metadataText.toList.flatMap fun text => [newRoute unicode (arxivNewPrefixedRe unicode) text,
    newRoute unicode (arxivNewBracketRe unicode isWord) text,
    oldRoute unicode (oldCoreFold unicode) (arxivOldPrefixedRe unicode) text])

theorem findSome?_cons_or {α β : Type} (read : α → Option β) (one : α) (more : List α) :
    (one :: more).findSome? read = (read one).or (more.findSome? read) := by
  rw [List.findSome?_cons]
  cases read one <;> rfl

theorem detectArxivId_eq (infoTitle metadataText filenameStem : Option (List Char)) :
    detectArxivId unicode isWord infoTitle metadataText filenameStem =
      (arxivRoutes unicode isWord infoTitle metadataText filenameStem).findSome? Route.read := by
  rw [arxivRoutes, List.findSome?_append, List.findSome?_append, detectArxivId, Option.or_assoc]
  congr 1
  · cases filenameStem with
    | none => rfl
    | some stem =>
      simp only [Option.toList_some, List.flatMap_singleton, findSome?_cons_or, List.findSome?_nil,
        Option.or_none]
      rfl
  congr 1
  · cases infoTitle with
    | none => rfl
    | some title =>
      simp only [Option.toList_some, List.flatMap_singleton, findSome?_cons_or, List.findSome?_nil,
        Option.or_none,
        ← Option.or_assoc]
      rfl
  · cases metadataText with
    | none => rfl
    | some text =>
      simp only [Option.toList_some, List.flatMap_singleton, findSome?_cons_or, List.findSome?_nil,
        Option.or_none,
        ← Option.or_assoc]
      rfl

variable {unicode} {isWord}

/-- A place where a new-form id starts is no break. -/
theorem NewForm.starts (lawful : LawfulTables unicode) {id : List Char}
    (form : NewForm unicode.isDigit unicode.isDigit id) : ∃ c, id.head? = some c ∧ isBreak c = false := by
  obtain ⟨year, month, number, rfl, ⟨two, isYear⟩, -⟩ := form
  obtain ⟨c, d, rfl⟩ := List.length_eq_two.mp two
  have isDigit := isYear c List.mem_cons_self
  refine ⟨c, rfl, Bool.or_eq_false_iff.mpr ⟨?_, (lawful.digit c isDigit).1⟩⟩
  rw [beq_eq_false_iff_ne]
  rintro rfl
  exact lawful.not_digit (by decide) (by decide) isDigit

/-- A place where an old-form id starts is no break. -/
theorem Archive.starts {front back : List Char} (isArchive : Archive isLetterFold isLetterFold front) :
    ∃ c, (front ++ '/' :: back).head? = some c ∧ isBreak c = false := by
  obtain ⟨c, more, class_, rfl, isLetter, -⟩ := isArchive
  refine ⟨c, rfl, Bool.or_eq_false_iff.mpr ⟨?_, not_space_of_isLetterFold isLetter⟩⟩
  rw [beq_eq_false_iff_ne]
  rintro rfl
  exact absurd isLetter (by decide)

section Faithful

variable (lawful : LawfulTables unicode) {head tail : Regex Char} {text : List Char}
  (noHead : head.Groupless) (noTail : tail.Groupless)
include lawful noHead noTail

theorem faithful_new (behind : List Char → List Char)
    (isBehind : ∀ before front inner more, head.Takes before front (inner ++ more) [] →
      (∃ c, inner.head? = some c ∧ isBreak c = false) → behind (front ++ (inner ++ more)) = inner ++ more) :
    (newRoute unicode (fun core => around head core tail) text).Faithful (ArxivCanonical unicode) := by
  refine faithful_firstGroup noHead (groupless_newCore _ _) noTail (groupless_newCore _ _) YearPlain behind
    (fun before front inner more isHead isCore => isBehind before front inner more isHead
      ((takes_newCore.mp isCore).2.starts lawful))
    (fun _ _ more isCore => (takes_newCore.mp isCore).2.yearPlain_append more) (fun _ _ _ => ?_)
    fun _ _ _ isCore => new_canonical lawful (takes_newCore.mp isCore).2
  rw [takes_newCore, takes_newCore, newForm_plain_iff lawful, and_assoc]

theorem faithful_old {letter subclass : Char → Bool} (letters : ∀ c, letter c = true → isLetterFold c = true)
    (subclasses : ∀ c, subclass c = true → isLetterFold c = true)
      (lowers : ∀ c, c.isLower = true → letter c = true)
    (behind : List Char → List Char)
    (isBehind : ∀ before front inner more, head.Takes before front (inner ++ more) [] →
      (∃ c, inner.head? = some c ∧ isBreak c = false) → behind (front ++ (inner ++ more)) = inner ++ more) :
    (oldRoute unicode (oldCore unicode letter subclass unicode.isDigit) (fun core => around head core tail)
      text).Faithful (ArxivCanonical unicode) := by
  refine faithful_firstGroup noHead (groupless_oldCore _ _ _) noTail groupless_oldCanonicalCore OldPlain
    behind (fun before front inner more isHead isCore => ?_) (fun _ _ _ => oldPlain_append letters subclasses)
    (oldCanonical_narrows letters subclasses lowers lawful) fun _ _ _ =>
      arxivCanonical_old letters subclasses lawful
  obtain ⟨-, archive, serial, rfl, isArchive, -⟩ := takes_oldCore.mp isCore
  exact isBehind before front _ more isHead (isArchive.mono letters subclasses).starts

end Faithful

theorem faithful_stem (lawful : LawfulTables unicode) (stem : List Char) :
    (stemRoute unicode stem).Faithful (ArxivCanonical unicode) := by
  have reads {groups : List (List Char)} (captured : (fnArxivOldRe unicode unicode.isDigit).captures stem =
    some groups) :
      ∃ cat num, (stemRoute unicode stem).read = some (cat ++ '/' :: num) ∧
        FileStem unicode unicode.isDigit stem cat num := by
    obtain ⟨cat, num, rfl, isStem⟩ := fnArxivOld_captures captured
    exact ⟨cat, num, by rw [stemRoute, captured]; rfl, isStem⟩
  refine faithful_anchored ?_ fun matched id isRead => ?_
  · show (stemRoute unicode stem).read = none ↔ (fnArxivOldRe unicode unicode.isDigit).isMatch stem = false
    rw [← Regex.captures_eq_none]
    cases captured : (fnArxivOldRe unicode unicode.isDigit).captures stem with
    | none => exact iff_of_true (by rw [stemRoute, captured]; rfl) rfl
    | some groups =>
      obtain ⟨cat, num, isRead, -⟩ := reads captured
      rw [isRead]
      exact iff_of_false (Option.some_ne_none _) (Option.some_ne_none _)
  · show ArxivCanonical unicode id ↔ (fnArxivOldRe unicode Char.isDigit).isMatch stem = true
    have some : (fnArxivOldRe unicode unicode.isDigit).captures stem ≠ none := fun none =>
      absurd matched (Bool.eq_false_iff.mp (Regex.captures_eq_none.mp none))
    obtain ⟨groups, captured⟩ := Option.ne_none_iff_exists'.mp some
    obtain ⟨cat, num, isRead', isStem⟩ := reads captured
    obtain rfl := Option.some.inj (isRead'.symm.trans isRead)
    rw [fnArxivOld_isMatch]
    obtain ⟨rfl, ⟨c, more, rfl, isLower⟩, isPlain, isSerial⟩ := isStem
    have isArchive : Archive isLetterFold isLetterFold (c :: more) := by
      refine ⟨c, more, [], by rw [List.append_nil], isLetterFold_of_isLower isLower, fun d member => ?_,
        .inl rfl⟩
      exact Bool.or_eq_true_iff.mpr ((Bool.or_eq_true_iff.mp
        (isPlain d (List.mem_cons_of_mem _ member))).imp_left
        isLetterFold_of_isLower)
    rw [old_canonical lawful isArchive isSerial]
    constructor
    · rintro ⟨-, isYear⟩
      exact ⟨_, num, rfl, ⟨c, more, rfl, isLower⟩, isPlain, (serial_plain_iff lawful).mpr ⟨isSerial, isYear⟩⟩
    · rintro ⟨cat', num', same, -, isPlain', isSerial'⟩
      obtain ⟨rfl, rfl⟩ := Literal.append_inj_of_free isPlain.noLow isPlain'.noLow (List.append_cancel_left same)
      exact ⟨isPlain, ((serial_plain_iff lawful).mp isSerial').2⟩

theorem faithful_arxivRoutes (lawful : LawfulTables unicode)
    (infoTitle metadataText filenameStem : Option (List Char)) :
    ∀ route ∈ arxivRoutes unicode isWord infoTitle metadataText filenameStem,
      route.Faithful (ArxivCanonical unicode) := by
  have stem {text : List Char} : (newRoute unicode fnArxivNewRe text).Faithful (ArxivCanonical unicode) :=
    faithful_new lawful ((groupless_look _).seq (groupless_literal _)) (groupless_look _) (List.drop 6)
      fun _ _ _ _ takes _ => behind_fnArxiv takes
  have prefixed {text : List Char} :
      (newRoute unicode (arxivNewPrefixedRe unicode) text).Faithful (ArxivCanonical unicode) :=
    faithful_new lawful groupless_arxivBanner (groupless_version _) (fun text => (text.drop 5).dropWhile isBreak)
      fun _ _ _ _ takes ⟨_, starts, noBreak⟩ => behind_arxivBanner takes starts noBreak
  have bracket {text : List Char} :
      (newRoute unicode (arxivNewBracketRe unicode isWord) text).Faithful (ArxivCanonical unicode) :=
    faithful_new lawful (groupless_look _) ((groupless_version _).seq ((groupless_many _ _ _).seq
      ((groupless_literal _).seq groupless_bracketSubject))) id fun _ _ _ _ takes _ => by
        rw [behind_wordBoundary takes]
        rfl
  have oldPrefixed {text : List Char} :
      (oldRoute unicode (oldCoreFold unicode) (arxivOldPrefixedRe unicode) text).Faithful
        (ArxivCanonical unicode) :=
    faithful_old lawful groupless_arxivBanner (groupless_version _) (fun _ isLetter => isLetter)
      (fun _ isLetter => isLetter) (fun _ => isLetterFold_of_isLower)
      (fun text => (text.drop 5).dropWhile isBreak)
      fun _ _ _ _ takes ⟨_, starts, noBreak⟩ => behind_arxivBanner takes starts noBreak
  have oldRaw {text : List Char} :
      (oldRoute unicode (oldCoreRaw unicode) (arxivOldRawInTitleRe unicode isWord) text).Faithful
        (ArxivCanonical unicode) :=
    faithful_old lawful (groupless_look _) ((groupless_version _).seq (groupless_look _))
      (fun _ => isLetterFold_of_isLower) (fun _ isAlpha => by rw [isLetterFold, isAlpha]; rfl)
      (fun _ isLower => isLower) id fun _ _ _ _ takes _ => by
        rw [behind_wordBoundary takes]
        rfl
  intro route member
  simp only [arxivRoutes, List.mem_append, List.mem_flatMap, Option.mem_toList, List.mem_cons, List.not_mem_nil,
    or_false] at member
  obtain ⟨_, -, rfl | rfl⟩ | ⟨_, -, rfl | rfl | rfl⟩ | ⟨_, -, rfl | rfl | rfl⟩ := member
  · exact stem
  · exact faithful_stem lawful _
  · exact prefixed
  · exact oldPrefixed
  · exact oldRaw
  · exact prefixed
  · exact bracket
  · exact oldPrefixed

/-- **The arXiv id that is detected is canonical** exactly when the first of the patterns that matches
and its canonical form match first at the same place. -/
theorem detectArxivId_canonical_iff (lawful : LawfulTables unicode)
    (infoTitle metadataText filenameStem : Option (List Char)) :
    (∀ id ∈ detectArxivId unicode isWord infoTitle metadataText filenameStem, ArxivCanonical unicode id) ↔
      FirstPlain (arxivRoutes unicode isWord infoTitle metadataText filenameStem) := by
  rw [detectArxivId_eq]
  exact forall_read_iff (faithful_arxivRoutes lawful infoTitle metadataText filenameStem)

/-- An id with a subject class is detected, and no year is found in it. -/
theorem detectArxivId_canonical_math :
    detectArxivId asciiTables Char.isAlphanum none (some "arXiv:math.GT/0309136".toList) none =
      some "math.GT/0309136".toList ∧ ¬ArxivCanonical asciiTables "math.GT/0309136".toList := by
  have detected : detectArxivId asciiTables Char.isAlphanum none (some "arXiv:math.GT/0309136".toList) none =
      some "math.GT/0309136".toList := by decide +kernel
  have notPlain : ¬FirstPlain (arxivRoutes asciiTables Char.isAlphanum none
    (some "arXiv:math.GT/0309136".toList) none) := by
    decide +kernel
  refine ⟨detected, fun canonical => notPlain ((detectArxivId_canonical_iff lawful_asciiTables _ _ _).mp ?_)⟩
  rw [detected]
  exact fun id isId => Option.some.inj isId ▸ canonical

end Bookrack.Glean
