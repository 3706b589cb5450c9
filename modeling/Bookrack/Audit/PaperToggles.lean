/-
The switches of the paper profile (`glean/src/audit/profile.rs`) and what the audit does without them.

`Relaxes profile relaxed`: fewer switches are on and every threshold is the same. Each grader is a
chain of signals that weaken, so it grades no lower under `relaxed`; the roll-up looks at the worst
grade of the required fields (`rollUp_mono`). **`auditPaper_noLower`** is the whole audit, the master
switch apart; **`flags_allOff`** says what is left with every other switch off.
-/

import Bookrack.Audit.Paper

namespace Bookrack.Audit.Paper

open Bookrack.Graded (NoWorse)
open Normalize (trim)

/-- The switches of `PaperAuditProfile`, section by section. -/
inductive PaperToggle
  | auditEnabled
  | identifierRequireAny
  | identifierDoiFormatCheck
  | identifierArxivFormatCheck
  | identifierIssnChecksumCheck
  | identifierOrcidChecksumCheck
  | abstractRequired
  | authorRequired
  | authorSentinelCheck
  | authorSingleWordCheck
  | titleRequired
  | titlePlaceholderCheck
  | titleEmptyCheck
  | titleEchoesArxivBannerCheck
  | titleEqualsFilenameCheck
  | yearRequired
  | yearRangeCheck
  | yearPdfLikelyFileDate
  | yearTimestampForm
  | languageBcp47Check
  | languageBodyScriptMatch
  | venueWhitelistCheck
  | sourcePriorEnabled
  deriving DecidableEq, Repr

/-- The state of a switch. -/
def PaperAuditProfile.isOn (profile : PaperAuditProfile) : PaperToggle → Bool
  | .auditEnabled => profile.auditEnabled
  | .identifierRequireAny => profile.identifier.requireAny
  | .identifierDoiFormatCheck => profile.identifier.doiFormatCheck
  | .identifierArxivFormatCheck => profile.identifier.arxivFormatCheck
  | .identifierIssnChecksumCheck => profile.identifier.issnChecksumCheck
  | .identifierOrcidChecksumCheck => profile.identifier.orcidChecksumCheck
  | .abstractRequired => profile.abstractText.required
  | .authorRequired => profile.author.required
  | .authorSentinelCheck => profile.author.sentinelCheck
  | .authorSingleWordCheck => profile.author.singleWordCheck
  | .titleRequired => profile.title.required
  | .titlePlaceholderCheck => profile.title.placeholderCheck
  | .titleEmptyCheck => profile.title.emptyCheck
  | .titleEchoesArxivBannerCheck => profile.title.echoesArxivBannerCheck
  | .titleEqualsFilenameCheck => profile.title.equalsFilenameCheck
  | .yearRequired => profile.year.required
  | .yearRangeCheck => profile.year.rangeCheck
  | .yearPdfLikelyFileDate => profile.year.pdfLikelyFileDate
  | .yearTimestampForm => profile.year.timestampForm
  | .languageBcp47Check => profile.language.bcp47Check
  | .languageBodyScriptMatch => profile.language.bodyScriptMatch
  | .venueWhitelistCheck => profile.venueWhitelistCheck
  | .sourcePriorEnabled => profile.sourcePriorEnabled

/-- The profile with one switch off. -/
def PaperAuditProfile.switchOff (profile : PaperAuditProfile) : PaperToggle → PaperAuditProfile
  | .auditEnabled => { profile with auditEnabled := false }
  | .identifierRequireAny => { profile with identifier.requireAny := false }
  | .identifierDoiFormatCheck => { profile with identifier.doiFormatCheck := false }
  | .identifierArxivFormatCheck => { profile with identifier.arxivFormatCheck := false }
  | .identifierIssnChecksumCheck => { profile with identifier.issnChecksumCheck := false }
  | .identifierOrcidChecksumCheck => { profile with identifier.orcidChecksumCheck := false }
  | .abstractRequired => { profile with abstractText.required := false }
  | .authorRequired => { profile with author.required := false }
  | .authorSentinelCheck => { profile with author.sentinelCheck := false }
  | .authorSingleWordCheck => { profile with author.singleWordCheck := false }
  | .titleRequired => { profile with title.required := false }
  | .titlePlaceholderCheck => { profile with title.placeholderCheck := false }
  | .titleEmptyCheck => { profile with title.emptyCheck := false }
  | .titleEchoesArxivBannerCheck => { profile with title.echoesArxivBannerCheck := false }
  | .titleEqualsFilenameCheck => { profile with title.equalsFilenameCheck := false }
  | .yearRequired => { profile with year.required := false }
  | .yearRangeCheck => { profile with year.rangeCheck := false }
  | .yearPdfLikelyFileDate => { profile with year.pdfLikelyFileDate := false }
  | .yearTimestampForm => { profile with year.timestampForm := false }
  | .languageBcp47Check => { profile with language.bcp47Check := false }
  | .languageBodyScriptMatch => { profile with language.bodyScriptMatch := false }
  | .venueWhitelistCheck => { profile with venueWhitelistCheck := false }
  | .sourcePriorEnabled => { profile with sourcePriorEnabled := false }

/-- Fewer switches are on, and nothing else differs. -/
structure PaperAuditProfile.Relaxes (profile relaxed : PaperAuditProfile) : Prop where
  toggles : ∀ toggle, relaxed.isOn toggle = true → profile.isOn toggle = true
  enabled : relaxed.auditEnabled = profile.auditEnabled
  minChars : relaxed.abstractText.minChars = profile.abstractText.minChars
  yearMin : relaxed.year.min = profile.year.min
  yearMax : relaxed.year.max = profile.year.max
  language : relaxed.language = { profile.language with
    bcp47Check := relaxed.language.bcp47Check
    bodyScriptMatch := relaxed.language.bodyScriptMatch }

variable {unicode : UnicodeTables} {input : PaperAuditInput} {profile relaxed : PaperAuditProfile}
  {data : PaperAuditData}

theorem isOn_switchOff (toggle other : PaperToggle) :
    (profile.switchOff toggle).isOn other = if other = toggle then false else profile.isOn other := by
  by_cases same : other = toggle
  · subst same
    rw [if_pos rfl]
    cases other <;> rfl
  · rw [if_neg same]
    cases toggle <;> cases other <;> first | rfl | exact absurd rfl same

theorem switchOff_relaxes {toggle : PaperToggle} (weakening : toggle ≠ .auditEnabled) :
    profile.Relaxes (profile.switchOff toggle) where
  toggles := fun other isOn => by
    rw [isOn_switchOff] at isOn
    split at isOn
    · cases isOn
    · exact isOn
  enabled := by cases toggle <;> first | rfl | contradiction
  minChars := by cases toggle <;> rfl
  yearMin := by cases toggle <;> rfl
  yearMax := by cases toggle <;> rfl
  language := by cases toggle <;> rfl

/-! ### Grader by grader -/

/-- No lower a grade; no flag is asked about. -/
abbrev NoLowerGrade (one other : PaperFieldReport) : Prop := NoWorse (fun _ => False) one other

variable {one other : PaperFieldReport} {fires fires' : Bool} {flag : PaperFlag}

theorem weakenToIf_noLower {target : FieldGrade} (noLower : NoLowerGrade one other)
    (less : fires' = true → fires = true) :
    NoLowerGrade (weakenToIf one fires target flag) (weakenToIf other fires' target flag) :=
  noLower.signal (weakenTo_monotone target) (weakenTo_le target) (pushes_pushFlag flag) less

theorem flagIf_noLower (noLower : NoLowerGrade one other) (less : fires' = true → fires = true) :
    NoLowerGrade (one.signal fires id (pushFlag flag)) (other.signal fires' id (pushFlag flag)) :=
  noLower.signal monotone_id (fun _ => le_refl _) (pushes_pushFlag flag) less

section Graders

variable (relaxes : profile.Relaxes relaxed)
include relaxes

/-- A switch in front of a test that reads no switch. -/
theorem PaperAuditProfile.Relaxes.gated (toggle : PaperToggle) (test : Bool) :
    (relaxed.isOn toggle && test) = true → (profile.isOn toggle && test) = true := by
  rw [Bool.and_eq_true, Bool.and_eq_true]
  exact And.imp_left (relaxes.toggles toggle)

theorem gradeTitle_noLower :
    NoLowerGrade (gradeTitle unicode input profile data) (gradeTitle unicode input relaxed data) := by
  have start : NoLowerGrade (startField (input.value "title")) (startField (input.value "title")) := .refl _
  exact weakenToIf_noLower (weakenToIf_noLower (weakenToIf_noLower (weakenToIf_noLower (weakenToIf_noLower start
    (relaxes.gated .titleEmptyCheck _)) (relaxes.gated .titlePlaceholderCheck _))
    (relaxes.gated .titleEchoesArxivBannerCheck _)) (relaxes.gated .titleEqualsFilenameCheck _)) id

theorem gradeYear_noLower : NoLowerGrade (gradeYear input profile) (gradeYear input relaxed) := by
  rw [gradeYear, gradeYear, relaxes.yearMin, relaxes.yearMax]
  exact weakenToIf_noLower (weakenToIf_noLower (weakenToIf_noLower (.refl _)
    (relaxes.gated .yearRangeCheck _)) (relaxes.gated .yearTimestampForm _))
    (relaxes.gated .yearPdfLikelyFileDate _)

theorem gradeDoi_noLower : NoLowerGrade (gradeDoi unicode input profile) (gradeDoi unicode input relaxed) :=
  weakenToIf_noLower (.refl _) (relaxes.gated .identifierDoiFormatCheck _)

theorem gradeArxiv_noLower :
    NoLowerGrade (gradeArxiv unicode input profile) (gradeArxiv unicode input relaxed) :=
  weakenToIf_noLower (.refl _) (relaxes.gated .identifierArxivFormatCheck _)

theorem gradeIssn_noLower : NoLowerGrade (gradeIssn input profile) (gradeIssn input relaxed) :=
  weakenToIf_noLower (.refl _) (relaxes.gated .identifierIssnChecksumCheck _)

theorem gradeContainer_noLower :
    NoLowerGrade (gradeContainer input profile data) (gradeContainer input relaxed data) :=
  weakenToIf_noLower (.refl _) (relaxes.gated .venueWhitelistCheck _)

theorem gradeAbstract_noLower : NoLowerGrade (gradeAbstract input profile) (gradeAbstract input relaxed) := by
  rw [gradeAbstract, gradeAbstract, relaxes.minChars]
  exact weakenToIf_noLower (.refl _) (relaxes.gated .abstractRequired _)

theorem gradeAuthor_noLower :
    NoLowerGrade (gradeAuthor input profile data) (gradeAuthor input relaxed data) := by
  rw [gradeAuthor, gradeAuthor]
  exact weakenToIf_noLower (weakenToIf_noLower (weakenToIf_noLower (weakenToIf_noLower (weakenToIf_noLower
    (flagIf_noLower (.refl _) (relaxes.gated .authorRequired _)) (relaxes.gated .authorSentinelCheck _))
    (relaxes.gated .authorSingleWordCheck _)) (relaxes.gated .identifierOrcidChecksumCheck _))
    (relaxes.gated .sourcePriorEnabled _)) id

theorem gradeLanguage_noLower : NoLowerGrade (gradeLanguage input profile) (gradeLanguage input relaxed) := by
  have sameBody (primary : List Char) : mismatchesBody primary input.bodySample relaxed.language =
      mismatchesBody primary input.bodySample profile.language := by
    rw [relaxes.language]
    rfl
  rw [gradeLanguage, gradeLanguage]
  simp only [sameBody]
  exact weakenToIf_noLower (weakenToIf_noLower (.refl _) (relaxes.gated .languageBcp47Check _))
    (relaxes.gated .languageBodyScriptMatch _)

end Graders

/-! ### The roll-up -/

/-- A field under the same name is graded no lower. -/
def FieldNoLower (one other : String × PaperFieldReport) : Prop :=
  one.1 = other.1 ∧ one.2.grade ≤ other.2.grade

theorem countedGrade_mono {fields better : List (String × PaperFieldReport)}
    (lower : List.Forall₂ FieldNoLower fields better) (name : String) :
    countedGrade fields name ≤ countedGrade better name := by
  induction lower with
  | nil => exact le_refl _
  | @cons one other _ _ le _ ih =>
    obtain ⟨field, report⟩ := one
    obtain ⟨field', report'⟩ := other
    obtain ⟨rfl, grade⟩ : field = field' ∧ report.grade ≤ report'.grade := le
    rw [countedGrade, countedGrade, List.lookup_cons, List.lookup_cons]
    cases name == field with
    | true => exact grade
    | false => exact ih

variable {cslType : Option CslType} {fields better : List (String × PaperFieldReport)}
  {crossFlags crossFlags' : List PaperFlag}

theorem rollUp_clean : (rollUp cslType fields crossFlags).1 = .clean ↔
    (∀ name ∈ requiredFields cslType, .medium ≤ countedGrade fields name) ∧
      .noStableIdentifier ∉ crossFlags := by
  have fine (grade : FieldGrade) : .medium ≤ grade ↔ grade ≠ .missing ∧ grade ≠ .weak := by
    cases grade <;> decide
  rw [rollUp]
  simp only [fine]
  split_ifs with flagged
  · refine iff_of_false nofun ?_
    simp only [Bool.or_eq_true, List.any_eq_true, decide_eq_true_eq, List.contains_iff_mem] at flagged
    rintro ⟨allFine, stable⟩
    obtain (⟨name, required, isMissing⟩ | ⟨name, required, isWeak⟩) | unstable := flagged
    · exact (allFine name required).1 isMissing
    · exact (allFine name required).2 isWeak
    · exact stable unstable
  · refine iff_of_true rfl ?_
    simp only [Bool.or_eq_true, List.any_eq_true, decide_eq_true_eq, List.contains_iff_mem, not_or] at flagged
    obtain ⟨⟨noneMissing, noneWeak⟩, stable⟩ := flagged
    exact ⟨fun name required => ⟨fun isMissing => noneMissing ⟨name, required, isMissing⟩,
      fun isWeak => noneWeak ⟨name, required, isWeak⟩⟩, stable⟩

/-- The confidence is low where a required field is missing or no identifier is stable, and high where
every required field is `Strong`. -/
theorem rollUp_confidence :
    ((rollUp cslType fields crossFlags).2 ≠ .low ↔
      (∀ name ∈ requiredFields cslType, .weak ≤ countedGrade fields name) ∧
        .noStableIdentifier ∉ crossFlags) ∧
    ((rollUp cslType fields crossFlags).2 = .high ↔
      (∀ name ∈ requiredFields cslType, .strong ≤ countedGrade fields name) ∧
        .noStableIdentifier ∉ crossFlags ∧ requiredFields cslType ≠ []) := by
  have there (grade : FieldGrade) : .weak ≤ grade ↔ grade ≠ .missing := by
    cases grade <;> decide
  have best (grade : FieldGrade) : .strong ≤ grade ↔ grade = .strong := by
    cases grade <;> decide
  have allStrong : (requiredFields cslType).countP (fun name => countedGrade fields name = .strong) =
      (requiredFields cslType).length ↔ ∀ name ∈ requiredFields cslType, countedGrade fields name = .strong := by
    rw [List.countP_eq_length]
    simp
  have floors : ((requiredFields cslType).any (fun name => countedGrade fields name = .missing) ||
      crossFlags.contains .noStableIdentifier) = true ↔
      ¬((∀ name ∈ requiredFields cslType, countedGrade fields name ≠ .missing) ∧
        .noStableIdentifier ∉ crossFlags) := by
    simp only [Bool.or_eq_true, List.any_eq_true, decide_eq_true_eq, List.contains_iff_mem]
    grind
  rw [rollUp]
  simp only [there, best, allStrong, floors, List.length_pos_iff]
  split_ifs with whole strong
  · exact ⟨iff_of_true nofun whole, iff_of_true rfl ⟨strong.2, whole.2, strong.1⟩⟩
  · refine ⟨iff_of_true nofun whole, iff_of_false nofun ?_⟩
    rintro ⟨allStrong, -, notEmpty⟩
    exact strong ⟨notEmpty, allStrong⟩
  · refine ⟨iff_of_false (fun other => other rfl) whole, iff_of_false nofun ?_⟩
    rintro ⟨strong, stable, -⟩
    refine whole ⟨fun name required isMissing => ?_, stable⟩
    rw [strong name required] at isMissing
    cases isMissing

/-- **The roll-up is monotone** in the grades, and in the flag that floors it. -/
theorem rollUp_mono (grades : ∀ name, countedGrade fields name ≤ countedGrade better name)
    (stable : .noStableIdentifier ∈ crossFlags' → .noStableIdentifier ∈ crossFlags) :
    ((rollUp cslType fields crossFlags).1 = .clean → (rollUp cslType better crossFlags').1 = .clean) ∧
      (rollUp cslType fields crossFlags).2 ≤ (rollUp cslType better crossFlags').2 := by
  have raised {least : FieldGrade} (enough : ∀ name ∈ requiredFields cslType, least ≤ countedGrade fields name) :
      ∀ name ∈ requiredFields cslType, least ≤ countedGrade better name :=
    fun name required => le_trans (enough name required) (grades name)
  refine ⟨?_, confidence_le_iff.mpr ⟨not_imp_not.mp fun notLow => ?_, fun isHigh => ?_⟩⟩
  · rw [rollUp_clean, rollUp_clean]
    exact And.imp raised (mt stable)
  · exact rollUp_confidence.1.mpr ((rollUp_confidence.1.mp notLow).imp raised (mt stable))
  · exact rollUp_confidence.2.mpr ((rollUp_confidence.2.mp isHigh).imp raised (And.imp_left (mt stable)))

/-! ### The whole audit -/

/-- No field is graded lower, and the whole is judged no worse. -/
structure PaperReport.NoLower (report better : PaperReport) : Prop where
  fields : List.Forall₂ FieldNoLower report.fields better.fields
  verdict : report.verdict = .clean → better.verdict = .clean
  confidence : report.confidence ≤ better.confidence

theorem gradedFields_noLower (relaxes : profile.Relaxes relaxed) :
    List.Forall₂ FieldNoLower (gradedFields unicode input profile data)
      (gradedFields unicode input relaxed data) := by
  refine .cons ⟨rfl, (gradeAbstract_noLower relaxes).grade⟩ (.cons ⟨rfl, (gradeArxiv_noLower relaxes).grade⟩
    (.cons ⟨rfl, (gradeAuthor_noLower relaxes).grade⟩ (.cons ⟨rfl, (gradeContainer_noLower relaxes).grade⟩
    (.cons ⟨rfl, (gradeDoi_noLower relaxes).grade⟩ (.cons ⟨rfl, (gradeIssn_noLower relaxes).grade⟩
    (.cons ⟨rfl, (gradeLanguage_noLower relaxes).grade⟩ (.cons ⟨rfl, le_refl _⟩
    (.cons ⟨rfl, (gradeTitle_noLower relaxes).grade⟩ (.cons ⟨rfl, (gradeYear_noLower relaxes).grade⟩
    .nil)))))))))

/-- **A relaxed audit** grades no field lower and judges the whole no worse. -/
theorem auditPaper_noLower (relaxes : profile.Relaxes relaxed) :
    (auditPaper unicode input profile data).NoLower (auditPaper unicode input relaxed data) := by
  rw [auditPaper, auditPaper, relaxes.enabled]
  split
  · exact ⟨.nil, id, Nat.le_refl _⟩
  · have fields := @gradedFields_noLower unicode input profile relaxed data relaxes
    have fewer : .noStableIdentifier ∈ crossFieldFlags input relaxed →
        .noStableIdentifier ∈ crossFieldFlags input profile := by
      rw [crossFieldFlags, crossFieldFlags]
      split_ifs with floored kept
      · exact id
      · exact fun _ => absurd (relaxes.gated .identifierRequireAny _ floored) kept
      · exact nofun
      · exact id
    obtain ⟨verdict, confidence⟩ := @rollUp_mono (effectiveCslType input) _ _ _ _
      (countedGrade_mono fields) fewer
    exact ⟨fields, verdict, confidence⟩

/-- **A switch that weakens**: without it nothing is graded or judged lower. -/
theorem switchOff_noLower {toggle : PaperToggle} (weakening : toggle ≠ .auditEnabled) :
    (auditPaper unicode input profile data).NoLower (auditPaper unicode input (profile.switchOff toggle) data) :=
  auditPaper_noLower (switchOff_relaxes weakening)

/-! ### With every switch off -/

theorem mem_weakenToIf {target : FieldGrade} {added : PaperFlag} :
    flag ∈ (weakenToIf one fires target added).flags ↔ flag ∈ one.flags ∨ fires = true ∧ flag = added := by
  rw [weakenToIf, Graded.mem_signal (pushes_pushFlag added), List.mem_singleton]

@[simp] theorem startField_flags (value : Option (List Char)) : (startField value).flags = [] := by
  rw [startField]
  split <;> rfl

section AllOff

variable (allOff : ∀ toggle, toggle ≠ PaperToggle.auditEnabled → profile.isOn toggle = false)
include allOff

/-- A signal whose switch is off adds nothing. -/
theorem of_mem_gated (toggle : PaperToggle) (switched : toggle ≠ .auditEnabled) {test : Bool}
    {target : FieldGrade} {added : PaperFlag}
    (member : flag ∈ (weakenToIf one (profile.isOn toggle && test) target added).flags) : flag ∈ one.flags := by
  rw [mem_weakenToIf, allOff toggle switched] at member
  exact member.resolve_right fun fires => Bool.noConfusion fires.1

/-- A grader of one signal with a switch. -/
theorem not_mem_gated (toggle : PaperToggle) (switched : toggle ≠ .auditEnabled) {test : Bool}
    {value : Option (List Char)} {target : FieldGrade} {added : PaperFlag} :
    flag ∉ (weakenToIf (startField value) (profile.isOn toggle && test) target added).flags := by
  intro member
  have inStart := of_mem_gated allOff toggle switched member
  rw [startField_flags] at inStart
  cases inStart

theorem mem_gradeTitle_off (member : flag ∈ (gradeTitle unicode input profile data).flags) :
    flag = .sourceWatermark := by
  rw [gradeTitle] at member
  obtain gated | ⟨-, isWatermark⟩ := mem_weakenToIf.mp member
  · have inBanner := of_mem_gated allOff .titleEqualsFilenameCheck nofun gated
    have inPlaceholder := of_mem_gated allOff .titleEchoesArxivBannerCheck nofun inBanner
    have inEmpty := of_mem_gated allOff .titlePlaceholderCheck nofun inPlaceholder
    exact absurd inEmpty (not_mem_gated allOff .titleEmptyCheck nofun)
  · exact isWatermark

theorem not_mem_gradeYear_off : flag ∉ (gradeYear input profile).flags := by
  intro member
  rw [gradeYear] at member
  have inTimestamp := of_mem_gated allOff .yearPdfLikelyFileDate nofun member
  have inRange := of_mem_gated allOff .yearTimestampForm nofun inTimestamp
  exact not_mem_gated allOff .yearRangeCheck nofun inRange

theorem not_mem_gradeLanguage_off : flag ∉ (gradeLanguage input profile).flags := by
  intro member
  rw [gradeLanguage] at member
  have inTag := of_mem_gated allOff .languageBodyScriptMatch nofun member
  exact not_mem_gated allOff .languageBcp47Check nofun inTag

theorem mem_gradeAuthor_off (member : flag ∈ (gradeAuthor input profile data).flags) :
    flag = .doubtfulTextLayer := by
  rw [gradeAuthor] at member
  obtain gated | ⟨-, isDoubtful⟩ := mem_weakenToIf.mp member
  · have inOrcid := of_mem_gated allOff .sourcePriorEnabled nofun gated
    have inSingle := of_mem_gated allOff .identifierOrcidChecksumCheck nofun inOrcid
    have inSentinel := of_mem_gated allOff .authorSingleWordCheck nofun inSingle
    have inStart := of_mem_gated allOff .authorSentinelCheck nofun inSentinel
    obtain none | ⟨fires, -⟩ := (Graded.mem_signal (pushes_pushFlag _)).mp inStart
    · cases none
    · rw [show profile.author.required = false from allOff .authorRequired nofun] at fires
      cases fires
  · exact isDoubtful

/-- **With every switch off** there remain a watermark in the title and a doubtful text layer, noted
on the author. -/
theorem flags_allOff {report : String × PaperFieldReport}
    (isReport : report ∈ (auditPaper unicode input profile data).fields) (member : flag ∈ report.2.flags) :
    report.1 = "title" ∧ flag = .sourceWatermark ∨ report.1 = "author" ∧ flag = .doubtfulTextLayer := by
  rw [auditPaper] at isReport
  split at isReport
  · cases isReport
  · simp only [gradedFields, List.mem_cons, List.not_mem_nil, or_false] at isReport
    obtain rfl | rfl | rfl | rfl | rfl | rfl | rfl | rfl | rfl | rfl := isReport
    · exact absurd member (not_mem_gated allOff .abstractRequired nofun)
    · exact absurd member (not_mem_gated allOff .identifierArxivFormatCheck nofun)
    · exact .inr ⟨rfl, mem_gradeAuthor_off allOff member⟩
    · exact absurd member (not_mem_gated allOff .venueWhitelistCheck nofun)
    · exact absurd member (not_mem_gated allOff .identifierDoiFormatCheck nofun)
    · exact absurd member (not_mem_gated allOff .identifierIssnChecksumCheck nofun)
    · exact absurd member (not_mem_gradeLanguage_off allOff)
    · rw [gradePublisher, startField_flags] at member
      cases member
    · exact .inl ⟨rfl, mem_gradeTitle_off allOff member⟩
    · exact absurd member (not_mem_gradeYear_off allOff)

theorem crossFieldFlags_allOff : (auditPaper unicode input profile data).crossFieldFlags = [] := by
  rw [auditPaper]
  split
  · rfl
  · show crossFieldFlags input profile = []
    rw [crossFieldFlags, show profile.identifier.requireAny = false from allOff .identifierRequireAny nofun]
    rfl

end AllOff

end Bookrack.Audit.Paper
