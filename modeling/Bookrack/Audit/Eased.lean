/-
Easing the audit of books: a profile with fewer weakening toggles, more fields marked as overridden,
more of these confirmed.

`Eases input input' profile profile'` says that the second audit differs from the first in no other
way. Each field's audit is followed signal by signal with `Graded.NoWorse`; **`run_noLower`** carries
that through the pin of confirmed fields and the two roll-ups to the whole report, and
`switchOff_noLower`, `override_noLower` and `confirm_noLower` are its instances.
-/

import Bookrack.Audit.BookToggles

namespace Bookrack.Audit

open Bookrack.Graded (NoWorse pushes_append)
open Normalize (trim)

/-! ### Easier audits -/

/-- An audit that differs from another in easing only. -/
structure Eases (input eased : AuditInput) (profile relaxed : AuditProfile) : Prop where
  same : eased = { input with origins := eased.origins }
  overridden : ∀ field, input.origins.isOverridden field = true → eased.origins.isOverridden field = true
  confirmed : ∀ field, input.origins.isConfirmed field = true → eased.origins.isConfirmed field = true
  voided : ∀ field, eased.origins.isVoided field = input.origins.isVoided field
  relaxes : profile.Relaxes relaxed

/-- A flag that a confirmed field cannot shake off. -/
def Validates (flag : Flag) : Prop := flag.isValidation = true

variable {unicode : UnicodeTables} {one other : Graded FieldGrade Flag} {fires fires' : Bool}

/-! ### Signal by signal -/

theorem weakenIf_noWorse {flag : Flag} (noWorse : NoWorse Validates one other)
    (less : fires' = true → fires = true) :
    NoWorse Validates (weakenIf one fires flag) (weakenIf other fires' flag) :=
  noWorse.signal weaken_monotone weaken_le (pushes_append [flag]) less

theorem noteIf_noWorse {flags : List Flag} (noWorse : NoWorse Validates one other)
    (less : fires' = true → fires = true) :
    NoWorse Validates (noteIf one fires flags) (noteIf other fires' flags) :=
  noWorse.signal monotone_id (fun _ => le_refl _) (pushes_append flags) less

/-- A condition that is eased, in front of a test that is not. -/
theorem and_imp_left {toggle toggle' test : Bool} (less : toggle' = true → toggle = true) :
    (toggle' && test) = true → (toggle && test) = true := by
  rw [Bool.and_eq_true, Bool.and_eq_true]
  exact And.imp_left less

variable {input eased : AuditInput} {profile relaxed : AuditProfile} {prior prior' : SourcePrior}
  {doubtful doubtful' : Bool}

theorem applyOrigin_noWorse (relaxes : profile.Relaxes relaxed) (noWorse : NoWorse Validates one other)
    (lessPrior : prior' ≠ .strong → prior ≠ .strong) (lessDoubt : doubtful' = true → doubtful = true)
    (present : Bool) :
    NoWorse Validates (applyOrigin one prior doubtful present profile)
      (applyOrigin other prior' doubtful' present relaxed) := by
  refine weakenIf_noWorse (weakenIf_noWorse noWorse ?_) (and_imp_left lessDoubt)
  simp only [Bool.and_eq_true, decide_eq_true_eq]
  rintro ⟨⟨isPresent, enabled⟩, isWeak⟩
  exact ⟨⟨isPresent, relaxes.toggles .sourcePriorEnabled enabled⟩, lessPrior isWeak⟩

theorem applyBracket_noWorse (relaxes : profile.Relaxes relaxed) (noWorse : NoWorse Validates one other)
    (sub : BracketSubtype) :
    NoWorse Validates (applyBracket one profile.title sub) (applyBracket other relaxed.title sub) := by
  cases sub with
  | series => exact weakenIf_noWorse noWorse (relaxes.toggles .titleSeriesParen)
  | marketing => exact weakenIf_noWorse noWorse (relaxes.toggles .titleMarketingBlock)
  | aggregator => exact weakenIf_noWorse noWorse (relaxes.toggles .titleAggregatorMarker)
  | volume => exact noteIf_noWorse noWorse (relaxes.toggles .titleVolumeMarker)

/-- A bracketed segment does nothing while every toggle for it is off. -/
theorem applyBracket_off {title : TitleToggles} (off : title.anyBracketedEnabled = false)
    (sub : BracketSubtype) : applyBracket one title sub = one := by
  simp only [TitleToggles.anyBracketedEnabled, Bool.or_eq_false_iff] at off
  obtain ⟨⟨⟨series, marketing⟩, aggregator⟩, volume⟩ := off
  cases sub <;> simp [applyBracket, weakenIf, noteIf, Graded.signal, series, marketing, aggregator, volume]

/-- The gate in front of the bracketed segment changes nothing. -/
theorem titleSignals_ungated (input : AuditInput) (profile : AuditProfile) (trimmed : List Char) :
    titleSignals unicode input profile trimmed =
      match classifyBracketedSegment trimmed profile.title.bracketedMinChars input.data.volumeSuffixTokens with
      | none => titleValueSignals unicode input profile trimmed
      | some sub => applyBracket (titleValueSignals unicode input profile trimmed) profile.title sub := by
  rw [titleSignals]
  cases enabled : profile.title.anyBracketedEnabled with
  | true => rfl
  | false =>
    split
    · contradiction
    · split
      · rfl
      · exact (applyBracket_off enabled _).symm

theorem titleSignals_noWorse (eases : Eases input eased profile relaxed) (trimmed : List Char) :
    NoWorse Validates (titleSignals unicode input profile trimmed)
      (titleSignals unicode eased relaxed trimmed) := by
  have relaxes := eases.relaxes
  have value : NoWorse Validates (titleValueSignals unicode input profile trimmed)
      (titleValueSignals unicode eased relaxed trimmed) := by
    rw [eases.same]
    exact weakenIf_noWorse (weakenIf_noWorse (weakenIf_noWorse (weakenIf_noWorse (.refl present)
      (relaxes.gated .titlePlaceholderCheck _)) (relaxes.gated .titlePurelyNumeric _)) id) id
  rw [titleSignals_ungated, titleSignals_ungated, relaxes.bracketedMinChars,
    show eased.data = input.data by rw [eases.same]]
  split
  · exact value
  · exact applyBracket_noWorse relaxes value _

theorem languageSignals_noWorse (eases : Eases input eased profile relaxed) (trimmed : List Char) :
    NoWorse Validates (languageSignals unicode input profile trimmed)
      (languageSignals unicode eased relaxed trimmed) := by
  have matches' : bodyMatchesLanguage unicode trimmed input.bodySample relaxed.language =
      bodyMatchesLanguage unicode trimmed input.bodySample profile.language := by
    rw [eases.relaxes.language]
    rfl
  rw [eases.same, languageSignals, languageSignals]
  show NoWorse Validates _ (weakenIf _ (_ && !bodyMatchesLanguage unicode trimmed input.bodySample
    relaxed.language) _)
  rw [matches']
  exact weakenIf_noWorse (weakenIf_noWorse (.refl present) (eases.relaxes.gated .languageBcp47Check _))
    (eases.relaxes.gated .languageBodyScriptMatch _)

theorem not_overridden (eases : Eases input eased profile relaxed) {field : String} :
    (!eased.origins.isOverridden field) = true → (!input.origins.isOverridden field) = true := by
  rw [Bool.not_eq_true', Bool.not_eq_true']
  intro notEased
  by_contra isOverridden
  rw [Bool.not_eq_false] at isOverridden
  rw [eases.overridden field isOverridden] at notEased
  cases notEased

theorem yearSignals_noWorse (eases : Eases input eased profile relaxed) (text : List Char) :
    NoWorse Validates (yearSignals input profile text) (yearSignals eased relaxed text) := by
  have relaxes := eases.relaxes
  have sameBiblio : eased.biblio = input.biblio := by rw [eases.same]
  have sameAdapter : eased.provenance = input.provenance := by rw [eases.same]
  have sameOrigin : yearCameFromRawBiblio eased text = yearCameFromRawBiblio input text := by
    rw [yearCameFromRawBiblio, sameBiblio]
    rfl
  rw [yearSignals, yearSignals, sameBiblio, sameAdapter, sameOrigin, relaxes.yearMin,
    relaxes.yearMax]
  refine weakenIf_noWorse (weakenIf_noWorse (weakenIf_noWorse (.refl present)
    (relaxes.gated .yearRangeCheck _)) ?_) ?_
  · simp only [Bool.and_eq_true]
    exact fun ⟨toggle, isPdf, extracted⟩ =>
      ⟨relaxes.toggles .yearPdfLikelyFileDate toggle, isPdf, not_overridden eases extracted⟩
  · simp only [Bool.and_eq_true]
    exact fun ⟨toggle, extracted, more⟩ =>
      ⟨relaxes.toggles .yearTimestampForm toggle, not_overridden eases extracted, more⟩

/-- A verdict on the publisher leaves no validation flag, and none costs more than a watermark. -/
theorem watermark_noWorse (kind : WatermarkKind) (verdict : PublisherVerdict) :
    NoWorse Validates (publisherVerdict (.watermark kind)) (publisherVerdict verdict) := by
  cases verdict with
  | watermark other =>
    refine ⟨le_refl _, fun flag isBad member => ?_⟩
    simp only [publisherVerdict, List.mem_cons, List.not_mem_nil, or_false] at member
    obtain rfl | rfl := member <;> cases isBad
  | whitelisted matchKind =>
    refine ⟨le_strong _, fun flag isBad member => ?_⟩
    simp only [publisherVerdict, List.mem_cons, List.not_mem_nil, or_false] at member
    obtain rfl | rfl := member <;> cases isBad
  | neutral => exact ⟨le_strong _, nofun⟩

/-- The signals about the extractor add no flag but their own. -/
theorem mem_applyOrigin {flag : Flag} {present : Bool}
    (other : flag ≠ .sourcePriorWeak ∧ flag ≠ .doubtfulTextLayer) :
    flag ∈ (applyOrigin one prior doubtful present profile).flags ↔ flag ∈ one.flags := by
  rw [applyOrigin, applyDoubtful, applySourcePrior, weakenIf, weakenIf,
    Graded.mem_signal (pushes_append _), Graded.mem_signal (pushes_append _), List.mem_singleton,
    List.mem_singleton]
  simp [other.1, other.2]

/-- The whitelist strengthens at the end what the signals about the extractor have weakened. -/
theorem strengthened_noWorse (relaxes : profile.Relaxes relaxed)
    (started : NoWorse Validates one other ∧
      (.publisherWhitelisted ∈ one.flags → .publisherWhitelisted ∈ other.flags))
    (lessPrior : prior' ≠ .strong → prior ≠ .strong) (lessDoubt : doubtful' = true → doubtful = true)
    (present : Bool) :
    NoWorse Validates
      ((applyOrigin one prior doubtful present profile).signal
        ((applyOrigin one prior doubtful present profile).flags.contains .publisherWhitelisted)
        FieldGrade.strengthen id)
      ((applyOrigin other prior' doubtful' present relaxed).signal
        ((applyOrigin other prior' doubtful' present relaxed).flags.contains .publisherWhitelisted)
        FieldGrade.strengthen id) := by
  refine (applyOrigin_noWorse relaxes started.1 lessPrior lessDoubt present).lift strengthen_monotone
    le_strengthen ?_
  rw [List.contains_iff_mem, List.contains_iff_mem, mem_applyOrigin (by decide), mem_applyOrigin (by decide)]
  exact started.2

/-! ### Field by field -/

theorem Eases.value (eases : Eases input eased profile relaxed) (field : AuditedField) :
    eased.value field = input.value field := by
  rw [eases.same]
  rfl

/-- Two fields with one value start in the same way. -/
theorem startField_cases (related : Graded FieldGrade Flag → Graded FieldGrade Flag → Prop)
    {signals signals' : List Char → Graded FieldGrade Flag} (value : Option (List Char))
    (absent : related missing missing) (judged : ∀ trimmed, related (signals trimmed) (signals' trimmed)) :
    related (startField value signals) (startField value signals') := by
  cases value with
  | none => exact absent
  | some text =>
    rw [startField, startField]
    split
    · exact absent
    · exact judged (trim text)

section Fields

variable (eases : Eases input eased profile relaxed) (lessPrior : prior' ≠ .strong → prior ≠ .strong)
  (lessDoubt : doubtful' = true → doubtful = true)
include eases lessPrior lessDoubt

theorem auditTitle_noWorse : NoWorse Validates (auditTitle unicode input profile prior doubtful).toGraded
    (auditTitle unicode eased relaxed prior' doubtful').toGraded := by
  rw [auditTitle, auditTitle, eases.value]
  exact applyOrigin_noWorse eases.relaxes
    (startField_cases _ _ (.refl missing) (titleSignals_noWorse eases)) lessPrior lessDoubt _

theorem auditLanguage_noWorse :
    NoWorse Validates (auditLanguage unicode input profile prior doubtful).toGraded
      (auditLanguage unicode eased relaxed prior' doubtful').toGraded := by
  rw [auditLanguage, auditLanguage, eases.value]
  exact applyOrigin_noWorse eases.relaxes
    (startField_cases _ _ (.refl missing) (languageSignals_noWorse eases)) lessPrior lessDoubt _

theorem auditPublisher_noWorse :
    NoWorse Validates (auditPublisher unicode input profile prior doubtful).toGraded
      (auditPublisher unicode eased relaxed prior' doubtful').toGraded := by
  rw [auditPublisher, auditPublisher, eases.value]
  refine strengthened_noWorse eases.relaxes ?_ lessPrior lessDoubt _
  refine startField_cases (fun one other => NoWorse Validates one other ∧
    (.publisherWhitelisted ∈ one.flags → .publisherWhitelisted ∈ other.flags)) _ ⟨.refl missing,
      id⟩ fun trimmed => ?_
  rw [show eased.data = input.data by rw [eases.same], eases.relaxes.whitelist]
  obtain ⟨kind, isKind⟩ | same := @evaluate_eased unicode trimmed input.data profile.publisher.urlWatermark
    relaxed.publisher.urlWatermark profile.publisher.whitelistNormalizeAbbreviations
    (eases.relaxes.toggles .publisherUrlWatermark)
  · rw [isKind]
    exact ⟨watermark_noWorse kind _, by simp [publisherVerdict]⟩
  · rw [same]
    exact ⟨.refl _, id⟩

theorem auditYear_noWorse : NoWorse Validates (auditYear input profile prior doubtful).toGraded
    (auditYear eased relaxed prior' doubtful').toGraded := by
  rw [auditYear, auditYear, eases.value]
  refine applyOrigin_noWorse eases.relaxes ?_ lessPrior lessDoubt _
  cases input.value .year with
  | none => exact .refl missing
  | some text => exact yearSignals_noWorse eases text

theorem auditOptional_noWorse (field : AuditedField) :
    NoWorse Validates (auditOptional input profile prior doubtful field).toGraded
      (auditOptional eased relaxed prior' doubtful' field).toGraded := by
  rw [auditOptional, auditOptional, eases.value]
  exact applyOrigin_noWorse eases.relaxes (.refl _) lessPrior lessDoubt _

omit lessPrior in
theorem auditIsbn_noWorse :
    NoWorse Validates (auditIsbn input doubtful).toGraded (auditIsbn eased doubtful').toGraded := by
  rw [auditIsbn, auditIsbn, eases.value]
  exact weakenIf_noWorse (.refl _) (and_imp_left lessDoubt)

end Fields

/-- The report of a voided field looks at nothing else. -/
theorem auditField_voided {field : AuditedField} (isVoided : input.origins.isVoided field.column = true) :
    auditField unicode input profile field = voidedReport field := if_pos isVoided

theorem auditField_noWorse (eases : Eases input eased profile relaxed) (field : AuditedField) :
    NoWorse Validates (auditField unicode input profile field).toGraded
      (auditField unicode eased relaxed field).toGraded := by
  have sameProvenance : eased.provenance = input.provenance := by rw [eases.same]
  have lessDoubt : (input.provenance.textLayerQuality = .doubtful && !eased.origins.isOverridden field.column)
      = true → (input.provenance.textLayerQuality = .doubtful && !input.origins.isOverridden field.column)
        = true := by
    rw [Bool.and_eq_true, Bool.and_eq_true]
    exact And.imp_right (not_overridden eases)
  have lessPrior : (if eased.origins.isOverridden field.column then SourcePrior.strong
      else sourcePrior input.provenance.adapter) ≠ .strong →
      (if input.origins.isOverridden field.column then SourcePrior.strong
        else sourcePrior input.provenance.adapter) ≠ .strong := by
    intro isWeak
    cases isEased : eased.origins.isOverridden field.column with
    | true => exact absurd (if_pos isEased) isWeak
    | false =>
      rw [isEased] at isWeak
      have notInput := @not_overridden _ _ _ _ eases field.column (by rw [isEased]; rfl)
      rw [Bool.not_eq_true'] at notInput
      rwa [notInput]
  by_cases isVoided : input.origins.isVoided field.column = true
  · have same : auditField unicode eased relaxed field = auditField unicode input profile field := by
      rw [auditField_voided isVoided, auditField_voided ((eases.voided _).trans isVoided)]
    rw [same]
    exact .refl _
  · have isKept := mt (eases.voided field.column).symm.trans isVoided
    cases field <;> rw [auditField, auditField, if_neg isVoided, if_neg isKept, sameProvenance]
    case title => exact auditTitle_noWorse eases lessPrior lessDoubt
    case language => exact auditLanguage_noWorse eases lessPrior lessDoubt
    case publisher => exact auditPublisher_noWorse eases lessPrior lessDoubt
    case year => exact auditYear_noWorse eases lessPrior lessDoubt
    case isbn => exact auditIsbn_noWorse eases lessDoubt
    case subtitle => exact auditOptional_noWorse eases lessPrior lessDoubt .subtitle
    case series => exact auditOptional_noWorse eases lessPrior lessDoubt .series

/-! ### Confirmed fields -/

theorem auditField_field (field : AuditedField) : (auditField unicode input profile field).field = field := by
  rw [auditField.eq_def]
  split
  · rfl
  · cases field <;> rfl

@[simp] theorem applyConfirmed_field (report : FieldReport) (origins : FieldOrigins) :
    (applyConfirmed report origins).field = report.field := by
  rw [applyConfirmed]
  split_ifs <;> rfl

@[simp] theorem applyConfirmed_flags (report : FieldReport) (origins : FieldOrigins) :
    (applyConfirmed report origins).flags = report.flags := by
  rw [applyConfirmed]
  split_ifs <;> rfl

/-- **The pin**: a confirmed field is `Strong` unless a validation flag speaks against it. -/
theorem applyConfirmed_strong {report : FieldReport} {origins : FieldOrigins}
    (isConfirmed : origins.isConfirmed report.field.column = true)
    (unflagged : ∀ flag ∈ report.flags, ¬Validates flag) :
    (applyConfirmed report origins).grade = .strong := by
  have noneValidates : report.flags.any Flag.isValidation = false := by
    rw [List.any_eq_false]
    exact unflagged
  rw [applyConfirmed, isConfirmed, noneValidates]
  rfl

theorem le_applyConfirmed (report : FieldReport) (origins : FieldOrigins) :
    report.grade ≤ (applyConfirmed report origins).grade := by
  rw [applyConfirmed]
  split_ifs
  · exact le_refl _
  · exact le_refl _
  · exact le_strong _

theorem applyConfirmed_mono {report better : FieldReport} {origins origins' : FieldOrigins}
    (noWorse : NoWorse Validates report.toGraded better.toGraded)
    (more : origins.isConfirmed report.field.column = true →
      origins'.isConfirmed better.field.column = true) :
    (applyConfirmed report origins).grade ≤ (applyConfirmed better origins').grade := by
  by_cases pinned : origins.isConfirmed report.field.column = true ∧ ∀ flag ∈ report.flags, ¬Validates flag
  · rw [applyConfirmed_strong (more pinned.1) fun flag member bad =>
      pinned.2 flag (noWorse.flags flag bad member) bad]
    exact le_strong _
  · have kept : applyConfirmed report origins = report := by
      rw [applyConfirmed]
      split_ifs with unconfirmed flagged
      · rfl
      · rfl
      · refine absurd ⟨by simpa using unconfirmed, ?_⟩ pinned
        simpa [Validates] using flagged
    rw [kept]
    exact le_trans noWorse.grade (le_applyConfirmed better origins')

/-! ### The roll-ups -/

/-- One field is graded no lower. -/
def FieldReport.NoLower (report better : FieldReport) : Prop :=
  report.field = better.field ∧ report.grade ≤ better.grade

/-- No field is graded lower, and the whole is judged no worse. -/
structure MetadataReport.NoLower (report better : MetadataReport) : Prop where
  fields : List.Forall₂ FieldReport.NoLower report.fields better.fields
  verdict : report.verdict = .clean → better.verdict = .clean
  confidence : report.confidence ≤ better.confidence

/-- What is found in the better reports is found in the others. -/
theorem exists_of_forall₂ {fields better : List FieldReport} {bad : FieldReport → Prop}
    (lower : List.Forall₂ FieldReport.NoLower fields better)
    (kept : ∀ one other : FieldReport, one.NoLower other → bad other → bad one)
    (found : ∃ report ∈ better, bad report) : ∃ report ∈ fields, bad report := by
  induction lower with
  | nil => exact found
  | cons le _ ih =>
    simp only [List.mem_cons, exists_eq_or_imp] at found ⊢
    exact found.imp (kept _ _ le) ih

theorem computeVerdict_needsWork {fields : List FieldReport} :
    computeVerdict fields = .needsWork ↔
      ∃ report ∈ fields, (report.field = .title ∨ report.field = .language) ∧ report.grade ≤ .weak := by
  have low (grade : FieldGrade) : grade ≤ .weak ↔ grade = .missing ∨ grade = .weak := by
    cases grade <;> decide
  rw [computeVerdict]
  split_ifs with any
  · simp only [List.any_eq_true, Bool.and_eq_true, Bool.or_eq_true, decide_eq_true_eq, ← low] at any
    simpa using any
  · simp only [List.any_eq_true, Bool.and_eq_true, Bool.or_eq_true, decide_eq_true_eq, ← low] at any
    simpa using any

theorem computeVerdict_mono {fields better : List FieldReport}
    (lower : List.Forall₂ FieldReport.NoLower fields better)
    (isClean : computeVerdict fields = .clean) : computeVerdict better = .clean := by
  cases isWorse : computeVerdict better with
  | clean => rfl
  | needsWork =>
    have worse := computeVerdict_needsWork.mpr (exists_of_forall₂ lower
      (fun _ _ le bad => ⟨le.1 ▸ bad.1, le_trans le.2 bad.2⟩) (computeVerdict_needsWork.mp isWorse))
    rw [isClean] at worse
    cases worse

/-- The confidence is low below `Medium`, high at `Strong`, by the worst of the fields it looks at. -/
theorem rollupConfidence_cases (fields : List FieldReport) :
    (rollupConfidence fields = .low ↔
      ∃ report ∈ fields, report.field ∈ requiredOrShould ∧ report.grade ≤ .weak) ∧
    (rollupConfidence fields ≠ .high ↔
      ∃ report ∈ fields, report.field ∈ requiredOrShould ∧ report.grade ≤ .medium) := by
  have isRated (bad : FieldGrade → Prop) :
      (∃ report ∈ fields, report.field ∈ requiredOrShould ∧ bad report.grade) ↔
        ∃ report ∈ fields.filter fun report => requiredOrShould.contains report.field, bad report.grade := by
    simp [and_assoc]
  rw [isRated (· ≤ .weak), isRated (· ≤ .medium), rollupConfidence]
  generalize fields.filter (fun report => requiredOrShould.contains report.field) = rated
  have weak_of_not (grade : FieldGrade) (notMissing : grade ≠ .missing) (notWeak : grade ≠ .weak) :
      ¬grade ≤ .weak := by
    cases grade <;> simp_all <;> decide
  have below (grade : FieldGrade) (notStrong : grade ≠ .strong) : grade ≤ .medium := by
    cases grade <;> simp_all <;> decide
  simp only [List.any_eq_true, List.all_eq_true, decide_eq_true_eq]
  split_ifs with anyMissing allStrong anyWeak
  · obtain ⟨report, member, isMissing⟩ := anyMissing
    exact ⟨iff_of_true rfl ⟨report, member, by rw [isMissing]; decide⟩,
      iff_of_true nofun ⟨report, member, by rw [isMissing]; decide⟩⟩
  · refine ⟨iff_of_false nofun ?_, iff_of_false (by simp) ?_⟩ <;>
      (rintro ⟨report, member, le⟩
       rw [allStrong report member] at le
       exact absurd le (by decide))
  · obtain ⟨report, member, isWeak⟩ := anyWeak
    exact ⟨iff_of_true rfl ⟨report, member, by rw [isWeak]⟩,
      iff_of_true nofun ⟨report, member, by rw [isWeak]; decide⟩⟩
  · push Not at anyMissing allStrong anyWeak
    obtain ⟨report, member, notStrong⟩ := allStrong
    refine ⟨iff_of_false nofun ?_, iff_of_true nofun ⟨report, member, below _ notStrong⟩⟩
    rintro ⟨report, member, le⟩
    exact weak_of_not _ (anyMissing report member) (anyWeak report member) le

theorem rollupConfidence_mono {fields better : List FieldReport}
    (lower : List.Forall₂ FieldReport.NoLower fields better) :
    rollupConfidence fields ≤ rollupConfidence better := by
  refine confidence_le_iff.mpr ⟨fun isLow => ?_, fun isHigh => ?_⟩
  · exact (rollupConfidence_cases _).1.mpr (exists_of_forall₂ lower
      (fun _ _ le bad => ⟨le.1 ▸ bad.1, le_trans le.2 bad.2⟩) ((rollupConfidence_cases _).1.mp isLow))
  · by_contra isLower
    exact (rollupConfidence_cases _).2.mpr (exists_of_forall₂ lower
      (fun _ _ le bad => ⟨le.1 ▸ bad.1, le_trans le.2 bad.2⟩) ((rollupConfidence_cases _).2.mp isLower)) isHigh

/-! ### The shape -/

theorem auditTocShape_sublist (eases : Eases input eased profile relaxed) :
    (auditTocShape eased relaxed).Sublist (auditTocShape input profile) := by
  have relaxes := eases.relaxes
  have piece {fires fires' : Bool} (flag : Flag) (less : fires' = true → fires = true) :
      (if fires' then [flag] else []).Sublist (if fires then [flag] else []) := by
    cases fires' with
    | false => exact List.nil_sublist _
    | true => rw [less rfl]
  have sameStats : eased.tocStats = input.tocStats := by rw [eases.same]
  have sameBlocks : eased.totalBlocks = input.totalBlocks := by rw [eases.same]
  rw [auditTocShape, auditTocShape, sameStats, sameBlocks, relaxes.largeBodyMinBlocks]
  exact ((((piece _ (relaxes.gated .tocShapeEmptyLargeBody _)).append (.refl _)).append (.refl _)).append
    (piece _ (relaxes.gated .tocShapeSuspiciousFlat _))).append
      (piece _ (relaxes.gated .tocShapeHeadingBlockSkew _))

/-- With fewer flags the shape is no more severe. -/
theorem shapeSeverity_mono {flags fewer : List Flag} (subset : fewer ⊆ flags) (totalEntries : Nat)
    (relaxes : profile.Relaxes relaxed) :
    (shapeSeverity fewer totalEntries relaxed = .severe → shapeSeverity flags totalEntries profile = .severe) ∧
    (shapeSeverity flags totalEntries profile = .clean → shapeSeverity fewer totalEntries relaxed = .clean) := by
  have skew : headingSkewSevere relaxed = headingSkewSevere profile := by
    rw [headingSkewSevere, relaxes.flatSevereMinEntries, headingSkewSevere]
  have isSevere (flags : List Flag) (profile : AuditProfile) :
      shapeSeverity flags totalEntries profile = .severe ↔
        .tocUnanchoredHalf ∈ flags ∨ .tocEmptyLargeBody ∈ flags ∨
          .tocSuspiciousFlat ∈ flags ∧ profile.tocShape.flatSevereMinEntries < totalEntries ∨
          .tocHeadingBlockSkew ∈ flags ∧ headingSkewSevere profile < totalEntries := by
    rw [shapeSeverity]
    split_ifs with severe none
    · simpa [or_assoc] using severe
    · simpa [or_assoc] using severe
    · simpa [or_assoc] using severe
  have mono : shapeSeverity fewer totalEntries relaxed = .severe →
      shapeSeverity flags totalEntries profile = .severe := by
    rw [isSevere, isSevere, relaxes.flatSevereMinEntries, skew]
    exact Or.imp (@subset _) (Or.imp (@subset _) (Or.imp (And.imp_left (@subset _)) (And.imp_left (@subset _))))
  refine ⟨mono, fun isClean => ?_⟩
  have noFlags : flags = [] := by
    rw [shapeSeverity] at isClean
    split_ifs at isClean with severe none
    exact none
  subst noFlags
  rw [List.subset_nil.mp subset]
  rfl

theorem applyShape_mono {verdict verdict' : Verdict} {confidence confidence' : Confidence}
    {severity severity' : ShapeSeverity} (verdicts : verdict = .clean → verdict' = .clean)
    (confidences : confidence ≤ confidence') (severe : severity' = .severe → severity = .severe)
    (clean : severity = .clean → severity' = .clean) :
    ((applyShape verdict confidence severity).1 = .clean →
      (applyShape verdict' confidence' severity').1 = .clean) ∧
    (applyShape verdict confidence severity).2 ≤ (applyShape verdict' confidence' severity').2 := by
  have capped (confidence : Confidence) :
      (if confidence = .high then Confidence.medium else confidence) ≤ confidence := by
    cases confidence <;> decide
  cases severity with
  | severe => exact ⟨nofun, Nat.zero_le _⟩
  | clean =>
    rw [clean rfl]
    exact ⟨verdicts, confidences⟩
  | mild =>
    cases severity' with
    | severe => exact absurd (severe rfl) (by decide)
    | clean => exact ⟨verdicts, Nat.le_trans (capped confidence) confidences⟩
    | mild =>
      refine ⟨verdicts, ?_⟩
      show (if confidence = .high then Confidence.medium else confidence) ≤
        if confidence' = .high then Confidence.medium else confidence'
      cases confidence <;> cases confidence' <;> first | decide | exact absurd confidences (by decide)

/-! ### The whole audit -/

/-- The two roll-ups meet the shape at the end of `run`. -/
theorem run_judged (unicode : UnicodeTables) (input : AuditInput) (profile : AuditProfile) :
    ((run unicode input profile).verdict, (run unicode input profile).confidence) =
      applyShape (computeVerdict (run unicode input profile).fields)
        (rollupConfidence (run unicode input profile).fields)
        (shapeSeverity (auditTocShape input profile) input.tocStats.totalTocEntries profile) := rfl

/-- **An eased audit** grades no field lower and judges the whole no worse. -/
theorem run_noLower (eases : Eases input eased profile relaxed) :
    (run unicode input profile).NoLower (run unicode eased relaxed) := by
  have fields : List.Forall₂ FieldReport.NoLower (run unicode input profile).fields
      (run unicode eased relaxed).fields := by
    refine List.forall₂_map_left_iff.mpr (List.forall₂_map_right_iff.mpr (List.forall₂_same.mpr ?_))
    rintro field -
    refine ⟨?_, applyConfirmed_mono (auditField_noWorse eases field) ?_⟩
    · rw [applyConfirmed_field, applyConfirmed_field, auditField_field, auditField_field]
    · rw [auditField_field, auditField_field]
      exact eases.confirmed field.column
  have sameStats : eased.tocStats = input.tocStats := by rw [eases.same]
  have severity := shapeSeverity_mono (auditTocShape_sublist eases).subset eased.tocStats.totalTocEntries
    eases.relaxes
  obtain ⟨verdict, confidence⟩ := applyShape_mono (computeVerdict_mono fields) (rollupConfidence_mono fields)
    severity.1 severity.2
  rw [sameStats] at verdict confidence
  rw [← run_judged unicode input, ← sameStats, ← run_judged unicode eased] at verdict confidence
  exact ⟨fields, verdict, confidence⟩

/-! ### Easing by one step -/

/-- **A switch that weakens**: without it nothing is graded or judged lower. -/
theorem switchOff_noLower {toggle : BookToggle}
    (weakening : toggle ≠ .publisherWhitelistNormalizeAbbreviations) :
    (run unicode input profile).NoLower (run unicode input (profile.switchOff toggle)) :=
  run_noLower ⟨rfl, fun _ => id, fun _ => id, fun _ => rfl, switchOff_relaxes weakening⟩

/-- The field's value set by a curator to what it is, as a confirmed value or not. -/
def AuditInput.override (input : AuditInput) (field : AuditedField) (confirmed : Bool) : AuditInput :=
  { input with origins := input.origins.addOverride field.column confirmed }

theorem isOverridden_addOverride {origins : FieldOrigins} {column field : String} {confirmed : Bool}
    (isOverridden : origins.isOverridden field = true) :
    (origins.addOverride column confirmed).isOverridden field = true := by
  rw [FieldOrigins.isOverridden, List.contains_iff_mem] at isOverridden ⊢
  exact List.mem_insert_of_mem isOverridden

theorem isConfirmed_addOverride {origins : FieldOrigins} {column field : String} {confirmed : Bool}
    (isConfirmed : origins.isConfirmed field = true) :
    (origins.addOverride column confirmed).isConfirmed field = true := by
  rw [FieldOrigins.isConfirmed, List.contains_iff_mem] at isConfirmed ⊢
  cases confirmed with
  | false => exact isConfirmed
  | true => exact List.mem_insert_of_mem isConfirmed

theorem override_noLower (field : AuditedField) (confirmed : Bool) :
    (run unicode input profile).NoLower (run unicode (input.override field confirmed) profile) :=
  run_noLower ⟨rfl, fun _ => isOverridden_addOverride, fun _ => isConfirmed_addOverride, fun _ => rfl,
    .refl profile⟩

/-- Confirming the mark lowers nothing that the mark alone has left. -/
theorem confirm_noLower (field : AuditedField) :
    (run unicode (input.override field false) profile).NoLower
      (run unicode (input.override field true) profile) := by
  refine run_noLower ⟨rfl, fun _ => id, fun other isConfirmed => ?_, fun _ => rfl, .refl profile⟩
  exact @isConfirmed_addOverride _ field.column other true isConfirmed

/-- **The pin**: every confirmed field without a validation flag is `Strong`. -/
theorem confirmed_strong {report : FieldReport} (isReport : report ∈ (run unicode input profile).fields)
    (isConfirmed : input.origins.isConfirmed report.field.column = true)
    (unflagged : ∀ flag ∈ report.flags, ¬Validates flag) : report.grade = .strong := by
  obtain ⟨field, -, rfl⟩ := List.mem_map.mp isReport
  rw [applyConfirmed_field] at isConfirmed
  rw [applyConfirmed_flags] at unflagged
  exact applyConfirmed_strong isConfirmed unflagged

end Bookrack.Audit
