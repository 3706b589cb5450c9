/-
The book audit with every switch off.

**`flags_allOff`**: on the fields there remain the structural flags, the two that say a field has no
value, and what the operator's lists say of the publisher; `shapeFlags_allOff`: on the shape, only
structural ones.
-/

import Bookrack.Audit.Eased

namespace Bookrack.Audit

open Bookrack.Graded (pushes_append)
open Normalize (trim)

variable {unicode : UnicodeTables} {input : AuditInput} {profile : AuditProfile}

/-- The structural signals, which no switch gates. -/
def Flag.isStructural : Flag → Bool
  | .isbnCheckFailed | .equalsFilename | .equalsPublisher | .tocUnanchoredSome | .tocUnanchoredHalf
  | .doubtfulTextLayer => true
  | _ => false

/-- What the operator's lists, which are always consulted, say of a publisher. -/
def Flag.isOperators : Flag → Bool
  | .sourceWatermark | .publisherWhitelisted => true
  | .publisherRuleHit rule =>
    [WhitelistMatch.exactLower.rule, WhitelistMatch.normalized.rule, WatermarkKind.contactToken.rule,
      WatermarkKind.promoToken.rule, WatermarkKind.asciiDistribution.rule,
      WatermarkKind.cjkToken.rule].contains rule
  | _ => false

/-- A field without a value, or with a blank one. -/
def AuditInput.isBlank (input : AuditInput) (field : AuditedField) : Prop :=
  ∀ text, input.value field = some text → trim text = []

/-- The flags that are left: the structural ones, those of a field with no value, and those of the
operator's lists on the publisher. -/
def AuditInput.Leaves (input : AuditInput) (field : AuditedField) (flag : Flag) : Prop :=
  flag.isStructural = true ∨ flag = .empty ∧ input.isBlank field ∨
    flag = .voided ∧ input.origins.isVoided field.column = true ∨
    field = .publisher ∧ flag.isOperators = true

theorem isBlank_of_none {field : AuditedField} (absent : input.value field = none) : input.isBlank field := by
  intro text isText
  rw [absent] at isText
  cases isText

theorem isBlank_of_some {field : AuditedField} {text : List Char} (isValue : input.value field = some text)
    (blank : trim text = []) : input.isBlank field := by
  intro other isText
  rw [isValue] at isText
  rwa [← Option.some.inj isText]

variable {one : Graded FieldGrade Flag} {prior : SourcePrior} {doubtful : Bool} {flag : Flag}

theorem mem_weakenIf {fires : Bool} {added : Flag} :
    flag ∈ (weakenIf one fires added).flags ↔ flag ∈ one.flags ∨ fires = true ∧ flag = added := by
  rw [weakenIf, Graded.mem_signal (pushes_append _), List.mem_singleton]

section AllOff

variable (allOff : ∀ toggle, profile.isOn toggle = false)
include allOff

/-- A signal whose switch is off adds nothing. -/
theorem of_mem_gated (toggle : BookToggle) {test : Bool} {added : Flag}
    (member : flag ∈ (weakenIf one (profile.isOn toggle && test) added).flags) : flag ∈ one.flags := by
  rw [mem_weakenIf, allOff toggle] at member
  exact member.resolve_right fun fires => Bool.noConfusion fires.1

/-- Of the two signals about the extractor the source prior falls silent. -/
theorem mem_applyOrigin_off {present : Bool}
    (member : flag ∈ (applyOrigin one prior doubtful present profile).flags) :
    flag ∈ one.flags ∨ flag.isStructural = true := by
  rw [applyOrigin, applyDoubtful, applySourcePrior, mem_weakenIf, mem_weakenIf,
    show profile.sourcePriorEnabled = false from allOff .sourcePriorEnabled] at member
  obtain (before | ⟨fires, -⟩) | ⟨-, rfl⟩ := member
  · exact .inl before
  · simp at fires
  · exact .inr rfl

theorem mem_titleSignals_off {trimmed : List Char}
    (member : flag ∈ (titleSignals unicode input profile trimmed).flags) : flag.isStructural = true := by
  have ungated : profile.title.anyBracketedEnabled = false := by
    simp only [TitleToggles.anyBracketedEnabled, Bool.or_eq_false_iff]
    exact ⟨⟨⟨allOff .titleSeriesParen, allOff .titleMarketingBlock⟩, allOff .titleAggregatorMarker⟩,
      allOff .titleVolumeMarker⟩
  rw [titleSignals, ungated, if_neg (by decide), titleValueSignals, mem_weakenIf, mem_weakenIf] at member
  obtain (gated | ⟨-, rfl⟩) | ⟨-, rfl⟩ := member
  · have inPlaceholder := of_mem_gated allOff .titlePurelyNumeric gated
    have inStart := of_mem_gated allOff .titlePlaceholderCheck inPlaceholder
    cases inStart
  · rfl
  · rfl

theorem mem_languageSignals_off {trimmed : List Char} :
    flag ∉ (languageSignals unicode input profile trimmed).flags := by
  intro member
  rw [languageSignals] at member
  have inTag := of_mem_gated allOff .languageBodyScriptMatch member
  have inStart := of_mem_gated allOff .languageBcp47Check inTag
  cases inStart

theorem mem_yearSignals_off {text : List Char} : flag ∉ (yearSignals input profile text).flags := by
  intro member
  rw [yearSignals] at member
  have inFileDate := of_mem_gated allOff .yearTimestampForm member
  have inRange := of_mem_gated allOff .yearPdfLikelyFileDate inFileDate
  have inStart := of_mem_gated allOff .yearRangeCheck inRange
  cases inStart

/-- What the verdict on a publisher rests on when neither its sniff nor the abbreviations are on. -/
theorem mem_publisherVerdict_off {value : List Char} {data : AuditData}
    (member : flag ∈ (publisherVerdict (evaluate unicode value data profile.publisher.urlWatermark
      profile.publisher.whitelistNormalizeAbbreviations)).flags) : flag.isOperators = true := by
  rw [show profile.publisher.urlWatermark = false from allOff .publisherUrlWatermark,
    show profile.publisher.whitelistNormalizeAbbreviations = false from
      allOff .publisherWhitelistNormalizeAbbreviations, evaluate] at member
  split at member
  · cases member
  · split at member
    · rename_i kind isKind
      obtain ⟨notUrl, notEmail⟩ := classifyWatermark_off isKind
      simp only [publisherVerdict, List.mem_cons, List.not_mem_nil, or_false] at member
      obtain rfl | rfl := member
      · rfl
      · cases kind <;> first | contradiction | decide
    · split at member
      · rename_i matchKind isMatch
        have unexpanded : matchKind ≠ .abbrevExpand := by
          rintro rfl
          exact classifyWhitelistMatch_off isMatch
        simp only [publisherVerdict, List.mem_cons, List.not_mem_nil, or_false] at member
        obtain rfl | rfl := member
        · rfl
        · cases matchKind <;> first | contradiction | decide
      · cases member

/-- A flag of a field that has been followed up to the signals about the extractor. -/
theorem leaves_applyOrigin {field : AuditedField} {present : Bool}
    (started : ∀ flag ∈ one.flags, input.Leaves field flag)
    (member : flag ∈ (applyOrigin one prior doubtful present profile).flags) : input.Leaves field flag := by
  obtain before | structural := mem_applyOrigin_off allOff member
  · exact started flag before
  · exact .inl structural

omit allOff in
theorem leaves_missing {field : AuditedField} (blank : input.isBlank field) :
    ∀ flag ∈ missing.flags, input.Leaves field flag := by
  intro flag member
  obtain rfl := List.mem_singleton.mp member
  exact .inr (.inl ⟨rfl, blank⟩)

omit allOff in
theorem leaves_startField {field : AuditedField} {signals : List Char → Graded FieldGrade Flag}
    (judged : ∀ text, ∀ flag ∈ (signals text).flags, input.Leaves field flag) :
    ∀ flag ∈ (startField (input.value field) signals).flags, input.Leaves field flag := by
  cases isValue : input.value field with
  | none => exact leaves_missing (isBlank_of_none isValue)
  | some text =>
    rw [startField]
    split
    · next blank => exact leaves_missing (isBlank_of_some isValue blank)
    · exact judged (trim text)

theorem leaves_auditPublisher (member : flag ∈ (auditPublisher unicode input profile prior doubtful).flags) :
    input.Leaves .publisher flag := by
  rw [auditPublisher] at member
  have pushes : Graded.Pushes (id : List Flag → List Flag) [] := by simp [Graded.Pushes]
  obtain inOrigin | ⟨-, none⟩ := (Graded.mem_signal pushes).mp member
  · refine leaves_applyOrigin allOff (leaves_startField fun trimmed flag inVerdict => ?_) inOrigin
    exact .inr (.inr (.inr ⟨rfl, mem_publisherVerdict_off allOff inVerdict⟩))
  · cases none

theorem leaves_auditYear (member : flag ∈ (auditYear input profile prior doubtful).flags) :
    input.Leaves .year flag := by
  rw [auditYear] at member
  refine leaves_applyOrigin allOff ?_ member
  cases isValue : input.value .year with
  | none => exact leaves_missing (isBlank_of_none isValue)
  | some text => exact fun flag inSignals => absurd inSignals (mem_yearSignals_off allOff)

omit allOff in
theorem leaves_auditIsbn (member : flag ∈ (auditIsbn input doubtful).flags) : input.Leaves .isbn flag := by
  rw [auditIsbn, applyDoubtful, mem_weakenIf] at member
  obtain inStart | ⟨-, rfl⟩ := member
  · cases isValue : input.value .isbn with
    | none =>
      rw [isValue] at inStart
      cases inStart
    | some text =>
      rw [isValue] at inStart
      obtain inPresent | ⟨-, rfl⟩ := mem_weakenIf.mp inStart
      · cases inPresent
      · exact .inl rfl
  · exact .inl rfl

theorem leaves_auditOptional {field : AuditedField}
    (member : flag ∈ (auditOptional input profile prior doubtful field).flags) : input.Leaves field flag := by
  rw [auditOptional] at member
  refine leaves_applyOrigin allOff ?_ member
  cases isValue : input.value field with
  | none => exact List.forall_mem_nil _
  | some text =>
    simp only
    split
    · next blank =>
      intro flag inStart
      obtain rfl := List.mem_singleton.mp inStart
      exact .inr (.inl ⟨rfl, isBlank_of_some isValue blank⟩)
    · exact List.forall_mem_nil _

theorem leaves_auditField {field : AuditedField}
    (member : flag ∈ (auditField unicode input profile field).flags) :
    input.Leaves field flag := by
  by_cases isVoided : input.origins.isVoided field.column = true
  · rw [auditField_voided isVoided] at member
    obtain rfl := List.mem_singleton.mp member
    exact .inr (.inr (.inl ⟨rfl, isVoided⟩))
  · cases field <;> rw [auditField, if_neg isVoided] at member
    case title =>
      exact leaves_applyOrigin allOff (leaves_startField fun _ _ inSignals =>
        .inl (mem_titleSignals_off allOff inSignals)) member
    case language =>
      exact leaves_applyOrigin allOff (leaves_startField fun _ _ inSignals =>
        absurd inSignals (mem_languageSignals_off allOff)) member
    case publisher => exact leaves_auditPublisher allOff member
    case year => exact leaves_auditYear allOff member
    case isbn => exact leaves_auditIsbn member
    case subtitle => exact leaves_auditOptional allOff member
    case series => exact leaves_auditOptional allOff member

/-- **With every switch off** a field carries no other flag. -/
theorem flags_allOff {report : FieldReport} (isReport : report ∈ (run unicode input profile).fields)
    (member : flag ∈ report.flags) : input.Leaves report.field flag := by
  obtain ⟨field, -, rfl⟩ := List.mem_map.mp isReport
  rw [applyConfirmed_flags] at member
  rw [applyConfirmed_field, auditField_field]
  exact leaves_auditField allOff member

/-- **With every switch off** the shape carries structural flags. -/
theorem shapeFlags_allOff (member : flag ∈ (run unicode input profile).shapeFlags) :
    flag.isStructural = true := by
  have isShape : flag ∈ auditTocShape input profile := member
  rw [auditTocShape, show profile.tocShape.emptyLargeBody = false from allOff .tocShapeEmptyLargeBody,
    show profile.tocShape.suspiciousFlat = false from allOff .tocShapeSuspiciousFlat,
    show profile.tocShape.headingBlockSkew = false from allOff .tocShapeHeadingBlockSkew] at isShape
  simp only [Bool.false_and, Bool.false_eq_true, if_false, List.nil_append, List.append_nil,
    List.mem_append] at isShape
  obtain some | half := isShape
  · split at some
    · rw [List.mem_singleton.mp some]
      rfl
    · cases some
  · split at half
    · rw [List.mem_singleton.mp half]
      rfl
    · cases half

end AllOff

end Bookrack.Audit
