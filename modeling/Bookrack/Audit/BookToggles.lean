/-
The switches of the book profile (`audit-profile/src/lib.rs`).

`Relaxes profile relaxed`: fewer switches are on, and no threshold differs. `switchOff_relaxes`: one
switch less relaxes the profile, unless it is the one that lets the whitelist see more.
-/

import Bookrack.Audit.Book

namespace Bookrack.Audit

/-- The switches of `AuditProfile`, section by section. -/
inductive BookToggle
  | auditEnabled
  | yearRangeCheck
  | yearPdfLikelyFileDate
  | yearTimestampForm
  | yearCrossFieldFilenameOverride
  | titlePlaceholderCheck
  | titlePurelyNumeric
  | titleSeriesParen
  | titleMarketingBlock
  | titleAggregatorMarker
  | titleVolumeMarker
  | languageBcp47Check
  | languageBodyScriptMatch
  | publisherUrlWatermark
  | publisherWhitelistNormalizeAbbreviations
  | publisherDrop10digitIsbnToFilename
  | tocShapeSuspiciousFlat
  | tocShapeHeadingBlockSkew
  | tocShapeEmptyLargeBody
  | sourcePriorEnabled
  | copyrightBlocksEnabled
  | filenameParserEnabled
  | extractEpubYearRangeCheck
  | extractEpubIsbnRecognition
  | extractMarcRoleMapping
  | extractTxtTocEnabled
  deriving DecidableEq, Repr

/-- The state of a switch. -/
def AuditProfile.isOn (profile : AuditProfile) : BookToggle → Bool
  | .auditEnabled => profile.auditEnabled
  | .yearRangeCheck => profile.year.rangeCheck
  | .yearPdfLikelyFileDate => profile.year.pdfLikelyFileDate
  | .yearTimestampForm => profile.year.timestampForm
  | .yearCrossFieldFilenameOverride => profile.year.crossFieldFilenameOverride
  | .titlePlaceholderCheck => profile.title.placeholderCheck
  | .titlePurelyNumeric => profile.title.purelyNumeric
  | .titleSeriesParen => profile.title.seriesParen
  | .titleMarketingBlock => profile.title.marketingBlock
  | .titleAggregatorMarker => profile.title.aggregatorMarker
  | .titleVolumeMarker => profile.title.volumeMarker
  | .languageBcp47Check => profile.language.bcp47Check
  | .languageBodyScriptMatch => profile.language.bodyScriptMatch
  | .publisherUrlWatermark => profile.publisher.urlWatermark
  | .publisherWhitelistNormalizeAbbreviations => profile.publisher.whitelistNormalizeAbbreviations
  | .publisherDrop10digitIsbnToFilename => profile.publisher.drop10digitIsbnToFilename
  | .tocShapeSuspiciousFlat => profile.tocShape.suspiciousFlat
  | .tocShapeHeadingBlockSkew => profile.tocShape.headingBlockSkew
  | .tocShapeEmptyLargeBody => profile.tocShape.emptyLargeBody
  | .sourcePriorEnabled => profile.sourcePriorEnabled
  | .copyrightBlocksEnabled => profile.copyrightBlocks.enabled
  | .filenameParserEnabled => profile.filenameParserEnabled
  | .extractEpubYearRangeCheck => profile.extract.epubYearRangeCheck
  | .extractEpubIsbnRecognition => profile.extract.epubIsbnRecognition
  | .extractMarcRoleMapping => profile.extract.marcRoleMapping
  | .extractTxtTocEnabled => profile.extract.txtTocEnabled

/-- The profile with one switch off. -/
def AuditProfile.switchOff (profile : AuditProfile) : BookToggle → AuditProfile
  | .auditEnabled => { profile with auditEnabled := false }
  | .yearRangeCheck => { profile with year.rangeCheck := false }
  | .yearPdfLikelyFileDate => { profile with year.pdfLikelyFileDate := false }
  | .yearTimestampForm => { profile with year.timestampForm := false }
  | .yearCrossFieldFilenameOverride => { profile with year.crossFieldFilenameOverride := false }
  | .titlePlaceholderCheck => { profile with title.placeholderCheck := false }
  | .titlePurelyNumeric => { profile with title.purelyNumeric := false }
  | .titleSeriesParen => { profile with title.seriesParen := false }
  | .titleMarketingBlock => { profile with title.marketingBlock := false }
  | .titleAggregatorMarker => { profile with title.aggregatorMarker := false }
  | .titleVolumeMarker => { profile with title.volumeMarker := false }
  | .languageBcp47Check => { profile with language.bcp47Check := false }
  | .languageBodyScriptMatch => { profile with language.bodyScriptMatch := false }
  | .publisherUrlWatermark => { profile with publisher.urlWatermark := false }
  | .publisherWhitelistNormalizeAbbreviations =>
    { profile with publisher.whitelistNormalizeAbbreviations := false }
  | .publisherDrop10digitIsbnToFilename => { profile with publisher.drop10digitIsbnToFilename := false }
  | .tocShapeSuspiciousFlat => { profile with tocShape.suspiciousFlat := false }
  | .tocShapeHeadingBlockSkew => { profile with tocShape.headingBlockSkew := false }
  | .tocShapeEmptyLargeBody => { profile with tocShape.emptyLargeBody := false }
  | .sourcePriorEnabled => { profile with sourcePriorEnabled := false }
  | .copyrightBlocksEnabled => { profile with copyrightBlocks.enabled := false }
  | .filenameParserEnabled => { profile with filenameParserEnabled := false }
  | .extractEpubYearRangeCheck => { profile with extract.epubYearRangeCheck := false }
  | .extractEpubIsbnRecognition => { profile with extract.epubIsbnRecognition := false }
  | .extractMarcRoleMapping => { profile with extract.marcRoleMapping := false }
  | .extractTxtTocEnabled => { profile with extract.txtTocEnabled := false }

/-- Fewer switches are on, and nothing else that the audit reads differs. -/
structure AuditProfile.Relaxes (profile relaxed : AuditProfile) : Prop where
  toggles : ∀ toggle, relaxed.isOn toggle = true → profile.isOn toggle = true
  yearMin : relaxed.year.min = profile.year.min
  yearMax : relaxed.year.max = profile.year.max
  bracketedMinChars : relaxed.title.bracketedMinChars = profile.title.bracketedMinChars
  language : relaxed.language = { profile.language with
    bcp47Check := relaxed.language.bcp47Check
    bodyScriptMatch := relaxed.language.bodyScriptMatch }
  whitelist : relaxed.publisher.whitelistNormalizeAbbreviations =
    profile.publisher.whitelistNormalizeAbbreviations
  flatSevereMinEntries : relaxed.tocShape.flatSevereMinEntries = profile.tocShape.flatSevereMinEntries
  largeBodyMinBlocks : relaxed.tocShape.largeBodyMinBlocks = profile.tocShape.largeBodyMinBlocks

variable {profile relaxed : AuditProfile}

theorem AuditProfile.Relaxes.refl (profile : AuditProfile) : profile.Relaxes profile :=
  ⟨fun _ => id, rfl, rfl, rfl, rfl, rfl, rfl, rfl⟩

/-- A switch in front of a test that reads no switch. -/
theorem AuditProfile.Relaxes.gated (relaxes : profile.Relaxes relaxed) (toggle : BookToggle) (test : Bool) :
    (relaxed.isOn toggle && test) = true → (profile.isOn toggle && test) = true := by
  rw [Bool.and_eq_true, Bool.and_eq_true]
  exact And.imp_left (relaxes.toggles toggle)

theorem isOn_switchOff (toggle other : BookToggle) :
    (profile.switchOff toggle).isOn other = if other = toggle then false else profile.isOn other := by
  by_cases same : other = toggle
  · subst same
    rw [if_pos rfl]
    cases other <;> rfl
  · rw [if_neg same]
    cases toggle <;> cases other <;> first | rfl | exact absurd rfl same

theorem switchOff_relaxes {toggle : BookToggle}
    (weakening : toggle ≠ .publisherWhitelistNormalizeAbbreviations) :
    profile.Relaxes (profile.switchOff toggle) where
  toggles := fun other isOn => by
    rw [isOn_switchOff] at isOn
    split at isOn
    · cases isOn
    · exact isOn
  yearMin := by cases toggle <;> rfl
  yearMax := by cases toggle <;> rfl
  bracketedMinChars := by cases toggle <;> rfl
  language := by cases toggle <;> rfl
  whitelist := by cases toggle <;> first | rfl | contradiction
  flatSevereMinEntries := by cases toggle <;> rfl
  largeBodyMinBlocks := by cases toggle <;> rfl

end Bookrack.Audit
