/-
The two audits are monotone.

`AuditsMonotone` collects what holds of every input: without one of its weakening switches an audit
lowers no grade, no verdict and no confidence; nor does the book audit when a curator marks a value
and confirms it, which pins the field; and with every switch off few flags are left.

The flags that are left in the book audit are more than the structural ones
(`unvalued_not_structural`), and the master switch of the papers, which skips the audit, is no weakening
one (`unaudited_less_confident`).
-/

import Bookrack.Audit.Quiet
import Bookrack.Audit.PaperToggles

namespace Bookrack.Audit

open Paper (PaperAuditInput PaperAuditProfile PaperAuditData PaperToggle PaperFlag auditPaper)

/-- What the audits do when less speaks against a value. -/
structure AuditsMonotone : Prop where
  bookToggle : ∀ (unicode : UnicodeTables) (input : AuditInput) (profile : AuditProfile) (toggle : BookToggle),
    toggle ≠ .publisherWhitelistNormalizeAbbreviations →
    (run unicode input profile).NoLower (run unicode input (profile.switchOff toggle))
  paperToggle : ∀ (unicode : UnicodeTables) (input : PaperAuditInput) (profile : PaperAuditProfile)
    (data : PaperAuditData) (toggle : PaperToggle), toggle ≠ .auditEnabled →
    (auditPaper unicode input profile data).NoLower (auditPaper unicode input (profile.switchOff toggle) data)
  overridden : ∀ (unicode : UnicodeTables) (input : AuditInput) (profile : AuditProfile) (field : AuditedField),
    (run unicode input profile).NoLower (run unicode (input.override field false) profile)
  confirmed : ∀ (unicode : UnicodeTables) (input : AuditInput) (profile : AuditProfile) (field : AuditedField),
    (run unicode (input.override field false) profile).NoLower
      (run unicode (input.override field true) profile)
  pinned : ∀ (unicode : UnicodeTables) (input : AuditInput) (profile : AuditProfile),
    ∀ report ∈ (run unicode input profile).fields, input.origins.isConfirmed report.field.column = true →
      (∀ flag ∈ report.flags, flag.isValidation = false) → report.grade = .strong
  bookFlags : ∀ (unicode : UnicodeTables) (input : AuditInput) (profile : AuditProfile),
    (∀ toggle, profile.isOn toggle = false) →
    (∀ report ∈ (run unicode input profile).fields, ∀ flag ∈ report.flags, input.Leaves report.field flag) ∧
      ∀ flag ∈ (run unicode input profile).shapeFlags, flag.isStructural = true
  paperFlags : ∀ (unicode : UnicodeTables) (input : PaperAuditInput) (profile : PaperAuditProfile)
    (data : PaperAuditData), (∀ toggle, toggle ≠ .auditEnabled → profile.isOn toggle = false) →
    (∀ report ∈ (auditPaper unicode input profile data).fields, ∀ flag ∈ report.2.flags,
      report.1 = "title" ∧ flag = .sourceWatermark ∨ report.1 = "author" ∧ flag = .doubtfulTextLayer) ∧
      (auditPaper unicode input profile data).crossFieldFlags = []

theorem audits_monotone : AuditsMonotone where
  bookToggle := fun _ _ _ _ weakening => switchOff_noLower weakening
  paperToggle := fun _ _ _ _ _ weakening => Paper.switchOff_noLower weakening
  overridden := fun _ _ _ field => override_noLower field false
  confirmed := fun _ _ _ field => confirm_noLower field
  pinned := fun _ _ _ _ isReport isConfirmed unflagged =>
    confirmed_strong isReport isConfirmed fun flag member validates => by
      rw [Validates, unflagged flag member] at validates
      cases validates
  bookFlags := fun _ _ _ allOff =>
    ⟨fun _ isReport _ member => flags_allOff allOff isReport member,
      fun _ member => shapeFlags_allOff allOff member⟩
  paperFlags := fun _ _ _ _ allOff =>
    ⟨fun _ isReport _ member => Paper.flags_allOff allOff isReport member, Paper.crossFieldFlags_allOff allOff⟩

/-! ### The flags that are left -/

/-- A profile with every switch off. -/
def quietProfile : AuditProfile where
  auditEnabled := false
  year := ⟨false, 1450, 2100, false, false, false⟩
  title := ⟨false, false, false, false, false, false, 1⟩
  language := ⟨false, false, [], [], 0, 0, 0⟩
  publisher := ⟨false, false, false⟩
  tocShape := ⟨false, 10, false, false, 100⟩
  sourcePriorEnabled := false
  copyrightBlocks := ⟨false, 6⟩
  filenameParserEnabled := false
  extract := ⟨false, false, false, false⟩

/-- A book of which nothing is known. -/
def unvalued : AuditInput where
  biblio := ⟨none, none⟩
  provenance := ⟨"epub", .bornDigital⟩
  effective := ⟨(1, .book), ∅⟩
  tocStats := ⟨1, 0, false, false⟩
  bodySample := []
  totalBlocks := 1
  sourceStem := none
  data := .empty
  origins := ⟨[], [], []⟩

/-- With every switch off a title that is missing still carries a flag that is not structural. -/
theorem unvalued_not_structural : ¬∀ (unicode : UnicodeTables) (input : AuditInput) (profile : AuditProfile),
    (∀ toggle, profile.isOn toggle = false) →
    ∀ report ∈ (run unicode input profile).fields, ∀ flag ∈ report.flags, flag.isStructural = true := by
  intro structural
  let unicode : UnicodeTables := ⟨id, Char.isAlphanum, Char.isAlpha, Char.isDigit, Char.isDigit⟩
  have isReport : applyConfirmed (auditField unicode unvalued quietProfile .title) unvalued.origins ∈
      (run unicode unvalued quietProfile).fields := List.mem_map_of_mem (by decide)
  have isStructural := structural unicode unvalued quietProfile (by rintro ⟨⟩ <;> rfl) _ isReport .empty
    (by decide)
  cases isStructural

/-- A paper profile with its master switch on, and no other. -/
def lenientProfile : PaperAuditProfile where
  auditEnabled := true
  identifier := ⟨false, false, false, false, false⟩
  abstractText := ⟨false, 0⟩
  author := ⟨false, false, false⟩
  title := ⟨false, false, false, false, false⟩
  year := ⟨false, false, 1450, 2100, false, false⟩
  language := ⟨false, false, [], [], 0, 0, 0⟩
  venueWhitelistCheck := false
  sourcePriorEnabled := false

/-- A paper with everything its type requires. -/
def wholePaper : PaperAuditInput where
  biblio := ⟨none, [⟨"A. Author".toList, .author, none⟩], some .book⟩
  provenance := ⟨"pdf", .bornDigital⟩
  effective := ⟨(1, .paper), (AList.singleton "year" "1921").insert "title" "On Rings"⟩
  bodySample := []
  sourceStem := none

/-- A paper that is audited with high confidence has medium confidence when its audit is skipped. -/
theorem unaudited_less_confident : ¬∀ (unicode : UnicodeTables) (input : PaperAuditInput)
    (profile : PaperAuditProfile) (data : PaperAuditData) (toggle : PaperToggle),
    (auditPaper unicode input profile data).confidence ≤
      (auditPaper unicode input (profile.switchOff toggle) data).confidence := by
  intro kept
  let unicode : UnicodeTables := ⟨id, Char.isAlphanum, Char.isAlpha, Char.isDigit, Char.isDigit⟩
  have isKept := kept unicode wholePaper lenientProfile ⟨[], [], [], [], []⟩ .auditEnabled
  revert isKept
  decide +kernel

/-- With every switch off, a missing value is still flagged; and the master switch of the papers lowers the
confidence. -/
theorem unvalued_unaudited : (¬∀ (unicode : UnicodeTables) (input : AuditInput) (profile : AuditProfile),
    (∀ toggle, profile.isOn toggle = false) →
    ∀ report ∈ (run unicode input profile).fields, ∀ flag ∈ report.flags, flag.isStructural = true) ∧
    ¬∀ (unicode : UnicodeTables) (input : PaperAuditInput) (profile : PaperAuditProfile)
      (data : PaperAuditData) (toggle : PaperToggle),
      (auditPaper unicode input profile data).confidence ≤
        (auditPaper unicode input (profile.switchOff toggle) data).confidence :=
  ⟨unvalued_not_structural, unaudited_less_confident⟩

end Bookrack.Audit
