/-
The publisher evaluator (`metadata/src/publishers.rs`): is a value a watermark of a distribution
channel, one of the reputable imprints, or neither.

`evaluate_eased`: without the URL and e-mail sniff a value is judged as before, unless that sniff was
what found it to be a watermark.
-/

import Bookrack.Audit.Grade
import Mathlib.Data.List.Basic

namespace Bookrack.Audit

open Normalize (trim)

/-- `AuditData`, the lists the metadata audit consults. -/
structure AuditData where
  publisherWhitelist : List (List Char)
  watermarkUrlSubstrings : List (List Char)
  watermarkEmailSubstrings : List (List Char)
  contactTokens : List (List Char)
  promoTokens : List (List Char)
  asciiDistributionTokens : List (List Char)
  watermarkCjkTokens : List (List Char)
  abbreviations : List (List Char × List Char)
  placeholderTitles : List (List Char)
  volumeSuffixTokens : List (List Char)

/-- `AuditData::empty`. -/
def AuditData.empty : AuditData := ⟨[], [], [], [], [], [], [], [], [], []⟩

/-- `WhitelistMatch`. -/
inductive WhitelistMatch
  | exactLower
  | normalized
  | abbrevExpand
  deriving DecidableEq, Repr

/-- `WhitelistMatch::rule`. -/
def WhitelistMatch.rule : WhitelistMatch → String
  | .exactLower => "publisher:whitelist_exact_lower"
  | .normalized => "publisher:whitelist_normalized"
  | .abbrevExpand => "publisher:whitelist_abbrev_expand"

/-- `WatermarkKind`. -/
inductive WatermarkKind
  | urlSubstring
  | emailSubstring
  | contactToken
  | promoToken
  | asciiDistribution
  | cjkToken
  deriving DecidableEq, Repr

/-- `WatermarkKind::rule`. -/
def WatermarkKind.rule : WatermarkKind → String
  | .urlSubstring => "publisher:watermark_url_substring"
  | .emailSubstring => "publisher:watermark_email_substring"
  | .contactToken => "publisher:watermark_contact_token"
  | .promoToken => "publisher:watermark_promo_token"
  | .asciiDistribution => "publisher:watermark_ascii_distribution"
  | .cjkToken => "publisher:watermark_cjk_token"

/-- `PublisherVerdict`. -/
inductive PublisherVerdict
  | whitelisted (matchKind : WhitelistMatch)
  | watermark (kind : WatermarkKind)
  | neutral
  deriving DecidableEq, Repr

variable (unicode : UnicodeTables)

/-- One list of needles, matched against the lower-cased value. -/
def anyToken (lower : List Char) (needles : List (List Char)) : Bool :=
  needles.any fun needle => needle ≠ [] && contains lower (unicode.toLowercase needle)

/-- `classify_watermark`. -/
def classifyWatermark (value : List Char) (data : AuditData) (urlWatermark : Bool) :
    Option WatermarkKind :=
  let lower := unicode.toLowercase value
  if urlWatermark && anyToken unicode lower data.watermarkUrlSubstrings then some .urlSubstring
  else if urlWatermark && anyToken unicode lower data.watermarkEmailSubstrings then some .emailSubstring
  else if anyToken unicode lower data.contactTokens then some .contactToken
  else if anyToken unicode lower data.promoTokens then some .promoToken
  else if anyToken unicode lower data.asciiDistributionTokens then some .asciiDistribution
  else if data.watermarkCjkTokens.any fun token => token ≠ [] && contains value token then
    some .cjkToken
  else none

/-- The loop of `normalise`; text has been written whenever the last character was no space. -/
def normaliseFrom : Bool → List Char → List Char
  | _, [] => []
  | lastSpace, ch :: rest =>
    let ch := ch.toLower
    if unicode.isAlphanumeric ch then ch :: normaliseFrom false rest
    else if isWhitespace ch && !lastSpace then ' ' :: normaliseFrom true rest
    else normaliseFrom lastSpace rest

/-- `split_whitespace`. -/
def splitWhitespace (text : List Char) : List (List Char) :=
  (text.splitOnP isWhitespace).filter (· ≠ [])

/-- `expand_abbreviations`. -/
def expandAbbreviations (value : List Char) (abbreviations : List (List Char × List Char)) : List Char :=
  [' '].intercalate ((splitWhitespace value).map fun tok => (abbreviations.lookup tok).getD tok)

/-- `normalise`. -/
def normalise (value : List Char) (abbreviations : List (List Char × List Char)) (expandAbbrev : Bool) :
    List Char :=
  let out := normaliseFrom unicode true value
  let out := if out.getLast? = some ' ' then out.dropLast else out
  if expandAbbrev then expandAbbreviations out abbreviations else out

/-- `classify_whitelist_match`. -/
def classifyWhitelistMatch (value : List Char) (data : AuditData) (expandAbbrev : Bool) :
    Option WhitelistMatch :=
  let alike (key : List Char → List Char) := data.publisherWhitelist.any fun candidate =>
    key candidate == key value
  if alike unicode.toLowercase then some .exactLower
  else if alike fun name => normalise unicode name data.abbreviations false then some .normalized
  else if expandAbbrev && alike fun name => normalise unicode name data.abbreviations true then
    some .abbrevExpand
  else none

/-- `evaluate`. -/
def evaluate (value : List Char) (data : AuditData) (urlWatermark normaliseAbbreviations : Bool) :
    PublisherVerdict :=
  let trimmed := trim value
  if trimmed = [] then .neutral
  else
    match classifyWatermark unicode trimmed data urlWatermark with
    | some kind => .watermark kind
    | none =>
      match classifyWhitelistMatch unicode trimmed data normaliseAbbreviations with
      | some matchKind => .whitelisted matchKind
      | none => .neutral

section Eased

variable {unicode}

/-- Without the sniff a watermark is only found through the operator's lists. -/
theorem classifyWatermark_off {value : List Char} {data : AuditData} {kind : WatermarkKind}
    (isKind : classifyWatermark unicode value data false = some kind) :
    kind ≠ .urlSubstring ∧ kind ≠ .emailSubstring := by
  rw [classifyWatermark] at isKind
  split_ifs at isKind <;> first | contradiction | (obtain rfl := Option.some.inj isKind; decide)

/-- Without the abbreviations no match is owed to them. -/
theorem classifyWhitelistMatch_off {value : List Char} {data : AuditData} :
    classifyWhitelistMatch unicode value data false ≠ some .abbrevExpand := by
  intro isMatch
  rw [classifyWhitelistMatch] at isMatch
  split_ifs at isMatch with lower normalized expanded
  · cases isMatch
  · cases isMatch
  · rw [Bool.false_and] at expanded
    cases expanded

/-- **Easing the sniff** leaves the verdict as it is, or takes a watermark back. -/
theorem evaluate_eased (value : List Char) (data : AuditData) {sniff sniff' : Bool} (expand : Bool)
    (less : sniff' = true → sniff = true) :
    (∃ kind, evaluate unicode value data sniff expand = .watermark kind) ∨
      evaluate unicode value data sniff' expand = evaluate unicode value data sniff expand := by
  by_cases same : sniff' = sniff
  · exact .inr (by rw [same])
  · obtain ⟨rfl, rfl⟩ : sniff = true ∧ sniff' = false := by
      cases sniff <;> cases sniff' <;> simp_all
    rw [evaluate, evaluate]
    split
    · exact .inr rfl
    · cases isKind : classifyWatermark unicode (trim value) data true with
      | some kind => exact .inl ⟨kind, rfl⟩
      | none =>
        have alsoOff : classifyWatermark unicode (trim value) data false = none := by
          rw [classifyWatermark] at isKind ⊢
          simp only [Bool.true_and, Bool.false_and, Bool.false_eq_true, if_false] at isKind ⊢
          split_ifs at isKind ⊢
          rfl
        rw [alsoOff]
        exact .inr rfl

end Eased

end Bookrack.Audit
