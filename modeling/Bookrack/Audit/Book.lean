/-
The metadata audit of books (`metadata/src/signals.rs`): a grade for each of the seven publication
fields, moved by signals that leave flags, and the verdict and confidence rolled up from the grades and
the shape of the table of contents.
-/

import Bookrack.Audit.Publishers
import Bookrack.Catalog.Effective

namespace Bookrack.Audit

open Catalog (EffectiveAttrs)
open Normalize (trim trimMatches)

/-! ### Profile -/

/-- `YearToggles`. -/
structure YearToggles where
  rangeCheck : Bool
  min : Int
  max : Int
  pdfLikelyFileDate : Bool
  timestampForm : Bool
  crossFieldFilenameOverride : Bool

/-- `TitleToggles`. -/
structure TitleToggles where
  placeholderCheck : Bool
  purelyNumeric : Bool
  seriesParen : Bool
  marketingBlock : Bool
  aggregatorMarker : Bool
  volumeMarker : Bool
  bracketedMinChars : Nat

/-- `any_bracketed_enabled`. -/
def TitleToggles.anyBracketedEnabled (title : TitleToggles) : Bool :=
  title.seriesParen || title.marketingBlock || title.aggregatorMarker || title.volumeMarker

/-- `LanguageToggles`. -/
structure LanguageToggles where
  bcp47Check : Bool
  bodyScriptMatch : Bool
  cjkCodes : List (List Char)
  latinCodes : List (List Char)
  bodyCjkMinRatioBp : Nat
  bodyLatinMinRatioBp : Nat
  bodyCjkMaxRatioBp : Nat

/-- `PublisherToggles`. -/
structure PublisherToggles where
  urlWatermark : Bool
  whitelistNormalizeAbbreviations : Bool
  drop10digitIsbnToFilename : Bool

/-- `TocShapeToggles`, what the audit reads of it. -/
structure TocShapeToggles where
  suspiciousFlat : Bool
  flatSevereMinEntries : Nat
  headingBlockSkew : Bool
  emptyLargeBody : Bool
  largeBodyMinBlocks : Nat

/-- `CopyrightBlocksToggles`. -/
structure CopyrightBlocksToggles where
  enabled : Bool
  count : Nat

/-- `ExtractToggles`, its switches. -/
structure ExtractToggles where
  epubYearRangeCheck : Bool
  epubIsbnRecognition : Bool
  marcRoleMapping : Bool
  txtTocEnabled : Bool

/-- `AuditProfile`: every switch, and the thresholds the audit reads. -/
structure AuditProfile where
  auditEnabled : Bool
  year : YearToggles
  title : TitleToggles
  language : LanguageToggles
  publisher : PublisherToggles
  tocShape : TocShapeToggles
  sourcePriorEnabled : Bool
  copyrightBlocks : CopyrightBlocksToggles
  filenameParserEnabled : Bool
  extract : ExtractToggles

/-! ### Input and report -/

/-- `Flag`. -/
inductive Flag
  | sourcePriorWeak
  | doubtfulTextLayer
  | isbnCheckFailed
  | yearOutOfRange
  | langMismatchesBody
  | nonBcp47
  | sourceWatermark
  | publisherWhitelisted
  | publisherRuleHit (rule : String)
  | pdfYearLikelyFileDate
  | placeholderValue
  | equalsFilename
  | equalsPublisher
  | empty
  | voided
  | purelyNumeric
  | titleSeriesParen
  | titleMarketingBlock
  | titleAggregatorMarker
  | titleVolumeMarker
  | dateLooksLikeTimestamp
  | tocUnanchoredSome
  | tocUnanchoredHalf
  | tocSuspiciousFlat
  | tocHeadingBlockSkew
  | tocEmptyLargeBody
  deriving DecidableEq, Repr

/-- `Flag::is_validation`. -/
def Flag.isValidation : Flag → Bool
  | .isbnCheckFailed | .nonBcp47 | .yearOutOfRange | .langMismatchesBody | .empty => true
  | _ => false

/-- The fields of `AUDITED_FIELDS`. -/
inductive AuditedField
  | title
  | language
  | publisher
  | year
  | isbn
  | subtitle
  | series
  deriving DecidableEq, Repr

/-- The column a field is read from. -/
def AuditedField.column : AuditedField → String
  | .title => "title"
  | .language => "language"
  | .publisher => "publisher"
  | .year => "year"
  | .isbn => "isbn"
  | .subtitle => "subtitle"
  | .series => "series"

/-- `AUDITED_FIELDS`. -/
def auditedFields : List AuditedField :=
  [.title, .language, .publisher, .year, .isbn, .subtitle, .series]

/-- `FieldReport`. -/
structure FieldReport extends Graded FieldGrade Flag where
  field : AuditedField
  hint : String

/-- `MetadataReport`. -/
structure MetadataReport where
  fields : List FieldReport
  verdict : Verdict
  confidence : Confidence
  copyrightBlocks : List Nat
  shapeFlags : List Flag

/-- `TocStats`. -/
structure TocStats where
  totalTocEntries : Nat
  unanchoredTocEntries : Nat
  suspiciousFlat : Bool
  headingBlockSkew : Bool

/-- `FieldOrigins`. -/
structure FieldOrigins where
  overridden : List String
  confirmed : List String
  voided : List String

/-- `is_overridden`. -/
def FieldOrigins.isOverridden (origins : FieldOrigins) (field : String) : Bool :=
  origins.overridden.contains field

/-- `is_confirmed`. -/
def FieldOrigins.isConfirmed (origins : FieldOrigins) (field : String) : Bool :=
  origins.confirmed.contains field

/-- `is_voided`. -/
def FieldOrigins.isVoided (origins : FieldOrigins) (field : String) : Bool :=
  origins.voided.contains field

/-- `add_override`. -/
def FieldOrigins.addOverride (origins : FieldOrigins) (field : String) (confirmed : Bool) : FieldOrigins :=
  { origins with
    overridden := origins.overridden.insert field
    confirmed := if confirmed then origins.confirmed.insert field else origins.confirmed }

/-- `Biblio`, what the audit of books reads of it. -/
structure Biblio where
  year : Option Int
  yearRaw : Option (List Char)

/-- `AuditInput`. -/
structure AuditInput where
  biblio : Biblio
  provenance : Provenance
  effective : EffectiveAttrs
  tocStats : TocStats
  bodySample : List Char
  totalBlocks : Nat
  sourceStem : Option (List Char)
  data : AuditData
  origins : FieldOrigins

/-- `effective.get`. -/
def AuditInput.value (input : AuditInput) (field : AuditedField) : Option (List Char) :=
  (input.effective.get field.column).map String.toList

/-! ### What the signals look at -/

variable (unicode : UnicodeTables)

/-- `is_placeholder`. -/
def isPlaceholder (value : List Char) (words : List (List Char)) : Bool :=
  let stripped := trimMatches (fun c => !unicode.isAlphanumeric c) (unicode.toLowercase value)
  words.any fun word => eqIgnoreAsciiCase word stripped

/-- `BracketSubtype`. -/
inductive BracketSubtype
  | series
  | marketing
  | aggregator
  | volume
  deriving DecidableEq, Repr

/-- `BracketPair`. -/
inductive BracketPair
  | asciiParen
  | fullwidthParen
  | square
  | fullwidthSquare
  | lenticular
  deriving DecidableEq, Repr

/-- `delimiters`. -/
def BracketPair.delimiters : BracketPair → Char × Char
  | .asciiParen => ('(', ')')
  | .fullwidthParen => ('（', '）')
  | .square => ('[', ']')
  | .fullwidthSquare => ('［', '］')
  | .lenticular => ('【', '】')

/-- `BracketPosition`. -/
inductive BracketPosition
  | head
  | tail
  deriving DecidableEq, Repr

/-- `is_volume_marker`. -/
def isVolumeMarker (inner : List Char) (volumeTokens : List (List Char)) : Bool :=
  let trimmed := trim inner
  if trimmed = [] then false
  else if eqIgnoreAsciiCase trimmed "indexed".toList then true
  else volumeTokens.any fun token => token ≠ [] && token.isSuffixOf trimmed

/-- `is_sentence_terminator`. -/
def isSentenceTerminator (c : Char) : Bool :=
  c == '。' || c == '！' || c == '？' || c == '…' || c == '!' || c == '?'

/-- `subtype_for`. -/
def subtypeFor (pair : BracketPair) (pos : BracketPosition) (inner : List Char)
    (volumeTokens : List (List Char)) : BracketSubtype :=
  if isVolumeMarker inner volumeTokens then .volume
  else if pos = .head ∧ (pair = .square ∨ pair = .fullwidthSquare ∨ pair = .lenticular) then .aggregator
  else if pos = .tail ∧ pair = .lenticular then .marketing
  else if inner.any isSentenceTerminator then .marketing
  else .series

/-- A leading bracketed segment of one pair, with something behind it. -/
def leadingSegment (chars : List Char) (minContentChars : Nat) (pair : BracketPair) : Option (List Char) :=
  if chars.head? = some pair.delimiters.1 then
    match (chars.drop 1).findIdx? (· == pair.delimiters.2) with
    | none => none
    | some endIdx =>
      if minContentChars ≤ endIdx ∧ 0 < chars.length - (endIdx + 2) then
        some ((chars.drop 1).take endIdx)
      else none
  else none

/-- A trailing bracketed segment of one pair, with something in front of it. -/
def trailingSegment (chars : List Char) (minContentChars : Nat) (pair : BracketPair) :
    Option (List Char) :=
  if chars.getLast? = some pair.delimiters.2 then
    match (chars.reverse.drop 1).findIdx? (· == pair.delimiters.1) with
    | none => none
    | some startOffset =>
      let openIdx := chars.length - 2 - startOffset
      if minContentChars ≤ startOffset ∧ 0 < openIdx then
        some ((chars.drop (openIdx + 1)).take startOffset)
      else none
  else none

/-- `classify_bracketed_segment`: the pairs in order, the leading segment of each first. -/
def classifyBracketedSegment (trimmed : List Char) (minContentChars : Nat)
    (volumeTokens : List (List Char)) : Option BracketSubtype :=
  [BracketPair.asciiParen, .fullwidthParen, .square, .fullwidthSquare, .lenticular].findSome? fun pair =>
    ((leadingSegment trimmed minContentChars pair).map fun inner =>
      subtypeFor pair .head inner volumeTokens).or
      ((trailingSegment trimmed minContentChars pair).map fun inner =>
        subtypeFor pair .tail inner volumeTokens)

/-- `is_bcp47`. -/
def isBcp47 (tag : List Char) : Bool :=
  match tag.splitOn '-' with
  | [] => false
  | primary :: subs =>
    (String.utf8Len primary == 2 || String.utf8Len primary == 3) && primary.all isAsciiAlphabetic &&
      subs.all fun sub =>
        match String.utf8Len sub with
        | 2 => sub.all isAsciiAlphabetic
        | 3 => sub.all Char.isAlphanum
        | 4 => sub.all isAsciiAlphabetic
        | _ => false

/-- `is_cjk`. -/
def isCjk (ch : Char) : Bool :=
  let code := ch.toNat
  (0x3400 ≤ code && code ≤ 0x4DBF) || (0x4E00 ≤ code && code ≤ 0x9FFF) ||
    (0xF900 ≤ code && code ≤ 0xFAFF) || (0x20000 ≤ code && code ≤ 0x2A6DF) ||
    (0x2A700 ≤ code && code ≤ 0x2EBEF)

/-- `body_matches_language`. -/
def bodyMatchesLanguage (tag body : List Char) (lang : LanguageToggles) : Bool :=
  if body = [] then true
  else
    let counted := (body.filter fun c => unicode.isAlphabetic c || isCjk c).take 2048
    if counted = [] then true
    else
      let total := counted.length
      let cjkRatio := (counted.countP isCjk).toFloat / total.toFloat
      let latinRatio := (counted.countP isAsciiAlphabetic).toFloat / total.toFloat
      let primary := toAsciiLowercase ((tag.splitOn '-').headD [])
      let declaredCjk := lang.cjkCodes.contains primary
      let declaredLatin := lang.latinCodes.contains primary
      if declaredCjk && (cjkRatio < ratioOf lang.bodyCjkMinRatioBp &&
          latinRatio > ratioOf lang.bodyLatinMinRatioBp) then false
      else if declaredLatin && cjkRatio > ratioOf lang.bodyCjkMaxRatioBp then false
      else true

/-- `looks_like_timestamp`. -/
def looksLikeTimestamp (raw : List Char) : Bool := raw.contains 'T' || raw.contains ':'

/-- `year_came_from_raw_biblio`. -/
def yearCameFromRawBiblio (input : AuditInput) (effectiveText : List Char) : Bool :=
  match input.biblio.year with
  | none => false
  | some rawYear => parseI32 (trim effectiveText) == some rawYear

/-- The weighted sum of ISBN digits from a position on; none where one is no digit. -/
def isbnSum (weight : Nat → Nat) (last : Bool) : Nat → List Char → Option Nat
  | _, [] => some 0
  | i, ch :: rest =>
    let value := if last && i == 9 && (ch == 'X' || ch == 'x') then some 10
      else if ch.isDigit then some (ch.toNat - 48) else none
    value.bind fun value => (isbnSum weight last (i + 1) rest).map (value * weight i + ·)

/-- `is_valid_isbn10`. -/
def isValidIsbn10 (digits : List Char) : Bool :=
  match isbnSum (10 - ·) true 0 digits with
  | none => false
  | some sum => sum % 11 == 0

/-- `is_valid_isbn13`. -/
def isValidIsbn13 (digits : List Char) : Bool :=
  match isbnSum (fun i => if i % 2 = 0 then 1 else 3) false 0 digits with
  | none => false
  | some sum => sum % 10 == 0

/-- `is_valid_isbn`. -/
def isValidIsbn (value : List Char) : Bool :=
  let digits := value.filter fun c => !isWhitespace c && c != '-'
  match digits.length with
  | 10 => isValidIsbn10 digits
  | 13 => isValidIsbn13 digits
  | _ => false

/-! ### Signals -/

/-- `weaken` with its flag. -/
def weakenIf (one : Graded FieldGrade Flag) (fires : Bool) (flag : Flag) : Graded FieldGrade Flag :=
  one.signal fires FieldGrade.weaken (· ++ [flag])

/-- A flag that leaves the grade alone. -/
def noteIf (one : Graded FieldGrade Flag) (fires : Bool) (flags : List Flag) : Graded FieldGrade Flag :=
  one.signal fires id (· ++ flags)

/-- `SourcePrior`. -/
inductive SourcePrior
  | strong
  | weak
  | none
  deriving DecidableEq, Repr

/-- `source_prior`. -/
def sourcePrior (adapter : String) : SourcePrior :=
  if adapter ∈ ["epub", "mobi", "azw3"] then .strong
  else if adapter ∈ ["pdf", "html", "htm", "xhtml"] then .weak
  else if adapter ∈ ["txt", "text", "ocr"] then .none
  else .weak

/-- `apply_source_prior`. -/
def applySourcePrior (one : Graded FieldGrade Flag) (prior : SourcePrior) (present : Bool)
    (profile : AuditProfile) : Graded FieldGrade Flag :=
  weakenIf one (present && profile.sourcePriorEnabled && prior ≠ .strong) .sourcePriorWeak

/-- `apply_doubtful`. -/
def applyDoubtful (one : Graded FieldGrade Flag) (doubtful present : Bool) : Graded FieldGrade Flag :=
  weakenIf one (doubtful && present) .doubtfulTextLayer

/-- The two signals about the extractor that end a field's audit. -/
def applyOrigin (one : Graded FieldGrade Flag) (prior : SourcePrior) (doubtful present : Bool)
    (profile : AuditProfile) : Graded FieldGrade Flag :=
  applyDoubtful (applySourcePrior one prior present profile) doubtful present

/-- A field with no value. -/
def missing : Graded FieldGrade Flag := ⟨.missing, [.empty]⟩

/-- A field with a value, before its signals. -/
def present : Graded FieldGrade Flag := ⟨.strong, []⟩

/-- A field that is missing where its value is blank, and judged by its signals elsewhere. -/
def startField (value : Option (List Char)) (signals : List Char → Graded FieldGrade Flag) :
    Graded FieldGrade Flag :=
  match value with
  | none => missing
  | some text => if trim text = [] then missing else signals (trim text)

/-- The signal of a bracketed segment: its toggle decides, and a volume marker is only noted. -/
def applyBracket (one : Graded FieldGrade Flag) (title : TitleToggles) (sub : BracketSubtype) :
    Graded FieldGrade Flag :=
  match sub with
  | .series => weakenIf one title.seriesParen .titleSeriesParen
  | .marketing => weakenIf one title.marketingBlock .titleMarketingBlock
  | .aggregator => weakenIf one title.aggregatorMarker .titleAggregatorMarker
  | .volume => noteIf one title.volumeMarker [.titleVolumeMarker]

/-- The signals of a title that is not blank, up to the bracketed segment. -/
def titleValueSignals (input : AuditInput) (profile : AuditProfile) (trimmed : List Char) :
    Graded FieldGrade Flag :=
  let title := profile.title
  let one := weakenIf present
    (title.placeholderCheck && isPlaceholder unicode trimmed input.data.placeholderTitles) .placeholderValue
  let one := weakenIf one
    (title.purelyNumeric && trimmed.all fun c => unicode.isNumeric c || isWhitespace c) .purelyNumeric
  let one := weakenIf one (input.sourceStem.any fun stem => eqIgnoreAsciiCase stem trimmed) .equalsFilename
  weakenIf one
    ((input.value .publisher).any fun pubValue => eqIgnoreAsciiCase pubValue trimmed) .equalsPublisher

/-- The signals of a title that is not blank. -/
def titleSignals (input : AuditInput) (profile : AuditProfile) (trimmed : List Char) :
    Graded FieldGrade Flag :=
  let title := profile.title
  let one := titleValueSignals unicode input profile trimmed
  if title.anyBracketedEnabled then
    match classifyBracketedSegment trimmed title.bracketedMinChars input.data.volumeSuffixTokens with
    | none => one
    | some sub => applyBracket one title sub
  else one

/-- `title_hint`. -/
def titleHint (one : Graded FieldGrade Flag) : String :=
  if .empty ∈ one.flags then "title missing"
  else if .equalsFilename ∈ one.flags then "title equals the source filename"
  else if .placeholderValue ∈ one.flags then "title is a placeholder value"
  else if one.grade = .strong then "title present and clean"
  else "title present but flagged"

/-- `audit_title`. -/
def auditTitle (input : AuditInput) (profile : AuditProfile) (prior : SourcePrior) (doubtful : Bool) :
    FieldReport :=
  let one := startField (input.value .title) (titleSignals unicode input profile)
  let one := applyOrigin one prior doubtful (input.value .title).isSome profile
  { one with field := .title, hint := titleHint one }

/-- The signals of a language that is not blank. -/
def languageSignals (input : AuditInput) (profile : AuditProfile) (trimmed : List Char) :
    Graded FieldGrade Flag :=
  let one := weakenIf present (profile.language.bcp47Check && !isBcp47 trimmed) .nonBcp47
  weakenIf one (profile.language.bodyScriptMatch &&
    !bodyMatchesLanguage unicode trimmed input.bodySample profile.language) .langMismatchesBody

/-- `audit_language`. -/
def auditLanguage (input : AuditInput) (profile : AuditProfile) (prior : SourcePrior) (doubtful : Bool) :
    FieldReport :=
  let one := startField (input.value .language) (languageSignals unicode input profile)
  let one := applyOrigin one prior doubtful (input.value .language).isSome profile
  { one with
    field := .language
    hint :=
      if one.flags = [] then "language present and matches body sample"
      else if .empty ∈ one.flags then "language is missing; set from the body's script"
      else "language present but flagged; review against body sample" }

/-- What the evaluator's verdict makes of a publisher: a watermark costs two notches. -/
def publisherVerdict : PublisherVerdict → Graded FieldGrade Flag
  | .watermark kind =>
    ⟨FieldGrade.strong.weaken.weaken, [.sourceWatermark, .publisherRuleHit kind.rule]⟩
  | .whitelisted matchKind => ⟨.strong, [.publisherWhitelisted, .publisherRuleHit matchKind.rule]⟩
  | .neutral => present

/-- `audit_publisher`. -/
def auditPublisher (input : AuditInput) (profile : AuditProfile) (prior : SourcePrior) (doubtful : Bool) :
    FieldReport :=
  let one := startField (input.value .publisher) fun trimmed =>
    publisherVerdict (evaluate unicode trimmed input.data profile.publisher.urlWatermark
      profile.publisher.whitelistNormalizeAbbreviations)
  let one := applyOrigin one prior doubtful (input.value .publisher).isSome profile
  let one := one.signal (one.flags.contains .publisherWhitelisted) FieldGrade.strengthen id
  { one with
    field := .publisher
    hint :=
      if .sourceWatermark ∈ one.flags then "publisher value looks like a distribution watermark"
      else if .empty ∈ one.flags then "publisher missing"
      else if .publisherWhitelisted ∈ one.flags then "publisher matched the reputable-imprint list"
      else "publisher present but not corroborated" }

/-- The signals of a year. -/
def yearSignals (input : AuditInput) (profile : AuditProfile) (text : List Char) :
    Graded FieldGrade Flag :=
  let year := profile.year
  let overridden := input.origins.isOverridden "year"
  let one := weakenIf present (year.rangeCheck && match parseI32 (trim text) with
    | none => true
    | some n => !(year.min ≤ n && n ≤ year.max)) .yearOutOfRange
  let one := weakenIf one
    (year.pdfLikelyFileDate && (input.provenance.adapter = "pdf" && !overridden)) .pdfYearLikelyFileDate
  weakenIf one (year.timestampForm && (!overridden && (yearCameFromRawBiblio input text &&
    input.biblio.yearRaw.any looksLikeTimestamp))) .dateLooksLikeTimestamp

/-- `audit_year`. -/
def auditYear (input : AuditInput) (profile : AuditProfile) (prior : SourcePrior) (doubtful : Bool) :
    FieldReport :=
  let one :=
    match input.value .year with
    | none => missing
    | some text => yearSignals input profile text
  let one := applyOrigin one prior doubtful (input.value .year).isSome profile
  { one with
    field := .year
    hint :=
      if .yearOutOfRange ∈ one.flags then "publication year falls outside the plausible range"
      else if .pdfYearLikelyFileDate ∈ one.flags then
        "PDF year is often the file creation date, not the work year"
      else if .empty ∈ one.flags then "publication year missing"
      else "publication year plausible" }

/-- `audit_isbn`. -/
def auditIsbn (input : AuditInput) (doubtful : Bool) : FieldReport :=
  let one :=
    match input.value .isbn with
    | none => ⟨.medium, []⟩
    | some text => weakenIf present (!isValidIsbn (trim text)) .isbnCheckFailed
  let one := applyDoubtful one doubtful (input.value .isbn).isSome
  { one with
    field := .isbn
    hint :=
      if .isbnCheckFailed ∈ one.flags then "ISBN checksum did not validate"
      else if (input.value .isbn).isNone then "no ISBN recorded (optional)"
      else "ISBN checksum valid" }

/-- `audit_optional`. -/
def auditOptional (input : AuditInput) (profile : AuditProfile) (prior : SourcePrior) (doubtful : Bool)
    (field : AuditedField) : FieldReport :=
  let one :=
    match input.value field with
    | none => ⟨.medium, []⟩
    | some text => if trim text = [] then ⟨.medium, [.empty]⟩ else present
  let one := applyOrigin one prior doubtful (input.value field).isSome profile
  { one with field := field, hint := field.column ++ " (optional)" }

/-- `audit_subtitle`. -/
def auditSubtitle (input : AuditInput) (profile : AuditProfile) (prior : SourcePrior) (doubtful : Bool) :
    FieldReport := auditOptional input profile prior doubtful .subtitle

/-- `audit_series`. -/
def auditSeries (input : AuditInput) (profile : AuditProfile) (prior : SourcePrior) (doubtful : Bool) :
    FieldReport := auditOptional input profile prior doubtful .series

/-- `voided_report`. -/
def voidedReport (field : AuditedField) : FieldReport where
  grade := if field = .title ∨ field = .language then .missing else .medium
  flags := [.voided]
  field := field
  hint := "value voided by curator; no replacement set"

/-- `apply_confirmed`. -/
def applyConfirmed (report : FieldReport) (origins : FieldOrigins) : FieldReport :=
  if !origins.isConfirmed report.field.column then report
  else if report.flags.any Flag.isValidation then report
  else { report with grade := .strong }

/-! ### The shape of the table of contents -/

/-- `ShapeSeverity`. -/
inductive ShapeSeverity
  | clean
  | mild
  | severe
  deriving DecidableEq, Repr

/-- `audit_toc_shape`. -/
def auditTocShape (input : AuditInput) (profile : AuditProfile) : List Flag :=
  let stats := input.tocStats
  let shape := profile.tocShape
  (if shape.emptyLargeBody && (stats.totalTocEntries == 0 && shape.largeBodyMinBlocks < input.totalBlocks)
    then [.tocEmptyLargeBody] else []) ++
  (if 0 < stats.unanchoredTocEntries then [.tocUnanchoredSome] else []) ++
  (if 0 < stats.totalTocEntries && stats.totalTocEntries < min (stats.unanchoredTocEntries * 2) (2 ^ 64 - 1)
    then [.tocUnanchoredHalf] else []) ++
  (if shape.suspiciousFlat && stats.suspiciousFlat then [.tocSuspiciousFlat] else []) ++
  (if shape.headingBlockSkew && stats.headingBlockSkew then [.tocHeadingBlockSkew] else [])

/-- `heading_skew_severe`. -/
def headingSkewSevere (profile : AuditProfile) : Nat :=
  min (profile.tocShape.flatSevereMinEntries * 2) (2 ^ 64 - 1)

/-- `shape_severity`. -/
def shapeSeverity (flags : List Flag) (totalEntries : Nat) (profile : AuditProfile) : ShapeSeverity :=
  if flags.contains .tocUnanchoredHalf || flags.contains .tocEmptyLargeBody ||
      (flags.contains .tocSuspiciousFlat && profile.tocShape.flatSevereMinEntries < totalEntries) ||
      (flags.contains .tocHeadingBlockSkew && headingSkewSevere profile < totalEntries) then .severe
  else if flags = [] then .clean
  else .mild

/-- `apply_shape_to_verdict_and_confidence`. -/
def applyShape (verdict : Verdict) (confidence : Confidence) : ShapeSeverity → Verdict × Confidence
  | .severe => (.needsWork, .low)
  | .mild => (verdict, if confidence = .high then .medium else confidence)
  | .clean => (verdict, confidence)

/-! ### The audit -/

/-- `compute_verdict`. -/
def computeVerdict (fields : List FieldReport) : Verdict :=
  if fields.any fun report => (report.field = .title || report.field = .language) &&
      (report.grade = .missing || report.grade = .weak) then .needsWork
  else .clean

/-- The fields of `rollup_confidence`. -/
def requiredOrShould : List AuditedField := [.title, .language, .publisher, .year]

/-- `rollup_confidence`. -/
def rollupConfidence (fields : List FieldReport) : Confidence :=
  let rated := fields.filter fun report => requiredOrShould.contains report.field
  let anyMissing := rated.any fun report => report.grade = .missing
  let anyWeak := rated.any fun report => report.grade = .weak
  let allStrong := rated.all fun report => report.grade = .strong
  if anyMissing then .low
  else if allStrong then .high
  else if anyWeak then .low
  else .medium

/-- The report of one field in `run`, before `apply_confirmed`. -/
def auditField (input : AuditInput) (profile : AuditProfile) (field : AuditedField) : FieldReport :=
  let overridden := input.origins.isOverridden field.column
  let prior := if overridden then .strong else sourcePrior input.provenance.adapter
  let doubtful := input.provenance.textLayerQuality = .doubtful && !overridden
  if input.origins.isVoided field.column then voidedReport field
  else
    match field with
    | .title => auditTitle unicode input profile prior doubtful
    | .language => auditLanguage unicode input profile prior doubtful
    | .publisher => auditPublisher unicode input profile prior doubtful
    | .year => auditYear input profile prior doubtful
    | .isbn => auditIsbn input doubtful
    | .subtitle => auditSubtitle input profile prior doubtful
    | .series => auditSeries input profile prior doubtful

/-- `run`. -/
def run (input : AuditInput) (profile : AuditProfile) : MetadataReport :=
  let fields := auditedFields.map fun field =>
    applyConfirmed (auditField unicode input profile field) input.origins
  let shapeFlags := auditTocShape input profile
  let severity := shapeSeverity shapeFlags input.tocStats.totalTocEntries profile
  let (verdict, confidence) := applyShape (computeVerdict fields) (rollupConfidence fields) severity
  { fields, verdict, confidence
    copyrightBlocks :=
      if profile.copyrightBlocks.enabled then
        List.range (min input.totalBlocks profile.copyrightBlocks.count)
      else []
    shapeFlags }

end Bookrack.Audit
