/-
The metadata audit of papers (`glean/src/audit/signals.rs`): ten graders, a flag across the fields, and
a roll-up over the fields that the CSL type requires.
-/

import Bookrack.Audit.Publishers
import Bookrack.Catalog.Effective
import Bookrack.Core.Patterns

namespace Bookrack.Audit.Paper

open Catalog (EffectiveAttrs)
open Normalize (trim)
open Regex (seq alt many look textStart textEnd)

/-! ### Profile and data -/

/-- `IdentifierToggles`. -/
structure IdentifierToggles where
  requireAny : Bool
  doiFormatCheck : Bool
  arxivFormatCheck : Bool
  issnChecksumCheck : Bool
  orcidChecksumCheck : Bool

/-- `AbstractToggles`. -/
structure AbstractToggles where
  required : Bool
  minChars : Nat

/-- `AuthorToggles`. -/
structure AuthorToggles where
  required : Bool
  sentinelCheck : Bool
  singleWordCheck : Bool

/-- `TitleToggles`. -/
structure TitleToggles where
  required : Bool
  placeholderCheck : Bool
  emptyCheck : Bool
  echoesArxivBannerCheck : Bool
  equalsFilenameCheck : Bool

/-- `YearToggles`. -/
structure YearToggles where
  required : Bool
  rangeCheck : Bool
  min : Int
  max : Int
  pdfLikelyFileDate : Bool
  timestampForm : Bool

/-- `LanguageToggles`. -/
structure LanguageToggles where
  bcp47Check : Bool
  bodyScriptMatch : Bool
  cjkCodes : List (List Char)
  latinCodes : List (List Char)
  bodyCjkMinRatioBp : Nat
  bodyLatinMinRatioBp : Nat
  bodyCjkMaxRatioBp : Nat

/-- `PaperAuditProfile`. -/
structure PaperAuditProfile where
  auditEnabled : Bool
  identifier : IdentifierToggles
  abstractText : AbstractToggles
  author : AuthorToggles
  title : TitleToggles
  year : YearToggles
  language : LanguageToggles
  venueWhitelistCheck : Bool
  sourcePriorEnabled : Bool

/-- `PaperAuditData`. -/
structure PaperAuditData where
  venueWhitelist : List (List Char)
  venueAliases : List (List Char × List Char)
  placeholderTitles : List (List Char)
  watermarkTokens : List (List Char)
  sentinelContributorNames : List (List Char)

/-! ### Input and report -/

/-- `CslType`. -/
inductive CslType
  | articleJournal
  | paperConference
  | book
  | chapter
  | thesis
  | report
  | webpage
  deriving DecidableEq, Repr

/-- `parse_csl_type`. -/
def parseCslType (raw : String) : Option CslType :=
  [("article-journal", .articleJournal), ("paper-conference", .paperConference), ("book", .book),
    ("chapter", .chapter), ("thesis", .thesis), ("report", .report), ("webpage", .webpage)].lookup raw

/-- `ContributorRole`. -/
inductive ContributorRole
  | author
  | translator
  | editor
  | other
  deriving DecidableEq, Repr

/-- `Contributor`, what the audit reads of it. -/
structure Contributor where
  name : List Char
  role : ContributorRole
  orcid : Option (List Char)

/-- `Biblio`, what the audit of papers reads of it. -/
structure Biblio where
  yearRaw : Option (List Char)
  contributors : List Contributor
  cslType : Option CslType

/-- `PaperAuditInput`. -/
structure PaperAuditInput where
  biblio : Biblio
  provenance : Provenance
  effective : EffectiveAttrs
  bodySample : List Char
  sourceStem : Option (List Char)

/-- `effective.get`. -/
def PaperAuditInput.value (input : PaperAuditInput) (field : String) : Option (List Char) :=
  (input.effective.get field).map String.toList

/-- `PaperFlag`. -/
inductive PaperFlag
  | doiInvalidFormat
  | arxivIdInvalidFormat
  | issnInvalidChecksum
  | orcidInvalidChecksum
  | noStableIdentifier
  | empty
  | voided
  | placeholderValue
  | equalsFilename
  | sourceWatermark
  | purelyNumeric
  | yearOutOfRange
  | dateLooksLikeTimestamp
  | pdfYearLikelyFileDate
  | langMismatchesBody
  | nonBcp47
  | sourcePriorWeak
  | doubtfulTextLayer
  | abstractTooShort
  | venueNotInList
  | authorListEmpty
  | authorListSingleWord
  | titleEchoesArxivBanner
  | contributorSentinelName
  deriving DecidableEq, Repr

/-- `PaperFieldReport`; no grader gives a hint. -/
abbrev PaperFieldReport := Graded FieldGrade PaperFlag

/-- `push_flag`. -/
def pushFlag (flag : PaperFlag) (flags : List PaperFlag) : List PaperFlag :=
  if flags.contains flag then flags else flags ++ [flag]

theorem pushes_pushFlag (flag : PaperFlag) : Graded.Pushes (pushFlag flag) [flag] := by
  intro flags other
  rw [pushFlag]
  split
  · next already =>
    rw [List.contains_iff_mem] at already
    refine ⟨.inl, fun member => member.elim id fun isFlag => ?_⟩
    rwa [List.mem_singleton.mp isFlag]
  · exact List.mem_append

/-- `weaken_to`, where a test fires. -/
def weakenToIf (report : PaperFieldReport) (fires : Bool) (target : FieldGrade) (flag : PaperFlag) :
    PaperFieldReport :=
  report.signal fires target.weakenTo (pushFlag flag)

/-- `PaperReport`. -/
structure PaperReport where
  fields : List (String × PaperFieldReport)
  verdict : Verdict
  confidence : Confidence
  crossFieldFlags : List PaperFlag
  cslType : Option CslType

/-! ### What the graders look at -/

variable (unicode : UnicodeTables)

/-- `looks_like_timestamp`. -/
def looksLikeTimestamp (raw : List Char) : Bool := raw.contains ':'

/-- `looks_like_arxiv_banner`. -/
def looksLikeArxivBanner (text : List Char) : Bool :=
  let lower := toAsciiLowercase (trim text)
  "arxiv:".toList.isPrefixOf lower || "arxiv ".toList.isPrefixOf lower

/-- `normalize_compare`. -/
def normalizeCompare (text : List Char) : List Char := (toAsciiLowercase text).filter unicode.isAlphanumeric

/-- `DOI_RE`. -/
def doiRe : Regex Char :=
  seq textStart (seq (literal "10.") (seq (many unicode.isDigit 4 (some 9)) (seq (literal "/")
    (seq (many (fun c => "-._;()/:".toList.contains c || c.isAlphanum || c.toNat == 0x17F ||
      c.toNat == 0x212A) 1 none) textEnd))))

/-- `ARXIV_NEW_RE`. -/
def arxivNewRe : Regex Char :=
  seq textStart (seq (many unicode.isDigit 4 (some 4)) (seq (literal ".")
    (seq (many unicode.isDigit 4 (some 5)) textEnd)))

/-- `ARXIV_OLD_RE`. -/
def arxivOldRe : Regex Char :=
  seq textStart (seq (.one Char.isLower) (seq (many (fun c => c.isLower || c == '-') 0 none)
    (seq (alt (seq (literal ".") (many Char.isUpper 2 (some 2))) (look fun _ _ => true))
      (seq (literal "/") (seq (many unicode.isDigit 7 (some 7)) textEnd)))))

/-- `PDF_DATE_RE`. -/
def pdfDateRe : Regex Char := seq textStart (seq (literal "D:") (many Char.isDigit 8 none))

/-- `to_digit(10)`. -/
def toDigit (c : Char) : Option Nat := if c.isDigit then some (c.toNat - 48) else none

/-- A check digit, where `X` stands for ten. -/
def checkDigit (c : Char) : Option Nat := if c = 'X' ∨ c = 'x' then some 10 else toDigit c

/-- `issn_checksum_ok`. -/
def issnChecksumOk (raw : List Char) : Bool :=
  let digits := raw.filter fun c => c != '-' && c != ' '
  if digits.length ≠ 8 then false
  else
    match (digits.take 7).mapM toDigit, (digits.getLast?).bind checkDigit with
    | some values, some check =>
      let sum := (List.zipWith (· * ·) values [8, 7, 6, 5, 4, 3, 2]).foldl (· + ·) 0
      (sum + check) % 11 == 0
    | _, _ => false

/-- `trim_start_matches` of a text that is not empty; `fuel` bounds how often it is taken off. -/
def trimStartMatches (start : List Char) : Nat → List Char → List Char
  | 0, text => text
  | fuel + 1, text =>
    if start.isPrefixOf text then trimStartMatches start fuel (text.drop start.length) else text

/-- `orcid_checksum_ok`. -/
def orcidChecksumOk (raw : List Char) : Bool :=
  let bare := trimStartMatches "https://orcid.org/".toList raw.length (trim raw)
  let digits := bare.filter fun c => c != '-' && c != ' '
  if digits.length ≠ 16 then false
  else
    match (digits.take 15).mapM toDigit, (digits.getLast?).bind checkDigit with
    | some values, some check =>
      let total := values.foldl (fun total d => (total + d) * 2) 0
      (12 - total % 11) % 11 == check
    | _, _ => false

/-- `is_bcp47_primary`. -/
def isBcp47Primary (tag : List Char) : Bool :=
  2 ≤ String.utf8Len tag && String.utf8Len tag ≤ 3 && tag.all isAsciiAlphabetic

/-- The scripts `script_ratios` counts as CJK. -/
def isCjkScript (c : Char) : Bool :=
  let code := c.toNat
  (0x3400 ≤ code && code ≤ 0x4DBF) || (0x4E00 ≤ code && code ≤ 0x9FFF) ||
    (0xF900 ≤ code && code ≤ 0xFAFF) || (0x3040 ≤ code && code ≤ 0x309F) ||
    (0x30A0 ≤ code && code ≤ 0x30FF) || (0xAC00 ≤ code && code ≤ 0xD7AF)

/-- `script_ratios`. -/
def scriptRatios (text : List Char) : Float × Float :=
  let counted := text.filter fun c => !isWhitespace c
  if counted = [] then (0, 0)
  else
    ((counted.countP isCjkScript).toFloat / counted.length.toFloat,
      (counted.countP fun c => !isCjkScript c && isAsciiAlphabetic c).toFloat / counted.length.toFloat)

/-- Do the scripts of the body speak against the declared language? -/
def mismatchesBody (primary body : List Char) (language : LanguageToggles) : Bool :=
  let (cjkRatio, latinRatio) := scriptRatios body
  let declaredCjk := language.cjkCodes.any fun code => eqIgnoreAsciiCase code primary
  let declaredLatin := language.latinCodes.any fun code => eqIgnoreAsciiCase code primary
  (declaredCjk && (cjkRatio < ratioOf language.bodyCjkMinRatioBp &&
    latinRatio > ratioOf language.bodyLatinMinRatioBp)) ||
    (declaredLatin && cjkRatio > ratioOf language.bodyCjkMaxRatioBp)

/-- The venue under the name the aliases give it. -/
def canonicalVenue (trimmed : List Char) (data : PaperAuditData) : List Char :=
  ((data.venueAliases.find? fun spelling => eqIgnoreAsciiCase spelling.1 trimmed).map Prod.snd).getD trimmed

/-! ### The graders -/

/-- `start_field`. -/
def startField (value : Option (List Char)) : PaperFieldReport :=
  if value.any fun text => trim text ≠ [] then ⟨.strong, []⟩ else ⟨.missing, []⟩

theorem not_mem_startField (value : Option (List Char)) (flag : PaperFlag) :
    flag ∉ (startField value).flags := by
  rw [startField]
  split <;> exact List.not_mem_nil

variable (input : PaperAuditInput) (profile : PaperAuditProfile) (data : PaperAuditData)

/-- `grade_title`, with `apply_watermark`. -/
def gradeTitle : PaperFieldReport :=
  let value := input.value "title"
  let title := profile.title
  let report := startField value
  let report := weakenToIf report (title.emptyCheck && value.any fun val => trim val = []) .missing .empty
  let report := weakenToIf report (title.placeholderCheck && value.any fun val =>
    data.placeholderTitles.any fun word => eqIgnoreAsciiCase word (trim val)) .missing .placeholderValue
  let report := weakenToIf report (title.echoesArxivBannerCheck && value.any looksLikeArxivBanner) .weak
    .titleEchoesArxivBanner
  let report := weakenToIf report (title.equalsFilenameCheck && value.any fun val =>
    input.sourceStem.any fun stem => normalizeCompare unicode val == normalizeCompare unicode stem) .weak
    .equalsFilename
  weakenToIf report (value.any fun val => data.watermarkTokens.any fun token =>
    contains (toAsciiLowercase val) (toAsciiLowercase token)) .weak .sourceWatermark

/-- `grade_year`. -/
def gradeYear : PaperFieldReport :=
  let value := input.value "year"
  let year := profile.year
  let report := weakenToIf (startField value) (year.rangeCheck && value.any fun val =>
    (parseI32 val).any fun n => n < year.min || year.max < n) .weak .yearOutOfRange
  let report := weakenToIf report (year.timestampForm && (value.isSome &&
    input.biblio.yearRaw.any looksLikeTimestamp)) .weak .dateLooksLikeTimestamp
  weakenToIf report (year.pdfLikelyFileDate && (value.isSome &&
    input.biblio.yearRaw.any pdfDateRe.isMatch)) .weak .pdfYearLikelyFileDate

/-- `grade_doi`. -/
def gradeDoi : PaperFieldReport :=
  let value := input.value "doi"
  weakenToIf (startField value) (profile.identifier.doiFormatCheck && value.any fun val =>
    !(doiRe unicode).isMatch (trim val)) .weak .doiInvalidFormat

/-- `grade_arxiv`. -/
def gradeArxiv : PaperFieldReport :=
  let value := input.value "arxiv_id"
  weakenToIf (startField value) (profile.identifier.arxivFormatCheck && value.any fun val =>
    !(arxivNewRe unicode).isMatch (trim val) && !(arxivOldRe unicode).isMatch (trim val)) .weak
    .arxivIdInvalidFormat

/-- `grade_issn`. -/
def gradeIssn : PaperFieldReport :=
  let value := input.value "issn"
  weakenToIf (startField value) (profile.identifier.issnChecksumCheck && value.any fun val =>
    !issnChecksumOk (trim val)) .weak .issnInvalidChecksum

/-- `grade_container`. -/
def gradeContainer : PaperFieldReport :=
  let value := input.value "container_title"
  weakenToIf (startField value) (profile.venueWhitelistCheck && value.any fun val =>
    data.venueWhitelist ≠ [] && !data.venueWhitelist.any fun venue =>
      eqIgnoreAsciiCase venue (canonicalVenue (trim val) data)) .weak .venueNotInList

/-- `grade_publisher`. -/
def gradePublisher : PaperFieldReport := startField (input.value "publisher")

/-- `grade_abstract`. -/
def gradeAbstract : PaperFieldReport :=
  let value := input.value "abstract_text"
  weakenToIf (startField value) (profile.abstractText.required && value.any fun val =>
    (trim val).length % 2 ^ 32 < profile.abstractText.minChars) .weak .abstractTooShort

/-- `grade_author`. -/
def gradeAuthor : PaperFieldReport :=
  let contributors := input.biblio.contributors
  let authors := contributors.filter fun contributor => contributor.role = .author
  let present := authors ≠ []
  let report : PaperFieldReport := ⟨if present then .strong else .missing, []⟩
  let report := report.signal (profile.author.required && !present) id (pushFlag .authorListEmpty)
  let report := weakenToIf report (profile.author.sentinelCheck && authors.any fun author =>
    data.sentinelContributorNames.any fun name => eqIgnoreAsciiCase name (trim author.name)) .weak
    .contributorSentinelName
  let report := weakenToIf report (profile.author.singleWordCheck && authors.any fun author =>
    (splitWhitespace author.name).length ≤ 1) .weak .authorListSingleWord
  let report := weakenToIf report (profile.identifier.orcidChecksumCheck &&
    (contributors.filterMap Contributor.orcid).any fun orcid => !orcidChecksumOk orcid) .weak
    .orcidInvalidChecksum
  let report := weakenToIf report (profile.sourcePriorEnabled && input.provenance.adapter = "txt") .weak
    .sourcePriorWeak
  weakenToIf report (input.provenance.textLayerQuality = .doubtful) .weak .doubtfulTextLayer

/-- The primary subtag a language declares. -/
def primaryOf (val : List Char) : List Char := ((toAsciiLowercase (trim val)).splitOn '-').headD []

/-- `grade_language`. -/
def gradeLanguage : PaperFieldReport :=
  let value := input.value "language"
  let language := profile.language
  let report := weakenToIf (startField value) (language.bcp47Check && value.any fun val =>
    !isBcp47Primary (primaryOf val)) .weak .nonBcp47
  weakenToIf report (language.bodyScriptMatch && value.any fun val =>
    mismatchesBody (primaryOf val) input.bodySample language) .weak .langMismatchesBody

/-- The fields as `audit_paper` fills them, in the order of their names. -/
def gradedFields : List (String × PaperFieldReport) :=
  [("abstract_text", gradeAbstract input profile), ("arxiv_id", gradeArxiv unicode input profile),
    ("author", gradeAuthor input profile data), ("container_title", gradeContainer input profile data),
    ("doi", gradeDoi unicode input profile), ("issn", gradeIssn input profile),
    ("language", gradeLanguage input profile), ("publisher", gradePublisher input),
    ("title", gradeTitle unicode input profile data), ("year", gradeYear input profile)]

/-! ### The roll-up -/

/-- `RequirementLevel`. -/
inductive RequirementLevel
  | required
  | recommended
  | optional
  deriving DecidableEq, Repr

/-- A row of the matrix: the fields required and those recommended. -/
def requirementRow (required recommended : List String) (field : String) : RequirementLevel :=
  if field ∈ required then .required
  else if field ∈ recommended then .recommended
  else .optional

/-- `requirement`. -/
def requirement : Option CslType → String → RequirementLevel
  | some .articleJournal => requirementRow ["title", "author", "year", "container_title", "doi"]
    ["issn", "abstract_text", "volume"]
  | some .paperConference => requirementRow ["title", "author", "year", "container_title"]
    ["doi", "abstract_text", "page"]
  | some .chapter => requirementRow ["title", "author", "year", "container_title"] ["doi", "page"]
  | some .thesis => requirementRow ["title", "author", "year", "publisher"] ["abstract_text"]
  | some .report => requirementRow ["title", "author", "year"] ["doi", "publisher"]
  | some .book => requirementRow ["title", "author", "year"] ["publisher"]
  | some .webpage => requirementRow ["title", "author", "year"] ["publisher"]
  | none => requirementRow ["title", "author", "year"] ["doi", "abstract_text"]

/-- `REQUIRED_FIELD_CANDIDATES`. -/
def requiredFieldCandidates : List String :=
  ["title", "author", "year", "container_title", "doi", "publisher", "abstract_text"]

/-- The candidates the type requires. -/
def requiredFields (cslType : Option CslType) : List String :=
  requiredFieldCandidates.filter fun name => requirement cslType name = .required

/-- The grade the roll-up counts a field with: one that was not recorded is missing. -/
def countedGrade (fields : List (String × PaperFieldReport)) (name : String) : FieldGrade :=
  ((fields.lookup name).map Graded.grade).getD .missing

/-- `roll_up`. -/
def rollUp (cslType : Option CslType) (fields : List (String × PaperFieldReport))
    (crossFieldFlags : List PaperFlag) : Verdict × Confidence :=
  let required := requiredFields cslType
  let anyRequiredMissing := required.any fun name => countedGrade fields name = .missing
  let anyRequiredWeak := required.any fun name => countedGrade fields name = .weak
  let requiredStrong := required.countP fun name => countedGrade fields name = .strong
  let verdict := if anyRequiredMissing || anyRequiredWeak || crossFieldFlags.contains .noStableIdentifier then
    .needsWork else .clean
  let confidence := if anyRequiredMissing || crossFieldFlags.contains .noStableIdentifier then .low
    else if 0 < required.length ∧ requiredStrong = required.length then .high
    else .medium
  (verdict, confidence)

/-- `has_any_stable_identifier`. -/
def hasAnyStableIdentifier : Bool :=
  let present (field : String) := (input.value field).any fun text => trim text ≠ []
  present "doi" || present "arxiv_id" || (present "issn" && present "container_title")

/-- `effective_csl_type`. -/
def effectiveCslType : Option CslType :=
  ((input.effective.get "csl_type").bind parseCslType).or input.biblio.cslType

/-- The flags that belong to no single field. -/
def crossFieldFlags : List PaperFlag :=
  if profile.identifier.requireAny && !hasAnyStableIdentifier input then [.noStableIdentifier] else []

/-- `audit_paper`. -/
def auditPaper : PaperReport :=
  if !profile.auditEnabled then
    { fields := [], verdict := .clean, confidence := .medium, crossFieldFlags := [], cslType := none }
  else
    let fields := gradedFields unicode input profile data
    let crossFieldFlags := crossFieldFlags input profile
    let cslType := effectiveCslType input
    let (verdict, confidence) := rollUp cslType fields crossFieldFlags
    { fields, verdict, confidence, crossFieldFlags, cslType }

end Bookrack.Audit.Paper
