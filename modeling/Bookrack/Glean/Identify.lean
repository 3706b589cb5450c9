/-
The identifiers of a paper (`glean/src/identify.rs`): a DOI and an arXiv id from the file stem, the
info title and the metadata text.
-/

import Bookrack.Audit.Paper

namespace Bookrack.Glean

open Audit (UnicodeTables parseI32)
open Regex (seq alt many group around textStart textEnd maybe star)

variable (unicode : UnicodeTables) (isWord : Char → Bool)

/-! ### Pieces -/

/-- `\d{n}`. -/
def digits (n : Nat) : Regex Char := many unicode.isDigit n (some n)

/-- `[:\s]`. -/
def isBreak (c : Char) : Bool := c == ':' || isWhitespace c

/-- `[:\s]+`. -/
def bannerBreak : Regex Char := many isBreak 1 none

/-- `[A-Za-z]` under `(?i)`. -/
def isLetterFold (c : Char) : Bool := c.isAlpha || c.toNat == 0x17F || c.toNat == 0x212A

/-- `[-._;()/:A-Za-z0-9]`. -/
def isDoiChar (c : Char) : Bool := "-._;()/:".toList.contains c || c.isAlphanum

/-- `\d{4}\.\d{4,5}`, by what the first two digits are taken from and what the others. -/
def newCore (lead digit : Char → Bool) : Regex Char :=
  seq (many lead 2 (some 2)) (seq (many digit 2 (some 2)) (seq (literal ".") (many digit 4 (some 5))))

/-- `[a-z][a-z\-]*(?:\.[A-Za-z\-]+)?/\d{7}`, by what a letter is and by what the first two digits are
taken from. -/
def oldCore (letter subclass lead : Char → Bool) : Regex Char :=
  seq (.one letter) (seq (many (fun c => letter c || c == '-') 0 none)
    (seq (maybe (seq (literal ".") (many (fun c => subclass c || c == '-') 1 none)))
      (seq (literal "/") (seq (many lead 2 (some 2)) (digits unicode 5)))))

/-- `(?:v\d+)?`, by what the letter is. -/
def version (v : Char → Bool) : Regex Char := maybe (seq (.one v) (many unicode.isDigit 1 none))

/-! ### Patterns -/

/-- `DOI_RE`. -/
def doiRe : Regex Char :=
  seq (literal "10.") (seq (many unicode.isDigit 4 (some 9)) (seq (literal "/") (many isDoiChar 1 none)))

/-- `DOI_LOOSE_RE`, for texts of at most `room` characters. -/
def doiLooseRe (room : Nat) : Regex Char :=
  let inner (c : Char) : Bool := isDoiChar c && c != '/'
  seq (literal "10") (seq spaces (seq (literal ".") (seq spaces (seq (many unicode.isDigit 4 (some 9))
    (seq spaces (seq (literal "/") (seq spaces (seq (many inner 1 none)
      (star (seq someSpaces (seq (.one fun c => unicode.isDigit c || "./-".toList.contains c)
        (many inner 0 none))) room)))))))))

/-- `DOI_PLACEHOLDER_RE`. -/
def doiPlaceholderRe : Regex Char :=
  alt (seq (literal "/") (many (fun c => foldsTo 'n' c || foldsTo 'x' c) 3 none))
    (alt (seq (literal "/") (seq (many (foldsTo 'y') 4 (some 4)) (seq (literal ".")
      (many (foldsTo 'm') 2 (some 2)))))
      (alt (folded "nnnnnnn") (alt (folded "XXXXXX") (literal "0000-0000"))))

/-- `FN_DOI_NUMERIC_RE`. -/
def fnDoiNumericRe : Regex Char :=
  seq textStart (seq (group (seq (literal "10.") (many unicode.isDigit 4 (some 9))))
    (seq (literal "_") (seq (group (many (· != '\n') 1 none)) textEnd)))

/-- `FN_ACL_RE`, by what a digit is. -/
def fnAclRe (digit : Char → Bool) : Regex Char :=
  seq textStart (seq (.one isLetterFold) (seq (many digit 2 (some 2)) (seq (literal "-")
    (seq (many digit 3 (some 4)) textEnd))))

/-- `FN_RJ_RE`, by what a digit is. -/
def fnRjRe (digit : Char → Bool) : Regex Char :=
  seq textStart (seq (folded "RJ") (seq (literal "-") (seq (many digit 4 (some 4)) (seq (literal "-")
    (seq (many digit 3 (some 4)) textEnd)))))

/-- `arxiv[:\s]+` under `(?i)`. -/
def arxivBanner : Regex Char := seq (folded "arxiv") bannerBreak

/-- `ARXIV_NEW_PREFIXED_RE`, by its core. -/
def arxivNewPrefixedRe (core : Regex Char) : Regex Char :=
  around arxivBanner core (version unicode (foldsTo 'v'))

/-- The subjects of `ARXIV_NEW_BRACKET_RE`. -/
def bracketSubject : Regex Char :=
  ([literal "cs", literal "math", literal "physics", literal "q-bio", literal "q-fin", literal "stat",
    literal "eess", literal "econ", literal "astro-ph", literal "cond-mat", literal "gr-qc",
    seq (literal "hep-") (many Char.isLower 1 none), literal "math-ph", literal "nlin",
    seq (literal "nucl-") (many Char.isLower 1 none)] : List (Regex Char)).foldr alt (literal "quant-ph")

/-- `ARXIV_NEW_BRACKET_RE`, by its core. -/
def arxivNewBracketRe (core : Regex Char) : Regex Char :=
  around (wordBoundary isWord) core (seq (version unicode (· == 'v'))
    (seq spaces (seq (literal "[") bracketSubject)))

/-- `ARXIV_OLD_PREFIXED_RE`, by its core. -/
def arxivOldPrefixedRe (core : Regex Char) : Regex Char :=
  around arxivBanner core (version unicode (foldsTo 'v'))

/-- `ARXIV_OLD_RAW_IN_TITLE_RE`, by its core. -/
def arxivOldRawInTitleRe (core : Regex Char) : Regex Char :=
  around (wordBoundary isWord) core (seq (version unicode (· == 'v')) (wordBoundary isWord))

/-- `FN_ARXIV_NEW_RE`, by its core. -/
def fnArxivNewRe (core : Regex Char) : Regex Char :=
  around (seq textStart (literal "arxiv-")) core textEnd

/-- `FN_ARXIV_OLD_RE`, by what the first two digits are taken from. -/
def fnArxivOldRe (lead : Char → Bool) : Regex Char :=
  seq textStart (seq (literal "arxiv-")
    (seq (group (seq (.one Char.isLower) (many (fun c => c.isLower || c == '-') 0 none)))
      (seq (literal "_") (seq (group (seq (many lead 2 (some 2)) (digits unicode 5))) textEnd))))

/-- `ARXIV_NEW_FMT_RE`. -/
def arxivNewFmtRe : Regex Char :=
  seq textStart (seq (group (digits unicode 2)) (seq (digits unicode 2) (seq (literal ".")
    (seq (many unicode.isDigit 4 (some 5)) textEnd))))

/-- `ARXIV_OLD_FMT_RE`. -/
def arxivOldFmtRe : Regex Char :=
  seq textStart (seq (.one Char.isLower) (seq (many (fun c => c.isLower || c == '-' || c == '.') 0 none)
    (seq (literal "/") (seq (group (digits unicode 2)) (seq (digits unicode 5) textEnd)))))

/-! ### Detectors -/

/-- `strip_trailing_punct`. -/
def stripTrailingPunct (text : List Char) : List Char :=
  text.rdropWhile fun c => ".,;:)]\x7d\x27\x22".toList.contains c

/-- `doi_from_filename`. -/
def doiFromFilename (stem : List Char) : Option (List Char) :=
  match (fnDoiNumericRe unicode).captures stem with
  | some caps => caps.head?.bind fun front => (caps[1]?).map fun rest =>
      front ++ '/' :: rest.map fun c => if c = '_' then '/' else c
  | none =>
    if (fnAclRe unicode.isDigit).isMatch stem then some ("10.18653/v1/".toList ++ unicode.toLowercase stem)
    else if (fnRjRe unicode.isDigit).isMatch stem then some ("10.32614/".toList ++ unicode.toLowercase stem)
    else ((fnArxivNewRe (newCore unicode.isDigit unicode.isDigit)).firstGroup stem).map
      ("10.48550/arxiv.".toList ++ ·)

/-- `arxiv_from_filename`. -/
def arxivFromFilename (stem : List Char) : Option (List Char) :=
  ((fnArxivNewRe (newCore unicode.isDigit unicode.isDigit)).firstGroup stem).or
    (((fnArxivOldRe unicode unicode.isDigit).captures stem).bind fun caps =>
      caps.head?.bind fun cat => (caps[1]?).map fun num => cat ++ '/' :: num)

/-- The stretches of a text that read as a DOI, in the order `doi_from_text` looks at them. -/
def doiStretches (text : List Char) : List (List Char) :=
  (doiRe unicode).findIter text ++ ((doiLooseRe unicode text.length).findIter text).filterMap fun loose =>
    (doiRe unicode).findText (loose.filter fun c => !isWhitespace c)

/-- `doi_from_text`. -/
def doiFromText (text : List Char) : Option (List Char) :=
  ((doiStretches unicode text).map stripTrailingPunct).find? fun candidate =>
    !doiPlaceholderRe.isMatch candidate

/-- The core of an old-form id under `(?i)`. -/
def oldCoreFold : Regex Char := oldCore unicode isLetterFold isLetterFold unicode.isDigit

/-- The core of an old-form id as it is written. -/
def oldCoreRaw : Regex Char := oldCore unicode Char.isLower Char.isAlpha unicode.isDigit

/-- `arxiv_from_info_title`. -/
def arxivFromInfoTitle (title : List Char) : Option (List Char) :=
  (((arxivNewPrefixedRe unicode (newCore unicode.isDigit unicode.isDigit)).firstGroup title).or
    ((arxivOldPrefixedRe unicode (oldCoreFold unicode)).firstGroup title)).or
    ((arxivOldRawInTitleRe unicode isWord (oldCoreRaw unicode)).firstGroup title)

/-- `arxiv_from_text`. -/
def arxivFromText (text : List Char) : Option (List Char) :=
  (((arxivNewPrefixedRe unicode (newCore unicode.isDigit unicode.isDigit)).firstGroup text).or
    ((arxivNewBracketRe unicode isWord (newCore unicode.isDigit unicode.isDigit)).firstGroup text)).or
    ((arxivOldPrefixedRe unicode (oldCoreFold unicode)).firstGroup text)

/-- `detect_doi`. -/
def detectDoi (metadataText filenameStem : Option (List Char)) : Option (List Char) :=
  (filenameStem.bind (doiFromFilename unicode)).or (metadataText.bind (doiFromText unicode))

/-- `detect_arxiv_id`. -/
def detectArxivId (infoTitle metadataText filenameStem : Option (List Char)) : Option (List Char) :=
  ((filenameStem.bind (arxivFromFilename unicode)).or (infoTitle.bind (arxivFromInfoTitle unicode isWord))).or
    (metadataText.bind (arxivFromText unicode isWord))

/-- `year_from_arxiv`. -/
def yearFromArxiv (arxivId : List Char) : Option Int :=
  match (arxivNewFmtRe unicode).firstGroup arxivId with
  | some yy => (parseI32 yy).map (2000 + ·)
  | none => ((arxivOldFmtRe unicode).firstGroup arxivId).bind fun yy =>
      (parseI32 yy).map fun yy => if 91 ≤ yy then 1900 + yy else 2000 + yy

end Bookrack.Glean
