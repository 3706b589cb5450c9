/-
Text normalization (`normalize/src/lib.rs`): the nine passes over the characters of a text, and the
content hash of the result.

Unicode NFKC and SHA-256 are those of the `unicode-normalization` and `sha2` crates and enter as
parameters; `IsNfkc` lists what the passes' neighbours rely on of the former.
-/

import Bookrack.Core.Text
import Mathlib.Data.List.DropRight

namespace Bookrack.Normalize

/-! ### The passes -/

/-- The hard line breaks besides CR and LF: vertical tab, form feed, next line, line separator and
paragraph separator. -/
def isHardBreak (c : Char) : Bool :=
  c == '\u000B' || c == '\u000C' || c == '\u0085' || c == '\u2028' || c == '\u2029'

/-- `normalize_line_endings`; the LF of a CRLF pair is consumed with it. -/
def normalizeLineEndings : List Char → List Char
  | [] => []
  | '\r' :: '\n' :: rest => '\n' :: normalizeLineEndings rest
  | c :: rest =>
    (if c = '\r' then '\n' else if isHardBreak c then '\n' else c) :: normalizeLineEndings rest

/-- `is_invisible`. -/
def isInvisible (c : Char) : Bool :=
  c == '\u200B' || c == '\u200C' || c == '\u200D' || c == '\u2060' || c == '\uFEFF' || c == '\u00AD'

/-- `strip_invisibles`. -/
def stripInvisibles (text : List Char) : List Char := text.filter fun c => !isInvisible c

/-- The `match` of `unify_punctuation`. -/
def unified (c : Char) : List Char :=
  if c = '\u2015' then ['\u2014']
  else if c = '\u2E3A' then ['\u2014', '\u2014']
  else if c = '\u2E3B' then ['\u2014', '\u2014', '\u2014']
  else if c = '\u2011' then ['\u2010']
  else if c = '\u22EF' then ['\u2026']
  else if c = '\u201C' ∨ c = '\u201D' then ['"']
  else if c = '\u2018' ∨ c = '\u2019' then ['\'']
  else [c]

/-- `unify_punctuation`. -/
def unifyPunctuation (text : List Char) : List Char := text.flatMap unified

/-- `horizontal_whitespace_to_space`. -/
def horizontalWhitespaceToSpace (text : List Char) : List Char :=
  text.map fun c => if c = '\t' then ' ' else c

/-- `trim_matches`. -/
def trimMatches (p : Char → Bool) (text : List Char) : List Char :=
  (text.dropWhile p).rdropWhile p

/-- The inner loop of `fold_lines`. -/
def collapseSpaces : Bool → List Char → List Char
  | _, [] => []
  | prevSpace, c :: rest =>
    if c = ' ' then
      if prevSpace then collapseSpaces true rest else ' ' :: collapseSpaces true rest
    else c :: collapseSpaces false rest

/-- One line of `fold_lines`. -/
def foldLine (line : List Char) : List Char := collapseSpaces false (trimMatches (· == ' ') line)

/-- `fold_lines`. -/
def foldLines (text : List Char) : List Char :=
  List.intercalate ['\n'] ((text.splitOn '\n').map foldLine)

/-- `is_cjk`. -/
def isCjk (c : Char) : Bool :=
  let code := c.toNat
  (0x3000 ≤ code && code ≤ 0x303F) || (0x3040 ≤ code && code ≤ 0x30FF) ||
    (0x3400 ≤ code && code ≤ 0x4DBF) || (0x4E00 ≤ code && code ≤ 0x9FFF) ||
    (0xF900 ≤ code && code ≤ 0xFAFF) || (0x20000 ≤ code && code ≤ 0x3FFFF)

/-- The loop of `delete_cjk_flanked_space`; `prev` is `chars[i - 1]`. -/
def deleteCjkFlankedSpaceFrom : Option Char → List Char → List Char
  | _, [] => []
  | prev, c :: rest =>
    if c = ' ' ∧ prev.any isCjk ∧ rest.head?.any isCjk then
      deleteCjkFlankedSpaceFrom (some c) rest
    else c :: deleteCjkFlankedSpaceFrom (some c) rest

/-- `delete_cjk_flanked_space`. -/
def deleteCjkFlankedSpace (text : List Char) : List Char := deleteCjkFlankedSpaceFrom none text

/-- The loop of `fold_blank_lines`. -/
def foldBlankLinesFrom : Nat → List Char → List Char
  | _, [] => []
  | newlineRun, c :: rest =>
    if c = '\n' then
      if newlineRun + 1 ≤ 2 then '\n' :: foldBlankLinesFrom (newlineRun + 1) rest
      else foldBlankLinesFrom (newlineRun + 1) rest
    else c :: foldBlankLinesFrom 0 rest

/-- `fold_blank_lines`. -/
def foldBlankLines (text : List Char) : List Char := foldBlankLinesFrom 0 text

/-- `str::trim`. -/
def trim (text : List Char) : List Char := trimMatches isWhitespace text

variable (nfkc : List Char → List Char)

/-- Steps 1 to 3. -/
def prepare (text : List Char) : List Char := stripInvisibles (nfkc (normalizeLineEndings text))

/-- Steps 4 to 9. -/
def tidy (text : List Char) : List Char :=
  trim (foldBlankLines (deleteCjkFlankedSpace (foldLines
    (horizontalWhitespaceToSpace (unifyPunctuation text)))))

/-- `normalize`. -/
def normalize (input : List Char) : List Char := tidy (prepare nfkc input)

/-- `norm_text_sha256`. -/
def normTextSha256 (sha256 : List UInt8 → List UInt8) (input : List Char) : String :=
  hex (sha256 (asBytes (String.ofList (normalize nfkc input))))

/-! ### NFKC -/

/-- Characters that NFKC keeps and that nothing before or behind them decomposes into, composes with
or moves across: the line feed, the blanks, the marks that `unify_punctuation` reads and writes
(U+2026 apart), the invisible characters and the ogham space mark. -/
def inertChars : List Char :=
  ['\n', '\t', ' ', '"', '\'', '\u2010', '\u2014', '\u2015', '\u2E3A', '\u2E3B', '\u22EF', '\u201C',
    '\u201D', '\u2018', '\u2019', '\u200B', '\u200C', '\u200D', '\u2060', '\uFEFF', '\u00AD', '\u1680']

def isInert (c : Char) : Bool := inertChars.contains c

/-- The text is its own NFKC form. -/
def Stable (text : List Char) : Prop := nfkc text = text

/-- What Unicode says of NFKC. -/
structure IsNfkc : Prop where
  /-- The form of a form. -/
  idempotent : ∀ text, nfkc (nfkc text) = nfkc text
  /-- Normalizing a concatenation of two forms. -/
  concat : ∀ first second, nfkc (nfkc first ++ nfkc second) = nfkc (first ++ second)
  /-- The forms are closed under substrings. -/
  substring : ∀ first middle last, Stable nfkc (first ++ middle ++ last) → Stable nfkc middle
  /-- Normalization stops at an inert character. -/
  inert : ∀ first c last, isInert c → nfkc (first ++ c :: last) = nfkc first ++ c :: nfkc last
  /-- Characters that are their own forms compose to no inert character. -/
  keepsActive : ∀ text, (∀ c ∈ text, Stable nfkc [c] ∧ isInert c = false) →
    ∀ c ∈ nfkc text, isInert c = false
  /-- The horizontal ellipsis is three full stops. -/
  ellipsis : ∀ first last, nfkc (first ++ '\u2026' :: last) = nfkc (first ++ "...".toList ++ last)
  /-- The non-breaking hyphen is the hyphen. -/
  hyphen : ∀ first last, nfkc (first ++ '\u2011' :: last) = nfkc (first ++ '\u2010' :: last)
  /-- No character decomposes to a hard line break, a carriage return or the midline ellipsis. -/
  introduces : ∀ text, ∀ c ∈ nfkc text, c = '\r' ∨ isHardBreak c ∨ c = '\u22EF' → c ∈ text
  /-- A form holds no horizontal ellipsis, non-breaking hyphen or exotic space. -/
  folds : ∀ text, ∀ c ∈ nfkc text, c ≠ '\u2026' ∧ c ≠ '\u2011' ∧
    (isWhitespace c → isInert c ∨ c = '\r' ∨ isHardBreak c)

end Bookrack.Normalize
