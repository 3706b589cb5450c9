/-
Reading the text of an OCR product: pages under line-anchored markers, paragraphs inside a page.

* `extractFromText`: `extract_from_text`, over byte positions; `none` where a slice would panic or a
  loop would not end.
* `blocksFromPages`: the paragraphs of the pages.

The source PDF's outline and document information are read by PDFium; here they are what a given
reader makes of the blocks.
-/

import Bookrack.Base.Literal
import Bookrack.Core.Slices
import Bookrack.Normalize.Pipeline
import Bookrack.Structure.Plan

namespace Bookrack.Extract

open Normalize (trim)
open Structure (Block BlockKind)
open String (utf8Len)

/-- What makes a package malformed, with what the message shows of it. -/
inductive Malformed
  /-- `no page markers found` -/
  | noMarkers
  /-- `content before the first page marker: {head}` -/
  | prelude (head : List Char)
  /-- ``marker missing `(sheet ` infix: {marker_line:?}`` -/
  | noInfix (markerLine : List Char)
  /-- ``marker missing `) -->` suffix: {marker_line:?}`` -/
  | noSuffix (markerLine : List Char)
  /-- `marker sheet number not an integer: {sheet_str:?}` -/
  | noSheet (sheetStr : List Char)
  deriving DecidableEq, Repr

/-- Why the source PDF is not read. -/
inductive PdfError
  | io (message : String)
  | corruptFile (detail : String)
  deriving DecidableEq, Repr

/-- The errors of `extract_from_text`. -/
inductive ExtractError
  | malformedPackage (detail : Malformed)
  | emptyExtraction
  | pdf (error : PdfError)
  deriving DecidableEq, Repr

/-- One page, between two consecutive markers. -/
structure Page where
  sheet : Nat
  body : List Char
  deriving DecidableEq, Repr

def markerPrefix : List Char := "<!-- page ".toList

def markerInfix : List Char := " (sheet ".toList

def markerSuffix : List Char := ") -->".toList

def bom : Char := '\uFEFF'

/-! ### Frontmatter -/

/-- `text.strip_prefix(BOM).unwrap_or(text)`. -/
def stripBom : List Char → List Char
  | [] => []
  | c :: rest => if c = bom then rest else c :: rest

/-- `strip_suffix(c).unwrap_or(..)`. -/
def stripLast (c : Char) (text : List Char) : List Char := if text.getLast? = some c then text.dropLast else text

/-- `str::split_inclusive('\n')`, with the line read so far. -/
def splitInclusiveFrom (current : List Char) : List Char → List (List Char)
  | [] => if current.isEmpty then [] else [current]
  | c :: rest =>
    if c = '\n' then (current ++ [c]) :: splitInclusiveFrom [] rest else splitInclusiveFrom (current ++ [c]) rest

def splitInclusive (text : List Char) : List (List Char) := splitInclusiveFrom [] text

/-- `content == "---"`. -/
def isFence (line : List Char) : Bool := stripLast '\r' (stripLast '\n' line) = "---".toList

/-- The loop of `strip_frontmatter`. -/
def closeFrontmatter (rest : List Char) : Nat → List (List Char) → Option (Option (List Char))
  | _, [] => some none
  | offset, line :: lines =>
    if isFence line then (dropBytes (offset + utf8Len line) rest).map some
    else closeFrontmatter rest (offset + utf8Len line) lines

/-- What follows the opening fence. -/
def openFrontmatter (text : List Char) : Option (List Char) :=
  if "---\n".toList <+: text then some (text.drop 4)
  else if "---\r\n".toList <+: text then some (text.drop 5)
  else none

/-- `strip_frontmatter`. An unclosed frontmatter leaves the text untouched. -/
def stripFrontmatter (text : List Char) : Option (List Char) :=
  match openFrontmatter text with
  | none => some text
  | some rest => (closeFrontmatter rest 0 (splitInclusive rest)).map (Option.getD · text)

/-! ### Markers -/

/-- `line_start`. -/
def lineStart (text : List Char) (pos : Nat) : Option Nat :=
  (takeBytes pos text).map fun before =>
    match rfindBytes '\n' before with
    | none => 0
    | some newline => newline + 1

/-- The loop of `find_marker`. -/
def findMarkerFrom (text : List Char) : Nat → Nat → Option (Option Nat)
  | 0, _ => none
  | fuel + 1, search => do
    match findBytes markerPrefix (← dropBytes search text) with
    | none => some none
    | some rel =>
      let pos := search + rel
      let lead ← slice (← lineStart text pos) pos text
      if lead.all (· == bom) then some (some pos)
      else findMarkerFrom text fuel (pos + utf8Len markerPrefix)

/-- `find_marker`. -/
def findMarker (text : List Char) (start : Nat) : Option (Option Nat) :=
  findMarkerFrom text (text.length + 1) start

/-- `str::parse::<u32>`. -/
def parseU32 (text : List Char) : Option Nat :=
  let digits :=
    match text with
    | '+' :: rest => rest
    | _ => text
  (Literal.readDigits digits).filter (· < 4294967296)

/-- Where the line of a position ends. -/
def lineEnd (text : List Char) (pos : Nat) : Option Nat :=
  (dropBytes pos text).map fun rest =>
    match findBytes ['\n'] rest with
    | some rel => pos + rel
    | none => utf8Len text

/-- What is read at a marker: the sheet and where the body starts. -/
def readMarkerAt (text : List Char) (absPrefix : Nat) : Option (Except Malformed (Nat × Nat)) := do
  let afterPrefix := absPrefix + utf8Len markerPrefix
  let lineEnd ← lineEnd text afterPrefix
  let markerLine := (← slice absPrefix lineEnd text).rdropWhile isWhitespace
  match findBytes markerInfix (← slice afterPrefix lineEnd text) with
  | none => some (.error (.noInfix markerLine))
  | some infixOff =>
    let afterInfix := afterPrefix + infixOff + utf8Len markerInfix
    match findBytes markerSuffix (← slice afterInfix lineEnd text) with
    | none => some (.error (.noSuffix markerLine))
    | some suffixOff =>
      let sheetStr := trim (← slice afterInfix (afterInfix + suffixOff) text)
      match parseU32 sheetStr with
      | none => some (.error (.noSheet sheetStr))
      | some sheet => some (.ok (sheet, afterInfix + suffixOff + utf8Len markerSuffix))

/-- Where the body of a page ends: where the line of the next marker starts, or with the text. -/
def bodyEnd (text : List Char) (bodyStart : Nat) : Option Nat := do
  match ← findMarker text bodyStart with
  | none => some (utf8Len text)
  | some next => lineStart text next

/-- The loop of `scan_pages`. -/
def scanFrom (text : List Char) : Nat → Nat → List Page → Option (Except Malformed (List Page))
  | 0, _, _ => none
  | fuel + 1, cursor, out => do
    match ← findMarker text cursor with
    | none => some (.ok out)
    | some absPrefix =>
      match ← readMarkerAt text absPrefix with
      | .error malformed => some (.error malformed)
      | .ok (sheet, bodyStart) =>
        let bodyEnd ← bodyEnd text bodyStart
        scanFrom text fuel bodyEnd (out ++ [⟨sheet, ← slice bodyStart bodyEnd text⟩])

/-- `scan_pages`. -/
def scanPages (text : List Char) : Option (Except Malformed (List Page)) := do
  match ← findMarker text 0 with
  | none => some (.error .noMarkers)
  | some first =>
    let before := trim (← takeBytes (← lineStart text first) text)
    if before.isEmpty then scanFrom text (text.length + 1) first []
    else some (.error (.prelude (before.take 40)))

/-! ### Paragraphs -/

/-- `str::split("\n\n")`, with the chunk read so far. -/
def splitDoubleFrom (current : List Char) : List Char → List (List Char)
  | [] => [current]
  | '\n' :: '\n' :: rest => current :: splitDoubleFrom [] rest
  | c :: rest => splitDoubleFrom (current ++ [c]) rest

/-- The lines of a chunk that are not blank, trimmed. -/
def filledLines (chunk : List Char) : List (List Char) :=
  ((chunk.splitOn '\n').map trim).filter fun line => !line.isEmpty

/-- `blocks_from_pages`. -/
def blocksFromPages (pages : List Page) : List Block :=
  pages.flatMap fun page =>
    ((splitDoubleFrom [] page.body).map fun chunk => [' '].intercalate (filledLines chunk)).filterMap
      fun paragraph =>
        if paragraph.isEmpty then none
        else some ⟨.body, String.ofList paragraph, page.sheet - 1⟩

/-! ### The extraction -/

/-- The blocks, what the source PDF adds to them, and the hash the caller gives. -/
structure Extraction (Meta : Type) where
  blocks : List Block
  metadata : Option Meta
  derivedFromSha256 : Option String
  deriving DecidableEq, Repr

variable {Meta : Type}

/-- `extract_from_text`. -/
def extractFromText (text : List Char) (sourcePdf : Option (Except PdfError (List Block → Meta)))
    (sourcePdfSha256 : Option String) : Option (Except ExtractError (Extraction Meta)) := do
  let body ← stripFrontmatter (stripBom text)
  match ← scanPages body with
  | .error malformed => some (.error (.malformedPackage malformed))
  | .ok pages =>
    let blocks := blocksFromPages pages
    if blocks.any (·.kind == .body) then
      match sourcePdf with
      | none => some (.ok ⟨blocks, none, sourcePdfSha256⟩)
      | some (.error error) => some (.error (.pdf error))
      | some (.ok read) => some (.ok ⟨blocks, some (read blocks), sourcePdfSha256⟩)
    else some (.error .emptyExtraction)

end Bookrack.Extract
