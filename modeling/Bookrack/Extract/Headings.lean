/-
The headings of a paper (`extract_paper_structured` of `extract/src/pdf_paper.rs`): captions are
coloured first, then the blocks the outline names, then the numbered headings whose number fits the
sequence.

`parseNumberedPrefix_wellFormed`: what is read of a heading is a section number of positive
components, one a level, or a Roman numeral, or an appendix.
-/

import Bookrack.Base.Rows
import Bookrack.Core.Patterns
import Bookrack.Extract.Ocr
import Bookrack.Structure.Plan

namespace Bookrack.Extract

open Normalize (trim trimMatches)
open Regex
open Structure (BlockKind TocEntry)

/-! ### The blocks of a paper -/

/-- `BlockStyle`, what the heading passes read of it. -/
structure BlockStyle where
  fontSizeMedian : Float32
  isBoldMajority : Bool
  lineCount : Nat

/-- `Block` with its geometry. -/
structure PaperBlock where
  kind : BlockKind
  text : List Char
  sourceUnit : Nat
  style : Option BlockStyle

/-- What the patterns take from Unicode: `\w` and `\d`. -/
structure CharClasses where
  isWord : Char → Bool
  isDigit : Char → Bool

variable (classes : CharClasses)

/-! ### The patterns -/

/-- `[A-Za-z\u{4e00}-\u{9fff}]`. -/
def titleLetter (c : Char) : Bool :=
  c.isAlpha || (0x4E00 ≤ c.toNat && c.toNat ≤ 0x9FFF)

/-- `([1-9][0-9]?)`. -/
def sectionNumber : Regex Char :=
  .group (.seq (.one fun c => '1' ≤ c && c ≤ '9') (optional fun c => '0' ≤ c && c ≤ '9'))

/-- `\.?\s+[A-Za-z\u{4e00}-\u{9fff}]`. -/
def titleBehind : Regex Char :=
  .seq (optional (· == '.')) (.seq someSpaces (.one titleLetter))

/-- `\.([1-9][0-9]?)` in front of more. -/
def dotted (more : Regex Char) : Regex Char := .seq (.one (· == '.')) (.seq sectionNumber more)

/-- `ARABIC_TRIPLE_RE`. -/
def arabicTriple : Regex Char :=
  .seq textStart (.seq sectionNumber (dotted (dotted titleBehind)))

/-- `ARABIC_DOUBLE_RE`. -/
def arabicDouble : Regex Char := .seq textStart (.seq sectionNumber (dotted titleBehind))

/-- `ARABIC_SINGLE_RE`. -/
def arabicSingle : Regex Char := .seq textStart (.seq sectionNumber titleBehind)

/-- `ROMAN_RE`. -/
def romanPattern : Regex Char :=
  .seq textStart (.seq (.group (.many (fun c => c == 'I' || c == 'V' || c == 'X') 1 none))
    (.seq (.one (· == '.')) (.seq someSpaces (.one titleLetter))))

/-- `APPENDIX_RE`. -/
def appendixPattern : Regex Char :=
  .seq textStart (.seq (folded "Appendix") (wordBoundary classes.isWord))

/-- One of several. -/
def anyOf : List (Regex Char) → Regex Char
  | [] => .look fun _ _ => false
  | pattern :: more => .alt pattern (anyOf more)

/-- `TEMPLATE_HEAD`. -/
def templateHead : Regex Char :=
  .seq textStart (.seq (.group (anyOf (["Definition", "Theorem", "Lemma", "Corollary", "Proposition",
    "Remark", "Example", "Claim", "Fact", "Algorithm"].map folded)))
    (.seq someSpaces (.one classes.isDigit)))

/-- `STRICT_CAPTION_HEAD`. -/
def strictCaptionHead : Regex Char :=
  .seq textStart (.seq (anyOf [literal "Figure", .seq (literal "Fig") (optional (· == '.')),
    literal "Table", literal "图", literal "表"]) (.seq spaces (.seq (.many classes.isDigit 1 none)
      (.alt (.one fun c => c == '.' || c == ':' || c == '-')
        (.seq someSpaces (.one fun c => !isWhitespace c))))))

/-- `FIGURE_CAPTION_LABEL`. -/
def figureCaptionLabel : Regex Char :=
  .seq textStart (.seq (anyOf [folded "Figure", .seq (folded "Fig") (optional (· == '.')),
    folded "Table", literal "图", literal "表", folded "Equation",
    .seq (folded "Eq") (optional (· == '.')), folded "Algorithm"]) (.seq spaces (.one classes.isDigit)))

/-! ### Numbered prefixes -/

/-- What `parse_numbered_prefix` returns. -/
structure NumberedPrefix where
  level : Nat
  numbers : List Nat
  isRoman : Bool
  isAppendix : Bool
  deriving DecidableEq, Repr

/-- `canonical_roman_within_thirty`. -/
def canonicalRomanWithinThirty (n : Nat) : List Char :=
  List.replicate (n / 10) 'X' ++
    if n % 10 ≤ 3 then List.replicate (n % 10) 'I'
    else if n % 10 = 4 then ['I', 'V']
    else if n % 10 ≤ 8 then 'V' :: List.replicate (n % 10 - 5) 'I'
    else ['I', 'X']

/-- The value of a Roman digit. -/
def romanDigit (c : Char) : Option Int :=
  if c = 'I' then some 1 else if c = 'V' then some 5 else if c = 'X' then some 10 else none

/-- The loop of `roman_value`, over the digits from the last to the first. -/
def romanTotal : Int → Int → List Char → Option Int
  | total, _, [] => some total
  | total, prev, c :: rest =>
    match romanDigit c with
    | none => none
    | some v => romanTotal (if v < prev then total - v else total + v) v rest

/-- `roman_value`. -/
def romanValue (s : List Char) : Option Nat := do
  let total ← romanTotal 0 0 s.reverse
  if 1 ≤ total ∧ total ≤ 30 then
    if canonicalRomanWithinThirty total.toNat = s then some total.toNat else none
  else none

/-- `parse_numbered_prefix`. -/
def parseNumberedPrefix (trimmed : List Char) : Option NumberedPrefix :=
  if (appendixPattern classes).isMatch trimmed then some ⟨1, [], false, true⟩
  else
    match arabicTriple.captures trimmed with
    | some caps => (caps.mapM parseU32).map fun numbers => ⟨3, numbers, false, false⟩
    | none =>
      match arabicDouble.captures trimmed with
      | some caps => (caps.mapM parseU32).map fun numbers => ⟨2, numbers, false, false⟩
      | none =>
        match arabicSingle.captures trimmed with
        | some caps => (caps.mapM parseU32).map fun numbers => ⟨1, numbers, false, false⟩
        | none =>
          match romanPattern.captures trimmed with
          | some caps => (caps.mapM romanValue).map fun numbers => ⟨1, numbers, true, false⟩
          | none => none

/-- What is read of a heading: an Arabic number has a positive component for each of its up to three
levels, a Roman one is a single number. -/
structure NumberedPrefix.WellFormed (found : NumberedPrefix) : Prop where
  arabic : found.isAppendix = false → found.isRoman = false →
    found.numbers.length = found.level ∧ 1 ≤ found.level ∧ found.level ≤ 3 ∧ ∀ n ∈ found.numbers, 0 < n
  roman : found.isAppendix = false → found.isRoman = true → ∃ n, found.numbers = [n]

/-- A text that begins with a digit from 1 on. -/
def Leads (text : List Char) : Prop := ∃ d ds, text = d :: ds ∧ 49 ≤ d.toNat ∧ d.toNat ≤ 57

theorem le_ofDigitChars (digits : List Char) (start : Nat) : start ≤ Nat.ofDigitChars 10 digits start := by
  induction digits generalizing start with
  | nil => rw [Nat.ofDigitChars_nil]
  | cons c digits ih =>
    rw [Nat.ofDigitChars_cons]
    exact (Nat.le_trans (by omega) (Nat.le_add_right (10 * start) _)).trans (ih _)

theorem parseU32_pos {text : List Char} {n : Nat} (leads : Leads text) (isRead : parseU32 text = some n) :
    0 < n := by
  obtain ⟨d, ds, rfl, low, high⟩ := leads
  have isDigits : parseU32 (d :: ds) = (Literal.readDigits (d :: ds)).filter (· < 4294967296) := by
    rw [parseU32]
    rintro rest isPlus
    obtain ⟨rfl, -⟩ := List.cons.inj isPlus
    exact absurd low (by decide)
  rw [isDigits, Option.filter_eq_some_iff, Literal.readDigits_eq_some] at isRead
  obtain ⟨⟨-, rfl⟩, -⟩ := isRead
  rw [Literal.value, Nat.ofDigitChars_cons]
  refine Nat.lt_of_lt_of_le ?_ (le_ofDigitChars ds _)
  show 0 < 10 * 0 + (d.toNat - 48)
  omega

theorem takes_sectionNumber {before : Option Char} {taken rest : List Char} {groups : List (List Char)}
    (takes : sectionNumber.Takes before taken rest groups) : groups = [taken] ∧ Leads taken := by
  obtain ⟨_, rfl, _, back, _, _, rfl, rfl, ⟨d, rfl, rfl, isDigit⟩, rfl, -⟩ := takes
  have ⟨low, high⟩ := Bool.and_eq_true_iff.mp isDigit
  exact ⟨rfl, d, back, rfl, of_decide_eq_true low, of_decide_eq_true high⟩

theorem takes_titleBehind {before : Option Char} {taken rest : List Char} {groups : List (List Char)}
    (takes : titleBehind.Takes before taken rest groups) : groups = [] := by
  obtain ⟨_, _, _, _, -, rfl, ⟨rfl, -⟩, _, _, _, _, -, rfl, ⟨rfl, -⟩, _, -, rfl, -⟩ := takes
  rfl

/-- The groups of a pattern are section numbers, `count` of them. -/
def NumberGroups (pattern : Regex Char) (count : Nat) : Prop :=
  ∀ before taken rest groups, pattern.Takes before taken rest groups →
    groups.length = count ∧ ∀ group ∈ groups, Leads group

theorem numberGroups_title : NumberGroups titleBehind 0 := by
  intro before taken rest groups takes
  rw [takes_titleBehind takes]
  exact ⟨rfl, nofun⟩

theorem NumberGroups.numbered {pattern : Regex Char} {count : Nat} (more : NumberGroups pattern count) :
    NumberGroups (.seq sectionNumber pattern) (count + 1) := by
  rintro before taken rest groups ⟨_, _, one, two, -, rfl, first, second⟩
  obtain ⟨rfl, leads⟩ := takes_sectionNumber first
  obtain ⟨length, rest⟩ := more _ _ _ _ second
  refine ⟨congrArg (· + 1) length, ?_⟩
  rintro group (_ | member)
  · exact leads
  · exact rest group ‹_›

theorem NumberGroups.silent {first pattern : Regex Char} {count : Nat} (more : NumberGroups pattern count)
    (silent : ∀ before taken rest groups, first.Takes before taken rest groups → groups = []) :
    NumberGroups (.seq first pattern) count := by
  rintro before taken rest groups ⟨_, _, one, two, -, rfl, isFirst, second⟩
  rw [silent _ _ _ _ isFirst]
  exact more _ _ _ _ second

theorem NumberGroups.dotted {pattern : Regex Char} {count : Nat} (more : NumberGroups pattern count) :
    NumberGroups (dotted pattern) (count + 1) :=
  more.numbered.silent fun _ _ _ _ ⟨_, _, noGroups, _⟩ => noGroups

theorem NumberGroups.started {pattern : Regex Char} {count : Nat} (more : NumberGroups pattern count) :
    NumberGroups (.seq textStart pattern) count :=
  more.silent fun _ _ _ _ ⟨_, noGroups, _⟩ => noGroups

/-- The numbers of an Arabic pattern: one a level, each positive. -/
theorem NumberGroups.numbers {pattern : Regex Char} {count : Nat} (isNumbers : NumberGroups pattern count)
    {text : List Char} {caps : List (List Char)} {numbers : List Nat}
    (captured : pattern.captures text = some caps) (isRead : caps.mapM parseU32 = some numbers) :
    numbers.length = count ∧ ∀ n ∈ numbers, 0 < n := by
  obtain ⟨front, taken, rest, -, takes⟩ := captures_eq_some captured
  obtain ⟨length, leads⟩ := isNumbers _ _ _ _ takes
  constructor
  · have same := congrArg List.length ((Rows.mapM_eq_some parseU32 caps numbers).mp isRead)
    rwa [List.length_map, List.length_map, length, eq_comm] at same
  · intro n member
    obtain ⟨group, isGroup, isNumber⟩ := Rows.mem_of_mapM isRead member
    exact parseU32_pos (leads group isGroup) isNumber

theorem wellFormed_arabic {level : Nat} {numbers : List Nat} (inside : 1 ≤ level ∧ level ≤ 3)
    (isNumbers : numbers.length = level ∧ ∀ n ∈ numbers, 0 < n) :
    NumberedPrefix.WellFormed ⟨level, numbers, false, false⟩ :=
  ⟨fun _ _ => ⟨isNumbers.1, inside.1, inside.2, isNumbers.2⟩, nofun⟩

/-- The groups of the Roman pattern: the numeral. -/
theorem roman_groups {text : List Char} {caps : List (List Char)}
    (captured : romanPattern.captures text = some caps) : ∃ numeral, caps = [numeral] := by
  obtain ⟨front, taken, rest, -, takes⟩ := captures_eq_some captured
  obtain ⟨_, _, _, _, -, rfl, ⟨-, rfl, -⟩, numeral, _, _, _, -, rfl, ⟨_, rfl, rfl, -⟩, _, _, _, _, -,
    rfl, ⟨_, -, rfl, -⟩, _, _, _, _, -, rfl, ⟨rfl, -⟩, _, -, rfl, -⟩ := takes
  exact ⟨numeral, rfl⟩

/-- **What `parse_numbered_prefix` reads is well formed.** -/
theorem parseNumberedPrefix_wellFormed {trimmed : List Char} {found : NumberedPrefix}
    (isRead : parseNumberedPrefix classes trimmed = some found) : found.WellFormed := by
  rw [parseNumberedPrefix] at isRead
  split at isRead
  · obtain rfl := Option.some.inj isRead
    exact ⟨nofun, nofun⟩
  · split at isRead
    · rename_i caps captured
      obtain ⟨numbers, isNumbers, rfl⟩ := Option.map_eq_some_iff.mp isRead
      exact wellFormed_arabic (by decide)
        (numberGroups_title.dotted.dotted.numbered.started.numbers captured isNumbers)
    · split at isRead
      · rename_i caps captured
        obtain ⟨numbers, isNumbers, rfl⟩ := Option.map_eq_some_iff.mp isRead
        exact wellFormed_arabic (by decide)
          (numberGroups_title.dotted.numbered.started.numbers captured isNumbers)
      · split at isRead
        · rename_i caps captured
          obtain ⟨numbers, isNumbers, rfl⟩ := Option.map_eq_some_iff.mp isRead
          exact wellFormed_arabic (by decide)
            (numberGroups_title.numbered.started.numbers captured isNumbers)
        · split at isRead
          · rename_i caps captured
            obtain ⟨numbers, isNumbers, rfl⟩ := Option.map_eq_some_iff.mp isRead
            obtain ⟨numeral, rfl⟩ := roman_groups captured
            refine ⟨nofun, fun _ _ => ?_⟩
            have same := congrArg List.length ((Rows.mapM_eq_some romanValue _ numbers).mp isNumbers)
            rw [List.length_map, List.length_map] at same
            exact List.length_eq_one_iff.mp same.symm
          · cases isRead

/-! ### Geometry -/

/-- The order of `f32::total_cmp`. -/
def totalKey (size : Float32) : Int :=
  let bits : Int := size.toBits.toNat
  if bits < 2 ^ 31 then bits else 2 ^ 31 - 1 - bits

/-- `page_font_median`. -/
def pageFontMedian (blocks : List PaperBlock) (page : Nat) : Float32 :=
  let sizes := (blocks.filter fun block => block.sourceUnit = page && block.kind = .body).filterMap
    fun block => block.style.map BlockStyle.fontSizeMedian
  let sorted := sizes.mergeSort fun one other => totalKey one ≤ totalKey other
  sorted.getD (sorted.length / 2) 0

/-! ### The strict gate -/

/-- `contains_math_or_symbol`. -/
def containsMathOrSymbol (text : List Char) : Bool :=
  text.any fun c =>
    let v := c.toNat
    (0x2190 ≤ v && v ≤ 0x21FF) || (0x2200 ≤ v && v ≤ 0x22FF) || (0x2300 ≤ v && v ≤ 0x23FF) ||
      (0x25A0 ≤ v && v ≤ 0x25FF) || (0x27C0 ≤ v && v ≤ 0x27EF) || (0x2980 ≤ v && v ≤ 0x29FF) ||
      (0x2A00 ≤ v && v ≤ 0x2AFF)

/-- `BLACKLIST_PREFIXES`. -/
def blacklistPrefixes : List String :=
  ["we ", "the ", "in ", "this ", "proceedings of", "preprint", "copyright", "doi:", "https://",
    "http://", "vol.", "volume ", "issn ", "issn:", "received ", "accepted ", "published "]

/-- `ascii_lower`. -/
def asciiLower (text : List Char) : List Char := text.map Char.toLower

/-- The geometry a numbered candidate needs. -/
def geometryOk (blocks : List PaperBlock) (block : PaperBlock) (style : BlockStyle) : Bool :=
  style.isBoldMajority ||
    let pageMed := pageFontMedian blocks block.sourceUnit
    pageMed > 0.1 && style.fontSizeMedian > pageMed * 1.1

/-- The filters of `collect_strict_candidates` on one block. -/
def strictPrefix (blocks : List PaperBlock) (block : PaperBlock) : Option NumberedPrefix :=
  if block.kind ≠ .body then none
  else
    match block.style with
    | none => none
    | some style =>
      let trimmed := trim block.text
      if style.lineCount ≠ 1 then none
      else if trimmed = [] then none
      else if ¬ (2 ≤ trimmed.length ∧ trimmed.length ≤ 80) then none
      else if containsMathOrSymbol trimmed then none
      else if '@' ∈ trimmed then none
      else if blacklistPrefixes.any fun p => p.toList.isPrefixOf (asciiLower trimmed) then none
      else if (templateHead classes).isMatch trimmed then none
      else
        match parseNumberedPrefix classes trimmed with
        | none => none
        | some found =>
          if !found.isRoman && !found.isAppendix && !geometryOk blocks block style then none
          else some found

/-- `StrictCandidate`. -/
structure StrictCandidate where
  blockIdx : Nat
  found : NumberedPrefix

/-- The loop of `collect_strict_candidates`. -/
def collectFrom (blocks : List PaperBlock) : Nat → List PaperBlock → List StrictCandidate
  | _, [] => []
  | i, block :: rest =>
    match strictPrefix classes blocks block with
    | none => collectFrom blocks (i + 1) rest
    | some found => ⟨i, found⟩ :: collectFrom blocks (i + 1) rest

/-- `collect_strict_candidates`. -/
def collectStrictCandidates (blocks : List PaperBlock) : List StrictCandidate :=
  collectFrom classes blocks 0 blocks

/-! ### The sequence -/

/-- The counters of `validate_sequence`. -/
structure Sequence where
  l1 : Nat
  l2 : Nat
  l3 : Nat
  romanL1 : Nat
  appendixSeen : Bool
  deriving DecidableEq, Repr

/-- A heading that is there already moves the counters to its number. -/
def Sequence.absorb (counters : Sequence) (found : NumberedPrefix) : Sequence :=
  if found.isAppendix then { counters with appendixSeen := true }
  else if found.isRoman then
    match found.numbers with
    | n :: _ => { counters with romanL1 := n }
    | [] => counters
  else
    match found.level, found.numbers with
    | 1, n :: _ => { counters with l1 := n, l2 := 0, l3 := 0 }
    | 2, a :: b :: _ => { counters with l1 := a, l2 := b, l3 := 0 }
    | 3, a :: b :: c :: _ => { counters with l1 := a, l2 := b, l3 := c }
    | _, _ => counters

/-- Whether a candidate fits, and the counters behind it. -/
def Sequence.accept (counters : Sequence) (found : NumberedPrefix) : Option Sequence :=
  if found.isAppendix then
    if counters.appendixSeen then none else some { counters with appendixSeen := true }
  else if found.isRoman then
    if found.numbers[0]? = some (counters.romanL1 + 1) then
      some { counters with romanL1 := counters.romanL1 + 1 }
    else none
  else
    match found.level with
    | 1 =>
      if found.numbers[0]? = some (counters.l1 + 1) then
        some { counters with l1 := counters.l1 + 1, l2 := 0, l3 := 0 }
      else none
    | 2 =>
      if found.numbers[0]? = some counters.l1 ∧ found.numbers[1]? = some (counters.l2 + 1) then
        some { counters with l2 := counters.l2 + 1, l3 := 0 }
      else none
    | 3 =>
      if found.numbers[0]? = some counters.l1 ∧ found.numbers[1]? = some counters.l2 ∧
          found.numbers[2]? = some (counters.l3 + 1) then
        some { counters with l3 := counters.l3 + 1 }
      else none
    | _ => none

/-- Whether a block is a heading. -/
def isHeading : BlockKind → Bool
  | .heading _ => true
  | _ => false

/-- The loop of `validate_sequence`: the blocks from `idx` on, with the candidates not yet consumed. -/
def validateFrom :
    Nat → List PaperBlock → List StrictCandidate → Sequence → List StrictCandidate
  | _, [], _, _ => []
  | idx, block :: rest, cands, counters =>
    if isHeading block.kind then
      match parseNumberedPrefix classes (trim block.text) with
      | some found => validateFrom (idx + 1) rest cands (counters.absorb found)
      | none => validateFrom (idx + 1) rest cands counters
    else
      match cands with
      | [] => validateFrom (idx + 1) rest [] counters
      | cand :: more =>
        if cand.blockIdx = idx then
          match counters.accept cand.found with
          | some next => cand :: validateFrom (idx + 1) rest more next
          | none => validateFrom (idx + 1) rest more counters
        else validateFrom (idx + 1) rest (cand :: more) counters

/-- `validate_sequence`. -/
def validateSequence (blocks : List PaperBlock) (candidates : List StrictCandidate) :
    List StrictCandidate :=
  validateFrom classes 0 blocks candidates ⟨0, 0, 0, 0, false⟩

/-! ### The outline -/

/-- The characters `normalize_label` skips in front. -/
def labelNumber (c : Char) : Bool :=
  c.isDigit || c == '.' || c == ' ' || c == '\t' || c == 'I' || c == 'V' || c == 'X'

/-- The loop of `normalize_label`. -/
def squeezeLabel : Bool → List Char → List Char
  | _, [] => []
  | lastSpace, c :: rest =>
    if isWhitespace c then
      if lastSpace then squeezeLabel true rest else ' ' :: squeezeLabel true rest
    else c.toLower :: squeezeLabel false rest

/-- `normalize_label`. -/
def normalizeLabel (s : List Char) : List Char := trim (squeezeLabel true (s.dropWhile labelNumber))

/-- Whether a block is big enough for a heading: a single line no smaller than its page. -/
def styleFits (blocks : List PaperBlock) (block : PaperBlock) : Bool :=
  match block.style with
  | none => true
  | some style =>
    style.lineCount == 1 &&
      let pageMed := pageFontMedian blocks block.sourceUnit
      !(pageMed > 0.1 && style.fontSizeMedian < pageMed * 0.95)

/-- The filters of `locate_outline_heading` on one block. -/
def matchesLabel (blocks : List PaperBlock) (labelKey : List Char) (block : PaperBlock) : Bool :=
  let trimmed := trim block.text
  let blockKey := normalizeLabel trimmed
  block.kind = .body && (3 ≤ trimmed.length && trimmed.length ≤ 80) && styleFits blocks block &&
    blockKey ≠ [] && (labelKey.isPrefixOf blockKey || blockKey.isPrefixOf labelKey)

/-- The loop of `locate_outline_heading`. Pages are counted in `u32`: `anchorPage + 1` is theirs short of
the last page number. -/
def locateFrom (blocks : List PaperBlock) (labelKey : List Char) (anchorPage : Nat) :
    Nat → List PaperBlock → Option Nat
  | _, [] => none
  | idx, block :: rest =>
    if block.sourceUnit > anchorPage + 1 then none
    else if matchesLabel blocks labelKey block then some idx
    else locateFrom blocks labelKey anchorPage (idx + 1) rest

/-- `locate_outline_heading`. -/
def locateOutlineHeading (blocks : List PaperBlock) (anchor : Nat) (label : List Char) : Option Nat :=
  let labelKey := normalizeLabel label
  if labelKey = [] then none
  else
    let anchorPage := (blocks[anchor]?.map PaperBlock.sourceUnit).getD 0
    locateFrom blocks labelKey anchorPage anchor (blocks.drop anchor)

/-! ### The passes -/

/-- A block with another kind. -/
def PaperBlock.colour (block : PaperBlock) (kind : BlockKind) : PaperBlock := { block with kind }

/-- `str::trim_start`. -/
def trimStart (text : List Char) : List Char := text.dropWhile isWhitespace

/-- The caption pass on one block. -/
def colourCaption (block : PaperBlock) : PaperBlock :=
  if block.kind = .body ∧ (strictCaptionHead classes).isMatch (trimStart block.text) then
    block.colour .caption
  else block

/-- The outline pass for one entry: the blocks and whether one was promoted. -/
def outlineEntry (blocks : List PaperBlock) (entry : TocEntry) : List PaperBlock × Nat :=
  match entry.startBlock with
  | none => (blocks, 0)
  | some anchor =>
    match locateOutlineHeading blocks anchor entry.label.toList with
    | none => (blocks, 0)
    | some target =>
      let level := if entry.depth = 0 then 1 else 2
      (blocks.modify target (·.colour (.heading level)), 1)

/-- The outline pass. -/
def outlinePass (blocks : List PaperBlock) (entries : List TocEntry) : List PaperBlock × Nat :=
  ((entries.filter (·.startBlock.isSome)).filter fun entry =>
    !(figureCaptionLabel classes).isMatch (trimStart entry.label.toList)).foldl
    (fun done entry =>
      let (blocks, hits) := outlineEntry done.1 entry
      (blocks, done.2 + hits)) (blocks, 0)

/-- An accepted candidate is promoted where its block is still `Body`. -/
def promote (done : List PaperBlock × Nat) (cand : StrictCandidate) : List PaperBlock × Nat :=
  match done.1[cand.blockIdx]? with
  | none => done
  | some block =>
    if block.kind = .body then
      (done.1.set cand.blockIdx (block.colour (.heading cand.found.level)), done.2 + 1)
    else done

/-- `SourceOfStructure`. -/
inductive SourceOfStructure
  | outline
  | heuristic
  | mixed
  | none
  deriving DecidableEq, Repr

/-- The blocks the numbered headings are looked for in: captions and outline headings are coloured. -/
def outlined (blocks : List PaperBlock) (entries : List TocEntry) : List PaperBlock × Nat :=
  outlinePass classes (blocks.map (colourCaption classes)) entries

/-- `extract_paper_structured`. -/
def extractPaperStructured (blocks : List PaperBlock) (entries : List TocEntry) :
    List PaperBlock × SourceOfStructure :=
  let (blocks, outlineHits) := outlined classes blocks entries
  let accepted := validateSequence classes blocks (collectStrictCandidates classes blocks)
  let (blocks, heuristicHits) := accepted.foldl promote (blocks, 0)
  (blocks,
    if outlineHits = 0 ∧ heuristicHits = 0 then .none
    else if heuristicHits = 0 then .outline
    else if outlineHits = 0 then .heuristic
    else .mixed)

end Bookrack.Extract
