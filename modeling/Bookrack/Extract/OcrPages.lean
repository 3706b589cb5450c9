/-
What is read of the text of an OCR product.

* `blocksFromPages_eq`: the blocks of a page are its runs of lines between empty ones, blank lines left
  out.
* `KeepsLines`: the text is refused exactly where it is malformed; else the words of the blocks are those
  outside the markers, sheet by sheet, and the blocks are the runs of lines between blank ones.
* **`extractFromText_keeps_iff`**: where that is so.
-/

import Bookrack.Extract.OcrRows

namespace Bookrack.Extract

open Normalize (trim)
open Pieces (pieces close Parted kept)
open Structure (Block)

/-! ### Lines -/

def blank (line : List Char) : Bool := (trim line).isEmpty

/-- The lines that are not blank, trimmed, with one space between. -/
def joinLines (lines : List (List Char)) : List Char := [' '].intercalate (lines.map trim)

theorem filledLines_append (first second : List Char) :
    filledLines (first ++ '\n' :: second) = filledLines first ++ filledLines second := by
  rw [filledLines, List.splitOn_append_cons_self, List.map_append, List.filter_append]
  rfl

theorem filledLines_line {line : List Char} (noBreak : '\n' ∉ line) :
    filledLines line = if blank line then [] else [trim line] := by
  rw [filledLines, List.splitOn_eq_singleton noBreak, List.map_singleton, List.filter_singleton, blank]
  cases (trim line).isEmpty <;> rfl

/-- What is left of the lines where those that are blank but not empty are dropped. -/
def keys (lines : List (List Char)) : List (List Char) := (kept List.isEmpty blank lines).map trim

theorem splitDoubleFrom_line {line : List Char} (noBreak : '\n' ∉ line) (current rest : List Char) :
    splitDoubleFrom current (line ++ rest) = splitDoubleFrom (current ++ line) rest := by
  induction line generalizing current with
  | nil => rw [List.append_nil]; rfl
  | cons c line ih =>
    obtain ⟨here, later⟩ := List.ne_and_not_mem_of_not_mem_cons noBreak
    rw [List.cons_append, splitDoubleFrom, ih later, List.append_assoc]
    · rfl
    · rintro rest rfl
      exact absurd rfl here

/-- The chunks that are not blank, as their lines. -/
def filledChunks (chunks : List (List Char)) : List (List (List Char)) :=
  (chunks.map filledLines).filter fun lines => !lines.isEmpty

/-- A chunk read so far: nothing, or whole lines. -/
def WholeLines (current : List Char) : Prop := current = [] ∨ ∃ before, current = before ++ ['\n']

theorem filledLines_on {current : List Char} (whole : WholeLines current) (line : List Char) :
    filledLines (current ++ line) = filledLines current ++ filledLines line := by
  obtain rfl | ⟨before, rfl⟩ := whole
  · rfl
  · have ends : filledLines (before ++ ['\n']) = filledLines before :=
      (filledLines_append before []).trans (List.append_nil _)
    rw [List.append_assoc, List.singleton_append, filledLines_append, ends]

theorem filledChunks_cons (chunk : List Char) (chunks : List (List Char)) :
    filledChunks (chunk :: chunks) = close (filledLines chunk) ++ filledChunks chunks := by
  rw [filledChunks, List.map_cons, close]
  cases isEmpty : (filledLines chunk).isEmpty with
  | true => exact List.filter_cons_of_neg (by simp [isEmpty])
  | false => exact List.filter_cons_of_pos (by simp [isEmpty])

theorem keys_nil (rows : List (List Char)) : keys ([] :: rows) = [] :: keys rows :=
  congrArg (List.map trim) (Pieces.kept_strong rfl rows)

/-- One line more of a chunk. -/
theorem piecesFrom_line {current row : List Char} (whole : WholeLines current) (noBreak : '\n' ∉ row)
    (opens : row = [] → filledLines current = []) (rows : List (List Char)) :
    Pieces.piecesFrom List.isEmpty (filledLines current) (keys (row :: rows)) =
      Pieces.piecesFrom List.isEmpty (filledLines (current ++ row)) (keys rows) := by
  rw [filledLines_on whole, filledLines_line noBreak]
  by_cases isEmpty : row = []
  · subst isEmpty
    rw [keys_nil, opens rfl, Pieces.piecesFrom_sep rfl]
    rfl
  · have notStrong : row.isEmpty = false := by simpa using isEmpty
    by_cases isBlank : blank row = true
    · rw [if_pos isBlank, List.append_nil, keys, Pieces.kept_weak notStrong isBlank]
      rfl
    · rw [Bool.not_eq_true] at isBlank
      have filled : (trim row).isEmpty = false := isBlank
      rw [if_neg (by simp [isBlank]), keys, Pieces.kept_value isBlank, List.map_cons,
        Pieces.piecesFrom_value filled]
      rfl

/-- **The chunks are the runs of lines between empty ones.** -/
theorem filledChunks_eq : ∀ (row : List Char) (rows : List (List Char)) (current : List Char),
    (∀ line ∈ row :: rows, '\n' ∉ line) → WholeLines current → (row = [] → filledLines current = []) →
    filledChunks (splitDoubleFrom current (unlines (row :: rows))) =
      Pieces.piecesFrom List.isEmpty (filledLines current) (keys (row :: rows))
  | row, [], current, noBreak, whole, opens => by
    rw [piecesFrom_line whole (noBreak row List.mem_cons_self) opens, unlines,
      splitDoubleFrom_line (noBreak row List.mem_cons_self)]
    exact (filledChunks_cons _ _).trans (List.append_nil _)
  | row, [[]], current, noBreak, whole, opens => by
    rw [piecesFrom_line whole (noBreak row List.mem_cons_self) opens, unlines,
      splitDoubleFrom_line (noBreak row List.mem_cons_self), keys_nil, Pieces.piecesFrom_sep rfl]
    have ends : filledLines (current ++ row ++ ['\n']) = filledLines (current ++ row) :=
      (filledLines_append (current ++ row) []).trans (List.append_nil _)
    have last : splitDoubleFrom (current ++ row) (below [[]]) = [current ++ row ++ ['\n']] := rfl
    rw [last, filledChunks_cons, ends]
    rfl
  | row, [] :: next :: rest, current, noBreak, whole, opens => by
    have cut : splitDoubleFrom (current ++ row) (below ([] :: next :: rest)) =
        (current ++ row) :: splitDoubleFrom [] (unlines (next :: rest)) := by
      rw [below_cons, below_cons]
      rfl
    have later := filledChunks_eq next rest [] (fun line isIn => noBreak line (.tail _ (.tail _ isIn)))
      (.inl rfl)
      fun _ => rfl
    rw [piecesFrom_line whole (noBreak row List.mem_cons_self) opens, unlines,
      splitDoubleFrom_line (noBreak row List.mem_cons_self), keys_nil, Pieces.piecesFrom_sep rfl, cut,
      filledChunks_cons, later]
    rfl
  | row, (c :: line) :: rest, current, noBreak, whole, opens => by
    have isOther : c ≠ '\n' := fun isBreak =>
      noBreak (c :: line) (.tail _ List.mem_cons_self) (isBreak ▸ List.mem_cons_self)
    have goesOn : splitDoubleFrom (current ++ row) (below ((c :: line) :: rest)) =
        splitDoubleFrom (current ++ row ++ ['\n']) (unlines ((c :: line) :: rest)) := by
      rw [below_cons, List.cons_append, splitDoubleFrom]
      · rfl
      · intro rest' _ isBreak
        exact isOther (List.cons.inj isBreak).1
    have ends : filledLines (current ++ row ++ ['\n']) = filledLines (current ++ row) :=
      (filledLines_append (current ++ row) []).trans (List.append_nil _)
    have later := filledChunks_eq (c :: line) rest (current ++ row ++ ['\n'])
      (fun line isIn => noBreak line (.tail _ isIn)) (.inr ⟨_, rfl⟩) fun isEmpty =>
        absurd isEmpty (List.cons_ne_nil _ _)
    rw [piecesFrom_line whole (noBreak row List.mem_cons_self) opens, unlines,
      splitDoubleFrom_line (noBreak row List.mem_cons_self), goesOn, later, ends]

/-! ### The blocks of a page -/

/-- The paragraphs as the code makes them. -/
def paragraphs (lines : List (List Char)) : List (List (List Char)) :=
  pieces List.isEmpty (kept List.isEmpty blank lines)

theorem blank_of_isEmpty (line : List Char) (isEmpty : line.isEmpty = true) : blank line = true := by
  rw [List.isEmpty_iff.mp isEmpty]
  rfl

theorem keys_pieces (lines : List (List Char)) :
    pieces List.isEmpty (keys lines) = (paragraphs lines).map (·.map trim) := by
  rw [keys, Pieces.pieces_map, paragraphs, pieces, pieces]
  refine congrArg (List.map _) (Pieces.piecesFrom_congr fun line isKept => ?_)
  -- the lines kept are blank only where they are empty
  have isLine := (List.mem_filter.mp isKept).2
  change blank line = line.isEmpty
  cases isEmpty : line.isEmpty with
  | true => exact blank_of_isEmpty line isEmpty
  | false =>
    rw [isEmpty, Bool.false_or] at isLine
    simpa using isLine

theorem intercalate_eq_nil (lines : List (List Char)) (filled : ∀ line ∈ lines, line ≠ []) :
    [' '].intercalate lines = [] ↔ lines = [] := by
  cases lines with
  | nil => exact iff_of_true rfl rfl
  | cons line lines =>
    refine iff_of_false (fun isNil => ?_) (List.cons_ne_nil _ _)
    cases lines with
    | nil => exact filled line List.mem_cons_self (by simpa using isNil)
    | cons next lines => simp at isNil

/-- The paragraphs of a text, those that are not blank, as they are joined. -/
theorem filterMap_chunks (chunks : List (List Char)) (unit : Nat) :
    (chunks.map fun chunk => [' '].intercalate (filledLines chunk)).filterMap
        (fun paragraph => if paragraph.isEmpty then none else some
          (⟨.body, String.ofList paragraph, unit⟩ : Block)) =
      (filledChunks chunks).map fun lines => ⟨.body, String.ofList ([' '].intercalate lines), unit⟩ := by
  induction chunks with
  | nil => rfl
  | cons chunk chunks ih =>
    have filled : ∀ line ∈ filledLines chunk, line ≠ [] := by
      intro line isIn isNil
      have := (List.mem_filter.mp isIn).2
      simp [isNil] at this
    rw [filledChunks_cons, List.map_cons, List.filterMap_cons, ih, List.map_append, close]
    by_cases isNil : filledLines chunk = []
    · rw [isNil]
      rfl
    · have isText : ([' '].intercalate (filledLines chunk)).isEmpty = false := by
        rw [← Bool.not_eq_true, List.isEmpty_iff, intercalate_eq_nil _ filled]
        exact isNil
      have notEmpty : (filledLines chunk).isEmpty = false := by simpa using isNil
      rw [isText, notEmpty]
      rfl

theorem unlines_break (row : List Char) (rows : List (List Char)) :
    unlines (row :: rows) ++ ['\n'] = unlines (row :: (rows ++ [[]])) := by
  have ends : below (rows ++ [[]]) = below rows ++ ['\n'] := Joined.trail_append rows [[]]
  rw [unlines, unlines, ends, List.append_assoc]

theorem keys_break (row : List Char) (rows : List (List Char)) :
    pieces List.isEmpty (keys (row :: (rows ++ [[]]))) = pieces List.isEmpty (keys (row :: rows)) := by
  have ends : keys (row :: (rows ++ [[]])) = keys (row :: rows) ++ [[]] := by
    rw [← List.cons_append, keys, kept, List.filter_append, List.map_append]
    rfl
  rw [ends, Pieces.pieces_append_sep rfl]
  exact List.append_nil _

/-- The block of a paragraph. -/
def blockOf (number : Nat) (lines : List (List Char)) : Block :=
    ⟨.body, String.ofList (joinLines lines), number - 1⟩

/-- **The blocks of a page are the runs of lines between empty ones.** -/
theorem blocksFromPages_eq {pages : List Page} {sheets : List Sheet}
    (carry : List.Forall₂ Carries pages sheets) :
    blocksFromPages pages = sheets.flatMap fun sheet => (paragraphs sheet.lines).map (blockOf sheet.number) := by
  induction carry with
  | nil => rfl
  | @cons page sheet pages sheets carries _ ih =>
    obtain ⟨number, filled, noBreak, body⟩ := carries
    rw [blocksFromPages, List.flatMap_cons, List.flatMap_cons, filterMap_chunks]
    refine congrArg₂ (· ++ ·) ?_ ih
    have chunks : filledChunks (splitDoubleFrom [] page.body) = (paragraphs sheet.lines).map (·.map trim) := by
      rw [← keys_pieces]
      obtain ⟨row, rows, isLines⟩ := List.exists_cons_of_ne_nil filled
      rw [isLines] at body noBreak ⊢
      rcases body with isBody | isBody
      · rw [isBody]
        exact filledChunks_eq row rows [] noBreak (.inl rfl) fun _ => rfl
      · have noBreak' : ∀ line ∈ row :: (rows ++ [[]]), '\n' ∉ line := by
          rw [← List.cons_append, List.forall_mem_append]
          exact ⟨noBreak, fun line isIn => List.mem_singleton.mp isIn ▸ List.not_mem_nil⟩
        rw [isBody, unlines_break, ← keys_break]
        exact filledChunks_eq row (rows ++ [[]]) [] noBreak' (.inl rfl) fun _ => rfl
    rw [chunks, List.map_map, number]
    rfl

/-! ### Words -/

/-- `str::split_whitespace`. -/
def words (text : List Char) : List (List Char) := pieces isWhitespace text

theorem words_blank {line : List Char} (isBlank : blank line = true) : words line = [] := by
  have none := Pieces.pieces_seps_append ((trim_isEmpty line).mp isBlank) []
  rw [List.append_nil] at none
  exact none

theorem words_trim (line : List Char) : words (trim line) = words line := by
  rcases Normalize.trim_cases line with ⟨isNil, blank⟩ | ⟨lead, first, rest, trail, whole, isTrim, isLead, -,
    isTrail, -⟩
  · rw [isNil, words_blank ((trim_isEmpty line).mpr blank)]
    rfl
  · rw [isTrim, whole, words, words, List.append_assoc, Pieces.pieces_seps_append isLead,
      Pieces.pieces_append_seps isTrail]

theorem words_joinLines (lines : List (List Char)) : words (joinLines lines) = lines.flatMap words := by
  induction lines with
  | nil => rfl
  | cons line lines ih =>
    rw [List.flatMap_cons, ← ih, joinLines, List.map_cons]
    cases lines with
    | nil =>
      rw [List.map_nil, List.intercalate_singleton, words_trim]
      exact (List.append_nil _).symm
    | cons next lines =>
      rw [List.map_cons, List.intercalate_cons_cons, List.append_assoc, List.singleton_append, words,
        Pieces.pieces_append_sep (by decide), ← words, words_trim]
      rfl

theorem words_kept (lines : List (List Char)) :
    ((kept List.isEmpty blank lines).filter fun line => !line.isEmpty).flatMap words = lines.flatMap words := by
  induction lines with
  | nil => rfl
  | cons line lines ih =>
    rw [List.flatMap_cons, ← ih]
    by_cases isBlank : blank line = true
    · rw [words_blank isBlank, List.nil_append]
      by_cases isEmpty : line.isEmpty = true
      · rw [Pieces.kept_strong isEmpty, List.filter_cons_of_neg (by simp [isEmpty])]
      · rw [Bool.not_eq_true] at isEmpty
        rw [Pieces.kept_weak isEmpty isBlank]
    · have filled : line.isEmpty = false := by
        rw [← Bool.not_eq_true]
        exact fun isEmpty => isBlank (blank_of_isEmpty line isEmpty)
      rw [Bool.not_eq_true] at isBlank
      rw [Pieces.kept_value isBlank, List.filter_cons_of_pos (by simp [filled]), List.flatMap_cons]

/-- **The words of a page's blocks are those of its lines.** -/
theorem words_paragraphs (lines : List (List Char)) :
    (paragraphs lines).flatMap (fun paragraph => words (joinLines paragraph)) = lines.flatMap words := by
  have joined : (paragraphs lines).flatMap (fun paragraph => words (joinLines paragraph)) =
      (paragraphs lines).flatten.flatMap words := by
    simp only [words_joinLines]
    rw [← List.flatMap_id, List.flatMap_assoc]
    rfl
  rw [joined, paragraphs, Pieces.flatten_pieces, words_kept]

/-! ### The text behind the frontmatter -/

theorem flatten_splitInclusiveFrom (text : List Char) : ∀ current : List Char,
    (splitInclusiveFrom current text).flatten = current ++ text := by
  induction text with
  | nil =>
    intro current
    rw [splitInclusiveFrom, List.append_nil]
    cases current with
    | nil => rfl
    | cons c rest => exact List.append_nil _
  | cons c rest ih =>
    intro current
    rw [splitInclusiveFrom]
    split_ifs
    · rw [List.flatten_cons, ih, List.append_assoc]
      rfl
    · rw [ih, List.append_assoc]
      rfl

/-- The text behind the first line that is a fence. -/
def afterFence : List (List Char) → Option (List Char)
  | [] => none
  | line :: lines => if isFence line then some lines.flatten else afterFence lines

theorem closeFrontmatter_eq (lines : List (List Char)) : ∀ {rest done : List Char}, rest = done ++
    lines.flatten →
    closeFrontmatter rest (String.utf8Len done) lines = some (afterFence lines) := by
  induction lines with
  | nil => exact fun _ => rfl
  | cons line lines ih =>
    intro rest done whole
    rw [List.flatten_cons, ← List.append_assoc] at whole
    rw [closeFrontmatter, afterFence, ← String.utf8Len_append]
    split_ifs
    · rw [whole, dropBytes_append]
      rfl
    · exact ih whole

/-- The text the pages are read from: without the byte-order mark and a closed frontmatter. -/
def bodyText (text : List Char) : List Char :=
  match openFrontmatter (stripBom text) with
  | none => stripBom text
  | some rest => (afterFence (splitInclusive rest)).getD (stripBom text)

theorem stripFrontmatter_eq (text : List Char) : stripFrontmatter (stripBom text) = some (bodyText text) := by
  rw [stripFrontmatter, bodyText]
  cases openFrontmatter (stripBom text) with
  | none => rfl
  | some rest =>
    have closed : closeFrontmatter rest 0 (splitInclusive rest) = some (afterFence (splitInclusive rest)) :=
      @closeFrontmatter_eq (splitInclusive rest) rest [] (flatten_splitInclusiveFrom rest []).symm
    dsimp only
    rw [closed]
    rfl

/-! ### Lines and sheets -/

/-- The lines of a text. -/
def rowsOf (text : List Char) : List (List Char) := (bodyText text).splitOn '\n'

/-- **The blocks of a sheet**: they hold its words, they are its runs of lines between blank ones, and
they carry the unit of the sheet. -/
structure OfSheet (sheet : Sheet) (group : List Block) : Prop where
  words : group.flatMap (fun block => words block.text.toList) = sheet.lines.flatMap words
  runs : group.map (·.text.toList) = (pieces blank sheet.lines).map joinLines
  unit : ∀ block ∈ group, block.sourceUnit = sheet.number - 1

/-- **Every line stays on its sheet.** -/
structure KeepsLines {Meta : Type} (text : List Char)
    (outcome : Option (Except ExtractError (Extraction Meta))) :
    Prop where
  total : outcome ≠ none
  malformed : (∃ detail, outcome = some (.error (.malformedPackage detail))) ↔ Unreadable (rowsOf text)
  empty : outcome = some (.error .emptyExtraction) → ∀ sheets, sheetsOf (marksOf (rowsOf text)).2 = some sheets →
    ∀ sheet ∈ sheets, sheet.lines.flatMap words = []
  pages : ∀ extraction, outcome = some (.ok extraction) → ∃ sheets groups,
    sheetsOf (marksOf (rowsOf text)).2 = some sheets ∧ extraction.blocks = groups.flatten ∧
      List.Forall₂ OfSheet sheets groups ∧
      ∀ one ∈ sheets.zip groups, ∀ other ∈ sheets.zip groups, one.1.number ≠ other.1.number →
        ∀ block ∈ one.2, ∀ block' ∈ other.2, block.sourceUnit ≠ block'.sourceUnit

/-- Some line of the sheet is not blank. -/
def Sheet.Filled (sheet : Sheet) : Prop := ∃ line ∈ sheet.lines, blank line = false

/-- Between two lines with blank lines between them there is an empty one, and there is text under the
sheet 0 or under the sheet 1 only. -/
structure Separable (sheets : List Sheet) : Prop where
  lines : ∀ sheet ∈ sheets, Parted List.isEmpty blank sheet.lines
  units : ¬ ∃ first ∈ sheets, ∃ second ∈ sheets, first.number = 0 ∧ second.number = 1 ∧ first.Filled ∧
    second.Filled

/-- There is no paragraph exactly where every line is blank. -/
theorem paragraphs_eq_nil (lines : List (List Char)) : paragraphs lines = [] ↔ ∀ line ∈ lines,
    blank line = true := by
  rw [paragraphs, Pieces.pieces_eq_nil]
  constructor
  · intro empty line isIn
    by_contra notBlank
    rw [Bool.not_eq_true] at notBlank
    have isKept : line ∈ kept List.isEmpty blank lines := List.mem_filter.mpr ⟨isIn, by simp [notBlank]⟩
    exact Bool.false_ne_true (notBlank.symm.trans (blank_of_isEmpty line (empty line isKept)))
  · intro blanks line isKept
    obtain ⟨isIn, isLine⟩ := List.mem_filter.mp isKept
    rw [blanks line isIn] at isLine
    simpa using isLine

theorem filled_iff (sheet : Sheet) : sheet.Filled ↔ ¬ ∀ line ∈ sheet.lines, blank line = true := by
  rw [Sheet.Filled]
  push Not
  simp only [ne_eq, Bool.not_eq_true]

/-- The paragraphs are the runs between blank lines exactly where empty ones part them. -/
theorem paragraphs_two (lines : List (List Char)) :
    Pieces.SameOrFewer (Parted List.isEmpty blank lines) (paragraphs lines) (pieces blank lines) :=
  Pieces.pieces_two blank_of_isEmpty lines

/-- The blocks of a sheet, as the code makes them. -/
def groupOf (sheet : Sheet) : List Block := (paragraphs sheet.lines).map (blockOf sheet.number)

theorem ofSheet_group {sheet : Sheet} (parted : Parted List.isEmpty blank sheet.lines) :
    OfSheet sheet (groupOf sheet) where
  words := by
    rw [groupOf, List.flatMap_map]
    simp only [blockOf, String.toList_ofList]
    exact words_paragraphs sheet.lines
  runs := by
    rcases paragraphs_two sheet.lines with ⟨-, same⟩ | ⟨unparted, -⟩
    · rw [groupOf, List.map_map, same]
      exact List.map_congr_left fun paragraph _ => String.toList_ofList
    · exact absurd parted unparted
  unit block isIn := by
    obtain ⟨paragraph, -, rfl⟩ := List.mem_map.mp isIn
    rfl

/-- As many blocks as runs between blank lines are made only where empty ones part them. -/
theorem length_groups {sheets : List Sheet} {groups : List (List Block)}
    (each : List.Forall₂ OfSheet sheets groups) :
    (sheets.flatMap groupOf).length ≤ groups.flatten.length ∧
      ((∀ sheet ∈ sheets, Parted List.isEmpty blank sheet.lines) ∨
        (sheets.flatMap groupOf).length < groups.flatten.length) := by
  induction each with
  | nil => exact ⟨Nat.le_refl _, .inl fun _ isIn => absurd isIn List.not_mem_nil⟩
  | @cons sheet group sheets groups ofSheet _ ih =>
    obtain ⟨atMost, parted⟩ := ih
    have count := congrArg List.length ofSheet.runs
    rw [List.length_map, List.length_map] at count
    have made : (groupOf sheet).length = (paragraphs sheet.lines).length := List.length_map ..
    rw [List.flatMap_cons, List.flatten_cons, List.length_append, List.length_append]
    rcases paragraphs_two sheet.lines with ⟨here, same⟩ | ⟨-, fewer⟩
    · rw [same] at made
      refine ⟨by omega, parted.imp (fun others => List.forall_mem_cons.mpr ⟨here, others⟩) fun fewer => by omega⟩
    · exact ⟨by omega, .inr (by omega)⟩

theorem any_body (sheets : List Sheet) :
    (sheets.flatMap groupOf).any (·.kind == .body) = !(sheets.flatMap groupOf).isEmpty := by
  cases isBlocks : sheets.flatMap groupOf with
  | nil => rfl
  | cons block blocks =>
    have isIn : block ∈ sheets.flatMap groupOf := isBlocks ▸ List.mem_cons_self
    obtain ⟨sheet, -, isIn⟩ := List.mem_flatMap.mp isIn
    obtain ⟨paragraph, -, rfl⟩ := List.mem_map.mp isIn
    rfl

section Outcome

variable {Meta : Type} (text : List Char) (sourcePdf : Option (Except PdfError (List Block → Meta)))
  (sourcePdfSha256 : Option String)

/-- How the extraction ends. -/
theorem extractFromText_cases :
    (Unreadable (rowsOf text) ∧ ∃ detail,
        extractFromText text sourcePdf sourcePdfSha256 = some (.error (.malformedPackage detail))) ∨
      ∃ sheets, ¬ Unreadable (rowsOf text) ∧ sheetsOf (marksOf (rowsOf text)).2 = some sheets ∧
        ((sheets.flatMap groupOf = [] ∧
            extractFromText text sourcePdf sourcePdfSha256 = some (.error .emptyExtraction)) ∨
          (∃ error, sourcePdf = some (.error error) ∧
            extractFromText text sourcePdf sourcePdfSha256 = some (.error (.pdf error))) ∨
          ((∀ error, sourcePdf ≠ some (.error error)) ∧ ∃ extraction,
            extractFromText text sourcePdf sourcePdfSha256 = some (.ok extraction) ∧
              extraction.blocks = sheets.flatMap groupOf)) := by
  rw [extractFromText, stripFrontmatter_eq]
  simp only [Option.bind_eq_bind, Option.bind_some]
  rcases scanPages_eq (bodyText text) with ⟨unreadable, malformed, isRun⟩ | ⟨sheets, pages, readable,
    areSheets, carry, isRun⟩
  · rw [isRun]
    exact .inl ⟨unreadable, malformed, rfl⟩
  · have blocks : blocksFromPages pages = sheets.flatMap groupOf := blocksFromPages_eq carry
    rw [isRun]
    simp only [Option.bind_some, blocks, any_body]
    refine .inr ⟨sheets, readable, areSheets, ?_⟩
    cases isEmpty : (sheets.flatMap groupOf).isEmpty with
    | true => exact .inl ⟨List.isEmpty_iff.mp isEmpty, rfl⟩
    | false =>
      refine .inr ?_
      cases sourcePdf with
      | none => exact .inr ⟨fun _ => nofun, _, rfl, rfl⟩
      | some read =>
        cases read with
        | error error => exact .inl ⟨error, rfl, rfl⟩
        | ok read => exact .inr ⟨fun _ => nofun, _, rfl, rfl⟩

variable {text} {sheets : List Sheet}

/-- Without blocks there is no text under the markers. -/
theorem lines_blank (none : sheets.flatMap groupOf = []) :
    ∀ sheet ∈ sheets, ∀ line ∈ sheet.lines, blank line = true := by
  intro sheet isIn
  have := List.flatMap_eq_nil_iff.mp none sheet isIn
  rwa [groupOf, List.map_eq_nil_iff, paragraphs_eq_nil] at this

theorem separable_blank (none : sheets.flatMap groupOf = []) : Separable sheets where
  lines sheet isIn := by
    have blanks := lines_blank none sheet isIn
    rcases paragraphs_two sheet.lines with ⟨parted, -⟩ | ⟨-, fewer⟩
    · exact parted
    · rw [(Pieces.pieces_eq_nil blank sheet.lines).mpr blanks] at fewer
      exact absurd fewer (Nat.not_lt_zero _)
  units := by
    rintro ⟨first, isIn, _, _, _, _, filled, _⟩
    exact (filled_iff first).mp filled (lines_blank none first isIn)

/-- A sheet with text has a block. -/
theorem exists_block {groups : List (List Block)} (each : List.Forall₂ OfSheet sheets groups) {sheet : Sheet}
    (isIn : sheet ∈ sheets) (filled : sheet.Filled) : ∃ group, (sheet, group) ∈ sheets.zip groups ∧
      ∃ block ∈ group, block.sourceUnit = sheet.number - 1 := by
  induction each with
  | nil => exact absurd isIn List.not_mem_nil
  | @cons first group _ _ ofSheet _ ih =>
    rcases List.mem_cons.mp isIn with rfl | isLater
    · have isAny : group ≠ [] := by
        rintro rfl
        have none := List.map_eq_nil_iff.mp ofSheet.runs.symm
        exact (filled_iff sheet).mp filled ((Pieces.pieces_eq_nil blank sheet.lines).mp none)
      obtain ⟨block, isBlock⟩ := List.exists_mem_of_ne_nil group isAny
      exact ⟨group, List.mem_cons_self, block, isBlock, ofSheet.unit block isBlock⟩
    · obtain ⟨group, isPair, block⟩ := ih isLater
      exact ⟨group, List.mem_cons_of_mem _ isPair, block⟩

/-- A sheet with a block has text. -/
theorem filled_of_block {sheet : Sheet} {block : Block} (isIn : block ∈ groupOf sheet) :
    sheet.Filled ∧ block.sourceUnit = sheet.number - 1 := by
  obtain ⟨paragraph, isParagraph, rfl⟩ := List.mem_map.mp isIn
  refine ⟨(filled_iff sheet).mpr fun blanks => ?_, rfl⟩
  rw [(paragraphs_eq_nil sheet.lines).mpr blanks] at isParagraph
  exact List.not_mem_nil isParagraph

end Outcome

/-- **Every line stays on its sheet exactly where empty lines part the paragraphs and no two sheets share
a unit.** -/
theorem extractFromText_keeps_iff {Meta : Type} (text : List Char)
    (sourcePdf : Option (Except PdfError (List Block → Meta))) (sourcePdfSha256 : Option String) :
    KeepsLines text (extractFromText text sourcePdf sourcePdfSha256) ↔
      ∀ sheets, ¬ Unreadable (rowsOf text) → (∀ error, sourcePdf ≠ some (.error error)) →
        sheetsOf (marksOf (rowsOf text)).2 = some sheets → Separable sheets := by
  rcases extractFromText_cases text sourcePdf sourcePdfSha256 with ⟨unreadable, detail, isRun⟩ |
    ⟨sheets, readable, areSheets, ⟨none, isRun⟩ | ⟨error, isError, isRun⟩ | ⟨opens, extraction, isRun, isBlocks⟩⟩
  · rw [isRun]
    refine iff_of_true ?_ fun _ readable => absurd unreadable readable
    exact ⟨nofun, iff_of_true ⟨detail, rfl⟩ unreadable, nofun, nofun⟩
  · rw [isRun]
    refine iff_of_true ⟨nofun, iff_of_false nofun readable, ?_, nofun⟩ ?_
    · intro _ sheets' areSheets' sheet isIn
      obtain rfl := Option.some.inj (areSheets'.symm.trans areSheets)
      exact List.flatMap_eq_nil_iff.mpr fun line isLine => words_blank (lines_blank none sheet isIn line isLine)
    · intro sheets' _ _ areSheets'
      obtain rfl := Option.some.inj (areSheets'.symm.trans areSheets)
      exact separable_blank none
  · rw [isRun]
    refine iff_of_true ⟨nofun, iff_of_false nofun readable, nofun, nofun⟩ ?_
    exact fun _ _ opens => absurd isError (opens error)
  · rw [isRun]
    constructor
    · intro keeps sheets' _ _ areSheets'
      obtain rfl := Option.some.inj (areSheets'.symm.trans areSheets)
      obtain ⟨sheets', groups, areSheets', whole, each, apart⟩ := keeps.pages extraction rfl
      obtain rfl := Option.some.inj (areSheets'.symm.trans areSheets)
      rw [isBlocks] at whole
      refine ⟨(length_groups each).2.resolve_right (by rw [whole]; exact lt_irrefl _), ?_⟩
      rintro ⟨first, isFirst, second, isSecond, zero, one, filled, filled'⟩
      obtain ⟨group, isPair, block, isBlock, unit⟩ := exists_block each isFirst filled
      obtain ⟨group', isPair', block', isBlock', unit'⟩ := exists_block each isSecond filled'
      refine apart _ isPair _ isPair' (by rw [zero, one]; decide) block isBlock block' isBlock' ?_
      rw [unit, unit', zero, one]
    · intro separable
      obtain ⟨lines, units⟩ := separable sheets readable opens areSheets
      refine ⟨nofun, iff_of_false nofun readable, nofun, fun extraction' same => ?_⟩
      obtain rfl := Except.ok.inj (Option.some.inj same)
      refine ⟨sheets, sheets.map groupOf, areSheets, isBlocks.trans (List.flatMap_def ..), ?_, ?_⟩
      · exact List.forall₂_map_right_iff.mpr (List.forall₂_same.mpr fun sheet isIn =>
          ofSheet_group (lines sheet isIn))
      · rw [← List.map_prod_left_eq_zip]
        intro one isOne other isOther differ block isBlock block' isBlock' same
        obtain ⟨first, isFirst, rfl⟩ := List.mem_map.mp isOne
        obtain ⟨second, isSecond, rfl⟩ := List.mem_map.mp isOther
        obtain ⟨filled, unit⟩ := filled_of_block isBlock
        obtain ⟨filled', unit'⟩ := filled_of_block isBlock'
        rw [unit, unit'] at same
        have differ' : first.number ≠ second.number := differ
        rcases Nat.lt_or_gt_of_ne differ' with less | more
        · exact units ⟨first, isFirst, second, isSecond, by omega, by omega, filled, filled'⟩
        · exact units ⟨second, isSecond, first, isFirst, by omega, by omega, filled', filled⟩

/-- A page whose lines end with a return and a line break. -/
def returnsPage : List Char := "<!-- page 1 (sheet 1) -->\r\n\r\nalpha\r\n\r\nbeta\r\n".toList

/-- Its two paragraphs come out as one block. -/
theorem extractFromText_joins :
    ¬ KeepsLines returnsPage (extractFromText returnsPage (none : Option (Except PdfError (List Block → Unit)))
      none) := by
  intro keeps
  have isRun : extractFromText returnsPage (none : Option (Except PdfError (List Block → Unit))) none =
      some (.ok ⟨[⟨.body, "alpha beta", 0⟩], none, none⟩) := by
    decide +kernel
  obtain ⟨sheets, groups, areSheets, whole, each, -⟩ := keeps.pages _ isRun
  have isSheets : sheetsOf (marksOf (rowsOf returnsPage)).2 =
      some [⟨1, ["\r".toList, "\r".toList, "alpha\r".toList, "\r".toList, "beta\r".toList, []]⟩] := by
    decide +kernel
  obtain rfl := Option.some.inj (areSheets.symm.trans isSheets)
  obtain _ | ⟨ofSheet, rest⟩ := each
  cases rest
  have runs := congrArg List.length ofSheet.runs
  have count := congrArg List.length whole
  simp only [List.flatten_cons, List.flatten_nil, List.append_nil, List.length_singleton] at count
  rw [List.length_map, ← count] at runs
  exact absurd runs (by decide +kernel)

end Bookrack.Extract
