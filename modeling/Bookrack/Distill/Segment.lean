/-
Cutting the lines of a book into entries (`distill/src/anchors.rs`, `distill/src/segment.rs`).

The check of a stage on the kind of its input is left out. `CharClass` holds the two Unicode properties
the rules ask of a character; nothing is assumed of them.
-/

import Bookrack.Base.Pieces
import Bookrack.Normalize.Pipeline

namespace Bookrack.Distill

/-! ### Anchor rules -/

/-- `char::is_alphabetic` and `char::is_uppercase`. -/
structure CharClass where
  isAlphabetic : Char → Bool
  isUppercase : Char → Bool

/-- `is_cjk`. -/
def isCjk (c : Char) : Bool :=
  let code := c.toNat
  (0x4E00 ≤ code && code ≤ 0x9FFF) || (0x3400 ≤ code && code ≤ 0x4DBF) ||
    (0xF900 ≤ code && code ≤ 0xFAFF)

/-- `AnchorRule`. -/
inductive AnchorRule
  | latinHeadword
  | cjkShortHeadword (maxChars : Nat)
  | englishShortHeadword (maxWords : Nat)
  | rejectRunningHeader
  | anyOf (rules : List AnchorRule)
  deriving Repr

/-- `is_latin_headword_first`. -/
def isLatinHeadwordFirst (c : Char) : Bool :=
  let code := c.toNat
  ('A' ≤ c && c ≤ 'Z') || (0xC0 ≤ code && code ≤ 0xD6) || (0xD8 ≤ code && code ≤ 0xDE) ||
    (0x100 ≤ code && code ≤ 0x17F)

/-- `is_latin_headword_second`. -/
def isLatinHeadwordSecond (c : Char) : Bool :=
  let code := c.toNat
  ('A' ≤ c && c ≤ 'Z') || ('a' ≤ c && c ≤ 'z') || (0xC0 ≤ code && code ≤ 0xFF) ||
    (0x100 ≤ code && code ≤ 0x24F) || (0x1E00 ≤ code && code ≤ 0x1EFF) || c == '\'' || c == '-'

/-- `is_latin_headword`. -/
def isLatinHeadword : List Char → Bool
  | first :: second :: _ => isLatinHeadwordFirst first && isLatinHeadwordSecond second
  | _ => false

/-- `is_cjk_short_headword`. -/
def isCjkShortHeadword (s : List Char) (maxChars : Nat) : Bool :=
  !s.isEmpty && s.length ≤ maxChars && s.all fun c => isWhitespace c || isCjk c

/-- `is_english_short_headword`. -/
def isEnglishShortHeadword (s : List Char) (maxWords : Nat) : Bool :=
  let words := Pieces.pieces isWhitespace s
  !s.any isCjk && (s.head?.any Char.isAlpha) && !words.isEmpty && words.length ≤ maxWords &&
    s.countP (· == '.') ≤ 1

/-- `is_running_header`. -/
def isRunningHeader (classes : CharClass) (s : List Char) : Bool :=
  if !s.isEmpty && s.all Char.isDigit then true
  else
    s.any classes.isAlphabetic && (s.filter classes.isAlphabetic).all classes.isUppercase &&
      String.utf8Len s < 40

mutual

/-- `AnchorRule::matches`. -/
def AnchorRule.isMatch (classes : CharClass) (line : List Char) (rule : AnchorRule) : Bool :=
  let trimmed := Normalize.trim line
  if trimmed.isEmpty then false
  else
    match rule with
    | .latinHeadword => isLatinHeadword trimmed
    | .cjkShortHeadword maxChars => isCjkShortHeadword trimmed maxChars
    | .englishShortHeadword maxWords => isEnglishShortHeadword trimmed maxWords
    | .rejectRunningHeader => isRunningHeader classes trimmed
    | .anyOf rules => anyMatch classes trimmed rules

/-- `rules.iter().any(|r| r.matches(line))`. -/
def anyMatch (classes : CharClass) (line : List Char) : List AnchorRule → Bool
  | [] => false
  | rule :: rest => rule.isMatch classes line || anyMatch classes line rest

end

/-- `LangAnchorRule`. -/
structure LangAnchorRule where
  lang : String
  anchor : AnchorRule
  reject : List AnchorRule
  dropLoneLetterDividers : Bool
  spliceOrphansToPrevBlock : Bool
  deriving Repr

/-! ### Blocks and entries -/

/-- `Block`. -/
structure Block where
  page : Nat
  sheet : Nat
  lang : Option String
  lines : List String
  deriving DecidableEq, Repr

/-- `RawEntry`. -/
structure RawEntry where
  page : Nat
  sheet : Nat
  anchor : String
  body : List String
  lang : Option String
  qualityFlags : List String
  deriving DecidableEq, Repr

/-- `Coverage`, as far as these stages write it. -/
structure Coverage where
  raws : Nat
  unmatchedLines : Nat
  deriving DecidableEq, Repr

/-- `is_lone_letter_divider`. -/
def isLoneLetterDivider : List Char → Bool
  | [c] => c.isAlpha
  | _ => false

variable (classes : CharClass)

/-! ### `walk_block_into` -/

/-- The locals of `walk_block_into` and the entries so far. -/
structure Walk where
  current : Option RawEntry
  orphans : List String
  raws : List RawEntry

/-- The settings of one walk. -/
structure WalkRule where
  anchor : AnchorRule
  reject : List AnchorRule
  dropLoneLetterDividers : Bool
  spliceOrphansToPrevBlock : Bool
  deriving Repr

/-- The body of the loop over the lines. -/
def walkLine (block : Block) (rule : WalkRule) (walk : Walk) (line : String) : Walk :=
  let trimmed := Normalize.trim line.toList
  if trimmed.isEmpty then walk
  else if anyMatch classes trimmed rule.reject then walk
  else if rule.dropLoneLetterDividers && isLoneLetterDivider trimmed then walk
  else if rule.anchor.isMatch classes trimmed then
    { walk with
      raws := walk.raws ++ walk.current.toList
      current := some ⟨block.page, block.sheet, String.ofList trimmed, [], block.lang, []⟩ }
  else
    match walk.current with
    | some entry => { walk with current := some { entry with body := entry.body ++ [line] } }
    | none => { walk with orphans := walk.orphans ++ [line] }

/-- The orphans pushed onto an entry, and its flag. -/
def RawEntry.splice (orphans : List String) (prev : RawEntry) : RawEntry :=
  { prev with
    body := prev.body ++ orphans
    qualityFlags :=
      if prev.qualityFlags.any (· == "spliced_from_orphan") then prev.qualityFlags
      else prev.qualityFlags ++ ["spliced_from_orphan"] }

/-- The orphans of a block: onto the last entry pushed, or counted. -/
def spliceOrphans (spliceOrphansToPrevBlock : Bool) (orphans : List String)
    (state : List RawEntry × Nat) : List RawEntry × Nat :=
  if orphans.isEmpty then state
  else
    match if spliceOrphansToPrevBlock then state.1.getLast? else none with
    | some prev => (state.1.dropLast ++ [prev.splice orphans], state.2)
    | none => (state.1, state.2 + orphans.length)

/-- `walk_block_into`: the entries and the unmatched lines after the block. -/
def walkBlockInto (block : Block) (rule : WalkRule) (state : List RawEntry × Nat) :
    List RawEntry × Nat :=
  let walk := block.lines.foldl (walkLine classes block rule) ⟨none, [], state.1⟩
  let (raws, unmatched) :=
    spliceOrphans rule.spliceOrphansToPrevBlock walk.orphans (walk.raws, state.2)
  (raws ++ walk.current.toList, unmatched)

/-! ### The stages -/

/-- What a stage returns for the entries and unmatched lines it ends with. -/
def finish (state : List RawEntry × Nat) : List RawEntry × Coverage :=
  (state.1, ⟨state.1.length, state.2⟩)

/-- `WalkAnchors::run`. -/
def walkAnchors (rule : WalkRule) (blocks : List Block) : List RawEntry × Coverage :=
  finish (blocks.foldl (fun state block => walkBlockInto classes block rule state) ([], 0))

/-- The settings of a language. -/
def LangAnchorRule.walkRule (rule : LangAnchorRule) : WalkRule :=
  ⟨rule.anchor, rule.reject, rule.dropLoneLetterDividers, rule.spliceOrphansToPrevBlock⟩

/-- The rule of a block's language. -/
def langRule (rules : List LangAnchorRule) (block : Block) : Option LangAnchorRule :=
  block.lang.bind fun lang => rules.find? fun rule => rule.lang == lang

/-- The body of the loop over the blocks, each with the rule of its language. -/
def walkLangBlock (rules : List LangAnchorRule) (state : List RawEntry × Nat) (block : Block) :
    List RawEntry × Nat :=
  match langRule rules block with
  | some rule => walkBlockInto classes block rule.walkRule state
  | none =>
    (state.1, state.2 + block.lines.countP fun line => !(Normalize.trim line.toList).isEmpty)

/-- `WalkAnchorsPerLang::run`. -/
def walkAnchorsPerLang (rules : List LangAnchorRule) (blocks : List Block) :
    List RawEntry × Coverage :=
  finish (blocks.foldl (walkLangBlock classes rules) ([], 0))

end Bookrack.Distill
