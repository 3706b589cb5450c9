/-
The walk over a document's elements that cuts its prose into blocks and records where the ids are.

* `walk` follows `walk` of the source: loose text, leaf elements, descent where there is a block-level
  descendant.
* `ink text`: the characters of a text that are no whitespace. `ink_collapseWs`, `collapseWs_eq_nil`:
  collapsing whitespace keeps them.
-/

import Mathlib.Data.List.DropRight
import Bookrack.Base.Pieces
import Bookrack.Base.Portions
import Bookrack.Core.Text
import Bookrack.Structure.Plan

namespace Bookrack.Extract

open Structure (Block BlockKind)

/-! ### Documents -/

/-- An element's name, and its attributes under their local names. -/
structure Tag where
  name : String
  attrs : List (String × String)
  deriving DecidableEq, Repr

/-- The nodes below an element, each before its next siblings. Comments and processing instructions are
`other`. The fragment node below a `template` element has no counterpart: its contents are taken as the
element's own, so a `template` that is off the skip list and holds a block-level element, which the walk
enters and finds nothing in, is left out. -/
inductive Nodes where
  | nil
  | text (content : List Char) (rest : Nodes)
  | other (rest : Nodes)
  | element (tag : Tag) (children rest : Nodes)
  deriving DecidableEq, Repr

/-- The element the walk starts from: the body, or the root of a document that has none. -/
structure Root where
  tag : Tag
  children : Nodes
  deriving Repr

/-- The tags that end a block, and those whose subtrees carry no prose. -/
structure HtmlToggles where
  blockTags : List String
  skipTags : List String
  deriving Repr

def HtmlToggles.default : HtmlToggles :=
  ⟨["p", "h1", "h2", "h3", "h4", "h5", "h6", "li", "blockquote", "figcaption", "pre", "td", "th", "dd", "dt",
    "caption", "div"], ["script", "style", "head", "nav", "template", "svg"]⟩

/-- `descendants` past the element itself: the elements below, in document order. -/
def elements : Nodes → List Tag
  | .nil => []
  | .text _ rest => elements rest
  | .other rest => elements rest
  | .element tag children rest => tag :: (elements children ++ elements rest)

/-- `ElementRef::text`: every text node below, in document order. -/
def rawText : Nodes → List Char
  | .nil => []
  | .text content rest => content ++ rawText rest
  | .other rest => rawText rest
  | .element _ children rest => rawText children ++ rawText rest

/-! ### What is read off one element -/

/-- Inherited classification while descending the tree. -/
structure Ctx where
  footnote : Bool
  caption : Bool
  deriving DecidableEq, Repr

/-- Mutable walk state. -/
structure State where
  sourceUnit : Nat
  blocks : List Block
  anchors : List (String × Nat)
  deriving DecidableEq, Repr

/-- One document parsed: ordered blocks plus its anchor index. -/
structure ParsedDoc where
  blocks : List Block
  anchors : List (String × Nat)
  deriving DecidableEq, Repr

def headingLevel (name : String) : Option Nat :=
  match name with
  | "h1" => some 1
  | "h2" => some 2
  | "h3" => some 3
  | "h4" => some 4
  | "h5" => some 5
  | "h6" => some 6
  | _ => none

/-- `value.split_whitespace().any(..)`. -/
def anyWord (value : String) (words : List String) : Bool :=
  (Pieces.pieces isWhitespace value.toList).any fun word => words.contains (String.ofList word)

/-- `name.rsplit(':').next()`. -/
def localName (name : String) : String :=
  String.ofList (name.toList.reverse.takeWhile (· != ':')).reverse

/-- Whether an element marks a footnote or endnote body. -/
def isFootnote (tag : Tag) : Bool :=
  tag.attrs.any fun (name, value) =>
    (localName name == "type" && anyWord value ["footnote", "endnote", "rearnote", "note"]) ||
      (name == "role" && anyWord value ["doc-footnote", "doc-endnote"])

/-- An attribute, where it is not empty. -/
def filledAttr (tag : Tag) (name : String) : List String :=
  match tag.attrs.lookup name with
  | some value => if value.isEmpty then [] else [value]
  | none => []

/-- The ids an element exposes: its `id`, and the legacy `name` of an `<a>`. -/
def elementIds (tag : Tag) : List String :=
  filledAttr tag "id" ++ if tag.name == "a" then filledAttr tag "name" else []

/-- Whether there is a block-level element below. -/
def hasBlockDescendant (toggles : HtmlToggles) (children : Nodes) : Bool :=
  (elements children).any fun tag => toggles.blockTags.contains tag.name

def skipped (toggles : HtmlToggles) (tag : Tag) : Bool := toggles.skipTags.contains tag.name

/-! ### Text -/

/-- The loop of `collapse_ws`, with the text written so far. -/
def collapseFrom (out : List Char) (prevWs : Bool) : List Char → List Char
  | [] => out.rdropWhile (· == ' ')
  | c :: rest =>
    if isWhitespace c then
      collapseFrom (if !prevWs && !out.isEmpty then out ++ [' '] else out) true rest
    else collapseFrom (out ++ [c]) false rest

/-- Collapse runs of whitespace to single spaces and trim. -/
def collapseWs (raw : List Char) : List Char := collapseFrom [] false raw

/-- The characters that are no whitespace. -/
def ink (text : List Char) : List Char := text.filter fun c => !isWhitespace c

@[simp]
theorem ink_nil : ink [] = [] := rfl

@[simp]
theorem ink_append (first second : List Char) : ink (first ++ second) = ink first ++ ink second :=
  List.filter_append ..

theorem ink_space {c : Char} (isSpace : isWhitespace c = true) (rest : List Char) :
    ink (c :: rest) = ink rest := List.filter_cons_of_neg (by simp [isSpace])

theorem ink_char {c : Char} (isText : isWhitespace c = false) (rest : List Char) :
    ink (c :: rest) = c :: ink rest := List.filter_cons_of_pos (by simp [isText])

theorem ink_rdropWhile (text : List Char) : ink (text.rdropWhile (· == ' ')) = ink text := by
  induction text using List.reverseRecOn with
  | nil => rfl
  | append_singleton text c ih =>
    by_cases isSpace : (c == ' ') = true
    · have none : ink [c] = [] := ink_space (by rw [beq_iff_eq.mp isSpace]; decide) []
      rw [List.rdropWhile_concat_pos (· == ' ') text c isSpace, ih, ink_append, none, List.append_nil]
    · rw [List.rdropWhile_concat_neg (· == ' ') text c isSpace]

theorem ink_collapseFrom (out : List Char) (prevWs : Bool) (raw : List Char) :
    ink (collapseFrom out prevWs raw) = ink out ++ ink raw := by
  induction raw generalizing out prevWs with
  | nil => rw [collapseFrom, ink_rdropWhile, ink_nil, List.append_nil]
  | cons c raw ih =>
    rw [collapseFrom]
    by_cases isSpace : isWhitespace c = true
    · rw [if_pos isSpace, ih, ink_space isSpace]
      congr 1
      split_ifs
      · rw [ink_append, ink_space (by decide), ink_nil, List.append_nil]
      · rfl
    · rw [Bool.not_eq_true] at isSpace
      rw [if_neg (by simp [isSpace]), ih, ink_append, ink_char isSpace, ink_char isSpace, ink_nil,
        List.append_assoc]
      rfl

/-- **Collapsing whitespace keeps every other character.** -/
theorem ink_collapseWs (raw : List Char) : ink (collapseWs raw) = ink raw := ink_collapseFrom [] false raw

/-- The only whitespace left is the space, and none is left at the end. -/
theorem last_collapseFrom {out : List Char} (prevWs : Bool) (raw : List Char)
    (isOut : ∀ c ∈ out, isWhitespace c = true → c = ' ') :
    ∀ c ∈ (collapseFrom out prevWs raw).getLast?, isWhitespace c = false := by
  induction raw generalizing out prevWs with
  | nil =>
    rw [collapseFrom]
    intro c isLast
    obtain ⟨nonempty, rfl⟩ := List.mem_getLast?_eq_getLast isLast
    have noSpace := List.rdropWhile_last_not (· == ' ') out nonempty
    have isIn := (List.rdropWhile_prefix (· == ' ') out).subset (List.getLast_mem nonempty)
    by_contra isSpace
    exact noSpace (beq_iff_eq.mpr (isOut _ isIn (by simpa using isSpace)))
  | cons c raw ih =>
    rw [collapseFrom]
    by_cases isSpace : isWhitespace c = true
    · rw [if_pos isSpace]
      refine ih true fun d isIn => ?_
      split_ifs at isIn
      · rcases List.mem_append.mp isIn with isIn | isIn
        · exact isOut d isIn
        · exact fun _ => List.mem_singleton.mp isIn
      · exact isOut d isIn
    · rw [if_neg isSpace]
      refine ih false fun d isIn isSpace' => ?_
      rcases List.mem_append.mp isIn with isIn | isIn
      · exact isOut d isIn isSpace'
      · exact absurd (List.mem_singleton.mp isIn ▸ isSpace') isSpace

/-- **Nothing is left exactly of a blank text.** -/
theorem collapseWs_eq_nil (raw : List Char) : collapseWs raw = [] ↔ ink raw = [] := by
  rw [← ink_collapseWs]
  constructor
  · intro isNil
    rw [isNil]
    rfl
  · intro blank
    by_contra nonempty
    have isText := @last_collapseFrom [] false raw (by simp) _ (List.getLast?_eq_getLast_of_ne_nil nonempty)
    have isIn := List.getLast_mem nonempty
    exact List.filter_eq_nil_iff.mp blank _ isIn (by simpa using isText)

/-! ### The walk -/

def State.push (st : State) (kind : BlockKind) (text : List Char) : State :=
  { st with blocks := st.blocks ++ [⟨kind, String.ofList text, st.sourceUnit⟩] }

/-- `st.anchors.push((id, index))` for each id. -/
def State.record (st : State) (ids : List String) (index : Nat) : State :=
  { st with anchors := st.anchors ++ ids.map (·, index) }

/-- Emit a run of loose text as its own block. -/
def flushText (pending : List Char) (ctx : Ctx) (st : State) : State :=
  let text := collapseWs pending
  if text.isEmpty then st
  else
    let kind := if ctx.footnote then .footnote else if ctx.caption then .caption else .body
    st.push kind text

/-- `collect_text`. -/
def collectText (children : Nodes) : List Char := collapseWs (rawText children)

/-- Emit one block for a leaf element. A leaf with no text is skipped. -/
def emit (tag : Tag) (children : Nodes) (ctx : Ctx) (st : State) : State :=
  let text := collectText children
  if text.isEmpty then st
  else
    let kind :=
      match headingLevel tag.name with
      | some level => .heading level
      | none =>
        if ctx.footnote || isFootnote tag then .footnote
        else if ctx.caption || tag.name == "figcaption" then .caption
        else if ["pre", "table", "td", "th"].contains tag.name then .other
        else .body
    (st.record ((elements children).flatMap elementIds) st.blocks.length).push kind text

/-- The children of an element, one after the other, with the loose text read since the last one. -/
def walk (toggles : HtmlToggles) : Nodes → Ctx → List Char → State → State
  | .nil, ctx, pending, st => flushText pending ctx st
  | .text content rest, ctx, pending, st => walk toggles rest ctx (pending ++ content) st
  | .other rest, ctx, pending, st => walk toggles rest ctx pending st
  | .element tag children rest, ctx, pending, st =>
    let st := flushText pending ctx st
    if skipped toggles tag then walk toggles rest ctx [] st
    else
      let st := st.record (elementIds tag) st.blocks.length
      let childCtx : Ctx := ⟨ctx.footnote || isFootnote tag, ctx.caption || tag.name == "figure"⟩
      if hasBlockDescendant toggles children then
        walk toggles rest ctx [] (walk toggles children childCtx [] st)
      else walk toggles rest ctx [] (emit tag children childCtx st)

/-- `parse_blocks` from the root on: ids recorded past the last block are moved to it. -/
def parseBlocks (toggles : HtmlToggles) (sourceUnit : Nat) (root : Root) : ParsedDoc :=
  let st := walk toggles root.children ⟨false, false⟩ [] ⟨sourceUnit, [], []⟩
  let last := st.blocks.length - 1
  ⟨st.blocks, if st.blocks.isEmpty then [] else st.anchors.map fun (id, index) => (id, min index last)⟩

end Bookrack.Extract
