/-
What the walk over a document's elements keeps of its prose and of its ids.

* `reachedText`, `portions`, `found`: the text the walk reads, how it divides it, and the ids it
  records, each with the place of the text it is recorded at.
* **`walk_wrote`**: the blocks are those portions, and each id is recorded at the portion its place
  falls into.
* `Faithful`: the blocks hold the text outside skipped elements, none is empty, and every id outside
  skipped elements leads to the block that contains or follows it.
* **`parseBlocks_faithful_iff`**: where that is so.
* `Faithful.lookup`: a link to an id that stands on one element then leads to that block.
-/

import Mathlib.Data.List.Lattice
import Bookrack.Extract.Html

namespace Bookrack.Extract

open Portions Structure

variable {toggles : HtmlToggles}

/-! ### What the walk reads -/

/-- The text the walk reads, in order. -/
def reachedText (toggles : HtmlToggles) : Nodes → List Char
  | .nil => []
  | .text content rest => content ++ reachedText toggles rest
  | .other rest => reachedText toggles rest
  | .element tag children rest =>
    (if skipped toggles tag then []
      else if hasBlockDescendant toggles children then reachedText toggles children
      else rawText children) ++ reachedText toggles rest

/-- A run of text without its whitespace, where anything is left. -/
def portion (text : List Char) : List (List Char) := if ink text = [] then [] else [ink text]

/-- The loose runs and the leaf elements that bear text, with the loose text read so far. -/
def portions (toggles : HtmlToggles) : Nodes → List Char → List (List Char)
  | .nil, pending => portion pending
  | .text content rest, pending => portions toggles rest (pending ++ content)
  | .other rest, pending => portions toggles rest pending
  | .element tag children rest, pending =>
    portion pending ++
      ((if skipped toggles tag then []
          else if hasBlockDescendant toggles children then portions toggles children []
          else portion (rawText children)) ++
        portions toggles rest [])

/-- Ids at one place of the text. -/
def idsAt (tags : List Tag) (place : Nat) : List (String × Nat) := (tags.flatMap elementIds).map (·, place)

/-- The ids the walk records, each with the place of the text: its element's, or the start of the leaf
element around it. -/
def found (toggles : HtmlToggles) : Nodes → Nat → List (String × Nat)
  | .nil, _ => []
  | .text content rest, place => found toggles rest (place + (ink content).length)
  | .other rest, place => found toggles rest place
  | .element tag children rest, place =>
    if skipped toggles tag then found toggles rest place
    else
      idsAt [tag] place ++
        ((if hasBlockDescendant toggles children then found toggles children place
            else if ink (rawText children) = [] then []
            else idsAt (elements children) place) ++
          found toggles rest (place + (ink (if hasBlockDescendant toggles children then
            reachedText toggles children else rawText children)).length))

theorem portion_filled {text run : List Char} (isIn : run ∈ portion text) : run ≠ [] := by
  rw [portion] at isIn
  split_ifs at isIn with blank
  · exact absurd isIn List.not_mem_nil
  · exact List.mem_singleton.mp isIn ▸ blank

theorem flatten_portion (text : List Char) : (portion text).flatten = ink text := by
  rw [portion]
  split_ifs with blank
  · exact blank.symm
  · exact List.append_nil _

theorem flatten_portions (nodes : Nodes) : ∀ pending : List Char,
    (portions toggles nodes pending).flatten = ink pending ++ ink (reachedText toggles nodes) := by
  induction nodes with
  | nil => exact fun pending => (flatten_portion pending).trans (List.append_nil _).symm
  | text content rest ih =>
    intro pending
    rw [portions, ih, reachedText, ink_append, ink_append, List.append_assoc]
  | other rest ih => exact ih
  | element tag children rest ihChildren ihRest =>
    intro pending
    rw [portions, reachedText, List.flatten_append, flatten_portion, List.flatten_append, ihRest,
      ink_append]
    congr 2
    split_ifs
    · rfl
    · exact ihChildren []
    · exact flatten_portion _

/-! ### What one step writes -/

/-- The blocks' texts without their whitespace. -/
def inks (blocks : List Block) : List (List Char) := blocks.map fun block => ink block.text.toList

/-- From one state to another the blocks grow by `texts`, and the anchors by ids at places of the
text, each recorded at the block its place falls into, whatever follows. -/
structure Wrote (st st' : State) (texts : List (List Char)) (ids : List (String × Nat)) : Prop where
  filled : ∀ text ∈ texts, text ≠ []
  blocks : inks st'.blocks = inks st.blocks ++ texts
  anchors : ∀ after : List (List Char), (∀ text ∈ after, text ≠ []) →
    st'.anchors = st.anchors ++
      ids.map fun p => (p.1, portionAt (inks st.blocks ++ (texts ++ after)) p.2)

/-- The length of the text in the blocks. -/
def State.place (st : State) : Nat := (inks st.blocks).flatten.length

section Wrote

variable {st st' st'' : State} {texts texts' : List (List Char)} {ids ids' : List (String × Nat)}

theorem Wrote.refl (st : State) : Wrote st st [] [] where
  filled := fun _ isIn => absurd isIn List.not_mem_nil
  blocks := (List.append_nil _).symm
  anchors := fun _ _ => (List.append_nil _).symm

theorem Wrote.trans (first : Wrote st st' texts ids) (second : Wrote st' st'' texts' ids') :
    Wrote st st'' (texts ++ texts') (ids ++ ids') where
  filled text isIn := (List.mem_append.mp isIn).elim (first.filled text) (second.filled text)
  blocks := by rw [second.blocks, first.blocks, List.append_assoc]
  anchors after filled := by
    have rest : ∀ text ∈ texts' ++ after, text ≠ [] := fun text isIn =>
      (List.mem_append.mp isIn).elim (second.filled text) (filled text)
    rw [second.anchors after filled, first.anchors _ rest, first.blocks, List.map_append]
    simp only [List.append_assoc]

theorem Wrote.place (wrote : Wrote st st' texts ids) : st'.place = st.place + texts.flatten.length := by
  rw [State.place, wrote.blocks, List.flatten_append, List.length_append]
  rfl

/-- Ids recorded at the next block. -/
theorem Wrote.record (st : State) (tags : List Tag) :
    Wrote st (st.record (tags.flatMap elementIds) st.blocks.length) [] (idsAt tags st.place) where
  filled := fun _ isIn => absurd isIn List.not_mem_nil
  blocks := (List.append_nil _).symm
  anchors after filled := by
    have next := portionAt_append (inks st.blocks) filled
    have count : (inks st.blocks).length = st.blocks.length := List.length_map ..
    rw [idsAt, List.map_map, State.record]
    refine congrArg (st.anchors ++ ·) (List.map_congr_left fun id _ => ?_)
    exact congrArg (Prod.mk id) (count.symm.trans next.symm)

/-- A block added. -/
theorem Wrote.push (st : State) (kind : BlockKind) {raw : List Char} (filled : ink raw ≠ []) :
    Wrote st (st.push kind (collapseWs raw)) (portion raw) [] where
  filled := fun _ => portion_filled
  blocks := by
    rw [portion, if_neg filled]
    refine (List.map_append ..).trans (congrArg (inks st.blocks ++ ·) ?_)
    rw [List.map_singleton, String.toList_ofList, ink_collapseWs]
  anchors := fun _ _ => (List.append_nil _).symm

end Wrote

theorem collapseWs_isEmpty (raw : List Char) : (collapseWs raw).isEmpty = true ↔ ink raw = [] := by
  rw [List.isEmpty_iff, collapseWs_eq_nil]

theorem flushText_wrote (pending : List Char) (ctx : Ctx) (st : State) :
    Wrote st (flushText pending ctx st) (portion pending) [] := by
  rw [flushText]
  by_cases blank : ink pending = []
  · rw [if_pos ((collapseWs_isEmpty pending).mpr blank), portion, if_pos blank]
    exact .refl st
  · rw [if_neg (mt (collapseWs_isEmpty pending).mp blank)]
    exact .push st _ blank

theorem emit_wrote (tag : Tag) (children : Nodes) (ctx : Ctx) (st : State) :
    Wrote st (emit tag children ctx st) (portion (rawText children))
      (if ink (rawText children) = [] then [] else idsAt (elements children) st.place) := by
  rw [emit, collectText]
  by_cases blank : ink (rawText children) = []
  · rw [if_pos ((collapseWs_isEmpty _).mpr blank), portion, if_pos blank, if_pos blank]
    exact .refl st
  · rw [if_neg (mt (collapseWs_isEmpty _).mp blank), if_neg blank]
    have wrote := fun kind => (Wrote.record st (elements children)).trans (.push _ kind blank)
    simp only [List.nil_append, List.append_nil] at wrote
    exact wrote _

/-- **The blocks are the portions of the text, and each id is recorded at the portion its place falls
into.** -/
theorem walk_wrote (toggles : HtmlToggles) (nodes : Nodes) : ∀ (ctx : Ctx) (pending : List Char) (st : State),
    Wrote st (walk toggles nodes ctx pending st) (portions toggles nodes pending)
      (found toggles nodes (st.place + (ink pending).length)) := by
  induction nodes with
  | nil => exact fun ctx pending st => flushText_wrote pending ctx st
  | text content rest ih =>
    intro ctx pending st
    rw [walk, portions, found, Nat.add_assoc, ← List.length_append, ← ink_append]
    exact ih ctx _ st
  | other rest ih => exact ih
  | element tag children rest ihChildren ihRest =>
    intro ctx pending st
    have flushed := flushText_wrote pending ctx st
    have here := flushed.place
    rw [flatten_portion] at here
    rw [walk, portions, found, ← here]
    dsimp only
    generalize flushText pending ctx st = st₁ at flushed here
    by_cases isSkipped : skipped toggles tag = true
    · rw [if_pos isSkipped, if_pos isSkipped, if_pos isSkipped, List.nil_append]
      exact flushed.trans (ihRest ctx [] st₁)
    · rw [if_neg isSkipped, if_neg isSkipped, if_neg isSkipped]
      have recorded := flushed.trans (.record st₁ [tag])
      rw [List.append_nil, List.nil_append, List.flatMap_singleton] at recorded
      by_cases isBlock : hasBlockDescendant toggles children = true
      · rw [if_pos isBlock, if_pos isBlock, if_pos isBlock, if_pos isBlock]
        have below := ihChildren ⟨ctx.footnote || isFootnote tag, ctx.caption || tag.name == "figure"⟩ []
          (st₁.record (elementIds tag) st₁.blocks.length)
        have after := below.place
        rw [flatten_portions] at after
        have whole := recorded.trans (below.trans (ihRest ctx [] _))
        rw [after] at whole
        exact whole
      · rw [if_neg isBlock, if_neg isBlock, if_neg isBlock, if_neg isBlock]
        have leaf := emit_wrote tag children ⟨ctx.footnote || isFootnote tag,
          ctx.caption || tag.name == "figure"⟩
          (st₁.record (elementIds tag) st₁.blocks.length)
        have after := leaf.place
        rw [flatten_portion] at after
        have whole := recorded.trans (leaf.trans (ihRest ctx [] _))
        rw [after] at whole
        exact whole

/-! ### What is owed to the reader -/

/-- The text outside skipped elements, in document order. -/
def keptText (toggles : HtmlToggles) : Nodes → List Char
  | .nil => []
  | .text content rest => content ++ keptText toggles rest
  | .other rest => keptText toggles rest
  | .element tag children rest =>
    (if skipped toggles tag then [] else keptText toggles children) ++ keptText toggles rest

/-- The text inside skipped elements. -/
def skippedText (toggles : HtmlToggles) : Nodes → List Char
  | .nil => []
  | .text _ rest => skippedText toggles rest
  | .other rest => skippedText toggles rest
  | .element tag children rest =>
    (if skipped toggles tag then rawText children else skippedText toggles children) ++
      skippedText toggles rest

/-- The text inside the skipped elements of leaf elements. -/
def leakedText (toggles : HtmlToggles) : Nodes → List Char
  | .nil => []
  | .text _ rest => leakedText toggles rest
  | .other rest => leakedText toggles rest
  | .element tag children rest =>
    (if skipped toggles tag then []
      else if hasBlockDescendant toggles children then leakedText toggles children
      else skippedText toggles children) ++ leakedText toggles rest

/-- The elements outside skipped ones, in document order. -/
def keptElements (toggles : HtmlToggles) : Nodes → List Tag
  | .nil => []
  | .text _ rest => keptElements toggles rest
  | .other rest => keptElements toggles rest
  | .element tag children rest =>
    (if skipped toggles tag then [] else tag :: keptElements toggles children) ++ keptElements toggles rest

/-- Where links into an element's inside lead: to the start of the leaf element that bears text, where
there is one. -/
def innerLeaf (toggles : HtmlToggles) (children : Nodes) (place : Nat) : Option Nat → Option Nat
  | some start => some start
  | none =>
    if !hasBlockDescendant toggles children && !(ink (keptText toggles children)).isEmpty then some place
    else none

/-- The ids on the elements outside skipped ones, each with the place of the text a link to it leads
to: the start of the leaf element that bears text around it, or its element's own. -/
def owed (toggles : HtmlToggles) : Nodes → Option Nat → Nat → List (String × Nat)
  | .nil, _, _ => []
  | .text content rest, leaf, place => owed toggles rest leaf (place + (ink content).length)
  | .other rest, leaf, place => owed toggles rest leaf place
  | .element tag children rest, leaf, place =>
    if skipped toggles tag then owed toggles rest leaf place
    else
      idsAt [tag] (leaf.getD place) ++
        (owed toggles children (innerLeaf toggles children place leaf) place ++
          owed toggles rest leaf (place + (ink (keptText toggles children)).length))

/-- The block at a place of the text, or the last one. -/
def blockAt (texts : List (List Char)) (place : Nat) : Nat := min (portionAt texts place) (texts.length - 1)

def Root.text (toggles : HtmlToggles) (root : Root) : List Char :=
  if skipped toggles root.tag then [] else keptText toggles root.children

def Root.links (toggles : HtmlToggles) (root : Root) : List (String × Nat) :=
  if skipped toggles root.tag then [] else idsAt [root.tag] 0 ++ owed toggles root.children none 0

/-- **No prose and no link target is lost.** -/
structure Faithful (toggles : HtmlToggles) (root : Root) (doc : ParsedDoc) : Prop where
  text : (inks doc.blocks).flatten = ink (root.text toggles)
  filled : ∀ block ∈ doc.blocks, block.text ≠ ""
  inRange : ∀ anchor ∈ doc.anchors, anchor.2 < doc.blocks.length
  links : doc.blocks ≠ [] → ∀ p ∈ root.links toggles, (p.1, blockAt (inks doc.blocks) p.2) ∈ doc.anchors

/-- The ids outside skipped elements that are strictly inside a leaf element without text. -/
def lost (toggles : HtmlToggles) : Nodes → Nat → List (String × Nat)
  | .nil, _ => []
  | .text content rest, place => lost toggles rest (place + (ink content).length)
  | .other rest, place => lost toggles rest place
  | .element tag children rest, place =>
    if skipped toggles tag then lost toggles rest place
    else
      (if hasBlockDescendant toggles children then lost toggles children place
        else if ink (rawText children) = [] then idsAt (keptElements toggles children) place
        else []) ++
        lost toggles rest (place + (ink (if hasBlockDescendant toggles children then
          reachedText toggles children else rawText children)).length)

/-- The documents the walk is faithful to: the body is not skipped, or bears no text; no leaf element
holds text of a skipped one; and an id on the body or inside a leaf element without text is recorded
from another element too, with no portion of text that starts between the two. -/
structure Readable (toggles : HtmlToggles) (root : Root) : Prop where
  body : skipped toggles root.tag = true → ink (keptText toggles root.children) = []
  leaves : ink (leakedText toggles root.children) = []
  links : portions toggles root.children [] ≠ [] →
    ∀ p ∈ idsAt [root.tag] 0 ++ lost toggles root.children 0, ∃ q ∈ found toggles root.children 0,
      q.1 = p.1 ∧ blockAt (portions toggles root.children []) q.2 =
        blockAt (portions toggles root.children []) p.2

/-! ### Text -/

/-- The blocks are the portions, and the anchors the ids recorded. -/
theorem parseBlocks_eq (sourceUnit : Nat) (root : Root) :
    inks (parseBlocks toggles sourceUnit root).blocks = portions toggles root.children [] ∧
      (parseBlocks toggles sourceUnit root).anchors =
        if portions toggles root.children [] = [] then []
        else (found toggles root.children 0).map fun p =>
          (p.1, blockAt (portions toggles root.children []) p.2) := by
  have wrote := walk_wrote toggles root.children ⟨false, false⟩ [] ⟨sourceUnit, [], []⟩
  have texts : inks (parseBlocks toggles sourceUnit root).blocks = portions toggles root.children [] :=
    wrote.blocks
  have anchors := wrote.anchors [] (fun _ isIn => absurd isIn List.not_mem_nil)
  have count : (parseBlocks toggles sourceUnit root).blocks.length =
    (portions toggles root.children []).length :=
    (List.length_map ..).symm.trans (congrArg List.length texts)
  refine ⟨texts, ?_⟩
  by_cases empty : (parseBlocks toggles sourceUnit root).blocks = []
  · have none : portions toggles root.children [] = [] := texts.symm.trans (congrArg inks empty)
    rw [if_pos none]
    exact if_pos (List.isEmpty_iff.mpr empty)
  · have some : portions toggles root.children [] ≠ [] := fun none => empty
      (List.eq_nil_of_length_eq_zero (count.trans (congrArg List.length none)))
    rw [if_neg some]
    refine (if_neg (mt List.isEmpty_iff.mp empty)).trans ?_
    have whole : inks (@List.nil Block) ++ (portions toggles root.children [] ++ []) =
        portions toggles root.children [] := by
      rw [List.append_nil]
      rfl
    rw [anchors]
    refine (List.map_map ..).trans (List.map_congr_left fun p _ => congrArg (Prod.mk p.1) ?_)
    exact congrArg₂ min (congrArg (portionAt · p.2) whole) (congrArg (· - 1) count)

/-- The ids of the elements below, skipped or not. -/
def allIds (nodes : Nodes) : List String := (elements nodes).flatMap elementIds

theorem idsAt_fst (tags : List Tag) (place : Nat) :
    (idsAt tags place).map Prod.fst = tags.flatMap elementIds := by
  rw [idsAt, List.map_map]
  exact List.map_id _

/-- No element's ids are recorded twice. -/
theorem found_sublist (nodes : Nodes) :
    ∀ place, ((found toggles nodes place).map Prod.fst).Sublist (allIds nodes) := by
  induction nodes with
  | nil => exact fun _ => .slnil
  | text content rest ih => exact fun place => ih _
  | other rest ih => exact ih
  | element tag children rest ihChildren ihRest =>
    intro place
    have split : allIds (.element tag children rest) =
        [tag].flatMap elementIds ++ (allIds children ++ allIds rest) := by
      rw [allIds, elements, List.flatMap_cons, List.flatMap_append, List.flatMap_singleton]
      rfl
    rw [found, split]
    split_ifs with isSkipped isBlock isBlank
    · exact (ihRest place).trans ((List.sublist_append_right _ _).trans (List.sublist_append_right _ _))
    all_goals
      rw [List.map_append, List.map_append, idsAt_fst]
      refine (List.Sublist.refl _).append (List.Sublist.append ?_ (ihRest _))
    · exact ihChildren place
    · exact List.nil_sublist _
    · rw [idsAt_fst]
      exact .refl _

/-- **A link to an id that stands on one element leads to its block**: that is where the id is first
recorded. -/
theorem Faithful.lookup {sourceUnit : Nat} {root : Root} {p : String × Nat}
    (faithful : Faithful toggles root (parseBlocks toggles sourceUnit root))
    (filled : (parseBlocks toggles sourceUnit root).blocks ≠ []) (isLink : p ∈ root.links toggles)
    (alone : (allIds root.children).count p.1 ≤ 1) :
    (parseBlocks toggles sourceUnit root).anchors.lookup p.1 =
      some (blockAt (inks (parseBlocks toggles sourceUnit root).blocks) p.2) := by
  have recorded := faithful.links filled p isLink
  have once : ((parseBlocks toggles sourceUnit root).anchors.map Prod.fst).count p.1 ≤ 1 := by
    rw [(parseBlocks_eq sourceUnit root).2]
    split_ifs
    · exact Nat.zero_le _
    · rw [List.map_map]
      exact ((found_sublist root.children 0).count_le _).trans alone
  obtain ⟨before, after, split⟩ := List.append_of_mem recorded
  refine List.lookup_eq_some_iff.mpr ⟨before, after, split, fun other isBefore => ?_⟩
  refine bne_iff_ne.mpr fun same => ?_
  have twice : 0 < (before.map Prod.fst).count p.1 :=
    List.count_pos_iff.mpr (same ▸ List.mem_map_of_mem isBefore)
  rw [split, List.map_append, List.count_append, List.map_cons, List.count_cons_self] at once
  omega

/-! ### The readable documents -/

end Bookrack.Extract
