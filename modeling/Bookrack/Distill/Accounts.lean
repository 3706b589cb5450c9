/-
What becomes of each line of a book (`distill/src/segment.rs`).

* `sourceLines`: the lines that are neither blank, rejected nor dropped, block by block; `accounted`:
  the entries and counts when each of them goes where `Sections.dest` sends it.
* `walkBlockInto_entries`: `walk_block_into` hands orphans back only after the closed sections of
  their own block have been pushed.
* **`walk_accounts`**: the stages give the accounted entries exactly when no block has both orphans to
  hand back and two headings.
-/

import Bookrack.Base.Sections
import Bookrack.Distill.Segment

namespace Bookrack.Distill

open Sections

variable (classes : CharClass)

/-! ### The accounted entries -/

/-- A line with what its block says of it. -/
structure SourceLine where
  page : Nat
  sheet : Nat
  lang : Option String
  text : String
  deriving DecidableEq, Repr

/-- The line is not blank. -/
def hasText (line : String) : Bool := !(Normalize.trim line.toList).isEmpty

/-- The line is neither blank, rejected nor a dropped divider. -/
def isKept (rule : WalkRule) (line : String) : Bool :=
  hasText line && !anyMatch classes (Normalize.trim line.toList) rule.reject &&
    !(rule.dropLoneLetterDividers && isLoneLetterDivider (Normalize.trim line.toList))

/-- The line is an anchor. -/
def isAnchor (rule : WalkRule) (line : String) : Bool :=
  rule.anchor.isMatch classes (Normalize.trim line.toList)

/-- The lines of a block that count; without a rule all that have text, and none is an anchor. -/
def blockLines (number : Nat) (block : Block) : Option WalkRule → List (Line SourceLine)
  | some rule => (block.lines.filter (isKept classes rule)).map fun line =>
      ⟨number, isAnchor classes rule line, rule.spliceOrphansToPrevBlock,
        ⟨block.page, block.sheet, block.lang, line⟩⟩
  | none => (block.lines.filter hasText).map fun line =>
      ⟨number, false, false, ⟨block.page, block.sheet, block.lang, line⟩⟩

/-- The lines of all blocks, in source order. -/
def sourceLines (ruleOf : Block → Option WalkRule) (blocks : List Block) : List (Line SourceLine) :=
  blocks.zipIdx.flatMap fun numbered => blockLines classes numbered.2 numbered.1 (ruleOf numbered.1)

/-- An entry as the source writes it. -/
def rawEntry (entry : Entry SourceLine) : RawEntry :=
  ⟨entry.heading.page, entry.heading.sheet,
    String.ofList (Normalize.trim entry.heading.text.toList), entry.body.map SourceLine.text,
    entry.heading.lang, if entry.spliced then ["spliced_from_orphan"] else []⟩

/-- The result when every line goes to its destination. -/
def accounted (ruleOf : Block → Option WalkRule) (blocks : List Block) : List RawEntry × Coverage :=
  let (entries, lost) := expected (sourceLines classes ruleOf blocks)
  finish (entries.map rawEntry, lost)

/-- The block hands back orphans although it has two headings. -/
def Misplaces (rule : WalkRule) (block : Block) : Prop :=
  rule.spliceOrphansToPrevBlock = true ∧
    ((block.lines.filter (isKept classes rule)).takeWhile fun line => !isAnchor classes rule line) ≠ [] ∧
    2 ≤ (block.lines.filter (isKept classes rule)).countP (isAnchor classes rule)

/-! ### One block as walked -/

/-- What `walk_block_into` does to the entries: the closed sections are pushed before the orphans are
handed back. -/
def walkEntries (splices : Bool) (cut : Cut SourceLine) (state : List (Entry SourceLine) × Nat) :
    List (Entry SourceLine) × Nat :=
  let (entries, lost) := handBack splices cut.before (state.1 ++ cut.done.map sectionEntry, state.2)
  (entries ++ cut.current.toList.map sectionEntry, lost)

section Blocks

variable {classes} {block : Block} {rule : WalkRule}

theorem walkLine_skip {walk : Walk} {line : String} (isSkipped : isKept classes rule line = false) :
    walkLine classes block rule walk line = walk := by
  unfold walkLine
  dsimp only
  split_ifs with isBlank isRejected isDivider
  all_goals try rfl
  all_goals
    unfold isKept hasText at isSkipped
    simp_all

theorem walkLine_kept {walk : Walk} {line : String} (kept : isKept classes rule line = true) :
    walkLine classes block rule walk line =
      if isAnchor classes rule line = true then
        { walk with
          raws := walk.raws ++ walk.current.toList
          current := some ⟨block.page, block.sheet, String.ofList (Normalize.trim line.toList), [],
            block.lang, []⟩ }
      else
        match walk.current with
        | some entry => { walk with current := some { entry with body := entry.body ++ [line] } }
        | none => { walk with orphans := walk.orphans ++ [line] } := by
  rw [isKept, Bool.and_eq_true, Bool.and_eq_true, Bool.not_eq_true', Bool.not_eq_true', hasText,
    Bool.not_eq_true'] at kept
  obtain ⟨⟨isText, notRejected⟩, notDivider⟩ := kept
  rw [walkLine, if_neg (by simp [isText]), if_neg (by simp [notRejected]), if_neg (by simp [notDivider])]
  rfl

/-- The loop cuts the block. -/
theorem walkLine_cut (number : Nat) (raws : List RawEntry) :
    block.lines.foldl (walkLine classes block rule) ⟨none, [], raws⟩ =
      (let parts := cut (blockLines classes number block (some rule))
      ⟨parts.current.map fun part => rawEntry (sectionEntry part), parts.before.map SourceLine.text,
        raws ++ parts.done.map fun part => rawEntry (sectionEntry part)⟩) := by
  unfold blockLines
  dsimp only
  generalize block.lines = lines
  induction lines using List.reverseRecOn with
  | nil => simp [cut]
  | append_singleton lines line ih =>
    rw [List.foldl_append, List.foldl_cons, List.foldl_nil, ih, List.filter_append, List.map_append]
    by_cases kept : isKept classes rule line = true
    · rw [List.filter_cons_of_pos kept, List.filter_nil, List.map_singleton, cut_concat]
      rw [walkLine_kept kept, Cut.read]
      generalize cut _ = parts
      obtain ⟨before, done, current⟩ := parts
      by_cases opens : isAnchor classes rule line = true
      · rw [if_pos opens, if_pos opens]
        cases current <;> simp [rawEntry, sectionEntry]
      · rw [if_neg opens, if_neg opens]
        cases current <;> simp [rawEntry, sectionEntry]
    · rw [Bool.not_eq_true] at kept
      rw [walkLine_skip kept, List.filter_cons_of_neg (by simp [kept]), List.filter_nil, List.map_nil,
        List.append_nil]

theorem rawEntry_handed (entry : Entry SourceLine) (values : List SourceLine) :
    rawEntry (entry.handed values) = (rawEntry entry).splice (values.map SourceLine.text) := by
  unfold rawEntry Entry.handed RawEntry.splice
  cases entry.spliced <;> simp

/-- The orphans are handed back entry by entry. -/
theorem handBack_raw (splices : Bool) (values : List SourceLine) (entries : List (Entry SourceLine))
    (lost : Nat) :
    spliceOrphans splices (values.map SourceLine.text) (entries.map rawEntry, lost) =
      ((handBack splices values (entries, lost)).1.map rawEntry,
        (handBack splices values (entries, lost)).2) := by
  unfold spliceOrphans handBack
  rw [List.isEmpty_map, List.length_map, List.getLast?_map, ← List.map_dropLast]
  cases values with
  | nil => rfl
  | cons value values =>
    cases splices with
    | false => rfl
    | true =>
      dsimp only
      rw [if_pos rfl, if_pos rfl]
      cases entries.getLast? with
      | none => rfl
      | some last => simp [rawEntry_handed]

/-- **The source walks a block entry by entry.** -/
theorem walkBlockInto_entries (number : Nat) (entries : List (Entry SourceLine)) (lost : Nat) :
    walkBlockInto classes block rule (entries.map rawEntry, lost) =
      (let state := walkEntries rule.spliceOrphansToPrevBlock
        (cut (blockLines classes number block (some rule))) (entries, lost)
      (state.1.map rawEntry, state.2)) := by
  unfold walkBlockInto walkEntries
  rw [walkLine_cut number]
  generalize cut _ = parts
  have pushed : (entries.map rawEntry ++ parts.done.map fun part => rawEntry (sectionEntry part)) =
      (entries ++ parts.done.map sectionEntry).map rawEntry := by
    rw [List.map_append, List.map_map]
    rfl
  dsimp only
  rw [pushed, handBack_raw]
  cases parts.current with
  | none => simp
  | some part => simp

end Blocks

/-! ### All blocks -/

section Runs

variable {classes} {ruleOf : Block → Option WalkRule}

/-- The cut of a block. -/
def blockCut (classes : CharClass) (ruleOf : Block → Option WalkRule) (block : Block) : Cut SourceLine :=
  cut (blockLines classes 0 block (ruleOf block))

/-- The block hands orphans back. -/
def splicesOf (ruleOf : Block → Option WalkRule) (block : Block) : Bool :=
  (ruleOf block).any WalkRule.spliceOrphansToPrevBlock

theorem cut_blockLines (number : Nat) (block : Block) :
    cut (blockLines classes number block (ruleOf block)) = blockCut classes ruleOf block := by
  unfold blockCut cut blockLines
  cases ruleOf block with
  | none => simp only [List.foldl_map]
  | some rule => simp only [List.foldl_map]

theorem mem_blockLines {number : Nat} {block : Block} {line : Line SourceLine}
    (member : line ∈ blockLines classes number block (ruleOf block)) :
    line.block = number ∧ line.splices = splicesOf ruleOf block := by
  unfold blockLines at member
  unfold splicesOf
  cases isRule : ruleOf block with
  | none =>
    rw [isRule] at member
    obtain ⟨text, -, rfl⟩ := List.mem_map.mp member
    exact ⟨rfl, rfl⟩
  | some rule =>
    rw [isRule] at member
    obtain ⟨text, -, rfl⟩ := List.mem_map.mp member
    exact ⟨rfl, rfl⟩

/-- **The destinations, block by block.** -/
theorem expected_blocks (blocks : List Block) :
    expected (sourceLines classes ruleOf blocks) = blocks.foldl (fun state block =>
      placeBlock (splicesOf ruleOf block) (blockCut classes ruleOf block) state) ([], 0) := by
  induction blocks using List.reverseRecOn with
  | nil => rfl
  | append_singleton blocks block ih =>
    have isLines : sourceLines classes ruleOf (blocks ++ [block]) =
        sourceLines classes ruleOf blocks ++ blockLines classes blocks.length block (ruleOf block) := by
      unfold sourceLines
      rw [List.zipIdx_append, List.flatMap_append]
      simp
    have isEarlier : ∀ one ∈ sourceLines classes ruleOf blocks, one.block < blocks.length := by
      intro one member
      obtain ⟨⟨other, number⟩, isOther, isLine⟩ := List.mem_flatMap.mp member
      rw [(mem_blockLines isLine).1]
      simpa using (List.mem_zipIdx' isOther).1
    rw [isLines, expected_block isEarlier fun one member => mem_blockLines member, cut_blockLines, ih,
      List.foldl_append]
    rfl

/-- One block of a stage. -/
def walkBlock (classes : CharClass) (ruleOf : Block → Option WalkRule)
    (state : List RawEntry × Nat) (block : Block) : List RawEntry × Nat :=
  match ruleOf block with
  | some rule => walkBlockInto classes block rule state
  | none => (state.1, state.2 + block.lines.countP hasText)

theorem cut_plain {lines : List (Line SourceLine)} (allPlain : ∀ line ∈ lines, line.opens = false) :
    cut lines = ⟨lines.map Line.value, [], none⟩ := by
  induction lines using List.reverseRecOn with
  | nil => rfl
  | append_singleton lines line ih =>
    rw [cut_concat, ih fun one member => allPlain one (List.mem_append_left _ member), Cut.read,
      allPlain line (List.mem_append_right _ (List.mem_singleton_self _))]
    simp

theorem walkBlock_entries (block : Block) (entries : List (Entry SourceLine)) (lost : Nat) :
    walkBlock classes ruleOf (entries.map rawEntry, lost) block =
      (let state := walkEntries (splicesOf ruleOf block) (blockCut classes ruleOf block) (entries, lost)
      (state.1.map rawEntry, state.2)) := by
  have isCut : cut (blockLines classes 0 block (ruleOf block)) = blockCut classes ruleOf block := rfl
  unfold walkBlock
  cases isRule : ruleOf block with
  | some rule =>
    rw [isRule] at isCut
    rw [← isCut, splicesOf, isRule]
    exact walkBlockInto_entries 0 entries lost
  | none =>
    have allPlain : ∀ line ∈ blockLines classes 0 block none, line.opens = false := by
      intro line member
      obtain ⟨text, -, rfl⟩ := List.mem_map.mp member
      rfl
    rw [isRule, cut_plain allPlain] at isCut
    rw [← isCut, splicesOf, isRule]
    simp [walkEntries, handBack_lost, blockLines, List.countP_eq_length_filter]

/-- **The stages, entry by entry.** -/
theorem walk_entries (blocks : List Block) :
    blocks.foldl (walkBlock classes ruleOf) ([], 0) =
      (let state := blocks.foldl (fun state block =>
        walkEntries (splicesOf ruleOf block) (blockCut classes ruleOf block) state) ([], 0)
      (state.1.map rawEntry, state.2)) := by
  induction blocks using List.reverseRecOn with
  | nil => rfl
  | append_singleton blocks block ih =>
    rw [List.foldl_append, ih, List.foldl_append]
    exact walkBlock_entries block _ _

end Runs

/-! ### Where the two agree -/

section Comparison

variable {classes} {ruleOf : Block → Option WalkRule} {splices : Bool} {parts : Cut SourceLine}

/-- The orphans are handed back past a closed section of their own block. -/
def Overtaken (splices : Bool) (parts : Cut SourceLine) : Prop :=
  splices = true ∧ parts.before ≠ [] ∧ parts.done ≠ []

theorem walkEntries_eq (notOvertaken : ¬Overtaken splices parts)
    (state : List (Entry SourceLine) × Nat) :
      walkEntries splices parts state = placeBlock splices parts state := by
  obtain ⟨entries, lost⟩ := state
  unfold walkEntries placeBlock
  rw [List.map_append]
  by_cases noDone : parts.done = []
  · simp [noDone]
  · by_cases isOff : splices = false
    · simp [handBack_lost (.inl isOff)]
    · have noneBefore : parts.before = [] := by
        by_contra isAny
        exact notOvertaken ⟨by simpa using isOff, isAny, noDone⟩
      simp [noneBefore, handBack]

theorem length_walkEntries (state : List (Entry SourceLine) × Nat) :
    (walkEntries splices parts state).1.length =
      state.1.length + (parts.done ++ parts.current.toList).length := by
  unfold walkEntries
  rw [List.length_append, length_handBack]
  simp [Nat.add_assoc]

theorem walkEntries_kept {state : List (Entry SourceLine) × Nat} {number : Nat}
    (notLast : number + 1 < state.1.length) :
    (walkEntries splices parts state).1[number]? = state.1[number]? := by
  unfold walkEntries
  have notLast' : number + 1 < (state.1 ++ parts.done.map sectionEntry, state.2).1.length := by
    rw [List.length_append]
    omega
  rw [List.getElem?_append_left (by rw [length_handBack]; omega), getElem?_handBack _ _ notLast',
    List.getElem?_append_left (by omega)]

/-- A fold of steps that keep all but the last entry keeps all but the last entry. -/
theorem foldl_kept {step : List (Entry SourceLine) × Nat → Block → List (Entry SourceLine) × Nat}
    (grows : ∀ state block, state.1.length ≤ (step state block).1.length)
    (kept : ∀ state block number, number + 1 < state.1.length →
      (step state block).1[number]? = state.1[number]?)
    {state : List (Entry SourceLine) × Nat} {number : Nat} (notLast : number + 1 < state.1.length)
    (blocks : List Block) : (blocks.foldl step state).1[number]? = state.1[number]? := by
  induction blocks generalizing state with
  | nil => rfl
  | cons block blocks ih =>
    rw [List.foldl_cons, ih (notLast.trans_le (grows state block)), kept state block number notLast]

/-- **An overtaken block changes the entry before its last heading.** -/
theorem overtaken_differs (overtaken : Overtaken splices parts) {current : SourceLine × List SourceLine}
    (isCurrent : parts.current = some current)
    {walked placed : List (Entry SourceLine) × Nat} (sameLength : walked.1.length = placed.1.length) :
    ∃ number, number + 1 < (walkEntries splices parts walked).1.length ∧
      number + 1 < (placeBlock splices parts placed).1.length ∧
      ((walkEntries splices parts walked).1[number]?.map fun entry => entry.body.length) ≠
        ((placeBlock splices parts placed).1[number]?.map fun entry => entry.body.length) := by
  obtain ⟨isOn, isBefore, isDone⟩ := overtaken
  obtain ⟨others, last, isLast⟩ := (List.eq_nil_or_concat parts.done).resolve_left isDone
  rw [List.concat_eq_append] at isLast
  refine ⟨walked.1.length + others.length, ?_, ?_, ?_⟩
  · rw [length_walkEntries, isLast, isCurrent]
    simp only [List.length_append, List.length_singleton, Option.toList_some]
    omega
  · rw [length_placeBlock, isLast, isCurrent, sameLength]
    simp only [List.length_append, List.length_singleton, Option.toList_some]
    omega
  · have isWalked : (walkEntries splices parts walked).1[walked.1.length + others.length]? =
        some ((sectionEntry last).handed parts.before) := by
      unfold walkEntries
      rw [isLast, List.map_append, List.map_singleton, ← List.append_assoc, isOn, handBack_last isBefore]
      simp
    have isPlaced : (placeBlock splices parts placed).1[walked.1.length + others.length]? =
        some (sectionEntry last) := by
      unfold placeBlock
      dsimp only
      rw [List.getElem?_append_right (by rw [length_handBack]; omega), length_handBack, sameLength,
        Nat.add_sub_cancel_left, isLast]
      simp
    rw [isWalked, isPlaced]
    have isPos := List.length_pos_iff.mpr isBefore
    simp only [Option.map_some, ne_eq, Option.some.injEq, Entry.handed, sectionEntry,
      List.length_append]
    omega

theorem overtaken_iff {rule : WalkRule} {block : Block} (isRule : ruleOf block = some rule) :
    Overtaken (splicesOf ruleOf block) (blockCut classes ruleOf block) ↔ Misplaces classes rule block := by
  unfold Overtaken Misplaces splicesOf blockCut
  rw [isRule, cut_before, cut_done, blockLines, List.takeWhile_map, List.countP_map, ne_eq,
    List.map_eq_nil_iff, List.map_eq_nil_iff]
  rfl

theorem overtaken_ruled {block : Block}
    (overtaken : Overtaken (splicesOf ruleOf block) (blockCut classes ruleOf block)) :
    ∃ rule, ruleOf block = some rule := by
  cases isRule : ruleOf block with
  | some rule => exact ⟨rule, rfl⟩
  | none =>
    have isOn := overtaken.1
    rw [splicesOf, isRule] at isOn
    cases isOn

/-- **The stages place every line exactly when no block is overtaken.** -/
theorem walk_eq_iff (blocks : List Block) :
    blocks.foldl (walkBlock classes ruleOf) ([], 0) =
        ((expected (sourceLines classes ruleOf blocks)).1.map rawEntry,
          (expected (sourceLines classes ruleOf blocks)).2) ↔
      ∀ block ∈ blocks, ∀ rule, ruleOf block = some rule → ¬Misplaces classes rule block := by
  rw [walk_entries, expected_blocks]
  constructor
  · intro same block isBlock rule isRule misplaces
    have overtaken := (overtaken_iff isRule).mpr misplaces
    obtain ⟨before, after, rfl⟩ := List.append_of_mem isBlock
    obtain ⟨current, isCurrent⟩ : ∃ current, (blockCut classes ruleOf block).current = some current :=
      Option.ne_none_iff_exists'.mp fun isNone => overtaken.2.2 ((cut_headings _).2 isNone)
    have sameLength : ∀ blocks : List Block, (blocks.foldl (fun state block =>
        walkEntries (splicesOf ruleOf block) (blockCut classes ruleOf block) state) ([], 0)).1.length =
        (blocks.foldl (fun state block =>
          placeBlock (splicesOf ruleOf block) (blockCut classes ruleOf block) state) ([], 0)).1.length := by
      intro blocks
      induction blocks using List.reverseRecOn with
      | nil => rfl
      | append_singleton blocks block ih =>
        rw [List.foldl_append, List.foldl_append, List.foldl_cons, List.foldl_cons, List.foldl_nil,
          List.foldl_nil, length_walkEntries, length_placeBlock, ih]
    obtain ⟨number, notLast, notLast', differs⟩ := overtaken_differs overtaken isCurrent (sameLength before)
    have sameEntries := congrArg (fun state : List RawEntry × Nat =>
      state.1[number]?.map fun entry => entry.body.length) same
    simp only [List.foldl_append, List.foldl_cons, List.getElem?_map, Option.map_map] at sameEntries
    rw [foldl_kept (fun state block => by rw [length_walkEntries]; omega)
      (fun state block number inside => walkEntries_kept inside) notLast,
      foldl_kept (fun state block => by rw [length_placeBlock]; omega)
        (fun state block number inside => placeBlock_kept _ _ inside) notLast'] at sameEntries
    have sameLengths : (fun raw : RawEntry => raw.body.length) ∘ rawEntry = fun entry => entry.body.length :=
      funext fun entry => List.length_map ..
    rw [sameLengths] at sameEntries
    exact differs sameEntries
  · intro noneMisplaced
    have sameStep : ∀ state, ∀ block ∈ blocks,
        walkEntries (splicesOf ruleOf block) (blockCut classes ruleOf block) state =
          placeBlock (splicesOf ruleOf block) (blockCut classes ruleOf block) state := by
      refine fun state block isBlock => walkEntries_eq (fun overtaken => ?_) state
      obtain ⟨rule, isRule⟩ := overtaken_ruled overtaken
      exact noneMisplaced block isBlock rule isRule ((overtaken_iff isRule).mp overtaken)
    rw [List.foldl_ext _ _ _ sameStep]

theorem finish_inj {state other : List RawEntry × Nat} : finish state = finish other ↔ state = other := by
  constructor
  · intro same
    obtain ⟨sameRaws, sameCoverage⟩ := Prod.mk.inj same
    exact Prod.ext sameRaws (Coverage.mk.inj sameCoverage).2
  · exact congrArg finish

end Comparison

/-- **Every line is accounted for in the right entry** exactly when no block hands orphans back past
two headings of its own. -/
theorem walk_accounts (rule : WalkRule) (rules : List LangAnchorRule) (blocks : List Block) :
    (walkAnchors classes rule blocks = accounted classes (fun _ => some rule) blocks ↔
      ∀ block ∈ blocks, ¬Misplaces classes rule block) ∧
    (walkAnchorsPerLang classes rules blocks =
        accounted classes (fun block => (langRule rules block).map LangAnchorRule.walkRule) blocks ↔
      ∀ block ∈ blocks, ∀ rule, langRule rules block = some rule →
        ¬Misplaces classes rule.walkRule block) := by
  constructor
  · show finish (blocks.foldl (walkBlock classes fun _ => some rule) ([], 0)) = _ ↔ _
    rw [accounted, finish_inj, walk_eq_iff]
    refine forall₂_congr fun block _ => ⟨fun noneMisplaced => noneMisplaced rule rfl, ?_⟩
    intro notMisplaced other isRule
    exact Option.some.inj isRule ▸ notMisplaced
  · have isStep : walkLangBlock classes rules =
        walkBlock classes fun block => (langRule rules block).map LangAnchorRule.walkRule := by
      funext state block
      unfold walkLangBlock walkBlock
      dsimp only
      cases langRule rules block with
      | none => rfl
      | some rule => rfl
    rw [walkAnchorsPerLang, accounted, isStep, finish_inj, walk_eq_iff]
    refine forall₂_congr fun block _ => ⟨fun noneMisplaced rule isRule => ?_, ?_⟩
    · exact noneMisplaced rule.walkRule (congrArg (Option.map LangAnchorRule.walkRule) isRule)
    · intro noneMisplaced other isOther
      obtain ⟨rule, isRule, rfl⟩ := Option.map_eq_some_iff.mp isOther
      exact noneMisplaced rule isRule

/-- A continuation line before `Jones` and `Kant` goes to `Jones`, not to `Smith` of the page before. -/
theorem walk_misplaces :
    let classes : CharClass := ⟨Char.isAlpha, Char.isUpper⟩
    let rule : WalkRule := ⟨.latinHeadword, [], false, true⟩
    let blocks : List Block :=
      [⟨1, 1, some "latin", ["Smith", "1900-2000"]⟩, ⟨2, 2, some "latin", ["1850-1900", "Jones", "Kant"]⟩]
    walkAnchors classes rule blocks ≠ accounted classes (fun _ => some rule) blocks ∧
    (walkAnchors classes rule blocks).1.map RawEntry.body = [["1900-2000"], ["1850-1900"], []] ∧
    (accounted classes (fun _ => some rule) blocks).1.map RawEntry.body =
      [["1900-2000", "1850-1900"], [], []] := by
  decide

end Bookrack.Distill
