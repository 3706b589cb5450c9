/-
A chunk's coordinates select its text.

* `TextSplitter.CutsInk` is what the chunker assumes of the splitter.
* `Selects leaves plan`: the plan's nodes lie in one run, in order, with offsets inside their leaves,
  and the text between the coordinates is the plan's.
* **`planChunks_selects`**: every plan's coordinates select its text, and planning never panics on a
  splitter.
-/

import Bookrack.Base.Rows
import Bookrack.Chunk.Groups
import Bookrack.Chunk.Segments

namespace Bookrack.Chunk

open Bookrack.Joined Rows
open Structure (TextFns)
open String (utf8Len utf8Len_append)

/-! ### The splitter and the coordinates -/

/-- A nonempty slice at its byte offset that neither begins nor ends at whitespace. -/
structure IsInkSlice (text : String) (byteStart : Nat) (chunk : String) : Prop where
  isSlice : ∃ before after, text = before ++ chunk ++ after ∧ before.utf8ByteSize = byteStart
  nonempty : chunk ≠ ""
  firstInk : ∀ c, chunk.toList.head? = some c → isWhitespace c = false
  lastInk : ∀ c, chunk.toList.getLast? = some c → isWhitespace c = false

/-- The splitter yields such slices only. -/
def TextSplitter.CutsInk (splitter : TextSplitter) : Prop :=
  ∀ text, ∀ cut ∈ splitter.chunkIndices text, IsInkSlice text cut.1 cut.2

/-- Where a plan's coordinates point: from leaf `i` to leaf `j` of the run `low..high`. -/
structure Spans (leaves : List ChunkLeaf) (plan : ChunkPlan) (low high i j : Nat)
    (first last : ChunkLeaf) : Prop where
  isRun : IsRun leaves low high
  lower : low ≤ i
  ordered : i ≤ j
  upper : j < high
  isFirst : leaves[i]? = some first
  isLast : leaves[j]? = some last
  startNode : plan.startNodeId = first.nodeId
  endNode : plan.endNodeId = last.nodeId
  startOffset : 0 ≤ plan.startCharOffset ∧ plan.startCharOffset ≤ first.text.length
  endOffset : 0 ≤ plan.endCharOffset ∧ plan.endCharOffset ≤ last.text.length
  orderedInside : i = j → plan.startCharOffset ≤ plan.endCharOffset

/-- A plan's coordinates lie in one run, in order, and select its text. -/
def Selects (leaves : List ChunkLeaf) (plan : ChunkPlan) : Prop :=
  (∃ low high i j first last, Spans leaves plan low high i j first last) ∧
    textAt leaves plan = some plan.text

/-! ### Slices of the leaves -/

variable {leaves : List ChunkLeaf} {low high : Nat}

theorem slice_getElem? {k : Nat} (inside : low + k < high) :
    (slice leaves low high)[k]? = leaves[low + k]? := by
  rw [slice, List.getElem?_drop, List.getElem?_take_of_lt inside]

theorem length_slice (inside : high ≤ leaves.length) :
    (slice leaves low high).length = high - low := by
  rw [slice, List.length_drop, List.length_take, min_eq_left inside]

/-- A part of a slice is a slice. -/
theorem slice_part {head span tail : List ChunkLeaf}
    (isSlice : slice leaves low high = head ++ span ++ tail) :
    slice leaves (low + head.length) (low + head.length + span.length) = span := by
  have inside := congrArg List.length isSlice
  rw [slice, List.length_drop, List.length_take, List.length_append, List.length_append] at inside
  have isDrop := congrArg (List.drop head.length) isSlice
  rw [List.append_assoc, List.drop_left, slice, List.drop_drop, List.drop_take] at isDrop
  have isTake := congrArg (List.take span.length) isDrop
  rw [List.take_left, List.take_take, min_eq_left (by omega)] at isTake
  rw [slice, List.drop_take, Nat.add_sub_cancel_left]
  exact isTake

/-- What stands in a slice stands in the leaves, in order. -/
theorem part_sublist {head span tail : List ChunkLeaf}
    (isSlice : slice leaves low high = head ++ span ++ tail) : span.Sublist leaves := by
  have inSlice : span.Sublist (slice leaves low high) := by
    rw [isSlice]
    exact (List.sublist_append_right head span).trans (List.sublist_append_left _ tail)
  exact inSlice.trans ((List.drop_sublist low _).trans (List.take_sublist high leaves))

theorem inked_append (front back : List ChunkLeaf) :
    inked (front ++ back) = inked front ++ inked back := List.filter_append front back

/-- A leaf with a text, in the group. -/
theorem exists_leaf {group front back : List ChunkLeaf} {leaf : ChunkLeaf}
    (isInked : inked group = front ++ leaf :: back) :
    ∃ head tail, group = head ++ leaf :: tail ∧ inked head = front ∧ inked [leaf] = [leaf] ∧
      inked tail = back := by
  obtain ⟨head, more, rfl, isFront, isMore⟩ := List.filter_eq_append_iff.mp isInked
  obtain ⟨blank, tail, rfl, isBlank, isInk, isBack⟩ := List.filter_eq_cons_iff.mp isMore
  refine ⟨head ++ blank, tail, (List.append_assoc _ _ _).symm, ?_,
    List.filter_cons_of_pos isInk, isBack⟩
  rw [inked, List.filter_append, isFront, List.filter_eq_nil_iff.mpr isBlank, List.append_nil]

/-! ### Coordinates of a span -/

/-- An offset counted in a short leaf. -/
theorem offset_inside {leaf : ChunkLeaf} {head rest : List Char}
    (isText : leaf.chars = head ++ rest) (short : leaf.text.length < 2 ^ 31) :
    head.length < 2 ^ 31 ∧ 0 ≤ asI32 head.length ∧ asI32 head.length ≤ leaf.text.length := by
  have within : head.length ≤ leaf.text.length := by
    rw [← length_chars, isText, List.length_append]
    exact Nat.le_add_right _ _
  refine ⟨by omega, ?_⟩
  rw [asI32_eq (by omega)]
  omega

/-- The part of a leaf between its two offsets. -/
theorem coveredPart_eq {plan : ChunkPlan} {leaf : ChunkLeaf} {skipped part rest : List Char}
    (isText : leaf.chars = skipped ++ part ++ rest)
    (isFrom : (if leaf.nodeId = plan.startNodeId then asUsize plan.startCharOffset else 0) =
      skipped.length)
    (isTo : (if leaf.nodeId = plan.endNodeId then asUsize plan.endCharOffset
      else leaf.text.length) = (skipped ++ part).length) :
    coveredPart plan leaf = some (String.ofList part) := by
  rw [coveredPart, isFrom, isTo, List.length_append, if_neg (by omega), Nat.add_sub_cancel_left,
    ← ChunkLeaf.chars, isText, List.append_assoc, List.drop_left, List.take_left]

/-- A plan that starts in `first` behind `skipped` and ends in `last` behind `upTo`. -/
structure Ends (plan : ChunkPlan) (first last : ChunkLeaf) (skipped upTo : List Char) : Prop where
  startNode : plan.startNodeId = first.nodeId
  startOffset : plan.startCharOffset = asI32 skipped.length
  endNode : plan.endNodeId = last.nodeId
  endOffset : plan.endCharOffset = asI32 upTo.length

section Span

variable {head span tail : List ChunkLeaf} {first last : ChunkLeaf}
  {skipped upTo rest rest' : List Char} {plan : ChunkPlan}
  (distinct : (leaves.map ChunkLeaf.nodeId).Nodup)
  (short : ∀ leaf ∈ leaves, leaf.text.length < 2 ^ 31) (isRun : IsRun leaves low high)
  (isGroup : slice leaves low high = head ++ span ++ tail)
  (isFirst : span.head? = some first) (isLast : span.getLast? = some last)
  (startText : first.chars = skipped ++ rest) (endText : last.chars = upTo ++ rest')
  (ends : Ends plan first last skipped upTo)

include isRun isGroup in
/-- What stands in a span of a run stands in the leaves, at its place. -/
theorem span_getElem? {k : Nat} (inside : k < span.length) :
    low + head.length + k < high ∧ leaves[low + head.length + k]? = span[k]? := by
  have length : (slice leaves low high).length = high - low := length_slice isRun.inside
  rw [isGroup, List.length_append, List.length_append] at length
  have isSpan := slice_part isGroup
  have nonempty := isRun.nonempty
  refine ⟨by omega, ?_⟩
  have inside' : low + head.length + k < low + head.length + span.length := by omega
  rw [← slice_getElem? inside', isSpan]

include distinct short isRun isGroup isFirst isLast startText endText ends in
/-- **Coordinates on a span of a run's leaves select what the covered parts join to.** -/
theorem selects_span (ordered : span.length = 1 → skipped.length ≤ upTo.length)
    {parts : List String} (covered : (inked span).mapM (coveredPart plan) = some parts)
    (joined : groupSeparator.intercalate parts = plan.text) : Selects leaves plan := by
  have filled : 0 < span.length := by
    cases span with
    | nil => cases isFirst
    | cons _ _ => exact Nat.succ_pos _
  obtain ⟨-, isFirst'⟩ := span_getElem? isRun isGroup filled
  obtain ⟨upper, isLast'⟩ := span_getElem? isRun isGroup (Nat.sub_lt filled Nat.one_pos)
  rw [← List.head?_eq_getElem?, isFirst] at isFirst'
  rw [← List.getLast?_eq_getElem?, isLast] at isLast'
  have startOffset := offset_inside startText (short first (List.mem_of_getElem? isFirst'))
  have endOffset := offset_inside endText (short last (List.mem_of_getElem? isLast'))
  refine ⟨⟨low, high, _, _, first, last, isRun, by omega, by omega, upper, isFirst', isLast',
    ends.startNode, ends.endNode, ?_, ?_, fun same => ?_⟩, ?_⟩
  · rw [ends.startOffset]
    exact startOffset.2
  · rw [ends.endOffset]
    exact endOffset.2
  · have inside := ordered (by omega)
    rw [ends.startOffset, ends.endOffset, asI32_eq startOffset.1, asI32_eq endOffset.1]
    omega
  · have firstIdx := findIdx?_key distinct isFirst'
    have lastIdx := findIdx?_key distinct isLast'
    have stop : low + head.length + (span.length - 1) + 1 = low + head.length + span.length := by
      omega
    have isSpan := slice_part isGroup
    rw [Nat.add_zero] at firstIdx
    simp only [textAt, ends.startNode, ends.endNode, firstIdx, lastIdx, Option.bind_eq_bind,
      Option.bind_some]
    rw [inked] at covered
    rw [if_neg (by omega), stop, isSpan, covered, Option.bind_some, joined]

end Span

/-! ### Chunks -/

variable {fns : TextFns} {byteStart : Nat} {chunk : String}

/-- **What a cut covers**: no end of it is in a separator, which is whitespace. -/
theorem IsInkSlice.covers {group : List ChunkLeaf}
    (cut : IsInkSlice (gather group).1 byteStart chunk) :
    ∃ before, utf8Len before = byteStart ∧
      Covers separator ChunkLeaf.chars (inked group) before chunk.toList := by
  obtain ⟨before, after, isSlice, rfl⟩ := cut.isSlice
  have joined : separator.intercalate ((inked group).map ChunkLeaf.chars) =
      before.toList ++ chunk.toList ++ after.toList := by
    rw [← (gather_spec group).1, isSlice, String.toList_append, String.toList_append]
  have off : ∀ c, isWhitespace c = false → c ∉ separator := by
    intro c ink member
    have isNewline : c = '\n' := by simpa [separator, groupSeparator] using member
    rw [isNewline] at ink
    exact absurd ink (by decide)
  have some : chunk.toList ≠ [] := fun none => cut.nonempty (String.toList_eq_nil_iff.mp none)
  refine ⟨before.toList, (utf8ByteSize_eq before).symm, ?_⟩
  exact Joined.covers (List.cons_head_tail some).symm (List.dropLast_append_getLast some).symm
    (off _ (cut.firstInk _ (List.head?_eq_some_head some)))
    (off _ (cut.lastInk _ (List.getLast?_eq_some_getLast some))) joined

/-- The plan of a chunk whose two ends are located. -/
theorem planChunk_located {segments : List Segment} {first last : ChunkLeaf}
    {skipped upTo : List Char}
    (start : locate segments byteStart .start = some (first.nodeId, asI32 skipped.length))
    (stop : locate segments (byteStart + chunk.utf8ByteSize) .stop =
      some (last.nodeId, asI32 upTo.length)) :
    ∃ plan, planChunk fns segments byteStart chunk = some plan ∧
      Ends plan first last skipped upTo ∧ plan.text = chunk := by
  generalize isStart : asI32 skipped.length = startCharOffset at start
  generalize isStop : asI32 upTo.length = endCharOffset at stop
  rw [planChunk, start, stop]
  exact ⟨_, rfl, ⟨rfl, isStart.symm, rfl, isStop.symm⟩, rfl⟩

section Cut

variable (distinct : (leaves.map ChunkLeaf.nodeId).Nodup)
  (short : ∀ leaf ∈ leaves, leaf.text.length < 2 ^ 31) (isRun : IsRun leaves low high)
  {head tail : List ChunkLeaf} {plan : ChunkPlan}

/-- A leaf's offset, read back by the oracle. -/
theorem asUsize_offset {leaf : ChunkLeaf} {upTo rest : List Char}
    (isText : leaf.chars = upTo ++ rest) (short : leaf.text.length < 2 ^ 31) :
    asUsize (asI32 upTo.length) = upTo.length := asUsize_asI32 (offset_inside isText short).1

include distinct short isRun in
/-- A cut inside one leaf. -/
theorem selects_inside {leaf : ChunkLeaf}
    (isGroup : slice leaves low high = head ++ leaf :: tail) (isInk : inked [leaf] = [leaf])
    {skipped rest : List Char} (isText : leaf.chars = skipped ++ chunk.toList ++ rest)
    (ends : Ends plan leaf leaf skipped (skipped ++ chunk.toList)) (isChunk : plan.text = chunk) :
    Selects leaves plan := by
  have isGroup' : slice leaves low high = head ++ [leaf] ++ tail := by simpa using isGroup
  have startText := isText.trans (List.append_assoc _ _ _)
  have member : leaf ∈ leaves := (part_sublist isGroup').subset (List.mem_singleton_self leaf)
  have part : coveredPart plan leaf = some chunk := by
    rw [coveredPart_eq isText, String.ofList_toList]
    · rw [if_pos ends.startNode.symm, ends.startOffset, asUsize_offset startText (short _ member)]
    · rw [if_pos ends.endNode.symm, ends.endOffset, asUsize_offset isText (short _ member)]
  have covered : (inked [leaf]).mapM (coveredPart plan) = some [chunk] := by
    rw [isInk, mapM_eq_some, List.map_singleton, part, List.map_singleton]
  refine selects_span distinct short isRun isGroup' rfl rfl startText isText ends ?_ covered ?_
  · rw [List.length_append]
    omega
  · rw [String.intercalate_singleton, isChunk]

include distinct short isRun in
/-- A cut from the end of one leaf to the beginning of a later one. -/
theorem selects_across {first last : ChunkLeaf} {between mid : List ChunkLeaf}
    (isGroup : slice leaves low high = head ++ first :: (between ++ last :: tail))
    (firstInk : inked [first] = [first]) (isMid : inked between = mid)
    (lastInk : inked [last] = [last]) {skipped back front rest : List Char}
    (startText : first.chars = skipped ++ back) (endText : last.chars = front ++ rest)
    (ends : Ends plan first last skipped front)
    (isChunk : plan.text.toList = back ++ separator ++ lead separator ChunkLeaf.chars mid ++ front) :
    Selects leaves plan := by
  have isGroup' : slice leaves low high = head ++ (first :: (between ++ [last])) ++ tail := by
    simpa using isGroup
  have sub := part_sublist isGroup'
  have firstShort := short first (sub.subset (by simp))
  have lastShort := short last (sub.subset (by simp))
  -- the ids tell the two ends from each other and from what is between
  have apart : (first.nodeId :: (between.map ChunkLeaf.nodeId ++ [last.nodeId])).Nodup := by
    simpa using distinct.sublist (sub.map ChunkLeaf.nodeId)
  obtain ⟨notFirst, restApart⟩ := List.nodup_cons.mp apart
  have notLast := (List.nodup_append.mp restApart).2.2
  have twoEnds : first.nodeId ≠ last.nodeId := fun same => notFirst (by simp [same])
  have firstPart : coveredPart plan first = some (String.ofList back) := by
    refine coveredPart_eq (by rw [List.append_nil, startText]) ?_ ?_
    · rw [if_pos ends.startNode.symm, ends.startOffset, asUsize_offset startText firstShort]
    · rw [if_neg (by rw [ends.endNode]; exact twoEnds), ← length_chars, startText]
  have midParts : ∀ leaf ∈ mid, coveredPart plan leaf = some leaf.text := by
    intro leaf member
    have isBetween : leaf.nodeId ∈ between.map ChunkLeaf.nodeId :=
      List.mem_map_of_mem (List.mem_of_mem_filter (isMid ▸ member))
    have isText : leaf.chars = [] ++ leaf.chars ++ [] := by simp
    rw [coveredPart_eq isText, ChunkLeaf.chars, String.ofList_toList]
    · have notStart : leaf.nodeId ≠ first.nodeId := fun same =>
        notFirst (List.mem_append_left _ (same ▸ isBetween))
      rw [ends.startNode, if_neg notStart, List.length_nil]
    · rw [ends.endNode, if_neg (notLast _ isBetween _ (List.mem_singleton_self _)), ← length_chars,
        List.nil_append]
  have lastPart : coveredPart plan last = some (String.ofList front) := by
    have isText : last.chars = [] ++ front ++ rest := endText
    refine coveredPart_eq isText ?_ ?_
    · rw [ends.startNode]
      exact if_neg twoEnds.symm
    · rw [if_pos ends.endNode.symm, ends.endOffset, asUsize_offset endText lastShort,
        List.nil_append]
  have isInked : inked (first :: (between ++ [last])) = first :: (mid ++ [last]) := by
    show inked ([first] ++ (between ++ [last])) = _
    rw [inked_append, inked_append, firstInk, isMid, lastInk, List.singleton_append]
  have covered : (inked (first :: (between ++ [last]))).mapM (coveredPart plan) =
      some (String.ofList back :: (mid.map ChunkLeaf.text ++ [String.ofList front])) := by
    rw [isInked, mapM_eq_some]
    simp only [List.map_cons, List.map_append, List.map_map, List.map_nil, firstPart, lastPart,
      List.map_congr_left midParts]
    rfl
  have twoLeaves : (first :: (between ++ [last])).length ≠ 1 := by simp
  have isLast : (first :: (between ++ [last])).getLast? = some last := by
    rw [← List.cons_append, List.getLast?_concat]
  refine selects_span distinct short isRun isGroup' rfl isLast startText endText ends
    (fun single => absurd single twoLeaves) covered ?_
  rw [← String.toList_inj, String.toList_intercalate, isChunk, ← intercalate_ends, List.map_cons,
    List.map_append, List.map_map, List.map_singleton, String.toList_ofList, String.toList_ofList]
  rfl

end Cut

/-- **A cut of a group is planned, and its coordinates select it.** -/
theorem planChunk_selects (distinct : (leaves.map ChunkLeaf.nodeId).Nodup)
    (short : ∀ leaf ∈ leaves, leaf.text.length < 2 ^ 31) (isRun : IsRun leaves low high)
    (cut : IsInkSlice (gather (slice leaves low high)).1 byteStart chunk) :
    ∃ plan, planChunk fns (gather (slice leaves low high)).2 byteStart chunk = some plan ∧
      Selects leaves plan := by
  obtain ⟨before, rfl, cover⟩ := cut.covers
  rw [(gather_spec _).2]
  have stopAt : utf8Len before + chunk.utf8ByteSize = utf8Len (before ++ chunk.toList) := by
    rw [utf8Len_append, utf8ByteSize_eq]
  have ink : chunk.toList ≠ [] := fun none => cut.nonempty (String.toList_eq_nil_iff.mp none)
  cases cover with
  | @inside front back leaf skipped rest isItems isText isBefore =>
    obtain ⟨head, tail, isGroup, -, isInk, -⟩ := exists_leaf isItems
    have startText := isText.trans (List.append_assoc _ _ _)
    have start : locate (segmentsFrom 0 (inked (slice leaves low high))) (utf8Len before) .start =
        some (leaf.nodeId, asI32 skipped.length) := by
      rw [isItems, isBefore]
      exact locate_segmentsFrom startText fun _ none => ink (List.append_eq_nil_iff.mp none).1
    have stop : locate (segmentsFrom 0 (inked (slice leaves low high)))
        (utf8Len before + chunk.utf8ByteSize) .stop =
          some (leaf.nodeId, asI32 (skipped ++ chunk.toList).length) := by
      rw [stopAt, isItems, isBefore, List.append_assoc]
      exact locate_segmentsFrom isText fun isStart => Snap.noConfusion isStart
    obtain ⟨plan, planned, ends, isChunk⟩ := planChunk_located start stop
    exact ⟨plan, planned, selects_inside distinct short isRun isGroup isInk isText ends isChunk⟩
  | @across front mid back first last skipped head' tail' rest isItems startText tailInk endText
      headInk isBefore isChunk =>
    obtain ⟨head, more, isGroup, -, firstInk, isMore⟩ := exists_leaf isItems
    obtain ⟨between, tail, rfl, isMid, lastInk, -⟩ := exists_leaf isMore
    have start : locate (segmentsFrom 0 (inked (slice leaves low high))) (utf8Len before) .start =
        some (first.nodeId, asI32 skipped.length) := by
      rw [isItems, isBefore]
      exact locate_segmentsFrom startText fun _ => tailInk
    have stop : locate (segmentsFrom 0 (inked (slice leaves low high)))
        (utf8Len before + chunk.utf8ByteSize) .stop =
          some (last.nodeId, asI32 head'.length) := by
      have upTo : before ++ chunk.toList =
          lead separator ChunkLeaf.chars (front ++ first :: mid) ++ head' := by
        rw [isBefore, isChunk, lead_append, lead_cons, startText]
        simp only [List.append_assoc]
      have split : front ++ first :: (mid ++ last :: back) =
          (front ++ first :: mid) ++ last :: back := by
        rw [List.append_assoc, List.cons_append]
      rw [stopAt, upTo, isItems, split]
      exact locate_segmentsFrom endText fun isStart => Snap.noConfusion isStart
    obtain ⟨plan, planned, ends, isText⟩ := planChunk_located start stop
    exact ⟨plan, planned, selects_across distinct short isRun isGroup firstInk isMid lastInk
      startText endText ends (isText ▸ isChunk)⟩

/-! ### All plans -/

variable (fns) in
/-- **A group is planned, and every plan's coordinates select its text.** -/
theorem planGroup_selects {splitter : TextSplitter} (cutsInk : splitter.CutsInk)
    (distinct : (leaves.map ChunkLeaf.nodeId).Nodup)
    (short : ∀ leaf ∈ leaves, leaf.text.length < 2 ^ 31) {group : List ChunkLeaf}
    (member : group ∈ groupByParent leaves) :
    ∃ plans, planGroup fns splitter group = some plans ∧ ∀ plan ∈ plans, Selects leaves plan := by
  obtain ⟨low, high, isRun, rfl⟩ := groupByParent_isRun member
  unfold planGroup
  by_cases isEmpty : (gather (slice leaves low high)).2.isEmpty = true
  · exact ⟨[], if_pos isEmpty, fun _ isPlan => absurd isPlan List.not_mem_nil⟩
  · simp only [if_neg isEmpty]
    refine mapM_spec fun cut isCut => ?_
    have isInk := cutsInk _ cut (List.mem_of_mem_filter isCut)
    exact planChunk_selects distinct short isRun isInk

variable (leaves) in
/-- **The coordinates of every plan select its text**: start and end lie in one run of leaves with
one parent, in order, with offsets inside their leaves, and what stands between them joins to the
plan's text. Planning panics only where the splitter is refused. -/
theorem planChunks_selects (fns : TextFns) (splitterFor : ChunkParams → Option TextSplitter)
    (params : ChunkParams)
    (cutsInk : ∀ splitter, splitterFor params = some splitter → splitter.CutsInk)
    (distinct : (leaves.map ChunkLeaf.nodeId).Nodup)
    (short : ∀ leaf ∈ leaves, leaf.text.length < 2 ^ 31) :
    ((∃ plans, planChunks fns splitterFor leaves params = some plans) ↔
      ∃ splitter, splitterFor params = some splitter) ∧
    ∀ plans, planChunks fns splitterFor leaves params = some plans →
      ∀ plan ∈ plans, Selects leaves plan := by
  cases isSplitter : splitterFor params with
  | none =>
    have refused : planChunks fns splitterFor leaves params = none := by
      rw [planChunks, isSplitter]
      rfl
    rw [refused]
    simp
  | some splitter =>
    obtain ⟨groups, planned, selects⟩ := mapM_spec fun group member =>
      planGroup_selects fns (cutsInk splitter isSplitter) distinct short member
    have isPlans : planChunks fns splitterFor leaves params = some groups.flatten := by
      rw [planChunks, isSplitter, Option.bind_eq_bind, Option.bind_some, planned]
      rfl
    rw [isPlans]
    refine ⟨⟨fun _ => ⟨splitter, rfl⟩, fun _ => ⟨_, rfl⟩⟩, ?_⟩
    rintro plans isFlat plan member
    obtain rfl := Option.some.inj isFlat
    obtain ⟨group, isGroup, isPlan⟩ := List.mem_flatten.mp member
    exact selects group isGroup plan isPlan

/-! ### Two paragraphs around an empty one -/

/-- The chunks of a text under the target: itself, when its ends have ink. -/
def wholeText (text : String) : List (Nat × String) :=
  if text ≠ "" ∧ (text.toList.head?.all fun c => !isWhitespace c) ∧
    (text.toList.getLast?.all fun c => !isWhitespace c) then [(0, text)] else []

/-- A splitter for such texts. -/
def wholeSplitter (params : ChunkParams) : Option TextSplitter :=
  if params.targetChars ≤ params.overlapChars then none else some ⟨wholeText⟩

theorem wholeSplitter_cutsInk {params : ChunkParams} {splitter : TextSplitter}
    (isSplitter : wholeSplitter params = some splitter) : splitter.CutsInk := by
  obtain ⟨-, isSplitter⟩ := Option.ite_none_left_eq_some.mp isSplitter
  obtain rfl := Option.some.inj isSplitter
  intro text cut member
  change cut ∈ wholeText text at member
  unfold wholeText at member
  split at member
  · next ends =>
    obtain rfl := List.mem_singleton.mp member
    refine ⟨⟨"", "", by simp, rfl⟩, ends.1, fun c isFirst => ?_, fun c isLast => ?_⟩
    · simpa [isFirst] using ends.2.1
    · simpa [isLast] using ends.2.2
  · cases member

/-- Two paragraphs of one chapter with an empty one between them, and one of another chapter. -/
def twoChapters : List ChunkLeaf :=
  [⟨⟨10⟩, some ⟨1⟩, "aΩb"⟩, ⟨⟨11⟩, some ⟨1⟩, ""⟩, ⟨⟨12⟩, some ⟨1⟩, "c"⟩, ⟨⟨13⟩, some ⟨2⟩, "dd"⟩]

/-- Their plans: one for each chapter, the first from the first paragraph to the third. -/
def twoPlans : List ChunkPlan :=
  [⟨⟨10⟩, 0, ⟨12⟩, 1, "aΩb\n\nc", "61cea9620a0a63"⟩, ⟨⟨13⟩, 0, ⟨13⟩, 2, "dd", "6464"⟩]

/-- The leaves are planned, and every plan's coordinates select its text. -/
theorem planChunks_selects_twoChapters :
    planChunks ⟨id, id⟩ wholeSplitter twoChapters .default = some twoPlans ∧
    ∀ plan ∈ twoPlans, Selects twoChapters plan := by
  have selects := planChunks_selects twoChapters ⟨id, id⟩ wholeSplitter .default
    (fun _ => wholeSplitter_cutsInk) (by decide) (by decide)
  have planned : planChunks ⟨id, id⟩ wholeSplitter twoChapters .default = some twoPlans := by
    decide +kernel
  exact ⟨planned, selects.2 twoPlans planned⟩

end Bookrack.Chunk
