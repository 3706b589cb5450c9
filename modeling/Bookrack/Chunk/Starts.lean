/-
Where chunks begin: whatever the splitter returns, a plan starts in a leaf it was made from.
-/

import Bookrack.Base.Rows
import Bookrack.Chunk.Groups
import Bookrack.Chunk.Segments

namespace Bookrack.Chunk

open Structure (TextFns)

variable {fns : TextFns}

/-- `locate` answers with a segment's node. -/
theorem locateFrom_mem {segments : List Segment} {bytePos : Nat} {snap : Snap} {found : NodeId × Int}
    {rest : List Segment} : ∀ {prev : Option Segment}, (∀ p ∈ prev, p ∈ segments) → rest ⊆ segments →
    locateFrom segments bytePos snap prev rest = some found → ∃ seg ∈ segments, seg.nodeId = found.1 := by
  induction rest with
  | nil =>
    intro prev _ _ located
    obtain ⟨last, isLast, rfl⟩ := Option.map_eq_some_iff.mp located
    exact ⟨last, List.mem_of_getLast? isLast, rfl⟩
  | cons seg rest ih =>
    intro prev isPrev inside located
    have isSeg := inside List.mem_cons_self
    rw [locateFrom] at located
    split_ifs at located with before within
    · obtain rfl := Option.some.inj located
      unfold Snap.toward
      split
      · exact ⟨seg, isSeg, rfl⟩
      · exact ⟨_, isPrev _ rfl, rfl⟩
      · exact ⟨seg, isSeg, rfl⟩
    · obtain ⟨part, _, rfl⟩ := Option.map_eq_some_iff.mp located
      exact ⟨seg, isSeg, rfl⟩
    · refine ih (fun p isP => ?_) (fun other member => inside (List.mem_cons_of_mem _ member)) located
      rw [← Option.some.inj isP]
      exact isSeg

theorem mem_segmentsFrom {seg : Segment} {group : List ChunkLeaf} : ∀ {pos : Nat},
    seg ∈ segmentsFrom pos group → ∃ leaf ∈ group, leaf.nodeId = seg.nodeId := by
  induction group with
  | nil => exact fun member => absurd member List.not_mem_nil
  | cons leaf rest ih =>
    intro pos member
    rw [segmentsFrom] at member
    rcases List.mem_cons.mp member with rfl | later
    · exact ⟨leaf, List.mem_cons_self, rfl⟩
    · obtain ⟨other, isOther, same⟩ := ih later
      exact ⟨other, List.mem_cons_of_mem _ isOther, same⟩

theorem planChunk_start {group : List ChunkLeaf} {byteStart : Nat} {chunk : String} {plan : ChunkPlan}
    (planned : planChunk fns (gather group).2 byteStart chunk = some plan) :
    ∃ leaf ∈ group, leaf.nodeId = plan.startNodeId := by
  rw [planChunk, Option.bind_eq_bind, Option.bind_eq_some_iff] at planned
  obtain ⟨⟨startNodeId, offset⟩, located, planned⟩ := planned
  obtain ⟨_, _, isPlan⟩ := Option.bind_eq_some_iff.mp planned
  obtain rfl := Option.some.inj isPlan
  have nowhere : ∀ p ∈ (none : Option Segment), p ∈ (gather group).2 := fun _ isNone => by cases isNone
  obtain ⟨seg, isSeg, same⟩ := locateFrom_mem nowhere (List.Subset.refl _) located
  rw [(gather_spec group).2] at isSeg
  obtain ⟨leaf, isLeaf, isNode⟩ := mem_segmentsFrom isSeg
  exact ⟨leaf, List.mem_of_mem_filter isLeaf, isNode.trans same⟩

theorem planGroup_start {splitter : TextSplitter} {group : List ChunkLeaf} {plans : List ChunkPlan}
    (planned : planGroup fns splitter group = some plans) :
    ∀ plan ∈ plans, ∃ leaf ∈ group, leaf.nodeId = plan.startNodeId := by
  intro plan member
  unfold planGroup at planned
  dsimp only at planned
  split_ifs at planned
  · obtain rfl := Option.some.inj planned
    exact absurd member List.not_mem_nil
  · obtain ⟨cut, -, isPlan⟩ := Rows.mem_of_mapM planned member
    exact planChunk_start isPlan

/-- **A plan starts in one of the leaves.** -/
theorem planChunks_start {splitterFor : ChunkParams → Option TextSplitter} {leaves : List ChunkLeaf}
    {params : ChunkParams} {plans : List ChunkPlan}
    (planned : planChunks fns splitterFor leaves params = some plans) :
    ∀ plan ∈ plans, ∃ leaf ∈ leaves, leaf.nodeId = plan.startNodeId := by
  intro plan member
  rw [planChunks, Option.bind_eq_bind, Option.bind_eq_some_iff] at planned
  obtain ⟨splitter, -, planned⟩ := planned
  obtain ⟨groups, isGroups, isPlans⟩ := Option.bind_eq_some_iff.mp planned
  obtain rfl := Option.some.inj isPlans
  obtain ⟨some, isSome, isIn⟩ := List.mem_flatten.mp member
  obtain ⟨group, isGroup, isPlan⟩ := Rows.mem_of_mapM isGroups isSome
  obtain ⟨leaf, isLeaf, same⟩ := planGroup_start isPlan plan isIn
  refine ⟨leaf, ?_, same⟩
  rw [← groupByParent_flatten leaves]
  exact List.mem_flatten.mpr ⟨group, isGroup, isLeaf⟩

/-- No leaf, no plan. -/
theorem planChunks_nil {splitterFor : ChunkParams → Option TextSplitter} {params : ChunkParams}
    {plans : List ChunkPlan} (planned : planChunks fns splitterFor [] params = some plans) : plans = [] := by
  rw [List.eq_nil_iff_forall_not_mem]
  intro plan member
  obtain ⟨_, isLeaf, _⟩ := planChunks_start planned plan member
  exact absurd isLeaf List.not_mem_nil

end Bookrack.Chunk
