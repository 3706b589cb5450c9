/-
Parents of a planned tree, from the table of contents to the chunk groups.

* `leafParent_between`: blocks between two blocks of one owner have that owner.
* `chunkLeaves_rows`: the leaves CHUNK reads back from a bound plan are its prose leaves in document
  order.
* **`parents_by_rule`**: every surviving block hangs under its owner, every entry under the nearest
  earlier shallower one, the leaves of a parent stand together, and CHUNK sees one group for each
  parent of a prose leaf.
-/

import Bookrack.Chunk.Groups
import Bookrack.Ingest.Embed
import Bookrack.Structure.Insertable
import Bookrack.Structure.ReadingOrder

namespace Bookrack.Ingest

open Chunk (ChunkLeaf Contiguous OneGroupPerParent parentAt)
open Corpus (Node NewNode)
open Outline (Encloses Topmost)
open Structure

/-! ### The rule -/

/-- **The declarative rule for parents.** A block's leaf hangs under the entry with the greatest
anchor not after the block, an entry under the nearest earlier entry of smaller depth, either one
under the root where there is none; and the leaves of a parent stand together. -/
structure ParentsByRule (fns : TextFns) (extraction : Extraction) (nodes : List PlannedNode) :
    Prop where
  leaves : ∀ block i, extraction.blocks[i]? = some block →
    suppressed fns extraction.toc i block = false → ∃ (position : Nat) (node : PlannedNode),
      (survivors fns extraction)[position]? = some (block, i) ∧
      nodes[firstLeaf extraction + position]? = some node ∧
      node.docOrder = some position ∧ node.text = some block.text ∧
      (∀ entry, node.parent = some (orgIndex entry) ↔ Owns extraction.toc i entry) ∧
      (node.parent = some rootIndex ↔ ∀ entry, ¬Owns extraction.toc i entry)
  entries : ∀ entry found, extraction.toc[entry]? = some found → ∃ node,
      nodes[orgIndex entry]? = some node ∧ node.title = some found.label ∧
      (∀ up, node.parent = some (orgIndex up) ↔ Encloses (depthOf extraction.toc) up entry) ∧
      (node.parent = some rootIndex ↔ Topmost (depthOf extraction.toc) entry)
  together : ∀ low ∈ nodes, ∀ mid ∈ nodes, ∀ high ∈ nodes, ∀ p q r : Int, low.docOrder = some p →
    mid.docOrder = some q → high.docOrder = some r → p < q → q < r → low.parent = high.parent →
    mid.parent = low.parent

/-! ### Owners -/

section Owners

variable {extraction : Extraction}

/-- Between two blocks of one owner, every block has that owner. -/
theorem owns_between {entries : List TocEntry} {i j k entry : Nat} (owns : Owns entries i entry)
    (owns' : Owns entries k entry) (before : i < j) (after : j < k) : Owns entries j entry := by
  obtain ⟨start, isStart, notAfter, greatest⟩ := owns
  obtain ⟨owner, isOwner⟩ := exists_owner isStart (by omega : start ≤ j)
  have ⟨start', isStart', notAfter', greatest'⟩ := isOwner
  have atMost := isOwner.start_le owns' after isStart' isStart
  have atLeast := greatest' entry start isStart (by omega)
  have back := greatest owner start' isStart' (by omega)
  unfold StartLe at atLeast back
  simp only at atLeast back
  obtain rfl : owner = entry := by omega
  exact isOwner

theorem leafParent_between {i j k : Nat} (before : i < j) (after : j < k)
    (inside : k < extraction.blocks.length)
    (same : leafParent extraction i = leafParent extraction k) :
    leafParent extraction j = leafParent extraction i := by
  by_cases owned : ∃ entry, Owns extraction.toc i entry
  · obtain ⟨entry, owns⟩ := owned
    have isParent := leafParent_owned (by omega) owns
    have owns' := (leafParent_eq_orgIndex inside).mp (same.symm.trans isParent)
    rw [isParent, leafParent_owned (by omega) (owns_between owns owns' before after)]
  · have isRoot := leafParent_unowned (by omega) (not_exists.mp owned)
    have unowned' : ∀ entry, ¬Owns extraction.toc k entry := by
      intro entry owns
      rw [isRoot, leafParent_owned inside owns, rootIndex, orgIndex] at same
      omega
    rw [isRoot]
    refine leafParent_unowned (by omega) fun entry owns => ?_
    -- an owned block never stands before an unowned one
    have := unowned_lt unowned' owns
    omega

end Owners

/-! ### The planned nodes -/

section Planned

variable {fns : TextFns} {params : StructureParams} {bookRootType : NodeType}
  {extraction : Extraction} {nodes : List PlannedNode}

theorem leafParent_eq_rootIndex {i : Nat} (inside : i < extraction.blocks.length) :
    leafParent extraction i = rootIndex ↔ ∀ entry, ¬Owns extraction.toc i entry := by
  constructor
  · intro isRoot entry owns
    rw [leafParent_owned inside owns, rootIndex, orgIndex] at isRoot
    omega
  · exact leafParent_unowned inside

theorem parentOf_org_eq_root (shape : Shape fns params bookRootType extraction nodes) {entry : Nat}
    (inside : entry < extraction.toc.length) :
    parentOf nodes (orgIndex entry) = some rootIndex ↔ Topmost (depthOf extraction.toc) entry := by
  rcases shape.parentOf_org inside with ⟨up, encloses, isParent⟩ | ⟨topmost, isParent⟩
  · rw [isParent, Option.some.injEq, orgIndex, rootIndex]
    exact ⟨fun same => by omega,
      fun topmost => absurd (topmost up encloses.1) (not_le.mpr encloses.2.1)⟩
  · exact ⟨fun _ => topmost, fun _ => isParent⟩

/-- A node with a reading position is the leaf of a survivor. -/
theorem leaf_of_docOrder (shape : Shape fns params bookRootType extraction nodes)
    {node : PlannedNode} (member : node ∈ nodes) {p : Int} (isOrder : node.docOrder = some p) :
    ∃ (position : Nat) (survivor : Block × Nat), (survivors fns extraction)[position]? = some survivor ∧
      (position : Int) = p ∧ node.parent = some (leafParent extraction survivor.2) := by
  obtain ⟨idx, isNode⟩ := List.getElem?_of_mem member
  by_cases isLeaf : firstLeaf extraction ≤ idx
  · obtain ⟨position, survivor, isSurvivor, -, _, rfl⟩ := shape.leaf_of_le isNode isLeaf
    exact ⟨position, survivor, isSurvivor, Option.some.inj isOrder, rfl⟩
  · rw [(shape.org_positionless isNode (not_le.mp isLeaf)).1] at isOrder
    cases isOrder

/-- Leaves between two leaves of a parent have that parent. -/
theorem leafParent_survivors {p q r : Nat} {low mid high : Block × Nat}
    (isLow : (survivors fns extraction)[p]? = some low)
    (isMid : (survivors fns extraction)[q]? = some mid)
    (isHigh : (survivors fns extraction)[r]? = some high) (before : p < q) (after : q < r)
    (same : leafParent extraction low.2 = leafParent extraction high.2) :
    leafParent extraction mid.2 = leafParent extraction low.2 :=
  leafParent_between ((survivor_lt_iff isLow isMid).mp before)
    ((survivor_lt_iff isMid isHigh).mp after) (Shape.survivor_lt isHigh) same

theorem parentsByRule (shape : Shape fns params bookRootType extraction nodes) :
    ParentsByRule fns extraction nodes := by
  refine ⟨fun block i isBlock kept => ?_, fun entry found isEntry => ?_, ?_⟩
  · have inside := (List.getElem?_eq_some_iff.mp isBlock).1
    obtain ⟨position, isSurvivor⟩ := List.getElem?_of_mem (mem_survivors.mpr ⟨isBlock, kept⟩)
    obtain ⟨ordinal, isNode⟩ := shape.leaf isSurvivor
    refine ⟨position, _, isSurvivor, isNode, rfl, rfl, fun entry => ?_, ?_⟩
    · exact Option.some_inj.trans (leafParent_eq_orgIndex inside)
    · exact Option.some_inj.trans (leafParent_eq_rootIndex inside)
  · have inside := (List.getElem?_eq_some_iff.mp isEntry).1
    obtain ⟨ordinal, isNode⟩ := shape.org isEntry
    have isParent : ∀ {up}, parentOf nodes (orgIndex entry) = some up ↔ PlannedNode.parent
        ((plannedOrg (orgSkeleton extraction.toc) (found, entry)).setOrdinal ordinal) = some up := by
      intro up
      rw [parentOf, isNode]
      rfl
    refine ⟨_, isNode, rfl, fun up => ?_, ?_⟩
    · rw [← isParent]
      exact shape.parentOf_org_eq inside
    · rw [← isParent]
      exact parentOf_org_eq_root shape inside
  · intro low isLow mid isMid high isHigh p q r isP isQ isR before after same
    obtain ⟨p, lowest, isLowest, rfl, isParent⟩ := leaf_of_docOrder shape isLow isP
    obtain ⟨q, middle, isMiddle, rfl, isParent'⟩ := leaf_of_docOrder shape isMid isQ
    obtain ⟨r, highest, isHighest, rfl, isParent''⟩ := leaf_of_docOrder shape isHigh isR
    rw [isParent, isParent'', Option.some.injEq] at same
    rw [isParent, isParent', leafParent_survivors isLowest isMiddle isHighest (by omega) (by omega)
      same]

end Planned

/-! ### What CHUNK reads back -/

section Rows

variable {fns : TextFns} {params : StructureParams} {bookRootType : NodeType}
  {extraction : Extraction} {plan : TreePlan} {bookRootId : NodeId} {ids : List NodeId}
  {rows : List NewNode} {rowAt : Nat → NewNode}

/-- The leaf of a row. -/
def leafOf (row : NewNode) : ChunkLeaf := ⟨row.nodeId, row.parentId, row.textContent.getD ""⟩

/-- The positions of the prose leaves. -/
def prosePositions (fns : TextFns) (extraction : Extraction) (rowAt : Nat → NewNode) : List Nat :=
  (List.range (survivors fns extraction).length).filter fun position =>
    (rowAt (firstLeaf extraction + position)).nodeType.isProseLeaf

theorem textless_org (isPlan : IsPlan fns params bookRootType extraction plan)
    (bound : BoundRows plan bookRootId ids rows rowAt) {idx : Nat} (isOrg : idx < firstLeaf extraction) :
    (rowAt idx).textContent = none := by
  have inside : idx < plan.nodes.length := by
    rw [isPlan.shape.size]
    omega
  rw [(bound.isRow (List.getElem?_eq_getElem inside)).text]
  split
  · rfl
  · rename_i notOrganizing
    rcases isPlan.shape.cases inside with rfl | ⟨entry, found, isEntry, rfl⟩ |
      ⟨position, _, _, rfl⟩
    · have isRoot := isPlan.rootNode
      rw [List.getElem?_eq_getElem inside] at isRoot
      rw [Option.some.inj isRoot]
      rfl
    · obtain ⟨_, isNode⟩ := isPlan.shape.org isEntry
      rw [List.getElem?_eq_getElem inside] at isNode
      rw [Option.some.inj isNode]
      rfl
    · omega

/-- The prose rows with a text, in the order of the plan. -/
theorem filter_prose_rows (isPlan : IsPlan fns params bookRootType extraction plan)
    (bound : BoundRows plan bookRootId ids rows rowAt) :
    rows.filter (fun row => row.nodeType.isProseLeaf && row.textContent.isSome) =
      (prosePositions fns extraction rowAt).map fun position =>
        rowAt (firstLeaf extraction + position) := by
  have orgs : ((List.range (firstLeaf extraction)).map rowAt).filter
      (fun row => row.nodeType.isProseLeaf && row.textContent.isSome) = [] := by
    rw [List.filter_eq_nil_iff]
    intro row member
    obtain ⟨idx, isOrg, rfl⟩ := List.mem_map.mp member
    rw [textless_org isPlan bound (List.mem_range.mp isOrg)]
    simp
  rw [bound.all, isPlan.shape.size, List.range_add, List.map_append, List.filter_append, orgs,
    List.nil_append, List.map_map, List.filter_map, prosePositions]
  congr 1
  refine List.filter_congr fun position member => ?_
  have isLeaf := List.getElem?_eq_getElem (List.mem_range.mp member)
  have isText := congrArg LeafColumns.textContent (bound.leaf_columns isPlan isLeaf)
  rw [Function.comp_apply, Function.comp_apply,
    show (rowAt (firstLeaf extraction + position)).textContent = some _ from isText]
  exact Bool.and_true _

/-- **CHUNK reads the prose leaves in document order**, whatever order the rows are stored in. -/
theorem chunkLeaves_rows (isPlan : IsPlan fns params bookRootType extraction plan)
    (bound : BoundRows plan bookRootId ids rows rowAt) {nodes : List Node} (stored : nodes.Perm rows) :
    chunkLeaves nodes = (prosePositions fns extraction rowAt).map fun position =>
      leafOf (rowAt (firstLeaf extraction + position)) := by
  have isKey : ∀ {position : Nat}, position ∈ prosePositions fns extraction rowAt →
      (rowAt (firstLeaf extraction + position)).tocLo = some (position : Int) := by
    intro position member
    have isLeaf := List.getElem?_eq_getElem (List.mem_range.mp (List.mem_of_mem_filter member))
    exact congrArg (·.tocSpan.1) (bound.leaf_columns isPlan isLeaf)
  have inOrder : (prosePositions fns extraction rowAt).Pairwise (· < ·) :=
    List.pairwise_lt_range.filter _
  have : Std.Total fun one other : Node =>
      one.tocLo.getD one.nodeId.get ≤ other.tocLo.getD other.nodeId.get := ⟨fun _ _ => le_total _ _⟩
  have : IsTrans Node fun one other =>
      one.tocLo.getD one.nodeId.get ≤ other.tocLo.getD other.nodeId.get := ⟨fun _ _ _ => le_trans⟩
  have picks : ∀ items : List Node, (items.filterMap fun node =>
      node.textContent.map fun text => (⟨node.nodeId, node.parentId, text⟩ : ChunkLeaf)) =
      (items.filter (·.textContent.isSome)).map leafOf := fun items =>
    filterMap_eq_map_filter fun node _ => by cases isText : node.textContent <;> simp [leafOf, isText]
  rw [chunkLeaves, picks]
  have isSorted : (((nodes.filter (·.nodeType.isProseLeaf)).insertionSort fun one other =>
      one.tocLo.getD one.nodeId.get ≤ other.tocLo.getD other.nodeId.get).filter
        (·.textContent.isSome)) = (prosePositions fns extraction rowAt).map fun position =>
      rowAt (firstLeaf extraction + position) := by
    have isPerm := ((List.perm_insertionSort (fun one other : Node =>
      one.tocLo.getD one.nodeId.get ≤ other.tocLo.getD other.nodeId.get)
        (nodes.filter (·.nodeType.isProseLeaf))).trans (stored.filter _)).filter
          (·.textContent.isSome)
    rw [List.filter_filter, List.filter_congr fun row _ => Bool.and_comm _ _,
      filter_prose_rows isPlan bound] at isPerm
    refine isPerm.eq_of_pairwise ?_ ((List.pairwise_insertionSort _ _).filter _) ?_
    · intro one other member member' le le'
      obtain ⟨p, isP, rfl⟩ := List.mem_map.mp (isPerm.subset member)
      obtain ⟨q, isQ, rfl⟩ := List.mem_map.mp member'
      rw [isKey isP, isKey isQ, Option.getD_some, Option.getD_some] at le le'
      rw [show p = q by omega]
    · rw [List.pairwise_map]
      refine inOrder.imp_of_mem fun isP isQ before => ?_
      rw [isKey isP, isKey isQ, Option.getD_some, Option.getD_some]
      omega
  rw [isSorted, List.map_map]
  rfl

/-- Under distinct ids the prose leaves of a parent stand together. -/
theorem chunkLeaves_contiguous (isPlan : IsPlan fns params bookRootType extraction plan)
    (bound : BoundRows plan bookRootId ids rows rowAt) (distinct : DistinctIds plan bookRootId ids)
    {nodes : List Node} (stored : nodes.Perm rows) : Contiguous (chunkLeaves nodes) := by
  rw [chunkLeaves_rows isPlan bound stored]
  set positions := prosePositions fns extraction rowAt
  have inOrder : positions.Pairwise (· < ·) := List.pairwise_lt_range.filter _
  have isAt : ∀ {a : Nat} (inside : a < positions.length), ∃ survivor,
      (survivors fns extraction)[positions[a]]? = some survivor ∧
      parentAt (positions.map fun position => leafOf (rowAt (firstLeaf extraction + position))) a =
        some (some (idAt bookRootId ids (leafParent extraction survivor.2))) := by
    intro a inside
    have isLeaf := List.getElem?_eq_getElem
      (List.mem_range.mp (List.mem_of_mem_filter (List.getElem_mem inside)))
    obtain ⟨_, isNode⟩ := isPlan.shape.leaf isLeaf
    refine ⟨_, isLeaf, ?_⟩
    rw [parentAt, List.getElem?_map, List.getElem?_eq_getElem inside]
    exact congrArg some (bound.isRow isNode).parentId
  intro a b c before after inside same
  rw [List.length_map] at inside
  obtain ⟨low, isLow, isParent⟩ := isAt (by omega : a < positions.length)
  obtain ⟨mid, isMid, isParent'⟩ := isAt (by omega : b < positions.length)
  obtain ⟨high, isHigh, isParent''⟩ := isAt inside
  have upInside : ∀ {position : Nat} {survivor : Block × Nat},
      (survivors fns extraction)[position]? = some survivor →
      leafParent extraction survivor.2 < plan.nodes.length := by
    intro position survivor isSurvivor
    have isOrg := leafParent_inside (Shape.survivor_lt isSurvivor)
    rw [isPlan.shape.size]
    omega
  rw [isParent, isParent'', Option.some.injEq, Option.some.injEq] at same
  have sameUp := distinct (upInside isLow) (upInside isHigh) same
  have ascending := List.pairwise_iff_getElem.mp inOrder
  rw [isParent, isParent', leafParent_survivors isLow isMid isHigh
    (ascending a b (by omega) (by omega) before) (ascending b c (by omega) inside after) sameUp]

/-- **Parents follow the rule, and CHUNK sees one group for each parent of a prose leaf.** -/
theorem parents_by_rule (planned : planTree fns bookRootType extraction params = .ok plan) :
    ParentsByRule fns extraction plan.nodes ∧
    ∀ bookRootId ids rows, plan.intoNewNodes bookRootId ids = some rows →
      (rows.map (·.nodeId)).Nodup → ∀ nodes : List Node, nodes.Perm rows →
        Contiguous (chunkLeaves nodes) ∧ OneGroupPerParent (chunkLeaves nodes) := by
  have isPlan := planTree_isPlan planned
  refine ⟨parentsByRule isPlan.shape, fun bookRootId ids rows emitted distinct nodes stored => ?_⟩
  obtain ⟨rowAt, bound⟩ := intoNewNodes_rows isPlan emitted
  have contiguous := chunkLeaves_contiguous isPlan bound (bound.distinctIds distinct) stored
  exact ⟨contiguous, Chunk.oneGroupPerParent contiguous⟩

end Rows

/-! ### A preface, a part and its chapter -/

/-- Two entries anchored at one block: the chapter, the later one, owns it. -/
def partAndChapter : Extraction where
  blocks := ["p", "q", "r"].map fun text => { kind := .body, text := text, sourceUnit := 0 }
  toc := [⟨"P", 0, some 1⟩, ⟨"C", 1, some 1⟩]
  title := none

/-- The ids its five nodes below the root are bound to. -/
def partAndChapterIds : List NodeId := (List.range 5).map fun index => ⟨100000002 + index⟩

/-- The rows its plan binds to. -/
def partAndChapterRows : Option (List NewNode) :=
  (planTree plainFns .work partAndChapter ⟨16⟩).toOption.bind
    fun plan => plan.intoNewNodes ⟨100000001⟩ partAndChapterIds

/-- The preface is a group of its own, both blocks of the chapter are the other. -/
theorem parents_by_rule_partAndChapter : ∃ plan rows,
    planTree plainFns .work partAndChapter ⟨16⟩ = .ok plan ∧
    plan.intoNewNodes ⟨100000001⟩ partAndChapterIds = some rows ∧
    rows.map (·.parentId) = [none, some ⟨100000001⟩, some ⟨100000002⟩, some ⟨100000001⟩,
      some ⟨100000003⟩, some ⟨100000003⟩] ∧
    ParentsByRule plainFns partAndChapter plan.nodes ∧ OneGroupPerParent (chunkLeaves rows) := by
  have parents : partAndChapterRows.map (fun rows => rows.map (·.parentId)) =
      some [none, some ⟨100000001⟩, some ⟨100000002⟩, some ⟨100000001⟩, some ⟨100000003⟩,
        some ⟨100000003⟩] := by decide
  have nodeIds : partAndChapterRows.map (fun rows => rows.map (·.nodeId)) =
      some (⟨100000001⟩ :: partAndChapterIds) := by decide
  obtain ⟨rows, isRows, isParents⟩ := Option.map_eq_some_iff.mp parents
  obtain ⟨plan, isPlan, emitted⟩ := Option.bind_eq_some_iff.mp isRows
  have planned : planTree plainFns .work partAndChapter ⟨16⟩ = .ok plan := by
    cases isTree : planTree plainFns .work partAndChapter ⟨16⟩ with
    | error _ =>
      rw [isTree] at isPlan
      cases isPlan
    | ok _ =>
      rw [isTree] at isPlan
      rw [Option.some.inj isPlan]
  rw [isRows, Option.map_some, Option.some.injEq] at nodeIds
  obtain ⟨byRule, groups⟩ := parents_by_rule planned
  refine ⟨plan, rows, planned, emitted, isParents, byRule, ?_⟩
  exact (groups _ _ rows emitted (nodeIds ▸ by decide) rows (List.Perm.refl rows)).2

end Bookrack.Ingest
