/-
Planned trees as batches of rows: what the corpus is handed.

* `InsertableTree fns extraction rows` says that the batch is a tree the corpus accepts: every row
  validates, parents come first and one level up, siblings are numbered without gaps, the leaves are
  the surviving blocks in order, and organizing rows span their descendant leaves.
* **`insertable_iff_count_fits`**: bound to the root id and `child_count()` distinct ids of one
  partition, a plan gives such a batch exactly when entries and surviving blocks number less than
  2 ^ 32. `child_count` casts the number of nodes to `u32`, so from there on ids are missing and
  binding panics; `overflowing_book_panics` is a book of 2 ^ 32 blocks.
-/

import Bookrack.Structure.Bind
import Mathlib.Data.List.Perm.Basic

namespace Bookrack.Structure

open Corpus Forest Hull

/-! ### What the corpus is handed -/

/-- The positions of the leaves under a row. -/
def leafPositions (rows : List NewNode) (column : NewNode → Option Int) (up : NewNode) : Set Int :=
  {p | ∃ leaf ∈ rows, leaf.nodeType.isOrganizing = false ∧ DescendantRow rows leaf up ∧
    column leaf = some p}

/-- The two columns hold the least and the greatest position, or NULL when there is none. -/
def SpanColumns (positions : Set Int) (lo hi : Option Int) : Prop :=
  ∃ hull, IsHull positions hull ∧ lo = hull.map Prod.fst ∧ hi = hull.map Prod.snd

/-- The columns a surviving block fills: type, text, position and page. -/
structure LeafColumns where
  nodeType : NodeType
  textContent : Option String
  tocSpan : Option Int × Option Int
  pageSpan : Option Int × Option Int
  deriving DecidableEq

/-- The leaf columns of a row. -/
def leafColumns (row : NewNode) : LeafColumns where
  nodeType := row.nodeType
  textContent := row.textContent
  tocSpan := (row.tocLo, row.tocHi)
  pageSpan := (row.pageIndexStart, row.pageIndexEnd)

/-- The leaf columns of a surviving block at a position. -/
def blockColumns (survivor : (Block × Nat) × Nat) : LeafColumns where
  nodeType := leafType survivor.1.1.kind
  textContent := some survivor.1.1.text
  tocSpan := (some survivor.2, some survivor.2)
  pageSpan := (some survivor.1.1.sourceUnit, some survivor.1.1.sourceUnit)

/-- **A batch of rows that is a consistent tree over the surviving blocks.** -/
structure InsertableTree (fns : TextFns) (extraction : Extraction) (rows : List NewNode) : Prop where
  valid : ∀ row ∈ rows, row.validate = .ok ()
  oneRoot : ∃ root, rows.filter (·.parentId.isNone) = [root]
  parents : ∀ (idx : Nat) (row : NewNode) (parent : NodeId), rows[idx]? = some row →
    row.parentId = some parent → ∃ (before : Nat) (up : NewNode), before < idx ∧
      rows[before]? = some up ∧ up.nodeId = parent ∧ row.depth = up.depth + 1
  ordinals : ∀ up ∈ rows, let children := rows.filter (·.parentId = some up.nodeId)
    (children.map (·.ordinal)).Perm ((List.range children.length).map Int.ofNat)
  leaves : (rows.filter (! ·.nodeType.isOrganizing)).map leafColumns =
    (survivors fns extraction).zipIdx.map blockColumns
  docSpans : ∀ row ∈ rows, row.nodeType.isOrganizing = true →
    SpanColumns (leafPositions rows (·.tocLo) row) row.tocLo row.tocHi
  pageSpans : ∀ row ∈ rows, row.nodeType.isOrganizing = true →
    SpanColumns (leafPositions rows (·.pageIndexStart) row) row.pageIndexStart row.pageIndexEnd

section Insertable

variable {fns : TextFns} {params : StructureParams} {bookRootType : NodeType}
  {extraction : Extraction} {plan : TreePlan} {bookRootId : NodeId} {ids : List NodeId}
  {rows : List NewNode} {rowAt : Nat → NewNode}

/-! ### Counting -/

theorem IsPlan.length (isPlan : IsPlan fns params bookRootType extraction plan) :
    plan.nodes.length - 1 = extraction.toc.length + (survivors fns extraction).length := by
  rw [isPlan.shape.size, firstLeaf]
  omega

/-- The wrapped count is enough exactly when it does not wrap. -/
theorem IsPlan.childCount_enough (isPlan : IsPlan fns params bookRootType extraction plan)
    (count : ids.length = plan.childCount) : plan.nodes.length - 1 ≤ ids.length ↔
      extraction.toc.length + (survivors fns extraction).length < 2 ^ 32 := by
  rw [count, TreePlan.childCount, isPlan.length]
  omega

/-! ### Depths and ids -/

/-- Depths are positive below the root. -/
theorem IsPlan.depth_pos (isPlan : IsPlan fns params bookRootType extraction plan) {idx : Nat} :
    ∀ {node : PlannedNode}, plan.nodes[idx]? = some node →
      0 ≤ node.depth ∧ (node.depth = 0 ↔ node.parent = none) := by
  induction idx using Nat.strongRecOn with
  | ind idx ih =>
    intro node isNode
    cases isUp : node.parent with
    | none =>
      have isRootNode := isPlan.rootNode
      rw [← isPlan.root_of_parentless isNode isUp, isNode] at isRootNode
      obtain rfl := Option.some.inj isRootNode
      exact ⟨le_rfl, fun _ => rfl, fun _ => rfl⟩
    | some up =>
      have isParent : parentOf plan.nodes idx = some up := by
        rw [parentOf, isNode]
        exact isUp
      obtain ⟨above, isAbove, isSucc⟩ := isPlan.shape.depth_succ isNode isUp
      have before := ih up (isPlan.shape.rooted.earlier isParent).1 isAbove
      exact ⟨by omega, fun zero => by omega, fun rootless => by cases rootless⟩

theorem IsPlan.ordinal_nonneg (isPlan : IsPlan fns params bookRootType extraction plan)
    {idx : Nat} {node : PlannedNode} (isNode : plan.nodes[idx]? = some node) :
    0 ≤ node.ordinal := by
  by_cases isRoot : idx = rootIndex
  · have isRootNode := isPlan.rootNode
    rw [← isRoot, isNode] at isRootNode
    obtain rfl := Option.some.inj isRootNode
    exact le_rfl
  · obtain ⟨up, isUp⟩ := isPlan.shape.rooted.attached (Nat.pos_of_ne_zero isRoot)
      (List.getElem?_eq_some_iff.mp isNode).1
    obtain ⟨ordinal, isKid⟩ := List.getElem?_of_mem (isPlan.shape.listed.mem_iff.mpr isUp)
    obtain ⟨node', isNode', isOrdinal⟩ := isPlan.ordinals isKid
    obtain rfl := Option.some.inj (isNode'.symm.trans isNode)
    omega

theorem idAt_partition (partition : ∀ id ∈ ids, id.partition = bookRootId.partition) (idx : Nat) :
    (idAt bookRootId ids idx).partition = bookRootId.partition := by
  rw [idAt, idOf]
  by_cases isRoot : idx = rootIndex
  · rw [if_pos isRoot]
    rfl
  · rw [if_neg isRoot]
    cases isId : ids[idx - 1]? with
    | none => rfl
    | some id => exact partition id (List.mem_of_getElem? isId)

/-! ### Every row is well formed -/

namespace BoundRows

variable (isPlan : IsPlan fns params bookRootType extraction plan)
  (bound : BoundRows plan bookRootId ids rows rowAt)

include isPlan bound in
theorem wellFormed (rootKind : bookRootType.isOrganizing = true)
    (partition : ∀ id ∈ ids, id.partition = bookRootId.partition) {idx : Nat}
    (inside : idx < plan.nodes.length) : (rowAt idx).WellFormed := by
  have isNode := List.getElem?_eq_getElem inside
  have isRow := bound.isRow isNode
  have depth := isPlan.depth_pos isNode
  have hullSpan := isPlan.shape.spansOf_spec (·.docOrder) inside
  refine ⟨⟨?_, ?_⟩, ?_, ?_, ?_, ?_, ?_, ?_, ?_, ?_⟩
  · rw [isRow.depth]
    exact depth.1
  · rw [isRow.ordinal]
    exact isPlan.ordinal_nonneg isNode
  · rw [isRow.nodeId, isRow.bookRootId]
    exact idAt_partition partition idx
  · intro parent isParent
    rw [isRow.parentId] at isParent
    obtain ⟨up, -, rfl⟩ := Option.map_eq_some_iff.mp isParent
    rw [isRow.bookRootId]
    exact idAt_partition partition up
  · rw [isRow.parentId, isRow.depth, Option.map_eq_none_iff]
    exact depth.2.symm
  · intro titled
    rw [isRow.title] at titled
    rw [isRow.nodeType]
    by_contra isLeaf
    rw [if_neg isLeaf] at titled
    cases titled
  · intro signed
    rw [isRow.signature] at signed
    rw [isRow.nodeType]
    by_contra isLeaf
    rw [if_neg isLeaf] at signed
    cases signed
  · rw [isRow.nodeType]
    exact isRow.bodyText
  · intro hashed
    obtain ⟨isLeaf, hasNorm⟩ := isRow.contentHash hashed
    have isLeafIdx : firstLeaf extraction ≤ idx := by
      by_contra isOrg
      have organizing := (isPlan.shape.organizing_iff rootKind isNode).mpr (not_le.mp isOrg)
      exact absurd (isLeaf.symm.trans organizing) (by decide)
    obtain ⟨position, survivor, -, -, ordinal, isPlanned⟩ := isPlan.shape.leaf_of_le isNode isLeafIdx
    rw [isRow.nodeType]
    rw [isPlanned] at hasNorm ⊢
    by_contra notProse
    have noHash : (plannedLeaf fns params bookRootType extraction
        (survivor, position)).normSha256 = none := if_neg notProse
    rw [show (PlannedNode.setOrdinal ordinal (plannedLeaf fns params bookRootType extraction
      (survivor, position))).normSha256 = none from noHash] at hasNorm
    cases hasNorm
  · rw [NewNode.tocInverted, isRow.docSpan.1, isRow.docSpan.2, isPlan.docSpan]
    cases isSpan : (spansOf (·.docOrder) plan.nodes).getD idx none with
    | none => rfl
    | some span =>
      rw [isSpan] at hullSpan
      exact decide_eq_false (not_lt.mpr hullSpan.low_le_high)

/-! ### Root, parents, ordinals -/

include isPlan bound in
theorem oneRoot (distinct : DistinctIds plan bookRootId ids) :
    rows.filter (·.parentId.isNone) = [rowAt rootIndex] :=
  (bound.forest isPlan distinct).oneRoot (List.getElem?_eq_some_iff.mp isPlan.rootNode).1

include isPlan bound in
theorem parents {idx : Nat} {row : NewNode} {parent : NodeId}
    (isRow : rows[idx]? = some row) (isParent : row.parentId = some parent) :
    ∃ (before : Nat) (up : NewNode), before < idx ∧ rows[before]? = some up ∧
      up.nodeId = parent ∧ row.depth = up.depth + 1 := by
  have inside : idx < plan.nodes.length := by
    have inside := (List.getElem?_eq_some_iff.mp isRow).1
    rw [bound.all] at inside
    simpa using inside
  obtain rfl : rowAt idx = row := Option.some.inj ((bound.getElem?_eq inside).symm.trans isRow)
  have isNode := List.getElem?_eq_getElem inside
  rw [(bound.isRow isNode).parentId] at isParent
  obtain ⟨up, isUp, rfl⟩ := Option.map_eq_some_iff.mp isParent
  have isParentIdx : parentOf plan.nodes idx = some up := by
    rw [parentOf, isNode]
    exact isUp
  have before := (isPlan.shape.rooted.earlier isParentIdx).1
  obtain ⟨above, isAbove, isSucc⟩ := isPlan.shape.depth_succ isNode isUp
  refine ⟨up, rowAt up, before, bound.getElem?_eq (before.trans inside),
    (bound.isRow isAbove).nodeId, ?_⟩
  rw [(bound.isRow isNode).depth, (bound.isRow isAbove).depth]
  exact isSucc

include isPlan bound in
theorem ordinals (distinct : DistinctIds plan bookRootId ids) {up : Nat} (inside : up < plan.nodes.length) :
    let children := rows.filter (·.parentId = some (rowAt up).nodeId)
    (children.map (·.ordinal)).Perm ((List.range children.length).map Int.ofNat) := by
  intro children
  -- the rows under `up` are those of the children listed, in another order
  have isChildren : children = ((List.range plan.nodes.length).filter
      (parentOf plan.nodes · = some up)).map rowAt := (bound.forest isPlan distinct).filter_parentId inside
  have listed := isPlan.shape.filter_perm_kids up
  have numbered : (kids extraction plan.nodes up).map (fun idx => (rowAt idx).ordinal) =
      (List.range (kids extraction plan.nodes up).length).map Int.ofNat := by
    apply List.ext_getElem?
    intro place
    rw [List.getElem?_map, List.getElem?_map]
    by_cases isPlace : place < (kids extraction plan.nodes up).length
    · have isKid := List.getElem?_eq_getElem isPlace
      obtain ⟨node, isNode, isOrdinal⟩ := isPlan.ordinals isKid
      rw [isKid, List.getElem?_range isPlace, Option.map_some, Option.map_some,
        (bound.isRow isNode).ordinal, isOrdinal]
      rfl
    · rw [List.getElem?_eq_none (not_lt.mp isPlace),
        List.getElem?_eq_none (by simpa using isPlace)]
      rfl
  rw [isChildren, List.map_map, List.length_map, listed.length_eq, ← numbered]
  exact listed.map _

/-! ### Leaves and spans -/

include bound in
theorem organizing_iff (shape : Shape fns params bookRootType extraction plan.nodes)
    (rootKind : bookRootType.isOrganizing = true) {idx : Nat} (inside : idx < plan.nodes.length) :
    (rowAt idx).nodeType.isOrganizing = true ↔ idx < firstLeaf extraction := by
  have isNode := List.getElem?_eq_getElem inside
  rw [(bound.isRow isNode).nodeType]
  exact shape.organizing_iff rootKind isNode

include bound in
/-- The organizing rows are the root's and the entries', the others the survivors'. -/
theorem filter_rows (shape : Shape fns params bookRootType extraction plan.nodes)
    (rootKind : bookRootType.isOrganizing = true) :
    rows.filter (·.nodeType.isOrganizing) = (List.range (firstLeaf extraction)).map rowAt ∧
    rows.filter (! ·.nodeType.isOrganizing) =
      (List.range' (firstLeaf extraction) (survivors fns extraction).length).map rowAt := by
  have split : List.range plan.nodes.length = List.range (firstLeaf extraction) ++
      List.range' (firstLeaf extraction) (survivors fns extraction).length := by
    rw [shape.size, List.range_eq_range', List.range_eq_range', ← List.range'_append_1,
      Nat.zero_add]
  have size := shape.size
  have orgs : ∀ row ∈ (List.range (firstLeaf extraction)).map rowAt,
      row.nodeType.isOrganizing = true := by
    intro row member
    obtain ⟨idx, isOrg, rfl⟩ := List.mem_map.mp member
    rw [List.mem_range] at isOrg
    exact (bound.organizing_iff shape rootKind (by omega)).mpr isOrg
  have leaves : ∀ row ∈ (List.range' (firstLeaf extraction)
      (survivors fns extraction).length).map rowAt, ¬row.nodeType.isOrganizing = true := by
    intro row member
    obtain ⟨idx, isLeaf, rfl⟩ := List.mem_map.mp member
    rw [List.mem_range'_1] at isLeaf
    exact mt (bound.organizing_iff shape rootKind (by omega)).mp (by omega)
  rw [bound.all, split, List.map_append, List.filter_append, List.filter_append]
  constructor
  · rw [List.filter_eq_self.mpr orgs, List.filter_eq_nil_iff.mpr leaves, List.append_nil]
  · rw [List.filter_eq_nil_iff.mpr (fun row member => by simp [orgs row member]),
      List.filter_eq_self.mpr (fun row member => by simpa using leaves row member),
      List.nil_append]

include isPlan bound in
theorem leaf_columns {position : Nat} {survivor : Block × Nat}
    (isLeaf : (survivors fns extraction)[position]? = some survivor) :
    leafColumns (rowAt (firstLeaf extraction + position)) = blockColumns (survivor, position) := by
  obtain ⟨ordinal, isNode⟩ := isPlan.shape.leaf isLeaf
  have isRow := bound.isRow isNode
  have isLeafKind : (leafType survivor.1.kind).isOrganizing = false := by
    cases survivor.1.kind <;> rfl
  have doc := isPlan.shape.spansOf_leaf (·.docOrder) isNode
    (Nat.le_add_right _ _) rfl
  have page := isPlan.shape.spansOf_leaf (·.leafPage) isNode (Nat.le_add_right _ _) rfl
  rw [leafColumns, isRow.nodeType, isRow.text, isRow.docSpan.1, isRow.docSpan.2, isRow.pageSpan.1,
    isRow.pageSpan.2, isPlan.docSpan, isPlan.pageSpan, doc, page,
    if_neg (by show ¬(leafType survivor.1.kind).isOrganizing = true; simp [isLeafKind])]
  rfl

include isPlan bound in
theorem leaves (rootKind : bookRootType.isOrganizing = true) :
    (rows.filter (! ·.nodeType.isOrganizing)).map leafColumns =
      (survivors fns extraction).zipIdx.map blockColumns := by
  rw [(bound.filter_rows isPlan.shape rootKind).2, List.map_map]
  apply List.ext_getElem?
  intro position
  rw [List.getElem?_map, List.getElem?_map, List.getElem?_zipIdx]
  by_cases isPosition : position < (survivors fns extraction).length
  · have isLeaf := List.getElem?_eq_getElem isPosition
    rw [List.getElem?_range' isPosition, isLeaf, Option.map_some, Option.map_some, Option.map_some,
      Nat.one_mul, Nat.zero_add, Function.comp_apply, bound.leaf_columns isPlan isLeaf]
  · rw [List.getElem?_eq_none (by simpa using isPosition),
      List.getElem?_eq_none (not_lt.mp isPosition)]
    rfl

include isPlan bound in
/-- The positions of the leaves under a row are those below its plan index. -/
theorem leafPositions_eq (rootKind : bookRootType.isOrganizing = true)
    (distinct : DistinctIds plan bookRootId ids)
    {position : PlannedNode → Option Int} {column : NewNode → Option Int}
    (orgs : ∀ {idx : Nat} {node : PlannedNode}, plan.nodes[idx]? = some node →
      idx < firstLeaf extraction → position node = none)
    (leaves : ∀ {idx : Nat} {node : PlannedNode}, plan.nodes[idx]? = some node →
      firstLeaf extraction ≤ idx → column (rowAt idx) = position node)
    {up : Nat} (inside : up < plan.nodes.length) :
    leafPositions rows column (rowAt up) =
      {p | ∃ idx, Below (parentOf plan.nodes) idx up ∧ plan.nodes[idx]?.bind position = some p}
  := by
  have kind : ∀ {idx}, idx < plan.nodes.length →
      ((rowAt idx).nodeType.isOrganizing = false ↔ firstLeaf extraction ≤ idx) := by
    intro idx isIdx
    rw [← Bool.not_eq_true, bound.organizing_iff isPlan.shape rootKind isIdx, not_lt]
  ext p
  rw [leafPositions, Set.mem_ofPred_eq, Set.mem_ofPred_eq]
  constructor
  · rintro ⟨leaf, member, isLeaf, descends, isPosition⟩
    obtain ⟨idx, isIdx, rfl⟩ := bound.mem_iff.mp member
    have isNode := List.getElem?_eq_getElem isIdx
    refine ⟨idx, ((bound.forest isPlan distinct).descendant_iff isIdx inside).mp descends, ?_⟩
    rw [isNode, Option.bind_some, ← leaves isNode ((kind isIdx).mp isLeaf)]
    exact isPosition
  · rintro ⟨idx, below, isPosition⟩
    obtain ⟨node, isNode, isPosition⟩ := Option.bind_eq_some_iff.mp isPosition
    have isIdx := (List.getElem?_eq_some_iff.mp isNode).1
    have isLeaf : firstLeaf extraction ≤ idx := by
      by_contra isOrg
      rw [orgs isNode (not_le.mp isOrg)] at isPosition
      cases isPosition
    refine ⟨rowAt idx, bound.mem_iff.mpr ⟨idx, isIdx, rfl⟩, (kind isIdx).mpr isLeaf,
      ((bound.forest isPlan distinct).descendant_iff isIdx inside).mpr below, ?_⟩
    rw [leaves isNode isLeaf]
    exact isPosition

include isPlan bound in
/-- Where the columns hold a span vector, they hold the hull of the leaves' positions. -/
theorem spanColumns (rootKind : bookRootType.isOrganizing = true)
    (distinct : DistinctIds plan bookRootId ids)
    {position : PlannedNode → Option Int} (lo hi : NewNode → Option Int)
    (orgs : ∀ {idx : Nat} {node : PlannedNode}, plan.nodes[idx]? = some node →
      idx < firstLeaf extraction → position node = none)
    (columns : ∀ {idx : Nat} {node : PlannedNode}, plan.nodes[idx]? = some node →
      lo (rowAt idx) = ((spansOf position plan.nodes).getD idx none).map Prod.fst ∧
        hi (rowAt idx) = ((spansOf position plan.nodes).getD idx none).map Prod.snd)
    (placed : ∀ {idx : Nat} {node : PlannedNode}, plan.nodes[idx]? = some node →
      firstLeaf extraction ≤ idx → ∃ p, position node = some p)
    {up : Nat} (inside : up < plan.nodes.length) :
    SpanColumns (leafPositions rows lo (rowAt up)) (lo (rowAt up)) (hi (rowAt up)) := by
  refine ⟨_, ?_, columns (List.getElem?_eq_getElem inside)⟩
  rw [bound.leafPositions_eq isPlan rootKind distinct orgs ?_ inside]
  · exact isPlan.shape.spansOf_spec position inside
  · intro idx node isNode isLeaf
    obtain ⟨p, isPosition⟩ := placed isNode isLeaf
    rw [(columns isNode).1, isPlan.shape.spansOf_leaf _ isNode isLeaf isPosition, isPosition]
    rfl

/-- **Bound rows are an insertable tree.** -/
theorem insertable (isPlan : IsPlan fns params bookRootType extraction plan)
    (bound : BoundRows plan bookRootId ids rows rowAt) (rootKind : bookRootType.isOrganizing = true)
    (distinct : DistinctIds plan bookRootId ids)
    (partition : ∀ id ∈ ids, id.partition = bookRootId.partition) :
    InsertableTree fns extraction rows := by
  refine ⟨?_, ⟨_, bound.oneRoot isPlan distinct⟩, fun _ _ _ => bound.parents isPlan, ?_,
    bound.leaves isPlan rootKind, ?_, ?_⟩
  · intro row member
    obtain ⟨idx, inside, rfl⟩ := bound.mem_iff.mp member
    exact (NewNode.validate_ok_iff _).mpr (bound.wellFormed isPlan rootKind partition inside)
  · intro row member
    obtain ⟨idx, inside, rfl⟩ := bound.mem_iff.mp member
    exact bound.ordinals isPlan distinct inside
  · intro row member _
    obtain ⟨idx, inside, rfl⟩ := bound.mem_iff.mp member
    refine bound.spanColumns isPlan rootKind distinct NewNode.tocLo NewNode.tocHi
      (fun isNode isOrg => (isPlan.shape.org_positionless isNode isOrg).1)
      (fun isNode => isPlan.docSpan ▸ (bound.isRow isNode).docSpan) ?_ inside
    intro leaf node isNode isLeaf
    obtain ⟨position, _, _, _, _, rfl⟩ := isPlan.shape.leaf_of_le isNode isLeaf
    exact ⟨position, rfl⟩
  · intro row member _
    obtain ⟨idx, inside, rfl⟩ := bound.mem_iff.mp member
    refine bound.spanColumns isPlan rootKind distinct NewNode.pageIndexStart
      NewNode.pageIndexEnd (fun isNode isOrg => (isPlan.shape.org_positionless isNode isOrg).2.1)
      (fun isNode => isPlan.pageSpan ▸ (bound.isRow isNode).pageSpan) ?_ inside
    intro leaf node isNode isLeaf
    obtain ⟨_, survivor, _, _, _, rfl⟩ := isPlan.shape.leaf_of_le isNode isLeaf
    exact ⟨survivor.1.sourceUnit, rfl⟩

end BoundRows

/-- **A plan binds to an insertable tree exactly when its node count fits `u32`.** -/
theorem insertable_iff_count_fits
    (planned : planTree fns bookRootType extraction params = .ok plan)
    (rootKind : bookRootType.isOrganizing = true) (distinct : (bookRootId :: ids).Nodup)
    (partition : ∀ id ∈ ids, id.partition = bookRootId.partition)
    (count : ids.length = plan.childCount) :
    (∃ rows, plan.intoNewNodes bookRootId ids = some rows ∧ InsertableTree fns extraction rows) ↔
      extraction.toc.length + (survivors fns extraction).length < 2 ^ 32 := by
  have isPlan := planTree_isPlan planned
  rw [← isPlan.childCount_enough count, ← intoNewNodes_isSome_iff bookRootId isPlan]
  constructor
  · rintro ⟨rows, emitted, -⟩
    exact ⟨rows, emitted⟩
  · rintro ⟨rows, emitted⟩
    obtain ⟨rowAt, bound⟩ := intoNewNodes_rows isPlan emitted
    have enough := (intoNewNodes_isSome_iff _ isPlan).mp ⟨rows, emitted⟩
    exact ⟨rows, emitted, bound.insertable isPlan rootKind (distinctIds_of_nodup distinct enough)
      partition⟩

end Insertable

/-! ### A book of body blocks -/

/-- Text functions that keep the text and hash to nothing. -/
def plainFns : TextFns where
  normalize := id
  sha256 := fun _ => []

/-- A book of `count` body blocks and no table of contents. -/
def bodyBook (count : Nat) : Extraction where
  blocks := List.replicate count { kind := .body, text := "a", sourceUnit := 0 }
  toc := []
  title := none

theorem survivors_bodyBook (count : Nat) :
    (survivors plainFns (bodyBook count)).length = count := by
  have all : survivors plainFns (bodyBook count) = (bodyBook count).blocks.zipIdx := by
    rw [survivors, List.filter_eq_self]
    rintro ⟨block, i⟩ member
    have isBlock := List.mem_of_getElem? (List.mem_zipIdx_iff_getElem?.mp member)
    rw [List.eq_of_mem_replicate isBlock]
    rfl
  rw [all, List.length_zipIdx]
  exact List.length_replicate

theorem planTree_bodyBook {count : Nat} (isBook : 0 < count) :
    ∃ plan, planTree plainFns .work (bodyBook count) ⟨16⟩ = .ok plan := by
  rw [planTree_ok_iff]
  refine ⟨({ kind := .body, text := "a", sourceUnit := 0 }, 0), ?_, rfl⟩
  rw [mem_survivors]
  refine ⟨?_, rfl⟩
  rw [bodyBook, List.getElem?_replicate, if_pos isBook]

theorem childCount_bodyBook {count : Nat} {plan : TreePlan}
    (planned : planTree plainFns .work (bodyBook count) ⟨16⟩ = .ok plan) :
    plan.childCount = count % 2 ^ 32 := by
  rw [TreePlan.childCount, (planTree_isPlan planned).length, survivors_bodyBook]
  exact congrArg (· % 2 ^ 32) (Nat.zero_add count)

/-- Five blocks under a malformed table of contents: the first entry is deep and its heading is
repeated as a block, the anchors go backwards, one is missing and one is past the last block. -/
def malformedBook : Extraction where
  blocks := [{ kind := .heading 1, text := "A", sourceUnit := 0 },
    { kind := .body, text := "a", sourceUnit := 0 }, { kind := .heading 2, text := "b", sourceUnit := 1 },
    { kind := .footnote, text := "c", sourceUnit := 1 }, { kind := .body, text := "d", sourceUnit := 2 }]
  toc := [{ label := "A", depth := 3, startBlock := some 0 }, { label := "B", depth := 0, startBlock := some 3 },
    { label := "B", depth := 0, startBlock := none }, { label := "C", depth := 2, startBlock := some 2 },
    { label := "D", depth := 1, startBlock := some 40 }]
  title := some "T"

/-- The ids the allocator returns for its five entries and four leaves. -/
def malformedIds : List NodeId := (List.range 9).map fun i => ⟨100000002 + i⟩

theorem insertable_iff_count_fits_malformedBook : ∃ plan rows,
    planTree plainFns .work malformedBook ⟨16⟩ = .ok plan ∧
    plan.intoNewNodes ⟨100000001⟩ malformedIds = some rows ∧ rows.length = 10 ∧
    InsertableTree plainFns malformedBook rows := by
  obtain ⟨plan, planned⟩ : ∃ plan, planTree plainFns .work malformedBook ⟨16⟩ = .ok plan := by
    rw [planTree_ok_iff]
    exact ⟨({ kind := .body, text := "a", sourceUnit := 0 }, 1), mem_survivors.mpr ⟨rfl, rfl⟩, rfl⟩
  have isPlan := planTree_isPlan planned
  have survive : (survivors plainFns malformedBook).length = 4 := by decide
  have count : malformedIds.length = plan.childCount := by
    rw [TreePlan.childCount, isPlan.length, survive]
    rfl
  have binds : (∃ rows, plan.intoNewNodes ⟨100000001⟩ malformedIds = some rows ∧
      InsertableTree plainFns malformedBook rows) ↔ _ :=
    insertable_iff_count_fits planned rfl (by decide) (by decide) count
  obtain ⟨rows, emitted, insertable⟩ := binds.mpr (by rw [survive]; decide)
  refine ⟨plan, rows, planned, emitted, ?_, insertable⟩
  obtain ⟨rowAt, bound⟩ := intoNewNodes_rows isPlan emitted
  have size : plan.nodes.length - 1 = 9 := by
    rw [isPlan.length, survive]
    rfl
  rw [bound.all, List.length_map, List.length_range]
  omega

/-- **2 ^ 32 blocks: the allocator is asked for no id at all, and binding the plan panics.** -/
theorem overflowing_book_panics : ∃ plan,
    planTree plainFns .work (bodyBook (2 ^ 32)) ⟨16⟩ = .ok plan ∧
    plan.childCount = ([] : List NodeId).length ∧ plan.intoNewNodes ⟨100000001⟩ [] = none ∧
    ¬∃ rows, plan.intoNewNodes ⟨100000001⟩ [] = some rows ∧
      InsertableTree plainFns (bodyBook (2 ^ 32)) rows := by
  obtain ⟨plan, planned⟩ := planTree_bodyBook (by decide : 0 < 2 ^ 32)
  have isPlan := planTree_isPlan planned
  have panics : plan.intoNewNodes ⟨100000001⟩ [] = none := by
    cases emitted : plan.intoNewNodes ⟨100000001⟩ [] with
    | none => rfl
    | some rows =>
      have enough := (intoNewNodes_isSome_iff _ isPlan).mp ⟨rows, emitted⟩
      rw [isPlan.length, survivors_bodyBook] at enough
      simp at enough
  refine ⟨plan, planned, ?_, panics, ?_⟩
  · rw [childCount_bodyBook planned, Nat.mod_self]
    rfl
  · rintro ⟨rows, emitted, -⟩
    rw [panics] at emitted
    cases emitted

end Bookrack.Structure
