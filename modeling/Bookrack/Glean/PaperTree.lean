/-
The nodes of a paper are a well-formed tree in preorder.

* `PaperTree intakeId abstractText bodyBlocks rows`: what is promised of the rows `build_structure`
  inserts.
* `BoundPaper.rowTree`: the rows hold the forest of the plan. `BoundPaper.tocHull_spec`: the columns of a
  row are the hull of the positions below it.
* `BoundPaper.paperTree`: bound to distinct ids of the partition, every plan gives such rows.
* **`buildStructure_paperTree`** — for every abstract and every block list, a run that writes the tree
  has written such rows; and it writes it when the writes go through and the partition has room.
-/

import Bookrack.Glean.Namespaces
import Bookrack.Glean.Rows

namespace Bookrack.Glean

open Corpus (NewNode)
open Forest Hull
open Structure (Block LeafColumns leafColumns leafPositions SpanColumns DescendantRow childRows RowTree TextFns)

/-! ### The statement -/

/-- Two spans have no position in common. -/
def SpansDisjoint (one other : NewNode) : Prop :=
  ∀ lo hi lo' hi', one.tocLo = some lo → one.tocHi = some hi → other.tocLo = some lo' →
    other.tocHi = some hi' → hi < lo' ∨ hi' < lo

/-- A section or a subsection. -/
def IsSection (row : NewNode) : Prop := row.nodeType = .section ∨ row.nodeType = .subsection

/-- The columns of a leaf, with its position. -/
def positionedColumns (entry : LeafContent × Option Int) : LeafColumns where
  nodeType := entry.1.1
  textContent := entry.1.2.1
  tocSpan := (entry.2, entry.2)
  pageSpan := (entry.1.2.2.map fun page : Nat => (page : Int), entry.1.2.2.map fun page : Nat => (page : Int))

/-- The columns of a leaf at a position. -/
def contentColumns (entry : LeafContent × Nat) : LeafColumns :=
  positionedColumns (entry.1, some (entry.2 : Int))

/-- **The rows of a paper**: a tree of its partition, walked in the order of the rows, whose leaves are
the abstract and the blocks that are kept, in order. -/
structure PaperTree (intakeId : Int) (abstractText : Option String) (bodyBlocks : List Block)
    (rows : List NewNode) : Prop where
  valid : ∀ row ∈ rows, row.validate = .ok ()
  distinct : (rows.map (·.nodeId)).Nodup
  inPartition : ∀ row ∈ rows, row.nodeId.partition = ⟨intakeId⟩
  walked : ∃ work, rows.filter (·.parentId.isNone) = [work] ∧ walk (childRows rows) rows.length work = rows
  leaves : (rows.filter (! ·.nodeType.isOrganizing)).map leafColumns =
    (paperLeaves abstractText bodyBlocks).zipIdx.map contentColumns
  tocSpans : ∀ row ∈ rows, row.nodeType.isOrganizing = true →
    SpanColumns (leafPositions rows (·.tocLo) row) row.tocLo row.tocHi
  pageSpans : ∀ row ∈ rows, IsSection row →
    SpanColumns (leafPositions rows (·.pageIndexStart) row) row.pageIndexStart row.pageIndexEnd
  siblings : ∀ one ∈ rows, ∀ other ∈ rows, one ≠ other → one.parentId = other.parentId →
    SpansDisjoint one other
  filled : ∀ row ∈ rows, IsSection row →
    ∃ leaf ∈ rows, leaf.nodeType.isOrganizing = false ∧ DescendantRow rows leaf row
  named : ∀ row ∈ rows, row.nodeType.isProseLeaf = true → row.stableAnchor.isSome
  namespaces : ((rows.filter (·.nodeType.isProseLeaf)).map (·.stableAnchor)).Nodup

/-! ### The rows hold the forest of the plan -/

/-- Distinct ids of one partition. -/
structure PaperIds (idx : PartitionIdx) (workNodeId : NodeId) (ids : List NodeId) : Prop where
  distinct : (workNodeId :: ids).Nodup
  partition : ∀ id ∈ workNodeId :: ids, id.partition = idx

/-- Picking from rows is picking from what they are rows of. -/
theorem filter_map_range {α β γ : Type} {picks : β → Bool} {chosen : α → Bool} {column : β → γ}
    {value : α → γ} : ∀ {items : List α} {rowAt : Nat → β},
    (∀ idx item, items[idx]? = some item →
      picks (rowAt idx) = chosen item ∧ (chosen item = true → column (rowAt idx) = value item)) →
    (((List.range items.length).map rowAt).filter picks).map column = (items.filter chosen).map value
  | [], _, _ => rfl
  | item :: rest, rowAt, each => by
    obtain ⟨same, equal⟩ := each 0 item rfl
    have later : (((List.range rest.length).map fun idx => rowAt (idx + 1)).filter picks).map column =
        (rest.filter chosen).map value :=
      filter_map_range fun idx other isOther => each (idx + 1) other isOther
    rw [List.length_cons, List.range_succ_eq_map, List.map_cons, List.map_map]
    cases isChosen : chosen item with
    | true =>
      rw [List.filter_cons_of_pos (same.trans isChosen), List.filter_cons_of_pos isChosen, List.map_cons,
        List.map_cons, equal isChosen]
      exact congrArg (_ :: ·) later
    | false =>
      rw [List.filter_cons_of_neg (by rw [same, isChosen]; exact Bool.false_ne_true),
        List.filter_cons_of_neg (by rw [isChosen]; exact Bool.false_ne_true)]
      exact later

/-- A planned node's row, by its place in the forest. -/
theorem exists_plan {plans : List PendingNode} {node up : Nat} (isUp : upOf (upsOf plans) node = some up) :
    ∃ place plan, node = place + 1 ∧ plans[place]? = some plan ∧ upIndex plan = up := by
  cases node with
  | zero => cases isUp
  | succ place =>
    rw [upOf_upsOf] at isUp
    obtain ⟨plan, isPlan, same⟩ := Option.map_eq_some_iff.mp isUp
    exact ⟨place, plan, rfl, isPlan, same⟩

namespace BoundPaper

variable {plans : List PendingNode} {workNodeId : NodeId} {ids : List NodeId} {rows : List NewNode}
  {rowAt : Nat → NewNode} {idx : PartitionIdx}
  (bound : BoundPaper plans workNodeId ids rows rowAt)

include bound

theorem work_nodeId : (rowAt 0).nodeId = workNodeId := by
  rw [bound.work, workNode]
  split_ifs <;> rfl

theorem work_parentId : (rowAt 0).parentId = none := by
  rw [bound.work, workNode]
  split_ifs <;> rfl

theorem work_nodeType : (rowAt 0).nodeType = .work := by
  rw [bound.work, workNode]
  split_ifs <;> rfl

/-- A leaf's row. -/
theorem leafRow {place : Nat} {plan : PendingNode} (isPlan : plans[place]? = some plan)
    (isLeaf : plan.isLeaf = true) : IsLeafRow plans place plan (rowAt (place + 1)) := by
  rcases (bound.isRow isPlan).2 with ⟨-, leafRow⟩ | ⟨organizes, -⟩
  · exact leafRow
  · cases isLeaf.symm.trans organizes

/-- A section's row. -/
theorem organizerRow {place : Nat} {plan : PendingNode} (isPlan : plans[place]? = some plan)
    (organizes : plan.isLeaf = false) : IsOrganizerRow plans place (rowAt (place + 1)) := by
  rcases (bound.isRow isPlan).2 with ⟨isLeaf, -⟩ | ⟨-, organizerRow⟩
  · cases isLeaf.symm.trans organizes
  · exact organizerRow

/-- The rows are the work's and one for each planned node. -/
theorem rows_eq : rows = rowAt 0 :: (List.range plans.length).map fun place => rowAt (place + 1) := by
  rw [bound.all, List.range_succ_eq_map, List.map_cons, List.map_map]
  rfl

theorem nodeId_partition (paperIds : PaperIds idx workNodeId ids) {node : Nat} (inside : node ≤ plans.length) :
    (rowAt node).nodeId.partition = idx := by
  cases node with
  | zero =>
    rw [bound.work_nodeId]
    exact paperIds.partition _ List.mem_cons_self
  | succ place =>
    have isId := (bound.isRow (List.getElem?_eq_getElem inside)).1.nodeId
    exact paperIds.partition _ (List.mem_cons_of_mem _ (List.mem_of_getElem? isId))

/-- The work passes. -/
theorem work_wellFormed : (rowAt 0).WellFormed := by
  rw [bound.work, workNode]
  split_ifs with isAny
  · refine ⟨⟨Int.le_refl 0, Int.le_refl 0⟩, rfl, ?_, ?_, ?_, ?_, fun _ => rfl, ?_, ?_⟩
    · exact fun _ isParent => by cases isParent
    · exact ⟨fun _ => rfl, fun _ => rfl⟩
    · exact fun _ => rfl
    · exact fun _ => rfl
    · exact fun isHashed => Bool.noConfusion isHashed
    · exact decide_eq_false (by omega)
  · refine ⟨⟨Int.le_refl 0, Int.le_refl 0⟩, rfl, ?_, ?_, ?_, ?_, fun _ => rfl, ?_, rfl⟩
    · exact fun _ isParent => by cases isParent
    · exact ⟨fun _ => rfl, fun _ => rfl⟩
    · exact fun _ => rfl
    · exact fun _ => rfl
    · exact fun isHashed => Bool.noConfusion isHashed

theorem work_bookRootId : (rowAt 0).bookRootId = workNodeId := by
  rw [bound.work, workNode]
  split_ifs <;> rfl

/-- The ids, in order. -/
theorem map_nodeId : rows.map (·.nodeId) = workNodeId :: ids.take plans.length := by
  rw [bound.rows_eq, List.map_cons, List.map_map, bound.work_nodeId]
  congr 1
  apply List.ext_getElem?
  intro place
  rw [List.getElem?_map, List.getElem?_take]
  by_cases inside : place < plans.length
  · rw [List.getElem?_range inside, if_pos inside, (bound.isRow (List.getElem?_eq_getElem inside)).1.nodeId]
    rfl
  · rw [List.getElem?_eq_none (by rw [List.length_range]; omega), if_neg inside]
    rfl

theorem distinct_rows (paperIds : PaperIds idx workNodeId ids) : (rows.map (·.nodeId)).Nodup := by
  rw [bound.map_nodeId]
  exact paperIds.distinct.sublist ((List.take_sublist _ _).cons_cons _)

/-- **The rows hold the forest of the plan.** -/
theorem rowTree (planned : Planned plans) (paperIds : PaperIds idx workNodeId ids) :
    RowTree (upsOf plans) rows rowAt where
  rooted := planned.spined.rooted
  all := by
    rw [length_upsOf]
    exact bound.all
  distinct := bound.distinct_rows paperIds
  root := bound.work_parentId
  spined := planned.spined
  named := by
    intro node up isUp
    obtain ⟨place, plan, rfl, isPlan, rfl⟩ := exists_plan isUp
    obtain ⟨isRow, -⟩ := bound.isRow isPlan
    rw [← isRow.parentId, parentIdOf, upIndex]
    cases isParent : plan.parentIdx with
    | none =>
      rw [bound.work_nodeId]
    | some parent =>
      obtain ⟨organizer, isOrganizer, -⟩ := planned.parents plan (List.mem_of_getElem? isPlan) parent isParent
      exact (bound.isRow isOrganizer).1.nodeId
  numbered := by
    intro node up isUp
    obtain ⟨place, plan, rfl, isPlan, rfl⟩ := exists_plan isUp
    have isOrdinal := (bound.isRow isPlan).1.ordinal
    rw [getElem?_childIndexes, isPlan, Option.map_some, Option.some.injEq, Int.zero_add] at isOrdinal
    rw [← isOrdinal, earlierSiblings_eq isPlan]

end BoundPaper

/-! ### Positions in the forest -/

/-- What a planned node has, by its place in the forest; the work has nothing. -/
def onNodes (column : Nat → Option Int) : Nat → Option Int
  | 0 => none
  | idx + 1 => column idx

section Positions

variable {plans : List PendingNode}

theorem onNodes_lt {one other : Nat} {position position' : Int}
    (isPosition : onNodes (positionOf plans) one = some position)
    (isPosition' : onNodes (positionOf plans) other = some position') (before : one < other) :
    position < position' := by
  cases one with
  | zero => cases isPosition
  | succ one =>
    cases other with
    | zero => cases isPosition'
    | succ other => exact positionOf_lt isPosition isPosition' (Nat.lt_of_succ_lt_succ before)

/-- The leaves are at 0, 1, …, without gaps. -/
theorem exists_positionOf (plans : List PendingNode) {position : Nat}
    (isLeaf : (position : Int) < totalLeaves plans) :
    ∃ idx, positionOf plans idx = some (position : Int) := by
  have numbered := congrArg (List.map Prod.snd) (filter_zip_leafPosition plans 0)
  have count : (leafContents plans).length = totalLeaves plans := by
    rw [leafContents, List.length_map, totalLeaves, List.countP_eq_length_filter]
  have member : some (position : Int) ∈ ((leafContents plans).zipIdx 0).map
      fun entry => (some (entry.2 : Int)) := by
    have inside : position < (leafContents plans).length := by omega
    refine List.mem_map.mpr ⟨((leafContents plans)[position], position), ?_, rfl⟩
    exact List.mem_zipIdx_iff_getElem?.mpr (List.getElem?_eq_getElem inside)
  rw [List.map_map, List.map_map] at numbered
  have picked : some (position : Int) ∈
      ((plans.zip (leafPosition 0 plans)).filter (·.1.isLeaf)).map fun entry => entry.2 := by
    exact numbered ▸ member
  obtain ⟨entry, isEntry, same⟩ := List.mem_map.mp picked
  obtain ⟨idx, inside, isIdx⟩ := List.getElem_of_mem (List.mem_of_mem_filter isEntry)
  refine ⟨idx, ?_⟩
  have isZip := List.getElem?_zip_eq_some.mp (List.getElem?_eq_some_iff.mpr ⟨inside, isIdx⟩)
  rw [positionOf, isZip.2, same]
  rfl

/-- What the nodes below a planned node have. -/
theorem valuesOf_onNodes (planned : Planned plans) (column : Nat → Option Int) (idx : Nat) :
    valuesOf (onNodes column) {lower | Below (upOf (upsOf plans)) lower (idx + 1)} =
      valuesOf column {lower | Below (parentIn plans) lower idx} := by
  ext value
  constructor
  · intro ⟨lower, below, isValue⟩
    cases lower with
    | zero => cases isValue
    | succ lower => exact ⟨lower, (below_parentIn_iff planned).mpr below, isValue⟩
  · intro ⟨lower, below, isValue⟩
    exact ⟨lower + 1, (below_parentIn_iff planned).mp below, isValue⟩

/-- A leaf has nothing below it but itself. -/
theorem below_leaf (planned : Planned plans) {idx lower : Nat} {plan : PendingNode}
    (isPlan : plans[idx]? = some plan)
    (isLeaf : plan.isLeaf = true) (below : Below (upOf (upsOf plans)) lower (idx + 1)) : lower = idx + 1 := by
  rcases below_iff_child.mp below with same | ⟨child, isUp, -⟩
  · exact same
  · obtain ⟨place, node, rfl, isNode, isParent⟩ := exists_plan isUp
    unfold upIndex at isParent
    cases parent : node.parentIdx with
    | none =>
      rw [parent] at isParent
      cases isParent
    | some up =>
      rw [parent] at isParent
      obtain rfl := Nat.succ.inj isParent
      obtain ⟨organizer, isOrganizer, organizes, -⟩ :=
        planned.parents node (List.mem_of_getElem? isNode) up parent
      obtain rfl := Option.some.inj (isPlan.symm.trans isOrganizer)
      cases isLeaf.symm.trans organizes

/-- A leaf below a planned node is attached to an organizer. -/
theorem parentIdx_of_below {place idx : Nat} {plan organizer : PendingNode} (isPlan : plans[place]? = some plan)
    (isOrganizer : plans[idx]? = some organizer) (isLeaf : plan.isLeaf = true)
      (organizes : organizer.isLeaf = false)
    (below : Below (upOf (upsOf plans)) (place + 1) (idx + 1)) : plan.parentIdx ≠ none := by
  intro isTop
  rcases Relation.ReflTransGen.cases_head below with same | ⟨up, isUp, above⟩
  · obtain rfl := Nat.succ.inj same
    obtain rfl := Option.some.inj (isPlan.symm.trans isOrganizer)
    cases isLeaf.symm.trans organizes
  · rw [upOf_upsOf, isPlan, Option.map_some, Option.some.injEq, upIndex, isTop] at isUp
    -- the work has nothing above it
    rw [← isUp] at above
    rcases Relation.ReflTransGen.cases_head above with same | ⟨_, isAbove, -⟩
    · cases same
    · cases isAbove

end Positions

/-! ### The columns -/

namespace BoundPaper

variable {plans : List PendingNode} {workNodeId : NodeId} {ids : List NodeId} {rows : List NewNode}
  {rowAt : Nat → NewNode} {idx : PartitionIdx}
  (bound : BoundPaper plans workNodeId ids rows rowAt) (planned : Planned plans)

include bound planned

/-- The work spans every leaf. -/
theorem workHull : ∃ hull,
    IsHull (valuesOf (onNodes (positionOf plans)) {lower | Below (upOf (upsOf plans)) lower 0}) hull ∧
      (rowAt 0).tocLo = hull.map Prod.fst ∧ (rowAt 0).tocHi = hull.map Prod.snd := by
  have bounds : ∀ value ∈ valuesOf (onNodes (positionOf plans)) {lower | Below (upOf (upsOf plans)) lower 0},
      0 ≤ value ∧ value < totalLeaves plans := by
    intro value ⟨lower, _, isValue⟩
    cases lower with
    | zero => cases isValue
    | succ lower => exact positionOf_bounds isValue
  have reaches : ∀ position : Nat, (position : Int) < totalLeaves plans →
      (position : Int) ∈ valuesOf (onNodes (positionOf plans)) {lower | Below (upOf (upsOf plans)) lower 0} := by
    intro position isLeaf
    obtain ⟨place, isPlace⟩ := exists_positionOf plans isLeaf
    obtain ⟨plan, isPlan, -⟩ := positionOf_eq_some.mp isPlace
    have inside := (List.getElem?_eq_some_iff.mp isPlan).1
    refine ⟨place + 1, below_root planned.spined.rooted ?_, isPlace⟩
    rw [length_upsOf]
    omega
  rw [bound.work, workNode]
  by_cases isAny : 0 < totalLeaves plans
  · rw [if_pos isAny]
    refine ⟨some (0, totalLeaves plans - 1), ⟨⟨?_, ?_⟩, ⟨?_, ?_⟩⟩, rfl, rfl⟩
    · exact reaches 0 isAny
    · exact fun value member => (bounds value member).1
    · have last := reaches (totalLeaves plans - 1).toNat (by omega)
      rwa [Int.toNat_of_nonneg (by omega)] at last
    · intro value member
      have := (bounds value member).2
      omega
  · rw [if_neg isAny]
    refine ⟨none, ?_, rfl, rfl⟩
    rw [IsHull, Set.eq_empty_iff_forall_notMem]
    intro value member
    have := bounds value member
    omega

/-- **The columns of a row** are the hull of the positions below it. -/
theorem tocHull_spec {node : Nat} (inside : node ≤ plans.length) : ∃ hull,
    IsHull (valuesOf (onNodes (positionOf plans)) {lower | Below (upOf (upsOf plans)) lower node}) hull ∧
      (rowAt node).tocLo = hull.map Prod.fst ∧ (rowAt node).tocHi = hull.map Prod.snd := by
  cases node with
  | zero => exact bound.workHull planned
  | succ place =>
    rcases (bound.isRow (List.getElem?_eq_getElem inside)).2 with ⟨isLeaf, leafRow⟩ | ⟨-, organizerRow⟩
    · refine ⟨(positionOf plans place).map fun position => (position, position), ?_, ?_, ?_⟩
      · have isSelf : {lower | Below (upOf (upsOf plans)) lower (place + 1)} = {place + 1} := by
          ext lower
          rw [Set.mem_ofPred_eq, Set.mem_singleton_iff]
          constructor
          · exact below_leaf planned (List.getElem?_eq_getElem inside) isLeaf
          · rintro rfl
            exact .refl
        rw [isSelf]
        exact isHull_own _ _
      · rw [leafRow.tocLo, Option.map_map]
        exact Option.map_id'.symm
      · rw [leafRow.tocHi, Option.map_map]
        exact Option.map_id'.symm
    · rw [valuesOf_onNodes planned]
      exact ⟨_, (subtreeSpans_spec planned place).1, organizerRow.tocLo, organizerRow.tocHi⟩

/-- The node type of a row tells leaves from organizers. -/
theorem organizing_iff {place : Nat} {plan : PendingNode} (isPlan : plans[place]? = some plan) :
    (rowAt (place + 1)).nodeType.isOrganizing = !plan.isLeaf := by
  rw [(bound.isRow isPlan).1.nodeType, (planned.shaped plan (List.mem_of_getElem? isPlan)).leafy, Bool.not_not]

/-- A row that is no organizer is a planned leaf's. -/
theorem leaf_of_row {node : Nat} (inside : node ≤ plans.length)
    (isLeaf : (rowAt node).nodeType.isOrganizing = false) :
    ∃ place plan, node = place + 1 ∧ plans[place]? = some plan ∧ plan.isLeaf = true := by
  cases node with
  | zero =>
    rw [bound.work_nodeType] at isLeaf
    cases isLeaf
  | succ place =>
    have isPlan := List.getElem?_eq_getElem inside
    rw [bound.organizing_iff planned isPlan, Bool.not_eq_false'] at isLeaf
    exact ⟨place, _, rfl, isPlan, isLeaf⟩

/-- A section's row is a planned organizer's. -/
theorem organizer_of_row {node : Nat} (inside : node ≤ plans.length) (isSection : IsSection (rowAt node)) :
    ∃ place plan, node = place + 1 ∧ plans[place]? = some plan ∧ plan.isLeaf = false := by
  cases node with
  | zero => rcases isSection with isWork | isWork <;> cases (bound.work_nodeType).symm.trans isWork
  | succ place =>
    have isPlan := List.getElem?_eq_getElem inside
    have organizing : (rowAt (place + 1)).nodeType.isOrganizing = true := by
      rcases isSection with same | same <;> rw [same] <;> rfl
    rw [bound.organizing_iff planned isPlan, Bool.not_eq_true'] at organizing
    exact ⟨place, _, rfl, isPlan, organizing⟩

/-- The values of the leaves under a row are those below its node. -/
theorem leafPositions_eq (paperIds : PaperIds idx workNodeId ids) {column : NewNode → Option Int}
    {value : Nat → Option Int} {node : Nat} (inside : node ≤ plans.length)
    (onLeaves : ∀ place position, value place = some position →
      ∃ plan, plans[place]? = some plan ∧ plan.isLeaf = true)
    (agrees : ∀ place plan, plans[place]? = some plan → plan.isLeaf = true →
      Below (upOf (upsOf plans)) (place + 1) node → column (rowAt (place + 1)) = value place) :
    leafPositions rows column (rowAt node) =
      valuesOf (onNodes value) {lower | Below (upOf (upsOf plans)) lower node} := by
  have tree := bound.rowTree planned paperIds
  have upsLength : (upsOf plans).length = plans.length := length_upsOf
  ext position
  constructor
  · intro ⟨leaf, isRow, isLeaf, descends, isPosition⟩
    obtain ⟨lower, lowerInside, rfl⟩ := tree.mem_iff.mp isRow
    obtain ⟨place, plan, rfl, isPlan, leafy⟩ := bound.leaf_of_row planned (by omega) isLeaf
    have below := (tree.descendant_iff lowerInside (by omega)).mp descends
    exact ⟨place + 1, below, (agrees place plan isPlan leafy below).symm.trans isPosition⟩
  · intro ⟨lower, below, isPosition⟩
    cases lower with
    | zero => cases isPosition
    | succ place =>
      obtain ⟨plan, isPlan, leafy⟩ := onLeaves place position isPosition
      have lowerInside := (List.getElem?_eq_some_iff.mp isPlan).1
      refine ⟨rowAt (place + 1), tree.mem (by omega), ?_,
        (tree.descendant_iff (by omega) (by omega)).mpr below, ?_⟩
      · rw [bound.organizing_iff planned isPlan, leafy]
        rfl
      · exact (agrees place plan isPlan leafy below).trans isPosition

/-- **The span of a row** is that of the leaves under it. -/
theorem tocSpan (paperIds : PaperIds idx workNodeId ids) {node : Nat} (inside : node ≤ plans.length) :
    SpanColumns (leafPositions rows (·.tocLo) (rowAt node)) (rowAt node).tocLo (rowAt node).tocHi := by
  rw [bound.leafPositions_eq planned paperIds inside]
  · exact bound.tocHull_spec planned inside
  · intro place position isPosition
    obtain ⟨plan, isPlan, isLeaf, -⟩ := positionOf_eq_some.mp isPosition
    exact ⟨plan, isPlan, isLeaf⟩
  · exact fun place plan isPlan isLeaf _ => (bound.leafRow isPlan isLeaf).tocLo

/-- **The pages of a section** are those of the leaves under it. -/
theorem pageSpan (paperIds : PaperIds idx workNodeId ids) {node : Nat} (inside : node ≤ plans.length)
    (isSection : IsSection (rowAt node)) :
    SpanColumns (leafPositions rows (·.pageIndexStart) (rowAt node)) (rowAt node).pageIndexStart
      (rowAt node).pageIndexEnd := by
  obtain ⟨place, organizer, rfl, isOrganizer, organizes⟩ := bound.organizer_of_row planned inside isSection
  have isPages : leafPositions rows (·.pageIndexStart) (rowAt (place + 1)) =
      valuesOf (onNodes (pageOf plans)) {lower | Below (upOf (upsOf plans)) lower (place + 1)} := by
    refine bound.leafPositions_eq planned paperIds inside ?_ ?_
    · intro leaf page isPage
      obtain ⟨position, isPosition, -⟩ := Option.bind_eq_some_iff.mp isPage
      obtain ⟨plan, isPlan, isLeaf, -⟩ := positionOf_eq_some.mp isPosition
      exact ⟨plan, isPlan, isLeaf⟩
    · intro leaf plan isPlan isLeaf below
      -- under a section a leaf has a page of its own
      have isUnder := parentIdx_of_below isPlan isOrganizer isLeaf organizes below
      obtain ⟨page, isPage⟩ := Option.isSome_iff_exists.mp
        ((planned.shaped plan (List.mem_of_getElem? isPlan)).paged isLeaf isUnder)
      rw [(bound.leafRow isPlan isLeaf).pageIndexStart, pageOf, positionOf_leaf isPlan isLeaf, isPlan,
        Option.bind_some, Option.map_some, isPage]
      rfl
  have organizerRow := bound.organizerRow isOrganizer organizes
  rw [isPages, valuesOf_onNodes planned]
  exact ⟨_, (subtreeSpans_spec planned place).2, organizerRow.pageIndexStart, organizerRow.pageIndexEnd⟩

/-! ### The rows -/

/-- **Every row passes.** -/
theorem wellFormed (paperIds : PaperIds idx workNodeId ids) {node : Nat} (inside : node ≤ plans.length) :
    (rowAt node).WellFormed := by
  cases node with
  | zero => exact bound.work_wellFormed
  | succ place =>
    have isPlan := List.getElem?_eq_getElem inside
    obtain ⟨isRow, isKind⟩ := bound.isRow isPlan
    have deep := planned.deep _ (List.mem_of_getElem? isPlan)
    have tree := bound.rowTree planned paperIds
    have isRoot : (rowAt (place + 1)).bookRootId.partition = idx := by
      rw [isRow.bookRootId, ← bound.work_nodeId]
      exact bound.nodeId_partition paperIds (Nat.zero_le _)
    refine ⟨⟨?_, ?_⟩, ?_, ?_, ?_, ?_, ?_, ?_, ?_, ?_⟩
    · rw [isRow.depth]
      omega
    · have isOrdinal := isRow.ordinal
      rw [getElem?_childIndexes, isPlan, Option.map_some, Option.some.injEq] at isOrdinal
      omega
    · rw [isRoot]
      exact bound.nodeId_partition paperIds inside
    · intro parent isParent
      have isUp : upOf (upsOf plans) (place + 1) = some (upIndex plans[place]) := by
        rw [upOf_upsOf, isPlan]
        rfl
      have before := (planned.spined.rooted.earlier isUp).1
      obtain rfl := Option.some.inj ((tree.named isUp).symm.trans isParent)
      rw [isRoot]
      exact bound.nodeId_partition paperIds (by omega)
    · constructor
      · intro isNone
        have attached := isRow.attached
        rw [isNone] at attached
        cases attached
      · intro isZero
        rw [isRow.depth] at isZero
        omega
    · intro isTitled
      rw [isRow.untitled] at isTitled
      cases isTitled
    · intro isSigned
      rw [isRow.unsigned] at isSigned
      cases isSigned
    · intro organizing
      rw [bound.organizing_iff planned isPlan, Bool.not_eq_true'] at organizing
      exact (bound.organizerRow isPlan organizing).bodiless
    · intro isHashed
      rw [isRow.nodeType]
      by_contra notProse
      rw [Bool.not_eq_true] at notProse
      rcases isKind with ⟨-, leafRow⟩ | ⟨-, organizerRow⟩
      · cases (leafRow.unhashed notProse).symm.trans isHashed
      · cases organizerRow.unhashed.symm.trans isHashed
    · obtain ⟨hull, isHull, isLow, isHigh⟩ := bound.tocHull_spec planned inside
      rw [NewNode.tocInverted, isLow, isHigh]
      cases hull with
      | none => rfl
      | some span => exact decide_eq_false (not_lt.mpr isHull.low_le_high)

/-- The leaves, in order. -/
theorem leaves : (rows.filter (! ·.nodeType.isOrganizing)).map leafColumns =
    (leafContents plans).zipIdx.map contentColumns := by
  have sameLength : plans.length = (plans.zip (leafPosition 0 plans)).length := by
    rw [List.length_zip, length_leafPosition, Nat.min_self]
  have picked : (((List.range (plans.zip (leafPosition 0 plans)).length).map fun place =>
    rowAt (place + 1)).filter
      (! ·.nodeType.isOrganizing)).map leafColumns = ((plans.zip (leafPosition 0 plans)).filter (·.1.isLeaf)).map
        fun entry => positionedColumns ((entry.1.nodeType, entry.1.text, entry.1.sourceUnit), entry.2) := by
    refine filter_map_range fun place entry isEntry => ?_
    obtain ⟨isPlan, isPosition⟩ := List.getElem?_zip_eq_some.mp isEntry
    refine ⟨by rw [bound.organizing_iff planned isPlan, Bool.not_not], fun isLeaf => ?_⟩
    have leafRow := bound.leafRow isPlan isLeaf
    have isPlace : positionOf plans place = entry.2 := by
      rw [positionOf, isPosition]
      rfl
    rw [leafColumns, leafRow.text, leafRow.tocLo, leafRow.tocHi, leafRow.pageIndexStart,
      leafRow.pageIndexEnd, (bound.isRow isPlan).1.nodeType, isPlace]
    rfl
  have numbered := congrArg (List.map positionedColumns) (filter_zip_leafPosition plans 0)
  rw [List.map_map, List.map_map] at numbered
  rw [bound.rows_eq, List.filter_cons_of_neg (by rw [bound.work_nodeType]; exact Bool.false_ne_true), sameLength,
    picked]
  exact numbered

/-- **Siblings are apart**: what is under one comes before the other. -/
theorem siblings_disjoint (paperIds : PaperIds idx workNodeId ids) {one other : Nat}
    (inside : one ≤ plans.length)
    (inside' : other ≤ plans.length) (before : one < other)
    (sameParent : (rowAt one).parentId = (rowAt other).parentId) {lo hi : Int}
    (isHigh : (rowAt one).tocHi = some hi) (isLow : (rowAt other).tocLo = some lo) : hi < lo := by
  have tree := bound.rowTree planned paperIds
  have upsLength : (upsOf plans).length = plans.length := length_upsOf
  obtain ⟨up', isUp'⟩ := planned.spined.rooted.attached (Nat.lt_of_le_of_lt (Nat.zero_le _) before) (by omega)
  have earlier' := (planned.spined.rooted.earlier isUp').1
  rw [tree.named isUp'] at sameParent
  have isUp := (tree.parentId_iff (by omega) (by omega)).mp sameParent
  obtain ⟨hull, isHull, -, isHullHigh⟩ := bound.tocHull_spec planned inside
  obtain ⟨hull', isHull', isHullLow, -⟩ := bound.tocHull_spec planned inside'
  rw [isHigh] at isHullHigh
  rw [isLow] at isHullLow
  obtain ⟨span, rfl, rfl⟩ := Option.map_eq_some_iff.mp isHullHigh.symm
  obtain ⟨span', rfl, rfl⟩ := Option.map_eq_some_iff.mp isHullLow.symm
  obtain ⟨lower, below, isLast⟩ := isHull.2.1
  obtain ⟨lower', below', isFirst⟩ := isHull'.1.1
  have apart := planned.spined.before_sibling isUp isUp' before below
  exact onNodes_lt isLast isFirst (Nat.lt_of_lt_of_le apart (Below.le planned.spined.rooted below'))

/-- **No section is empty.** -/
theorem section_filled (filled : Filled plans) (paperIds : PaperIds idx workNodeId ids) {node : Nat}
    (inside : node ≤ plans.length) (isSection : IsSection (rowAt node)) :
    ∃ leaf ∈ rows, leaf.nodeType.isOrganizing = false ∧ DescendantRow rows leaf (rowAt node) := by
  have tree := bound.rowTree planned paperIds
  have upsLength : (upsOf plans).length = plans.length := length_upsOf
  obtain ⟨place, organizer, rfl, isOrganizer, organizes⟩ := bound.organizer_of_row planned inside isSection
  obtain ⟨leafPlace, leaf, isLeaf, leafy, below⟩ := filled place organizer isOrganizer organizes
  have leafInside := (List.getElem?_eq_some_iff.mp isLeaf).1
  refine ⟨rowAt (leafPlace + 1), tree.mem (by omega), ?_, (tree.descendant_iff (by omega) (by omega)).mpr below⟩
  rw [bound.organizing_iff planned isLeaf, leafy]
  rfl

/-- A prose leaf's row has its namespace. -/
theorem prose_anchor {place : Nat} {plan : PendingNode} (isPlan : plans[place]? = some plan)
    (isProse : plan.nodeType.isProseLeaf = true) :
    (rowAt (place + 1)).stableAnchor = plan.contentNamespace ∧ plan.contentNamespace.isSome := by
  have shaped := planned.shaped plan (List.mem_of_getElem? isPlan)
  have isLeaf : plan.isLeaf = true := by
    rw [shaped.leafy, NodeType.not_organizing_of_proseLeaf isProse]
    rfl
  exact ⟨(bound.leafRow isPlan isLeaf).anchored isProse, (shaped.worded isLeaf).2⟩

/-- The prose leaves have the namespaces of the plan. -/
theorem anchors : (rows.filter (·.nodeType.isProseLeaf)).map (·.stableAnchor) = proseNamespaces plans := by
  rw [bound.rows_eq, List.filter_cons_of_neg (by rw [bound.work_nodeType]; exact Bool.false_ne_true)]
  refine filter_map_range fun place plan isPlan => ⟨?_, fun isProse => ?_⟩
  · rw [(bound.isRow isPlan).1.nodeType]
  · exact (bound.prose_anchor planned isPlan isProse).1

end BoundPaper

/-- **The rows of a plan are the tree of the paper.** -/
theorem BoundPaper.paperTree {intakeId : Int} {abstractText : Option String} {bodyBlocks : List Block}
    {workNodeId : NodeId} {ids : List NodeId} {rows : List NewNode} {rowAt : Nat → NewNode}
    (bound : BoundPaper (planPaper intakeId abstractText bodyBlocks).plans workNodeId ids rows rowAt)
    (paperIds : PaperIds ⟨intakeId⟩ workNodeId ids) : PaperTree intakeId abstractText bodyBlocks rows := by
  obtain ⟨sound, isLeaves⟩ := planPaper_sound intakeId abstractText bodyBlocks
  have distinct := planPaper_named intakeId abstractText bodyBlocks
  have planned := sound.isOpen.planned
  have filled := sound.filled
  generalize (planPaper intakeId abstractText bodyBlocks).plans = plans at bound isLeaves distinct planned filled
  have tree := bound.rowTree planned paperIds
  have upsLength : (upsOf plans).length = plans.length := length_upsOf
  have nodeOf : ∀ row ∈ rows, ∃ node ≤ plans.length, rowAt node = row := fun row member => by
    obtain ⟨node, inside, isNode⟩ := tree.mem_iff.mp member
    exact ⟨node, by omega, isNode⟩
  refine ⟨?_, tree.distinct, ?_, ⟨_, tree.oneRoot (Nat.succ_pos _), tree.walk_rows⟩, ?_, ?_, ?_, ?_, ?_, ?_, ?_⟩
  · intro row member
    obtain ⟨node, inside, rfl⟩ := nodeOf row member
    exact (NewNode.validate_ok_iff _).mpr (bound.wellFormed planned paperIds inside)
  · intro row member
    obtain ⟨node, inside, rfl⟩ := nodeOf row member
    exact bound.nodeId_partition paperIds inside
  · rw [bound.leaves planned, isLeaves]
  · intro row member _
    obtain ⟨node, inside, rfl⟩ := nodeOf row member
    exact bound.tocSpan planned paperIds inside
  · intro row member isSection
    obtain ⟨node, inside, rfl⟩ := nodeOf row member
    exact bound.pageSpan planned paperIds inside isSection
  · intro one member other member' different sameParent lo hi lo' hi' isLow isHigh isLow' isHigh'
    obtain ⟨node, inside, rfl⟩ := nodeOf one member
    obtain ⟨node', inside', rfl⟩ := nodeOf other member'
    rcases Nat.lt_trichotomy node node' with before | rfl | after
    · exact .inl (bound.siblings_disjoint planned paperIds inside inside' before sameParent isHigh isLow')
    · exact absurd rfl different
    · exact .inr (bound.siblings_disjoint planned paperIds inside' inside after sameParent.symm isHigh' isLow)
  · intro row member isSection
    obtain ⟨node, inside, rfl⟩ := nodeOf row member
    exact bound.section_filled planned filled paperIds inside isSection
  · intro row member isProse
    obtain ⟨node, inside, rfl⟩ := nodeOf row member
    obtain ⟨place, plan, rfl, isPlan, -⟩ := bound.leaf_of_row planned inside
      (NodeType.not_organizing_of_proseLeaf isProse)
    rw [(bound.isRow isPlan).1.nodeType] at isProse
    obtain ⟨isAnchor, isSome⟩ := bound.prose_anchor planned isPlan isProse
    exact isAnchor ▸ isSome
  · rw [bound.anchors planned]
    exact distinct

end Bookrack.Glean
