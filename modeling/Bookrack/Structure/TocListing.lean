/-
The TOC listing of a planned book.

`toc_for_book` rebuilds the depth-first walk of the organizing nodes from `toc_lo`, `depth` and
`ordinal`. Where the anchors are in TOC order the keys ascend along the walk, as long as every key is
there: a node without a leaf below it has a NULL `toc_lo`, which SQLite places before the root's.

* `preorder rows` is the depth-first walk by parent id and ordinal. `BoundRows.preorder_eq`: on a
  planned tree it is the root, then the entries' nodes in TOC order.
* **`listing_iff_entries_filled`**: with anchors in TOC order, the unfiltered listing is the walk
  exactly when every entry, or one nested under it, owns a surviving block.
  `unresolved_chapter_listed_first` is a book without it.
-/

import Bookrack.Corpus.Toc
import Bookrack.Structure.ReadingOrder

namespace Bookrack.Structure

open Corpus Forest Hull Outline

/-! ### The walk over rows -/

/-- A row's children among `rows`, by ordinal. -/
def childRows (rows : List Node) (up : Node) : List Node :=
  (rows.filter (·.parentId = some up.nodeId)).insertionSort fun one other =>
    one.ordinal ≤ other.ordinal

/-- The depth-first walk of the organizing rows. -/
def preorder (rows : List Node) : List Node :=
  let organizing := rows.filter (·.nodeType.isOrganizing)
  (organizing.filter (·.parentId.isNone)).flatMap (walk (childRows organizing) organizing.length)

/-- The anchors along the table of contents do not decrease. -/
def AnchorsInOrder (extraction : Extraction) : Prop :=
  ∀ entry later start start', entry < later → startOf extraction.toc entry = some start →
    startOf extraction.toc later = some start' → start ≤ start'

/-- **The condition**: every entry, or one nested under it, owns a surviving block. -/
def EntriesFilled (fns : TextFns) (extraction : Extraction) : Prop :=
  ∀ entry < extraction.toc.length, ∃ lower < extraction.toc.length,
    Nested extraction.toc lower entry ∧ OwnsSurvivor fns extraction lower

section Listing

variable {fns : TextFns} {params : StructureParams} {bookRootType : NodeType}
  {extraction : Extraction} {plan : TreePlan} {bookRootId : NodeId} {ids : List NodeId}
  {rows : List NewNode} {rowAt : Nat → NewNode}

namespace BoundRows

variable (isPlan : IsPlan fns params bookRootType extraction plan)
  (bound : BoundRows plan bookRootId ids rows rowAt) (distinct : DistinctIds plan bookRootId ids)

include isPlan bound distinct in
/-- The organizing children of a row, by ordinal, are those of its plan index. -/
theorem childRows_eq {up : Nat} (isOrg : up < firstLeaf extraction) :
    childRows ((List.range (firstLeaf extraction)).map rowAt) (rowAt up) =
      (orgsUnder extraction plan.nodes up).map rowAt := by
  have shape := isPlan.shape
  have fits := shape.firstLeaf_le
  have found : ((List.range (firstLeaf extraction)).map rowAt).filter
      (·.parentId = some (rowAt up).nodeId) =
        (orgsUnder extraction plan.nodes up).map rowAt := by
    have isRange : List.range (firstLeaf extraction) =
        rootIndex :: List.range' 1 extraction.toc.length := by
      rw [firstLeaf, Nat.add_comm, List.range_eq_range', List.range'_succ]
      rfl
    have rootless : ¬decide ((rowAt rootIndex).parentId = some (rowAt up).nodeId) = true := by
      rw [decide_eq_true_iff, (bound.forest isPlan distinct).parentId_iff (by rw [rootIndex]; omega)
        (by omega), shape.parentOf_root]
      exact Option.some_ne_none up ∘ Eq.symm
    rw [isRange, List.map_cons,
      List.filter_cons_of_neg (p := fun row : Node => decide (row.parentId = _)) rootless,
      List.filter_map, orgsUnder]
    congr 1
    apply List.filter_congr
    intro idx member
    rw [List.mem_range'_1] at member
    exact decide_eq_decide.mpr ((bound.forest isPlan distinct).parentId_iff
      (by rw [firstLeaf] at fits; omega) (by omega))
  rw [childRows, found]
  apply List.Pairwise.insertionSort_eq
  rw [List.pairwise_map, List.pairwise_iff_getElem]
  intro here there inside inside' before
  -- organizing children follow the leaves in the list the ordinals count
  have isKid : ∀ {place} (isPlace : place < (orgsUnder extraction plan.nodes up).length),
      (rowAt (orgsUnder extraction plan.nodes up)[place]).ordinal =
        ((leavesUnder extraction plan.nodes up).length + place : Nat) := by
    intro place isPlace
    have isKid : (kids extraction plan.nodes up)[(leavesUnder extraction plan.nodes up).length +
        place]? = some (orgsUnder extraction plan.nodes up)[place] := by
      rw [shape.kids_eq, List.getElem?_append_right (Nat.le_add_right _ _),
        Nat.add_sub_cancel_left, List.getElem?_eq_getElem isPlace]
    obtain ⟨node, isNode, isOrdinal⟩ := isPlan.ordinals isKid
    rw [(bound.isRow isNode).ordinal, isOrdinal]
  rw [isKid inside, isKid inside']
  omega

include isPlan bound distinct in
/-- **The walk over the organizing rows is the TOC order.** -/
theorem preorder_eq (rootKind : bookRootType.isOrganizing = true) :
    preorder rows = (List.range (firstLeaf extraction)).map rowAt := by
  have shape := isPlan.shape
  have isRoot : ((List.range (firstLeaf extraction)).map rowAt).filter (·.parentId.isNone) =
      [rowAt rootIndex] := by
    rw [← (bound.filter_rows shape rootKind).1, List.filter_comm, bound.oneRoot isPlan distinct,
      List.filter_cons_of_pos]
    · rfl
    · rw [(bound.isRow isPlan.rootNode).nodeType]
      exact rootKind
  rw [preorder, (bound.filter_rows shape rootKind).1]
  simp only [isRoot, List.flatMap_singleton, List.length_map, List.length_range]
  rw [walk_map shape.orgs_listed (fun up isOrg => bound.childRows_eq isPlan distinct isOrg)
    (by rw [rootIndex, firstLeaf]; omega), shape.walk_orgs le_rfl]

/-! ### The keys -/

end BoundRows

/-- The positions of the leaves below a node. -/
def positionsBelow (nodes : List PlannedNode) (idx : Nat) : Set Int :=
  {p | ∃ lower, Below (parentOf nodes) lower idx ∧ docOrderOf nodes lower = some p}

namespace BoundRows

variable (isPlan : IsPlan fns params bookRootType extraction plan)
  (bound : BoundRows plan bookRootId ids rows rowAt) (distinct : DistinctIds plan bookRootId ids)

include isPlan bound in
/-- `toc_lo` is the least position below the node, NULL when there is none. -/
theorem tocLo_spec {idx : Nat} (inside : idx < plan.nodes.length) :
    ((rowAt idx).tocLo = none ↔ positionsBelow plan.nodes idx = ∅) ∧
      ∀ p, (rowAt idx).tocLo = some p → IsLeast (positionsBelow plan.nodes idx) p := by
  have isHull : IsHull (positionsBelow plan.nodes idx)
      ((spansOf (·.docOrder) plan.nodes).getD idx none) := isPlan.shape.spansOf_spec _ inside
  rw [(bound.isRow (List.getElem?_eq_getElem inside)).docSpan.1, isPlan.docSpan,
    Option.map_eq_none_iff, isHull.eq_none_iff]
  refine ⟨Iff.rfl, fun p isLow => ?_⟩
  obtain ⟨⟨low, high⟩, isSpan, rfl⟩ := Option.map_eq_some_iff.mp isLow
  rw [isSpan] at isHull
  exact isHull.1

end BoundRows

/-! ### Leaves below organizing nodes -/

namespace Shape

variable {nodes : List PlannedNode}

/-- An entry's node has a leaf below it exactly when the entry, or one nested under it, owns a
surviving block. -/
theorem filled_iff (shape : Shape fns params bookRootType extraction nodes) {entry : Nat}
    (isEntry : entry < extraction.toc.length) :
    (positionsBelow nodes (orgIndex entry)).Nonempty ↔ ∃ lower < extraction.toc.length,
      Nested extraction.toc lower entry ∧ OwnsSurvivor fns extraction lower := by
  constructor
  · rintro ⟨p, leaf, below, isOrder⟩
    obtain ⟨inside, isLeaf⟩ := shape.leaf_of_docOrder isOrder
    obtain ⟨position, survivor, isSurvivor, rfl, -⟩ :=
      shape.leaf_of_le (List.getElem?_eq_getElem inside) isLeaf
    have isBlock := survivor_lt isSurvivor
    have upBelow := below.up (by rw [firstLeaf, orgIndex]; omega) (shape.parentOf_leaf isSurvivor)
    by_cases owned : ∃ lower, Owns extraction.toc survivor.2 lower
    · obtain ⟨lower, owns⟩ := owned
      rw [leafParent_owned isBlock owns, shape.below_org_iff owns.inside] at upBelow
      exact ⟨lower, owns.inside, upBelow, survivor, List.mem_of_getElem? isSurvivor, owns⟩
    · rw [leafParent_unowned isBlock (not_exists.mp owned)] at upBelow
      have under := Below.le shape.rooted upBelow
      rw [orgIndex, rootIndex] at under
      omega
  · rintro ⟨lower, isLower, nested, survivor, member, owns⟩
    obtain ⟨position, isSurvivor⟩ := List.getElem?_of_mem member
    obtain ⟨_, isNode⟩ := shape.leaf isSurvivor
    refine ⟨position, _, .head (shape.parentOf_leaf isSurvivor) ?_, by rw [docOrderOf, isNode]; rfl⟩
    rw [leafParent_owned (survivor_lt isSurvivor) owns]
    exact (shape.below_org_iff isLower).mpr nested

theorem positionsBelow_subset {lower above : Nat} (below : Below (parentOf nodes) lower above) :
    positionsBelow nodes lower ⊆ positionsBelow nodes above :=
  fun _ ⟨leaf, under, isOrder⟩ => ⟨leaf, under.trans below, isOrder⟩

/-- With owners in order, what is below an organizing node comes before what is below a later one,
unless that one is below it. -/
theorem positions_lt (shape : Shape fns params bookRootType extraction nodes)
    (inOrder : OwnersInOrder fns extraction) {idx later : Nat} (before : idx < later)
    (isOrg : later < firstLeaf extraction) (apart : ¬Below (parentOf nodes) later idx)
    {p p' : Int} (member : p ∈ positionsBelow nodes idx) (member' : p' ∈ positionsBelow nodes later) :
    p < p' := by
  obtain ⟨leaf, below, isOrder⟩ := member
  obtain ⟨leaf', below', isOrder'⟩ := member'
  obtain ⟨inside, isLeaf⟩ := shape.leaf_of_docOrder isOrder
  obtain ⟨inside', isLeaf'⟩ := shape.leaf_of_docOrder isOrder'
  obtain ⟨up, isUp⟩ := shape.rooted.attached (by rw [firstLeaf] at isLeaf; omega) inside
  obtain ⟨up', isUp'⟩ := shape.rooted.attached (by rw [firstLeaf] at isLeaf'; omega) inside'
  have upBelow := below.up (by omega) isUp
  have after := Below.le shape.rooted (below'.up (by omega) isUp')
  have upOrg := shape.parent_inside isUp
  have upBefore : up < later := by
    by_contra notBefore
    have contiguous := shape.orgs_contiguous ((shape.below_orgParent upOrg).mpr upBelow) before.le
      (not_lt.mp notBefore)
    exact apart ((shape.below_orgParent isOrg).mp contiguous)
  refine (shape.docOrderOf_lt isOrder isOrder').mp (shape.leaves_in_order_iff.mpr inOrder up up'
    (by omega) (shape.parent_inside isUp') leaf ?_ leaf' ?_)
  · exact shape.mem_leavesUnder.mpr ⟨isLeaf, isUp⟩
  · exact shape.mem_leavesUnder.mpr ⟨isLeaf', isUp'⟩

end Shape

namespace BoundRows

variable (isPlan : IsPlan fns params bookRootType extraction plan)
  (bound : BoundRows plan bookRootId ids rows rowAt)

include isPlan in
/-- A plan has leaves, and all are below the root. -/
theorem root_filled (planned : planTree fns bookRootType extraction params = .ok plan) :
    (positionsBelow plan.nodes rootIndex).Nonempty := by
  obtain ⟨survivor, member, -⟩ := planTree_ok_iff.mp ⟨plan, planned⟩
  obtain ⟨position, isSurvivor⟩ := List.getElem?_of_mem member
  obtain ⟨_, isNode⟩ := isPlan.shape.leaf isSurvivor
  exact ⟨position, _,
    below_root isPlan.shape.rooted (List.getElem?_eq_some_iff.mp isNode).1,
    by rw [docOrderOf, isNode]; rfl⟩

include isPlan bound in
/-- **The keys ascend along the walk**, where every organizing node has a leaf below it. -/
theorem ascending (inOrder : OwnersInOrder fns extraction)
    (filled : ∀ idx < firstLeaf extraction, (positionsBelow plan.nodes idx).Nonempty) :
    ((List.range (firstLeaf extraction)).map rowAt).Pairwise
      fun one other => TocLe one other ∧ ¬TocLe other one := by
  have shape := isPlan.shape
  have fits := shape.firstLeaf_le
  have key : ∀ idx < firstLeaf extraction, ∃ p, (rowAt idx).tocLo = some p ∧
      IsLeast (positionsBelow plan.nodes idx) p := by
    intro idx isOrg
    have spec := bound.tocLo_spec isPlan (isOrg.trans_le fits)
    cases isLo : (rowAt idx).tocLo with
    | none => exact absurd (spec.1.mp isLo) (filled idx isOrg).ne_empty
    | some p => exact ⟨p, rfl, spec.2 p isLo⟩
  rw [List.pairwise_map, List.pairwise_iff_getElem]
  simp only [List.length_range, List.getElem_range]
  intro idx later isOrg isOrg' before
  obtain ⟨p, isLo, least⟩ := key idx isOrg
  obtain ⟨p', isLo', least'⟩ := key later isOrg'
  apply tocLe_strict isLo isLo'
  by_cases below : Below (parentOf plan.nodes) later idx
  · have isNode := List.getElem?_eq_getElem (isOrg.trans_le fits)
    have isNode' := List.getElem?_eq_getElem (isOrg'.trans_le fits)
    have deeper := shape.depth_lt below (by omega) isNode' isNode
    have atMost := least.2 (Shape.positionsBelow_subset below least'.1)
    rw [(bound.isRow isNode).depth, (bound.isRow isNode').depth]
    rcases atMost.lt_or_eq with less | same
    · exact .inl less
    · exact .inr ⟨same, deeper⟩
  · exact .inl (shape.positions_lt inOrder before isOrg' below least.1 least'.1)

end BoundRows

/-- **With anchors in TOC order the listing is the walk exactly when every entry is filled.** -/
theorem listing_iff_entries_filled {table written : List Node} {q : TocQuery}
    (planned : planTree fns bookRootType extraction params = .ok plan)
    (rootKind : bookRootType.isOrganizing = true) (anchors : AnchorsInOrder extraction)
    (emitted : plan.intoNewNodes bookRootId ids = some rows)
    (inserted : insertNodes table rows = .ok written)
    (fresh : ∀ row ∈ table, row.bookRootId ≠ bookRootId)
    (unfiltered : q.Unfiltered (extraction.toc.length + 1)) :
    (∀ listing, IsTocForBook written bookRootId q listing → listing = preorder rows) ↔
      EntriesFilled fns extraction := by
  have isPlan := planTree_isPlan planned
  have shape := isPlan.shape
  obtain ⟨rowAt, bound⟩ := intoNewNodes_rows isPlan emitted
  obtain ⟨rfl, noRepeat, -⟩ := insertNodes_ok inserted
  have distinct := bound.distinctIds noRepeat
  have isAll : ((List.range (firstLeaf extraction)).map rowAt).Perm
      ((table ++ rows).filter (q.keeps bookRootId)) := by
    have others : table.filter (q.keeps bookRootId) = [] := by
      rw [List.filter_eq_nil_iff]
      intro row member
      rw [unfiltered.keeps_eq]
      simp [fresh row member]
    have own : rows.filter (q.keeps bookRootId) = rows.filter (·.nodeType.isOrganizing) := by
      apply List.filter_congr
      intro row member
      obtain ⟨idx, inside, rfl⟩ := bound.mem_iff.mp member
      rw [unfiltered.keeps_eq, (bound.isRow (List.getElem?_eq_getElem inside)).bookRootId]
      simp
    rw [List.filter_append, others, own, (bound.filter_rows shape rootKind).1, List.nil_append]
  have fits : ((List.range (firstLeaf extraction)).map rowAt).length ≤
      extraction.toc.length + 1 := by
    rw [List.length_map, List.length_range, firstLeaf]
    omega
  rw [bound.preorder_eq isPlan distinct rootKind]
  constructor
  · intro isWalk entry isEntry
    obtain ⟨ordered, isPerm, sorted, isPage⟩ := isTocForBook_tocForBook (table ++ rows) bookRootId q
    have walked := isWalk _ ⟨ordered, isPerm, sorted, isPage⟩
    rw [isPage, unfiltered.page_eq ((isPerm.trans isAll.symm).length_eq ▸ fits)] at walked
    rw [walked, List.pairwise_map, List.pairwise_iff_getElem] at sorted
    rw [← shape.filled_iff isEntry]
    by_contra empty
    have isOrg : orgIndex entry < firstLeaf extraction := by
      rw [orgIndex, firstLeaf]
      omega
    have inside := isOrg.trans_le shape.firstLeaf_le
    have isNull := (bound.tocLo_spec isPlan inside).1.mpr (Set.not_nonempty_iff_eq_empty.mp empty)
    have rootInside := (List.getElem?_eq_some_iff.mp isPlan.rootNode).1
    have rootBefore := sorted rootIndex (orgIndex entry) (by rw [List.length_range, rootIndex]; omega)
      (by rw [List.length_range]; exact isOrg) (by rw [rootIndex, orgIndex]; omega)
    simp only [List.getElem_range] at rootBefore
    cases isLo : (rowAt rootIndex).tocLo with
    | none =>
      have rootEmpty := (bound.tocLo_spec isPlan rootInside).1.mp isLo
      exact absurd rootEmpty (BoundRows.root_filled isPlan planned).ne_empty
    | some lo => exact not_tocLe_null isLo isNull rootBefore
  · intro entriesFilled listing isListing
    refine unfiltered_listing_eq unfiltered fits isAll (bound.ascending isPlan ?_ ?_) isListing
    · exact fun entry later start start' before _ _ => anchors entry later start start' before
    · intro idx isOrg
      by_cases isRoot : idx = rootIndex
      · rw [isRoot]
        exact BoundRows.root_filled isPlan planned
      · obtain ⟨entry, rfl⟩ : ∃ entry, idx = orgIndex entry :=
          ⟨idx - 1, by rw [orgIndex]; rw [rootIndex] at isRoot; omega⟩
        rw [orgIndex, firstLeaf] at isOrg
        have isEntry : entry < extraction.toc.length := by omega
        exact (shape.filled_iff isEntry).mpr (entriesFilled entry isEntry)

end Listing

/-! ### A chapter that is not resolved -/

/-- The ids the allocator returns for the four nodes below the root of book 1. -/
def bookIds : List NodeId := [⟨100000002⟩, ⟨100000003⟩, ⟨100000004⟩, ⟨100000005⟩]

/-- The whole TOC on one page. -/
def wholeToc : TocQuery where
  cap := 1000
  offset := 0
  maxDepth := none
  titleSubstring := none

theorem wholeToc_unfiltered (first second : Option Nat) :
    wholeToc.Unfiltered ((twoChapters first second).toc.length + 1) :=
  ⟨rfl, rfl, rfl, by show 3 ≤ clampI64 1000; decide⟩

theorem anchors_twoChapters {first second : Option Nat} (inOrder : ∀ start start',
    first = some start → second = some start' → start ≤ start') :
    AnchorsInOrder (twoChapters first second) := by
  intro entry later start start' before isStart isStart'
  have inside : later < 2 := by
    obtain ⟨_, isEntry, -⟩ := Option.bind_eq_some_iff.mp isStart'
    exact (List.getElem?_eq_some_iff.mp isEntry).1
  obtain ⟨rfl, rfl⟩ : entry = 0 ∧ later = 1 := by omega
  exact inOrder start start' isStart isStart'

/-- Both chapters anchored: the listing is the walk. -/
theorem listing_twoChapters : ∃ plan rows written,
    planTree plainFns .work (twoChapters (some 0) (some 1)) ⟨16⟩ = .ok plan ∧
    plan.intoNewNodes ⟨100000001⟩ bookIds = some rows ∧ insertNodes [] rows = .ok written ∧
    ∀ listing, IsTocForBook written ⟨100000001⟩ wholeToc listing → listing = preorder rows := by
  obtain ⟨plan, rows, written, planned, emitted, inserted⟩ : ∃ plan rows written,
      planTree plainFns .work (twoChapters (some 0) (some 1)) ⟨16⟩ = .ok plan ∧
      plan.intoNewNodes ⟨100000001⟩ bookIds = some rows ∧ insertNodes [] rows = .ok written :=
    ⟨_, _, _, rfl, rfl, rfl⟩
  have owns : ∀ {i}, i < 2 → Owns (twoChapters (some 0) (some 1)).toc i i := by
    intro i inside
    apply (ownerPerBlock_spec (twoChapters (some 0) (some 1)) inside i).mp
    rcases (by omega : i = 0 ∨ i = 1) with rfl | rfl <;> decide
  refine ⟨plan, rows, written, planned, emitted, inserted,
    (listing_iff_entries_filled planned rfl ?_ emitted inserted
      (fun _ member => absurd member List.not_mem_nil) (wholeToc_unfiltered _ _)).mpr ?_⟩
  · refine anchors_twoChapters fun start start' isStart isStart' => ?_
    cases isStart
    cases isStart'
    exact Nat.zero_le 1
  · intro entry isEntry
    refine ⟨entry, isEntry, .refl entry, ?_⟩
    rcases (by rw [show (twoChapters (some 0) (some 1)).toc.length = 2 from rfl] at isEntry; omega :
      entry = 0 ∨ entry = 1) with rfl | rfl
    · exact ⟨(⟨.body, "a", 0⟩, 0), mem_survivors.mpr ⟨rfl, rfl⟩, owns isEntry⟩
    · exact ⟨(⟨.body, "b", 0⟩, 1), mem_survivors.mpr ⟨rfl, rfl⟩, owns isEntry⟩

/-- **The second chapter unresolved**: it is listed before the book. -/
theorem unresolved_chapter_listed_first : ∃ plan rows written,
    planTree plainFns .work (twoChapters (some 0) none) ⟨16⟩ = .ok plan ∧
    plan.intoNewNodes ⟨100000001⟩ bookIds = some rows ∧ insertNodes [] rows = .ok written ∧
    AnchorsInOrder (twoChapters (some 0) none) ∧
    (tocForBook written ⟨100000001⟩ wholeToc).map (·.title) = [some "B", none, some "A"] ∧
    (preorder rows).map (·.title) = [none, some "A", some "B"] ∧
    ¬∀ listing, IsTocForBook written ⟨100000001⟩ wholeToc listing → listing = preorder rows := by
  refine ⟨_, _, _, rfl, rfl, rfl, anchors_twoChapters ?_, ?_, ?_, ?_⟩
  · intro start start' _ isStart'
    cases isStart'
  · decide
  · decide
  · intro isWalk
    have same := congrArg (List.map (·.title)) (isWalk _ (isTocForBook_tocForBook _ _ _))
    revert same
    decide

end Bookrack.Structure
