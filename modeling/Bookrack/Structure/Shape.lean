/-
The shape of a planned node list, whatever ordinals its nodes have.

* `Shape fns params bookRootType extraction nodes`: up to ordinals, `nodes` is the list `plan_tree`
  stages. `Shape.root`, `Shape.org`, `Shape.leaf` read it, `Shape.cases` splits an index.
* **`Shape.rooted`**: every parent stands before its children; `Shape.depth_succ`: every depth is
  the parent's plus one.
* `Shape.parentOf_org`, `Shape.parentOf_leaf`: who the parent is, in terms of the TOC.
-/

import Bookrack.Structure.Skeleton

namespace Bookrack.Structure

open Outline Forest

/-- The plan index of the first leaf. -/
def firstLeaf (extraction : Extraction) : Nat := 1 + extraction.toc.length

/-- Up to ordinals, the staged node list. -/
structure Shape (fns : TextFns) (params : StructureParams) (bookRootType : NodeType)
    (extraction : Extraction) (nodes : List PlannedNode) : Prop where
  length : nodes.length = (unnumbered fns params bookRootType extraction).length
  staged : ∀ {idx : Nat} {node : PlannedNode},
    (unnumbered fns params bookRootType extraction)[idx]? = some node →
    ∃ ordinal : Nat, nodes[idx]? = some (node.setOrdinal ordinal)

/-! ### The staged list -/

section Staged

variable (fns : TextFns) (params : StructureParams) (bookRootType : NodeType)
  (extraction : Extraction)

theorem length_organizingNodes :
    (organizingNodes bookRootType extraction).length = firstLeaf extraction := by
  simp [organizingNodes, firstLeaf, Nat.add_comm]

theorem length_plannedLeaves : (plannedLeaves fns params bookRootType extraction).length =
    (survivors fns extraction).length := by
  simp [plannedLeaves]

theorem length_unnumbered : (unnumbered fns params bookRootType extraction).length =
    firstLeaf extraction + (survivors fns extraction).length := by
  rw [unnumbered, List.length_append, length_organizingNodes, length_plannedLeaves]

variable {fns params bookRootType extraction}

theorem unnumbered_org {entry : Nat} {found : TocEntry}
    (isEntry : extraction.toc[entry]? = some found) :
    (unnumbered fns params bookRootType extraction)[orgIndex entry]? =
      some (plannedOrg (orgSkeleton extraction.toc) (found, entry)) := by
  have inside := (List.getElem?_eq_some_iff.mp isEntry).1
  rw [unnumbered, List.getElem?_append_left
    (by rw [length_organizingNodes, firstLeaf, orgIndex]; omega), organizingNodes, orgIndex,
    Nat.add_comm, List.getElem?_cons_succ, List.getElem?_map, List.getElem?_zipIdx, isEntry,
    Nat.zero_add]
  rfl

theorem unnumbered_leaf {position : Nat} {survivor : Block × Nat}
    (isLeaf : (survivors fns extraction)[position]? = some survivor) :
    (unnumbered fns params bookRootType extraction)[firstLeaf extraction + position]? =
      some (plannedLeaf fns params bookRootType extraction (survivor, position)) := by
  rw [unnumbered, List.getElem?_append_right (by rw [length_organizingNodes]; omega),
    length_organizingNodes, Nat.add_sub_cancel_left, plannedLeaves, List.getElem?_map,
    List.getElem?_zipIdx, isLeaf, Nat.zero_add]
  rfl

/-- A survivor is a block of the extraction. -/
theorem survivor_inside {survivor : Block × Nat} (member : survivor ∈ survivors fns extraction) :
    extraction.blocks[survivor.2]? = some survivor.1 :=
  List.mem_zipIdx_iff_getElem?.mp (List.mem_of_mem_filter member)

/-- A block that no heading rule suppresses survives. -/
theorem mem_survivors {block : Block} {i : Nat} : (block, i) ∈ survivors fns extraction ↔
    extraction.blocks[i]? = some block ∧ suppressed fns extraction.toc i block = false := by
  rw [survivors, List.mem_filter, List.mem_zipIdx_iff_getElem?]
  simp

variable (fns extraction) in
/-- Survivors keep the order of the blocks. -/
theorem survivors_ascending : (survivors fns extraction).Pairwise fun one other =>
    one.2 < other.2 := by
  apply List.Pairwise.filter
  rw [List.pairwise_iff_getElem]
  intro i j inside inside' less
  simpa using less

theorem staged_shape : Shape fns params bookRootType extraction
    (unnumbered fns params bookRootType extraction) := by
  refine ⟨rfl, fun {idx node} isNode => ⟨0, ?_⟩⟩
  rw [isNode]
  have zero : node.ordinal = 0 := by
    have member := List.mem_of_getElem? isNode
    rcases List.mem_append.mp member with isOrg | isLeaf
    · rcases List.mem_cons.mp isOrg with rfl | isOrg
      · rfl
      · obtain ⟨_, -, rfl⟩ := List.mem_map.mp isOrg
        rfl
    · obtain ⟨_, -, rfl⟩ := List.mem_map.mp isLeaf
      rfl
  show some node = some { node with ordinal := 0 }
  rw [← zero]

end Staged

/-! ### Who owns a leaf -/

theorem leafParent_owned {extraction : Extraction} {i entry : Nat}
    (inside : i < extraction.blocks.length) (owns : Owns extraction.toc i entry) :
    leafParent extraction i = orgIndex entry := by
  rw [leafParent, (ownerPerBlock_spec extraction inside entry).mpr owns]

theorem leafParent_unowned {extraction : Extraction} {i : Nat}
    (inside : i < extraction.blocks.length) (unowned : ∀ entry, ¬Owns extraction.toc i entry) :
    leafParent extraction i = rootIndex := by
  rw [leafParent]
  cases isOwner : (ownerPerBlock extraction).getD i none with
  | none => rfl
  | some entry =>
    have owns := (ownerPerBlock_spec extraction inside entry).mp isOwner
    exact absurd owns (unowned entry)

theorem leafParent_inside {extraction : Extraction} {i : Nat}
    (inside : i < extraction.blocks.length) : leafParent extraction i < firstLeaf extraction := by
  by_cases owned : ∃ entry, Owns extraction.toc i entry
  · obtain ⟨entry, owns⟩ := owned
    have isEntry := owns.inside
    rw [leafParent_owned inside owns, orgIndex, firstLeaf]
    omega
  · rw [leafParent_unowned inside (not_exists.mp owned), rootIndex, firstLeaf]
    omega

/-- The parent of a leaf is the organizing node of its owner. -/
theorem leafParent_eq_orgIndex {extraction : Extraction} {i entry : Nat}
    (inside : i < extraction.blocks.length) :
    leafParent extraction i = orgIndex entry ↔ Owns extraction.toc i entry := by
  constructor
  · intro isParent
    by_cases owned : ∃ other, Owns extraction.toc i other
    · obtain ⟨other, owns⟩ := owned
      rw [leafParent_owned inside owns, orgIndex, orgIndex] at isParent
      obtain rfl : other = entry := by omega
      exact owns
    · rw [leafParent_unowned inside (not_exists.mp owned), rootIndex, orgIndex] at isParent
      omega
  · exact leafParent_owned inside

/-! ### Reading a shape -/

namespace Shape

variable {fns : TextFns} {params : StructureParams} {bookRootType : NodeType}
  {extraction : Extraction} {nodes : List PlannedNode}

theorem size (shape : Shape fns params bookRootType extraction nodes) :
    nodes.length = firstLeaf extraction + (survivors fns extraction).length := by
  rw [shape.length, length_unnumbered]

theorem root (shape : Shape fns params bookRootType extraction nodes) : ∃ ordinal : Nat,
    nodes[rootIndex]? = some ((PlannedNode.root bookRootType extraction.title).setOrdinal ordinal)
  := shape.staged rfl

theorem org (shape : Shape fns params bookRootType extraction nodes) {entry : Nat}
    {found : TocEntry} (isEntry : extraction.toc[entry]? = some found) : ∃ ordinal : Nat,
    nodes[orgIndex entry]? =
      some ((plannedOrg (orgSkeleton extraction.toc) (found, entry)).setOrdinal ordinal) :=
  shape.staged (unnumbered_org isEntry)

theorem leaf (shape : Shape fns params bookRootType extraction nodes) {position : Nat}
    {survivor : Block × Nat} (isLeaf : (survivors fns extraction)[position]? = some survivor) :
    ∃ ordinal : Nat, nodes[firstLeaf extraction + position]? =
      some ((plannedLeaf fns params bookRootType extraction
        (survivor, position)).setOrdinal ordinal) :=
  shape.staged (unnumbered_leaf isLeaf)

/-- An index is the root's, an entry's or a survivor's. -/
theorem cases (shape : Shape fns params bookRootType extraction nodes) {idx : Nat}
    (inside : idx < nodes.length) : idx = rootIndex ∨
      (∃ entry found, extraction.toc[entry]? = some found ∧ idx = orgIndex entry) ∨
      ∃ position survivor, (survivors fns extraction)[position]? = some survivor ∧
        idx = firstLeaf extraction + position := by
  rw [shape.size] at inside
  by_cases isRoot : idx = 0
  · exact .inl isRoot
  · by_cases isOrg : idx < firstLeaf extraction
    · have isEntry : idx - 1 < extraction.toc.length := by
        unfold firstLeaf at isOrg
        omega
      refine .inr (.inl ⟨idx - 1, _, List.getElem?_eq_getElem isEntry, ?_⟩)
      rw [orgIndex]
      omega
    · have isLeaf : idx - firstLeaf extraction < (survivors fns extraction).length := by omega
      refine .inr (.inr ⟨_, _, List.getElem?_eq_getElem isLeaf, ?_⟩)
      omega

theorem parentOf_root (shape : Shape fns params bookRootType extraction nodes) :
    parentOf nodes rootIndex = none := by
  obtain ⟨_, isRoot⟩ := shape.root
  rw [parentOf, isRoot]
  rfl

theorem parentOf_org (shape : Shape fns params bookRootType extraction nodes) {entry : Nat}
    (inside : entry < extraction.toc.length) :
    (∃ up, Encloses (depthOf extraction.toc) up entry ∧
      parentOf nodes (orgIndex entry) = some (orgIndex up)) ∨
    (Topmost (depthOf extraction.toc) entry ∧
      parentOf nodes (orgIndex entry) = some rootIndex) := by
  obtain ⟨_, isOrg⟩ := shape.org (List.getElem?_eq_getElem inside)
  rw [parentOf, isOrg]
  rcases orgSkeleton_spec extraction.toc inside with ⟨up, encloses, parent, -⟩ | ⟨topmost, parent, -⟩
  · refine .inl ⟨up, encloses, ?_⟩
    show some ((orgSkeleton extraction.toc).parents.getD entry rootIndex) = _
    rw [List.getD_eq_getElem?_getD, parent]
    rfl
  · refine .inr ⟨topmost, ?_⟩
    show some ((orgSkeleton extraction.toc).parents.getD entry rootIndex) = _
    rw [List.getD_eq_getElem?_getD, parent]
    rfl

/-- The organizing node over another is the one of the enclosing entry. -/
theorem parentOf_org_eq (shape : Shape fns params bookRootType extraction nodes) {entry up : Nat}
    (inside : entry < extraction.toc.length) :
    parentOf nodes (orgIndex entry) = some (orgIndex up) ↔
      Encloses (depthOf extraction.toc) up entry := by
  rcases shape.parentOf_org inside with ⟨up', encloses, parent⟩ | ⟨topmost, parent⟩
  · rw [parent, Option.some.injEq, orgIndex, orgIndex, Nat.add_left_cancel_iff]
    exact ⟨fun same => same ▸ encloses, fun encloses' => encloses.unique encloses'⟩
  · rw [parent, Option.some.injEq, rootIndex, orgIndex]
    exact ⟨fun same => by omega,
      fun encloses => absurd (topmost up encloses.1) (not_le.mpr encloses.2.1)⟩

theorem parentOf_leaf (shape : Shape fns params bookRootType extraction nodes) {position : Nat}
    {survivor : Block × Nat} (isLeaf : (survivors fns extraction)[position]? = some survivor) :
    parentOf nodes (firstLeaf extraction + position) =
      some (leafParent extraction survivor.2) := by
  obtain ⟨_, isNode⟩ := shape.leaf isLeaf
  rw [parentOf, isNode]
  rfl

theorem survivor_lt {position : Nat} {survivor : Block × Nat}
    (isLeaf : (survivors fns extraction)[position]? = some survivor) :
    survivor.2 < extraction.blocks.length :=
  (List.getElem?_eq_some_iff.mp (survivor_inside (List.mem_of_getElem? isLeaf))).1

/-- The parent of a node is organizing: the root or an entry's node. -/
theorem parent_inside (shape : Shape fns params bookRootType extraction nodes) {child up : Nat}
    (isUp : parentOf nodes child = some up) : up < firstLeaf extraction := by
  have inside : child < nodes.length := by
    by_contra outside
    rw [parentOf, List.getElem?_eq_none (not_lt.mp outside)] at isUp
    cases isUp
  rcases shape.cases inside with rfl | ⟨entry, found, isEntry, rfl⟩ | ⟨position, survivor, isLeaf, rfl⟩
  · rw [shape.parentOf_root] at isUp
    cases isUp
  · have isEntry' := (List.getElem?_eq_some_iff.mp isEntry).1
    rcases shape.parentOf_org isEntry' with ⟨up', encloses, parent⟩ | ⟨-, parent⟩
    · obtain rfl := Option.some.inj (parent.symm.trans isUp)
      have before := encloses.1
      rw [orgIndex, firstLeaf]
      omega
    · obtain rfl := Option.some.inj (parent.symm.trans isUp)
      rw [rootIndex, firstLeaf]
      omega
  · obtain rfl := Option.some.inj ((shape.parentOf_leaf isLeaf).symm.trans isUp)
    exact leafParent_inside (survivor_lt isLeaf)

/-- **Every parent stands before its children.** -/
theorem rooted (shape : Shape fns params bookRootType extraction nodes) :
    Rooted nodes.length (parentOf nodes) := by
  refine ⟨shape.parentOf_root, fun {child up} isUp => ?_, fun {child} notRoot inside => ?_⟩
  · have inside : child < nodes.length := by
      by_contra outside
      rw [parentOf, List.getElem?_eq_none (not_lt.mp outside)] at isUp
      cases isUp
    refine ⟨?_, inside⟩
    rcases shape.cases inside with rfl | ⟨entry, found, isEntry, rfl⟩ | ⟨position, _, isLeaf, rfl⟩
    · rw [shape.parentOf_root] at isUp
      cases isUp
    · have isEntry' := (List.getElem?_eq_some_iff.mp isEntry).1
      rcases shape.parentOf_org isEntry' with ⟨up', encloses, parent⟩ | ⟨-, parent⟩
      · obtain rfl := Option.some.inj (parent.symm.trans isUp)
        have before := encloses.1
        rw [orgIndex, orgIndex]
        omega
      · obtain rfl := Option.some.inj (parent.symm.trans isUp)
        rw [rootIndex, orgIndex]
        omega
    · have before := shape.parent_inside isUp
      omega
  · rcases shape.cases inside with rfl | ⟨entry, found, isEntry, rfl⟩ | ⟨position, _, isLeaf, rfl⟩
    · exact absurd notRoot (Nat.lt_irrefl 0)
    · rcases shape.parentOf_org (List.getElem?_eq_some_iff.mp isEntry).1 with
        ⟨up, -, parent⟩ | ⟨-, parent⟩
      · exact ⟨_, parent⟩
      · exact ⟨_, parent⟩
    · exact ⟨_, shape.parentOf_leaf isLeaf⟩

/-- The depth of an organizing node is the skeleton's. -/
theorem depth_org (shape : Shape fns params bookRootType extraction nodes) {entry : Nat} {depth : Int}
    (isDepth : (orgSkeleton extraction.toc).depths[entry]? = some depth)
    (inside : entry < extraction.toc.length) :
    ∃ node, nodes[orgIndex entry]? = some node ∧ node.depth = depth := by
  obtain ⟨ordinal, isOrg⟩ := shape.org (List.getElem?_eq_getElem inside)
  refine ⟨_, isOrg, ?_⟩
  show (orgSkeleton extraction.toc).depths.getD entry 1 = depth
  rw [List.getD_eq_getElem?_getD, isDepth]
  rfl

/-- **Every depth is the parent's plus one.** -/
theorem depth_succ (shape : Shape fns params bookRootType extraction nodes) {child up : Nat}
    {node : PlannedNode} (isNode : nodes[child]? = some node) (isUp : node.parent = some up) :
    ∃ above, nodes[up]? = some above ∧ node.depth = above.depth + 1 := by
  have isParent : parentOf nodes child = some up := by rw [parentOf, isNode]; exact isUp
  have inside := (List.getElem?_eq_some_iff.mp isNode).1
  rcases shape.cases inside with rfl | ⟨entry, found, isEntry, rfl⟩ |
    ⟨position, survivor, isLeaf, rfl⟩
  · rw [shape.parentOf_root] at isParent
    cases isParent
  · have isEntry' := (List.getElem?_eq_some_iff.mp isEntry).1
    rcases orgSkeleton_spec extraction.toc isEntry' with
      ⟨up', encloses, -, depth, upDepth, own⟩ | ⟨topmost, -, own⟩
    · rw [(shape.parentOf_org_eq isEntry').mpr encloses] at isParent
      obtain rfl := Option.some.inj isParent
      have upEntry : up' < extraction.toc.length := encloses.1.trans isEntry'
      obtain ⟨above, isAbove, rfl⟩ := shape.depth_org upDepth upEntry
      obtain ⟨node', isNode', ownDepth⟩ := shape.depth_org own isEntry'
      obtain rfl := Option.some.inj (isNode'.symm.trans isNode)
      exact ⟨above, isAbove, ownDepth⟩
    · obtain ⟨node', isNode', ownDepth⟩ := shape.depth_org own isEntry'
      obtain rfl := Option.some.inj (isNode'.symm.trans isNode)
      rcases shape.parentOf_org isEntry' with ⟨above, encloses, -⟩ | ⟨-, parent⟩
      · exact absurd (topmost above encloses.1) (not_le.mpr encloses.2.1)
      · obtain rfl := Option.some.inj (parent.symm.trans isParent)
        obtain ⟨_, isRoot⟩ := shape.root
        exact ⟨_, isRoot, ownDepth⟩
  · obtain ⟨ordinal, isNode'⟩ := shape.leaf isLeaf
    obtain rfl := Option.some.inj (isNode'.symm.trans isNode)
    obtain rfl := Option.some.inj ((shape.parentOf_leaf isLeaf).symm.trans isParent)
    have upInside := leafParent_inside (survivor_lt isLeaf)
    rw [← length_organizingNodes bookRootType extraction] at upInside
    obtain ⟨staged, isUpNode⟩ : ∃ staged, (organizingNodes bookRootType
        extraction)[leafParent extraction survivor.2]? = some staged :=
      ⟨_, List.getElem?_eq_getElem upInside⟩
    have isStaged : (unnumbered fns params bookRootType
        extraction)[leafParent extraction survivor.2]? = some staged := by
      rw [unnumbered, List.getElem?_append_left upInside, isUpNode]
    obtain ⟨_, isAbove⟩ := shape.staged isStaged
    refine ⟨_, isAbove, ?_⟩
    show ((organizingNodes bookRootType extraction)[leafParent extraction survivor.2]?.map
      (·.depth)).getD 0 + 1 = _
    rw [isUpNode]
    rfl

/-- Depth grows on the way down. -/
theorem depth_lt (shape : Shape fns params bookRootType extraction nodes) {lower above : Nat}
    (below : Below (parentOf nodes) lower above) (differ : lower ≠ above) {node up : PlannedNode}
    (isNode : nodes[lower]? = some node) (isUp : nodes[above]? = some up) :
    up.depth < node.depth := by
  induction below using Relation.ReflTransGen.head_induction_on generalizing node with
  | refl => exact absurd rfl differ
  | @head child mid isMid rest ih =>
    obtain ⟨midNode, isMidNode, isSucc⟩ := shape.depth_succ isNode
      (by rw [← isMid, parentOf, isNode]; rfl)
    by_cases same : mid = above
    · rw [same, isUp] at isMidNode
      obtain rfl := Option.some.inj isMidNode
      omega
    · have deeper := ih same isMidNode
      omega

/-! ### What a node holds -/

/-- **The organizing nodes are the root and the entries' nodes.** -/
theorem organizing_iff (shape : Shape fns params bookRootType extraction nodes)
    (rootKind : bookRootType.isOrganizing = true) {idx : Nat} {node : PlannedNode}
    (isNode : nodes[idx]? = some node) :
    node.nodeType.isOrganizing = true ↔ idx < firstLeaf extraction := by
  rcases shape.cases (List.getElem?_eq_some_iff.mp isNode).1 with rfl |
    ⟨entry, found, isEntry, rfl⟩ | ⟨position, survivor, isLeaf, rfl⟩
  · obtain ⟨_, isRoot⟩ := shape.root
    obtain rfl := Option.some.inj (isRoot.symm.trans isNode)
    exact ⟨fun _ => by rw [rootIndex, firstLeaf]; omega, fun _ => rootKind⟩
  · obtain ⟨_, isOrg⟩ := shape.org isEntry
    obtain rfl := Option.some.inj (isOrg.symm.trans isNode)
    have inside := (List.getElem?_eq_some_iff.mp isEntry).1
    refine ⟨fun _ => by rw [orgIndex, firstLeaf]; omega, fun _ => ?_⟩
    show (orgType found.depth).isOrganizing = true
    unfold orgType
    split <;> rfl
  · obtain ⟨_, isLeafNode⟩ := shape.leaf isLeaf
    obtain rfl := Option.some.inj (isLeafNode.symm.trans isNode)
    refine ⟨fun isOrganizing => ?_, fun before => by omega⟩
    have isNot : (leafType survivor.1.kind).isOrganizing = false := by
      cases survivor.1.kind <;> rfl
    exact absurd (isNot.symm.trans isOrganizing) (by decide)

/-- Organizing nodes have no position and no page of their own. -/
theorem org_positionless (shape : Shape fns params bookRootType extraction nodes) {idx : Nat}
    {node : PlannedNode} (isNode : nodes[idx]? = some node) (isOrg : idx < firstLeaf extraction) :
    node.docOrder = none ∧ node.leafPage = none ∧ node.normSha256 = none := by
  rcases shape.cases (List.getElem?_eq_some_iff.mp isNode).1 with rfl |
    ⟨entry, found, isEntry, rfl⟩ | ⟨position, survivor, isLeaf, rfl⟩
  · obtain ⟨_, isRoot⟩ := shape.root
    obtain rfl := Option.some.inj (isRoot.symm.trans isNode)
    exact ⟨rfl, rfl, rfl⟩
  · obtain ⟨_, isOrgNode⟩ := shape.org isEntry
    obtain rfl := Option.some.inj (isOrgNode.symm.trans isNode)
    exact ⟨rfl, rfl, rfl⟩
  · omega

/-- A leaf's index is its position among the survivors, counted from the first leaf. -/
theorem leaf_of_le (shape : Shape fns params bookRootType extraction nodes) {idx : Nat}
    {node : PlannedNode} (isNode : nodes[idx]? = some node) (isLeaf : firstLeaf extraction ≤ idx) :
    ∃ position survivor, (survivors fns extraction)[position]? = some survivor ∧
      idx = firstLeaf extraction + position ∧ ∃ ordinal : Nat,
        node = (plannedLeaf fns params bookRootType extraction
          (survivor, position)).setOrdinal ordinal := by
  have inside := (List.getElem?_eq_some_iff.mp isNode).1
  rw [shape.size] at inside
  have isSurvivor : idx - firstLeaf extraction < (survivors fns extraction).length := by omega
  obtain ⟨ordinal, isLeafNode⟩ := shape.leaf (List.getElem?_eq_getElem isSurvivor)
  rw [Nat.add_sub_cancel' isLeaf] at isLeafNode
  exact ⟨_, _, List.getElem?_eq_getElem isSurvivor, (Nat.add_sub_cancel' isLeaf).symm, ordinal,
    Option.some.inj (isNode.symm.trans isLeafNode)⟩

end Shape

end Bookrack.Structure
