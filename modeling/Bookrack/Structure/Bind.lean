/-
Binding a plan to node ids: the rows `into_new_nodes` emits.

* `IsRow`: the columns of a row, in terms of its planned node and the plan's vectors.
* **`intoNewNodes_isSome_iff`**: the rows are emitted exactly when there is an id for every node but
  the root. `intoNewNodes_rows` reads them.
* **`BoundRows.chain_iff`**: under distinct ids, following parent ids between rows is following
  parent indices in the plan.
-/

import Bookrack.Base.Rows
import Bookrack.Structure.RowForest
import Bookrack.Structure.Tree

namespace Bookrack.Structure

open Corpus Forest Rows

/-- The id of a plan index. -/
def idAt (bookRootId : NodeId) (ids : List NodeId) (idx : Nat) : NodeId :=
  (idOf bookRootId ids idx).getD bookRootId

/-- The row of a planned node. -/
structure IsRow (plan : TreePlan) (bookRootId : NodeId) (ids : List NodeId) (idx : Nat)
    (node : PlannedNode) (row : NewNode) : Prop where
  nodeId : row.nodeId = idAt bookRootId ids idx
  parentId : row.parentId = node.parent.map (idAt bookRootId ids)
  bookRootId : row.bookRootId = bookRootId
  ordinal : row.ordinal = node.ordinal
  depth : row.depth = node.depth
  nodeType : row.nodeType = node.nodeType
  title : row.title = if node.nodeType.isOrganizing then node.title else none
  signature : row.subtreeContentSha256 =
    if node.nodeType.isOrganizing then plan.subtreeSig.getD idx none else none
  text : row.textContent = if node.nodeType.isOrganizing then none else node.text
  bodyText : node.nodeType.isOrganizing = true → row.hasBodyText = false
  contentHash : row.hasContentHash = true →
    node.nodeType.isOrganizing = false ∧ node.normSha256.isSome = true
  docSpan : row.tocLo = (plan.docSpan.getD idx none).map Prod.fst ∧
    row.tocHi = (plan.docSpan.getD idx none).map Prod.snd
  pageSpan : row.pageIndexStart = (plan.pageSpan.getD idx none).map Prod.fst ∧
    row.pageIndexEnd = (plan.pageSpan.getD idx none).map Prod.snd

/-! ### One row -/

theorem idOf_isSome_iff (bookRootId : NodeId) {ids : List NodeId} {idx : Nat} :
    (∃ id, idOf bookRootId ids idx = some id) ↔ idx ≤ ids.length := by
  rw [idOf]
  by_cases isRoot : idx = rootIndex
  · rw [if_pos isRoot]
    exact ⟨fun _ => isRoot ▸ Nat.zero_le _, fun _ => ⟨_, rfl⟩⟩
  · have positive := Nat.pos_of_ne_zero isRoot
    rw [if_neg isRoot]
    constructor
    · rintro ⟨id, isId⟩
      have inside := (List.getElem?_eq_some_iff.mp isId).1
      omega
    · intro inside
      exact ⟨_, List.getElem?_eq_getElem (by omega)⟩

theorem idOf_eq_idAt {bookRootId : NodeId} {ids : List NodeId} {idx : Nat} {id : NodeId}
    (isId : idOf bookRootId ids idx = some id) : id = idAt bookRootId ids idx := by
  rw [idAt, isId]
  rfl

/-- The span columns of a row that has none yet. -/
theorem bindSpans_eq (doc page : Option (Int × Int)) : ∀ nn : NewNode, nn.tocLo = none →
    nn.tocHi = none → nn.pageIndexStart = none → nn.pageIndexEnd = none →
    bindSpans doc page nn = { nn with
      tocLo := doc.map Prod.fst, tocHi := doc.map Prod.snd
      pageIndexStart := page.map Prod.fst, pageIndexEnd := page.map Prod.snd } := by
  rintro ⟨⟩ rfl rfl rfl rfl
  cases doc <;> cases page <;> rfl

section Group

variable {node : PlannedNode} {id bookRootId : NodeId} {parentId : Option NodeId}
  {ordinal depth : Int}

/-- An organizing node takes its title and its signature. -/
theorem bindGroup_organizing (isOrganizing : node.nodeType.isOrganizing = true)
    (sig : Option String) :
    bindGroup node sig (.bare id parentId bookRootId ordinal depth node.nodeType) =
      { NewNode.bare id parentId bookRootId ordinal depth node.nodeType with
        title := node.title, subtreeContentSha256 := sig } := by
  rw [bindGroup, if_pos isOrganizing]
  cases node.title <;> cases sig <;> rfl

variable (id bookRootId parentId ordinal depth) in
/-- A leaf takes its text, its statistics and, when it has all three, its hashes. -/
theorem bindGroup_leaf (isLeaf : node.nodeType.isOrganizing = false) (sig : Option String) :
    ∃ anchor raw norm,
      bindGroup node sig (.bare id parentId bookRootId ordinal depth node.nodeType) =
        { NewNode.bare id parentId bookRootId ordinal depth node.nodeType with
          textContent := node.text
          charCount := some (node.charCount.getD 0)
          sentenceCount := some (node.sentenceCount.getD 0)
          stableAnchor := anchor, textSha256 := raw, normTextSha256 := norm } ∧
      ((anchor.isSome || raw.isSome || norm.isSome) = true → node.normSha256.isSome = true) := by
  rw [bindGroup, if_neg (by simp [isLeaf])]
  cases node.text <;> cases node.stableAnchor <;> cases node.textSha256 <;>
    cases node.normSha256 <;> exact ⟨_, _, _, rfl, by simp [NewNode.bare, NewNode.withText]⟩

end Group

/-- The columns of a bound node. -/
theorem isRow_bind {plan : TreePlan} {bookRootId : NodeId} {ids : List NodeId} {idx : Nat}
    {node : PlannedNode} {id : NodeId} {parentId : Option NodeId} {ordinal depth : Int}
    (isId : id = idAt bookRootId ids idx)
    (isParent : parentId = node.parent.map (idAt bookRootId ids))
    (isOrdinal : ordinal = node.ordinal) (isDepth : depth = node.depth) :
    IsRow plan bookRootId ids idx node (bindSpans (plan.docSpan.getD idx none)
      (plan.pageSpan.getD idx none) (bindGroup node (plan.subtreeSig.getD idx none)
        (.bare id parentId bookRootId ordinal depth node.nodeType))) := by
  by_cases isOrganizing : node.nodeType.isOrganizing = true
  · rw [bindGroup_organizing isOrganizing, bindSpans_eq _ _ _ rfl rfl rfl rfl]
    exact ⟨isId, isParent, rfl, isOrdinal, isDepth, rfl, (if_pos isOrganizing).symm,
      (if_pos isOrganizing).symm, (if_pos isOrganizing).symm, fun _ => rfl,
      fun hashed => absurd hashed (by simp [NewNode.hasContentHash, NewNode.bare]),
      ⟨rfl, rfl⟩, ⟨rfl, rfl⟩⟩
  · have isLeaf : node.nodeType.isOrganizing = false := by simpa using isOrganizing
    obtain ⟨anchor, raw, norm, isGroup, hashed⟩ := bindGroup_leaf id bookRootId parentId
      ordinal depth isLeaf (plan.subtreeSig.getD idx none)
    rw [isGroup, bindSpans_eq _ _ _ rfl rfl rfl rfl]
    exact ⟨isId, isParent, rfl, isOrdinal, isDepth, rfl, (if_neg isOrganizing).symm,
      (if_neg isOrganizing).symm, (if_neg isOrganizing).symm,
      fun other => absurd other isOrganizing, fun isHashed => ⟨isLeaf, hashed isHashed⟩,
      ⟨rfl, rfl⟩, ⟨rfl, rfl⟩⟩

/-! ### All rows -/

section Bind

variable {fns : TextFns} {params : StructureParams} {bookRootType : NodeType}
  {extraction : Extraction} {plan : TreePlan} {bookRootId : NodeId} {ids : List NodeId}

/-- The turn for a node with a parent. -/
theorem bindNode_child {idx up : Nat} {node : PlannedNode} (isUp : node.parent = some up) :
    plan.bindNode bookRootId ids (node, idx) =
      (idOf bookRootId ids idx).bind fun id => (idOf bookRootId ids up).map fun parentId =>
        bindSpans (plan.docSpan.getD idx none) (plan.pageSpan.getD idx none)
          (bindGroup node (plan.subtreeSig.getD idx none)
            (.child id parentId bookRootId node.ordinal node.depth node.nodeType)) := by
  simp only [TreePlan.bindNode, isUp]
  cases idOf bookRootId ids idx with
  | none => rfl
  | some id => cases idOf bookRootId ids up <;> rfl

/-- The turn for the root. -/
theorem bindNode_root {idx : Nat} {node : PlannedNode} (isUp : node.parent = none) :
    plan.bindNode bookRootId ids (node, idx) =
      some (bindSpans (plan.docSpan.getD idx none) (plan.pageSpan.getD idx none)
        (bindGroup node (plan.subtreeSig.getD idx none) (.root bookRootId node.nodeType))) := by
  simp only [TreePlan.bindNode, isUp]
  rfl

/-- Only the root has no parent. -/
theorem IsPlan.root_of_parentless (isPlan : IsPlan fns params bookRootType extraction plan)
    {idx : Nat} {node : PlannedNode} (isNode : plan.nodes[idx]? = some node)
    (isUp : node.parent = none) : idx = rootIndex := by
  by_contra notRoot
  obtain ⟨up, isUp'⟩ := isPlan.shape.rooted.attached (Nat.pos_of_ne_zero notRoot)
    (List.getElem?_eq_some_iff.mp isNode).1
  rw [parentOf, isNode, Option.bind_some, isUp] at isUp'
  cases isUp'

/-- A node is bound exactly when its id is there. -/
theorem bindNode_isSome_iff (isPlan : IsPlan fns params bookRootType extraction plan) {idx : Nat}
    {node : PlannedNode} (isNode : plan.nodes[idx]? = some node) :
    (∃ row, plan.bindNode bookRootId ids (node, idx) = some row) ↔ idx ≤ ids.length := by
  cases isUp : node.parent with
  | none =>
    rw [bindNode_root isUp, isPlan.root_of_parentless isNode isUp]
    exact ⟨fun _ => Nat.zero_le _, fun _ => ⟨_, rfl⟩⟩
  | some up =>
    have isParent : parentOf plan.nodes idx = some up := by rw [parentOf, isNode]; exact isUp
    have before := (isPlan.shape.rooted.earlier isParent).1
    rw [bindNode_child isUp]
    constructor
    · rintro ⟨row, isRow⟩
      obtain ⟨id, isId, -⟩ := Option.bind_eq_some_iff.mp isRow
      exact (idOf_isSome_iff bookRootId).mp ⟨id, isId⟩
    · intro enough
      obtain ⟨id, isId⟩ := (idOf_isSome_iff bookRootId).mpr enough
      obtain ⟨id', isId'⟩ := (idOf_isSome_iff bookRootId).mpr (before.le.trans enough)
      rw [isId, isId']
      exact ⟨_, rfl⟩

theorem bindNode_isRow (isPlan : IsPlan fns params bookRootType extraction plan) {idx : Nat}
    {node : PlannedNode} (isNode : plan.nodes[idx]? = some node) {row : NewNode}
    (bound : plan.bindNode bookRootId ids (node, idx) = some row) :
    IsRow plan bookRootId ids idx node row := by
  cases isUp : node.parent with
  | none =>
    have isRoot := isPlan.root_of_parentless isNode isUp
    have isRootNode := isPlan.rootNode
    rw [← isRoot, isNode] at isRootNode
    obtain rfl := Option.some.inj isRootNode
    rw [bindNode_root isUp] at bound
    obtain rfl := Option.some.inj bound
    exact isRow_bind (by rw [isRoot]; rfl) rfl rfl rfl
  | some up =>
    rw [bindNode_child isUp] at bound
    obtain ⟨id, isId, bound⟩ := Option.bind_eq_some_iff.mp bound
    obtain ⟨parentId, isParentId, rfl⟩ := Option.map_eq_some_iff.mp bound
    refine isRow_bind (idOf_eq_idAt isId) ?_ rfl rfl
    rw [isUp, idOf_eq_idAt isParentId]
    rfl

variable (bookRootId) in
/-- **Rows are emitted exactly when every node but the root has an id.** -/
theorem intoNewNodes_isSome_iff (isPlan : IsPlan fns params bookRootType extraction plan) :
    (∃ rows, plan.intoNewNodes bookRootId ids = some rows) ↔
      plan.nodes.length - 1 ≤ ids.length := by
  have rootInside := (List.getElem?_eq_some_iff.mp isPlan.rootNode).1
  rw [TreePlan.intoNewNodes, mapM_isSome_iff]
  constructor
  · intro bound
    have isLast := List.getElem?_eq_getElem
      (by omega : plan.nodes.length - 1 < plan.nodes.length)
    exact (bindNode_isSome_iff isPlan isLast).mp (bound _ (List.mem_zipIdx_iff_getElem?.mpr isLast))
  · rintro enough ⟨node, idx⟩ member
    have isNode := List.mem_zipIdx_iff_getElem?.mp member
    have inside := (List.getElem?_eq_some_iff.mp isNode).1
    exact (bindNode_isSome_iff isPlan isNode).mpr (by simp only at inside; omega)

/-- The rows emitted, one for every plan index. -/
structure BoundRows (plan : TreePlan) (bookRootId : NodeId) (ids : List NodeId)
    (rows : List NewNode) (rowAt : Nat → NewNode) : Prop where
  all : rows = (List.range plan.nodes.length).map rowAt
  isRow : ∀ {idx node}, plan.nodes[idx]? = some node →
    IsRow plan bookRootId ids idx node (rowAt idx)

theorem intoNewNodes_rows (isPlan : IsPlan fns params bookRootType extraction plan)
    {rows : List NewNode} (emitted : plan.intoNewNodes bookRootId ids = some rows) :
    ∃ rowAt, BoundRows plan bookRootId ids rows rowAt := by
  obtain ⟨rowAt, all, bound⟩ := mapM_zipIdx emitted (.root bookRootId bookRootType)
  exact ⟨rowAt, all, fun isNode => bindNode_isRow isPlan isNode (bound isNode)⟩

/-! ### Rows and indices -/

namespace BoundRows

variable {rows : List NewNode} {rowAt : Nat → NewNode}

theorem mem_iff (bound : BoundRows plan bookRootId ids rows rowAt) {row : NewNode} :
    row ∈ rows ↔ ∃ idx < plan.nodes.length, rowAt idx = row := by
  rw [bound.all, List.mem_map]
  exact exists_congr fun idx => and_congr_left fun _ => List.mem_range

theorem getElem?_eq (bound : BoundRows plan bookRootId ids rows rowAt) {idx : Nat}
    (inside : idx < plan.nodes.length) : rows[idx]? = some (rowAt idx) := by
  rw [bound.all, List.getElem?_map, List.getElem?_range inside]
  rfl

end BoundRows

/-- No two plan indices share an id. -/
def DistinctIds (plan : TreePlan) (bookRootId : NodeId) (ids : List NodeId) : Prop :=
  ∀ ⦃idx idx'⦄, idx < plan.nodes.length → idx' < plan.nodes.length →
    idAt bookRootId ids idx = idAt bookRootId ids idx' → idx = idx'

/-- Enough distinct ids leave no two indices with one id. -/
theorem distinctIds_of_nodup (distinct : (bookRootId :: ids).Nodup)
    (enough : plan.nodes.length - 1 ≤ ids.length) : DistinctIds plan bookRootId ids := by
  have isId : ∀ {idx}, idx < plan.nodes.length →
      (bookRootId :: ids)[idx]? = some (idAt bookRootId ids idx) := by
    intro idx inside
    rw [idAt, idOf]
    by_cases isRoot : idx = rootIndex
    · rw [if_pos isRoot, isRoot]
      rfl
    · have positive := Nat.pos_of_ne_zero isRoot
      rw [if_neg isRoot, List.getElem?_cons, if_neg (Nat.pos_iff_ne_zero.mp positive),
        List.getElem?_eq_getElem (by omega : idx - 1 < ids.length)]
      rfl
  intro idx idx' inside inside' same
  have equal : (bookRootId :: ids)[idx]? = (bookRootId :: ids)[idx']? := by
    rw [isId inside, isId inside', same]
  exact (List.getElem?_inj (by rw [List.length_cons]; omega) distinct).mp equal

namespace BoundRows

variable {rows : List NewNode} {rowAt : Nat → NewNode}

/-- Rows without a repeated id come from distinct ids. -/
theorem distinctIds (bound : BoundRows plan bookRootId ids rows rowAt)
    (distinct : (rows.map (·.nodeId)).Nodup) : DistinctIds plan bookRootId ids := by
  have isId : ∀ {idx}, idx < plan.nodes.length →
      (rows.map (·.nodeId))[idx]? = some (idAt bookRootId ids idx) := by
    intro idx inside
    rw [List.getElem?_map, bound.getElem?_eq inside, Option.map_some,
      (bound.isRow (List.getElem?_eq_getElem inside)).nodeId]
  intro idx idx' inside inside' same
  have equal : (rows.map (·.nodeId))[idx]? = (rows.map (·.nodeId))[idx']? := by
    rw [isId inside, isId inside', same]
  refine (List.getElem?_inj ?_ distinct).mp equal
  rw [bound.all]
  simpa using inside

variable (isPlan : IsPlan fns params bookRootType extraction plan)
  (bound : BoundRows plan bookRootId ids rows rowAt) (distinct : DistinctIds plan bookRootId ids)

include isPlan bound distinct in
/-- **The rows hold the forest of the plan.** -/
theorem forest : RowForest plan.nodes.length (parentOf plan.nodes) rows rowAt where
  rooted := isPlan.shape.rooted
  all := bound.all
  distinct := by
    rw [bound.all, List.map_map]
    refine List.Nodup.map_on (fun idx inside idx' inside' same => ?_) List.nodup_range
    rw [List.mem_range] at inside inside'
    rw [Function.comp_apply, Function.comp_apply, (bound.isRow (List.getElem?_eq_getElem inside)).nodeId,
      (bound.isRow (List.getElem?_eq_getElem inside')).nodeId] at same
    exact distinct inside inside' same
  root := (bound.isRow isPlan.rootNode).parentId
  named := by
    intro idx up isUp
    obtain ⟨node, isNode, isParent⟩ := Option.bind_eq_some_iff.mp isUp
    have bounds := isPlan.shape.rooted.earlier isUp
    rw [(bound.isRow isNode).parentId, isParent,
      (bound.isRow (List.getElem?_eq_getElem (bounds.1.trans bounds.2))).nodeId]
    rfl

end BoundRows

end Bind

end Bookrack.Structure
