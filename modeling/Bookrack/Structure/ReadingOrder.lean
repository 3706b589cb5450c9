/-
Sibling order and document order.

The module doc of `structure.rs` orders a node's leaves before its organizing children because "a
leaf can never follow a sibling sub-node in the source". Leaves are owned by anchor, children are
ordered by the table of contents, and nothing checks that the two orders agree.

* `ReadingOrder fns plan`: the depth-first walk by ordinals meets the leaves in reading order, no
  leaf of a node follows one of a child node, and signatures hash in reading order.
* **`readingOrder_iff_ownersInOrder`**: this holds exactly when the entries that own a surviving
  block are anchored in TOC order. `swapped_chapters_break_order` is a two-chapter book without it.
-/

import Bookrack.Structure.Insertable
import Bookrack.Structure.Signature

namespace Bookrack.Structure

open Forest

/-! ### The statement -/

/-- The reading position of a leaf. -/
def docOrderOf (nodes : List PlannedNode) (idx : Nat) : Option Int :=
  nodes[idx]?.bind (·.docOrder)

/-- The reading positions in the order the depth-first walk by ordinals meets them. -/
def leafOrder (nodes : List PlannedNode) : List Int :=
  (walk (childrenByOrdinal nodes) nodes.length rootIndex).filterMap (docOrderOf nodes)

/-- A prose leaf of the plan. -/
def ProseLeafAt (nodes : List PlannedNode) (idx : Nat) : Prop :=
  ∃ node, nodes[idx]? = some node ∧ node.nodeType.isProseLeaf = true

/-- An organizing node of the plan. -/
def OrganizingAt (nodes : List PlannedNode) (idx : Nat) : Prop :=
  ∃ node, nodes[idx]? = some node ∧ node.nodeType.isOrganizing = true

/-- **Sibling order is document order.** -/
structure ReadingOrder (fns : TextFns) (plan : TreePlan) : Prop where
  increasing : (leafOrder plan.nodes).Pairwise (· < ·)
  leavesFirst : ∀ {up leaf child lower : Nat} {before after : Int},
    parentOf plan.nodes leaf = some up → docOrderOf plan.nodes leaf = some before →
    parentOf plan.nodes child = some up → OrganizingAt plan.nodes child →
    Below (parentOf plan.nodes) lower child → docOrderOf plan.nodes lower = some after →
    before < after
  signatures : ∀ {idx : Nat} {sig : String}, plan.subtreeSig.getD idx none = some sig →
    ∃ leaves : List Nat,
      (∀ leaf, leaf ∈ leaves ↔ Below (parentOf plan.nodes) leaf idx ∧
        ProseLeafAt plan.nodes leaf) ∧
      (leaves.Pairwise fun one other => ∀ p p', docOrderOf plan.nodes one = some p →
        docOrderOf plan.nodes other = some p' → p < p') ∧
      sig = signature fns (leaves.filterMap (normOf plan.nodes))

/-- A surviving block belongs to the entry. -/
def OwnsSurvivor (fns : TextFns) (extraction : Extraction) (entry : Nat) : Prop :=
  ∃ survivor ∈ survivors fns extraction, Owns extraction.toc survivor.2 entry

/-- **The condition**: the entries that own a surviving block are anchored in TOC order. -/
def OwnersInOrder (fns : TextFns) (extraction : Extraction) : Prop :=
  ∀ entry later start start', entry < later → OwnsSurvivor fns extraction entry →
    OwnsSurvivor fns extraction later → startOf extraction.toc entry = some start →
    startOf extraction.toc later = some start' → start ≤ start'

/-! ### Owners and blocks -/

/-- A block owned by an earlier entry, anchored not after a later one, comes first. -/
theorem Owns.block_lt {entries : List TocEntry} {i j entry later start start' : Nat}
    (owns : Owns entries i entry) (owns' : Owns entries j later) (before : entry < later)
    (isStart : startOf entries entry = some start) (isStart' : startOf entries later = some start')
    (inOrder : start ≤ start') : i < j := by
  obtain ⟨_, isStart₁, notAfter, greatest⟩ := owns
  obtain ⟨_, isStart₂, notAfter', -⟩ := owns'
  obtain rfl := Option.some.inj (isStart₁.symm.trans isStart)
  obtain rfl := Option.some.inj (isStart₂.symm.trans isStart')
  by_contra notBefore
  have atMost := greatest later _ isStart' (by omega)
  unfold StartLe at atMost
  simp only at atMost
  omega

/-- Owners of blocks in order are anchored in order. -/
theorem Owns.start_le {entries : List TocEntry} {i j entry later start start' : Nat}
    (owns : Owns entries i entry) (owns' : Owns entries j later) (before : i < j)
    (isStart : startOf entries entry = some start)
    (isStart' : startOf entries later = some start') : start ≤ start' := by
  obtain ⟨_, isStart₁, notAfter, -⟩ := owns
  obtain ⟨_, isStart₂, -, greatest'⟩ := owns'
  obtain rfl := Option.some.inj (isStart₁.symm.trans isStart)
  obtain rfl := Option.some.inj (isStart₂.symm.trans isStart')
  have atMost := greatest' entry _ isStart (by omega)
  unfold StartLe at atMost
  simp only at atMost
  omega

/-- Unowned blocks come before owned ones. -/
theorem unowned_lt {entries : List TocEntry} {i j entry : Nat}
    (unowned : ∀ other, ¬Owns entries i other) (owns : Owns entries j entry) : i < j := by
  obtain ⟨start, isStart, notAfter, -⟩ := owns
  by_contra notBefore
  obtain ⟨owner, ownsToo⟩ := exists_owner isStart (by omega : start ≤ i)
  exact unowned owner ownsToo

/-- Survivors are positioned in block order. -/
theorem survivor_lt_iff {fns : TextFns} {extraction : Extraction} {p q : Nat}
    {survivor survivor' : Block × Nat} (isLeaf : (survivors fns extraction)[p]? = some survivor)
    (isLeaf' : (survivors fns extraction)[q]? = some survivor') :
    p < q ↔ survivor.2 < survivor'.2 := by
  have ascending := List.pairwise_iff_getElem.mp
    (survivors_ascending fns extraction)
  obtain ⟨inside, rfl⟩ := List.getElem?_eq_some_iff.mp isLeaf
  obtain ⟨inside', rfl⟩ := List.getElem?_eq_some_iff.mp isLeaf'
  constructor
  · exact ascending p q inside inside'
  · intro less
    by_contra notBefore
    rcases (not_lt.mp notBefore).lt_or_eq with after | same
    · have more := ascending q p inside' inside after
      omega
    · simp only [same, lt_irrefl] at less

/-- Picking from what is kept is mapping it. -/
theorem filterMap_eq_map_filter {α β : Type} {pick : α → Option β} {keeps : α → Bool}
    {image : α → β} {items : List α}
    (picks : ∀ item ∈ items, pick item = if keeps item then some (image item) else none) :
    items.filterMap pick = (items.filter keeps).map image := by
  induction items with
  | nil => rfl
  | cons item rest ih =>
    have here := picks item List.mem_cons_self
    have later := ih fun other member => picks other (List.mem_cons_of_mem _ member)
    by_cases kept : keeps item = true
    · rw [if_pos kept] at here
      rw [List.filterMap_cons_some here, List.filter_cons_of_pos kept, List.map_cons, later]
    · rw [if_neg kept] at here
      rw [List.filterMap_cons_none here, List.filter_cons_of_neg kept, later]

section Order

variable {fns : TextFns} {params : StructureParams} {bookRootType : NodeType}
  {extraction : Extraction} {nodes : List PlannedNode}

namespace Shape

/-- A leaf under a node is a survivor with that parent. -/
theorem mem_leavesUnder_iff (shape : Shape fns params bookRootType extraction nodes)
    {leaf up : Nat} : leaf ∈ leavesUnder extraction nodes up ↔
      ∃ position survivor, (survivors fns extraction)[position]? = some survivor ∧
        leaf = firstLeaf extraction + position ∧ leafParent extraction survivor.2 = up := by
  rw [shape.mem_leavesUnder]
  constructor
  · rintro ⟨isLeaf, isUp⟩
    have inside := (shape.rooted.earlier isUp).2
    obtain ⟨position, survivor, isSurvivor, rfl, -⟩ :=
      shape.leaf_of_le (List.getElem?_eq_getElem inside) isLeaf
    rw [shape.parentOf_leaf isSurvivor] at isUp
    exact ⟨position, survivor, isSurvivor, rfl, Option.some.inj isUp⟩
  · rintro ⟨position, survivor, isSurvivor, rfl, rfl⟩
    exact ⟨Nat.le_add_right _ _, shape.parentOf_leaf isSurvivor⟩

/-- **Node by node in order, exactly when the owners are.** -/
theorem leaves_in_order_iff (shape : Shape fns params bookRootType extraction nodes) :
    (∀ up up', up < up' → up' < firstLeaf extraction →
      ∀ leaf ∈ leavesUnder extraction nodes up, ∀ leaf' ∈ leavesUnder extraction nodes up',
        leaf < leaf') ↔ OwnersInOrder fns extraction := by
  constructor
  · intro inOrder entry later start start' before ⟨survivor, member, owns⟩ ⟨survivor', member', owns'⟩
      isStart isStart'
    obtain ⟨p, isLeaf⟩ := List.getElem?_of_mem member
    obtain ⟨q, isLeaf'⟩ := List.getElem?_of_mem member'
    have less := inOrder (orgIndex entry) (orgIndex later) (by rw [orgIndex, orgIndex]; omega)
      (by have := owns'.inside; rw [orgIndex, firstLeaf]; omega) _
      (shape.mem_leavesUnder_iff.mpr ⟨p, survivor, isLeaf, rfl,
        leafParent_owned (survivor_lt isLeaf) owns⟩) _
      (shape.mem_leavesUnder_iff.mpr ⟨q, survivor', isLeaf', rfl,
        leafParent_owned (survivor_lt isLeaf') owns'⟩)
    have blocks := (survivor_lt_iff isLeaf isLeaf').mp (by omega)
    exact owns.start_le owns' blocks isStart isStart'
  · intro inOrder up up' before inside leaf isUnder leaf' isUnder'
    obtain ⟨p, survivor, isLeaf, rfl, rfl⟩ := shape.mem_leavesUnder_iff.mp isUnder
    obtain ⟨q, survivor', isLeaf', rfl, rfl⟩ := shape.mem_leavesUnder_iff.mp isUnder'
    have isBlock := survivor_lt isLeaf
    have isBlock' := survivor_lt isLeaf'
    -- the later leaf has an owner, since the root is no later node
    obtain ⟨later, owns'⟩ : ∃ later, Owns extraction.toc survivor'.2 later := by
      by_contra unowned
      rw [leafParent_unowned isBlock' (not_exists.mp unowned)] at before
      exact absurd before (Nat.not_lt_zero _)
    have blocks : survivor.2 < survivor'.2 := by
      by_cases owned : ∃ entry, Owns extraction.toc survivor.2 entry
      · obtain ⟨entry, owns⟩ := owned
        rw [leafParent_owned isBlock owns, leafParent_owned isBlock' owns', orgIndex,
          orgIndex] at before
        obtain ⟨start, isStart, -⟩ := id owns
        obtain ⟨start', isStart', -⟩ := id owns'
        exact owns.block_lt owns' (by omega) isStart isStart'
          (inOrder entry later start start' (by omega)
            ⟨survivor, List.mem_of_getElem? isLeaf, owns⟩
            ⟨survivor', List.mem_of_getElem? isLeaf', owns'⟩ isStart isStart')
      · exact unowned_lt (not_exists.mp owned) owns'
    have positions := (survivor_lt_iff isLeaf isLeaf').mpr blocks
    omega

/-- Positions follow indices. -/
theorem docOrderOf_eq (shape : Shape fns params bookRootType extraction nodes) {idx : Nat}
    (inside : idx < nodes.length) : docOrderOf nodes idx =
      if firstLeaf extraction ≤ idx then some ((idx - firstLeaf extraction : Nat) : Int)
      else none := by
  have isNode := List.getElem?_eq_getElem inside
  rw [docOrderOf, isNode, Option.bind_some]
  split
  · rename_i isLeaf
    obtain ⟨position, survivor, -, isIdx, _, isPlanned⟩ := shape.leaf_of_le isNode isLeaf
    rw [isPlanned, isIdx, Nat.add_sub_cancel_left]
    rfl
  · rename_i isOrg
    exact (shape.org_positionless isNode (not_le.mp isOrg)).1

/-- Only leaves have a position. -/
theorem leaf_of_docOrder (shape : Shape fns params bookRootType extraction nodes) {idx : Nat}
    {p : Int} (isOrder : docOrderOf nodes idx = some p) :
    idx < nodes.length ∧ firstLeaf extraction ≤ idx := by
  obtain ⟨node, isNode, isOrder⟩ := Option.bind_eq_some_iff.mp isOrder
  refine ⟨(List.getElem?_eq_some_iff.mp isNode).1, ?_⟩
  by_contra isOrg
  rw [(shape.org_positionless isNode (not_le.mp isOrg)).1] at isOrder
  cases isOrder

theorem docOrderOf_lt (shape : Shape fns params bookRootType extraction nodes) {idx idx' : Nat}
    {p p' : Int} (isOrder : docOrderOf nodes idx = some p)
    (isOrder' : docOrderOf nodes idx' = some p') : idx < idx' ↔ p < p' := by
  obtain ⟨inside, isLeaf⟩ := shape.leaf_of_docOrder isOrder
  obtain ⟨inside', isLeaf'⟩ := shape.leaf_of_docOrder isOrder'
  rw [shape.docOrderOf_eq inside, if_pos isLeaf] at isOrder
  rw [shape.docOrderOf_eq inside', if_pos isLeaf'] at isOrder'
  obtain rfl := Option.some.inj isOrder
  obtain rfl := Option.some.inj isOrder'
  omega

/-- The leaves of the walk are in order exactly when they are in order node by node. -/
theorem walk_leaves_sorted_iff (shape : Shape fns params bookRootType extraction nodes) :
    ((walk (kids extraction nodes) nodes.length rootIndex).filter
        (fun idx => decide (firstLeaf extraction ≤ idx))).Pairwise (· < ·) ↔
      OwnersInOrder fns extraction := by
  rw [shape.walk_leaves, List.pairwise_flatMap, ← shape.leaves_in_order_iff,
    List.pairwise_iff_getElem]
  simp only [List.length_range, List.getElem_range]
  constructor
  · exact fun ⟨_, inOrder⟩ up up' before inside => inOrder up up' (by omega) inside before
  · exact fun inOrder => ⟨fun up _ => leavesUnder_sorted extraction nodes up,
      fun up up' _ inside before => inOrder up up' before inside⟩

/-- Prose leaves are the nodes with a content hash. -/
theorem prose_iff_hashed (shape : Shape fns params bookRootType extraction nodes)
    (rootKind : bookRootType.isOrganizing = true) {idx : Nat} {node : PlannedNode}
    (isNode : nodes[idx]? = some node) :
    node.nodeType.isProseLeaf = true ↔ node.normSha256.isSome = true := by
  by_cases isLeaf : firstLeaf extraction ≤ idx
  · obtain ⟨position, survivor, -, -, _, rfl⟩ := shape.leaf_of_le isNode isLeaf
    show (leafType survivor.1.kind).isProseLeaf = true ↔ (if (leafType survivor.1.kind).isProseLeaf
      then some (fns.normTextSha256 survivor.1.text) else none).isSome = true
    split <;> simp_all
  · rw [(shape.org_positionless isNode (not_le.mp isLeaf)).2.2]
    have organizing := (shape.organizing_iff rootKind isNode).mpr (not_le.mp isLeaf)
    refine ⟨fun isProse => ?_, (nomatch ·)⟩
    exact absurd ((NodeType.not_organizing_of_proseLeaf isProse).symm.trans organizing)
      (by decide)

end Shape

/-! ### Walk, siblings, signatures -/

variable {plan : TreePlan}

/-- The walk meets the leaves in increasing position exactly when their indices increase. -/
theorem leafOrder_sorted_iff (isPlan : IsPlan fns params bookRootType extraction plan) :
    (leafOrder plan.nodes).Pairwise (· < ·) ↔ OwnersInOrder fns extraction := by
  have shape := isPlan.shape
  have isOrder : leafOrder plan.nodes =
      ((walk (kids extraction plan.nodes) plan.nodes.length rootIndex).filter
        (fun idx => decide (firstLeaf extraction ≤ idx))).map
          fun idx => ((idx - firstLeaf extraction : Nat) : Int) := by
    rw [leafOrder, childrenByOrdinal_eq isPlan]
    apply filterMap_eq_map_filter
    intro idx member
    have below := (shape.listed.mem_walk (by omega)).mp member
    have rootInside := (List.getElem?_eq_some_iff.mp isPlan.rootNode).1
    have inside : idx < plan.nodes.length := by
      rcases Relation.ReflTransGen.cases_head below with same | ⟨up, isUp, -⟩
      · rw [same]
        exact rootInside
      · exact (shape.rooted.earlier isUp).2
    rw [shape.docOrderOf_eq inside]
    simp only [decide_eq_true_eq]
  rw [isOrder, List.pairwise_map, ← shape.walk_leaves_sorted_iff]
  apply List.Pairwise.iff_of_mem
  intro idx idx' member member'
  have isLeaf := of_decide_eq_true (List.mem_filter.mp member).2
  have isLeaf' := of_decide_eq_true (List.mem_filter.mp member').2
  omega

/-- In order node by node, no leaf follows one of a child organizing node. -/
theorem leavesFirst_of_order (shape : Shape fns params bookRootType extraction nodes)
    (inOrder : OwnersInOrder fns extraction) {up leaf child lower : Nat} {before after : Int}
    (isLeafUp : parentOf nodes leaf = some up) (isBefore : docOrderOf nodes leaf = some before)
    (isChildUp : parentOf nodes child = some up) (isOrganizing : OrganizingAt nodes child)
    (below : Below (parentOf nodes) lower child) (isAfter : docOrderOf nodes lower = some after) :
    before < after := by
  have childOrg : child < firstLeaf extraction := by
    obtain ⟨node, isNode, isOrganizing⟩ := isOrganizing
    by_contra isLeaf
    obtain ⟨_, survivor, -, -, _, rfl⟩ := shape.leaf_of_le isNode (not_lt.mp isLeaf)
    have isNot : (leafType survivor.1.kind).isOrganizing = false := by
      cases survivor.1.kind <;> rfl
    exact absurd (isNot.symm.trans isOrganizing) (by decide)
  obtain ⟨-, isLeaf⟩ := shape.leaf_of_docOrder isBefore
  obtain ⟨inside, isLower⟩ := shape.leaf_of_docOrder isAfter
  obtain ⟨lowerUp, isLowerUp⟩ := shape.rooted.attached (by rw [firstLeaf] at isLower; omega) inside
  have under := Below.le shape.rooted (below.up (by omega) isLowerUp)
  have childAfter := (shape.rooted.earlier isChildUp).1
  refine (shape.docOrderOf_lt isBefore isAfter).mp (shape.leaves_in_order_iff.mpr inOrder up lowerUp
    (by omega) (shape.parent_inside isLowerUp) leaf ?_ lower ?_)
  · exact shape.mem_leavesUnder.mpr ⟨isLeaf, isLeafUp⟩
  · exact shape.mem_leavesUnder.mpr ⟨isLower, isLowerUp⟩

/-- In order, a signature hashes the prose leaves in reading order. -/
theorem signature_of_order (isPlan : IsPlan fns params bookRootType extraction plan)
    (inOrder : OwnersInOrder fns extraction) {idx : Nat} {sig : String}
    (isSig : plan.subtreeSig.getD idx none = some sig) : ∃ leaves : List Nat,
      (∀ leaf, leaf ∈ leaves ↔ Below (parentOf plan.nodes) leaf idx ∧
        ProseLeafAt plan.nodes leaf) ∧
      (leaves.Pairwise fun one other => ∀ p p', docOrderOf plan.nodes one = some p →
        docOrderOf plan.nodes other = some p' → p < p') ∧
      sig = signature fns (leaves.filterMap (normOf plan.nodes)) := by
  classical
  have shape := isPlan.shape
  obtain ⟨rootKind, isOrg⟩ := isPlan.subtreeSig_some isSig
  rw [isPlan.subtreeSig_eq rootKind isOrg] at isSig
  obtain rfl := Option.some.inj isSig
  refine ⟨(walk (kids extraction plan.nodes) plan.nodes.length idx).filter
    (fun leaf => decide (ProseLeafAt plan.nodes leaf)), ?_, ?_, ?_⟩
  · intro leaf
    rw [List.mem_filter, shape.listed.mem_walk (by omega), decide_eq_true_iff]
  · have sorted := shape.walk_leaves_sorted_iff.mpr inOrder
    have part := (shape.listed.walk_sublist (below_root shape.rooted
      (isOrg.trans_le shape.firstLeaf_le))).filter fun leaf => decide (firstLeaf extraction ≤ leaf)
    have own := sorted.sublist part
    rw [List.pairwise_filter] at own ⊢
    refine own.imp fun {one other} less _ _ p p' isOrder isOrder' => ?_
    exact (shape.docOrderOf_lt isOrder isOrder').mp
      (less (decide_eq_true (shape.leaf_of_docOrder isOrder).2)
        (decide_eq_true (shape.leaf_of_docOrder isOrder').2))
  · rw [hashesBelow, List.filterMap_filter]
    congr 1
    apply List.filterMap_congr
    intro leaf _
    by_cases isProse : ProseLeafAt plan.nodes leaf
    · rw [if_pos (decide_eq_true isProse)]
    · rw [if_neg (by simpa using isProse)]
      cases isNode : plan.nodes[leaf]? with
      | none => rw [normOf, isNode]; rfl
      | some node =>
        have hashless := mt (shape.prose_iff_hashed rootKind isNode).mpr fun isProse' =>
          isProse ⟨node, isNode, isProse'⟩
        rw [normOf, isNode]
        simpa using hashless

/-- **Sibling order is document order exactly when the owners are anchored in TOC order.** -/
theorem readingOrder_iff_ownersInOrder
    (planned : planTree fns bookRootType extraction params = .ok plan) :
    ReadingOrder fns plan ↔ OwnersInOrder fns extraction := by
  have isPlan := planTree_isPlan planned
  constructor
  · exact fun inOrder => (leafOrder_sorted_iff isPlan).mp inOrder.increasing
  · intro inOrder
    exact ⟨(leafOrder_sorted_iff isPlan).mpr inOrder, leavesFirst_of_order isPlan.shape inOrder,
      signature_of_order isPlan inOrder⟩

end Order

/-! ### Two chapters -/

/-- Two body blocks under two chapters with the given anchors. -/
def twoChapters (first second : Option Nat) : Extraction where
  blocks := [{ kind := .body, text := "a", sourceUnit := 0 },
    { kind := .body, text := "b", sourceUnit := 0 }]
  toc := [{ label := "A", depth := 0, startBlock := first },
    { label := "B", depth := 0, startBlock := second }]
  title := none

theorem planTree_twoChapters (first second : Option Nat) : ∃ plan,
    planTree plainFns .work (twoChapters first second) ⟨16⟩ = .ok plan := by
  rw [planTree_ok_iff]
  exact ⟨({ kind := .body, text := "a", sourceUnit := 0 }, 0), mem_survivors.mpr ⟨rfl, rfl⟩, rfl⟩

/-- Chapters anchored in TOC order. -/
theorem readingOrder_twoChapters : ∃ plan,
    planTree plainFns .work (twoChapters (some 0) (some 1)) ⟨16⟩ = .ok plan ∧ ReadingOrder plainFns plan := by
  obtain ⟨plan, planned⟩ := planTree_twoChapters (some 0) (some 1)
  refine ⟨plan, planned, (readingOrder_iff_ownersInOrder planned).mpr ?_⟩
  intro entry later start start' before _ ⟨_, _, owns⟩ isStart isStart'
  have inside : later < 2 := owns.inside
  obtain ⟨rfl, rfl⟩ : entry = 0 ∧ later = 1 := by omega
  cases isStart
  cases isStart'
  exact Nat.zero_le 1

/-- **The second chapter anchored before the first**: the walk meets block 1, then block 0, and the
book's signature hashes them in that order. -/
theorem swapped_chapters_break_order : ∃ plan,
    planTree plainFns .work (twoChapters (some 1) (some 0)) ⟨16⟩ = .ok plan ∧ leafOrder plan.nodes = [1, 0] ∧
      ¬ReadingOrder plainFns plan := by
  refine ⟨_, rfl, ?_, ?_⟩
  · decide
  · intro inOrder
    have increasing := inOrder.increasing
    revert increasing
    decide

end Bookrack.Structure
