/-
The tree a plan holds: lists of children, ordinals and spans.

* `kids extraction nodes up`: the children of `up` as `plan_tree` lists them; `kids_eq` splits them
  into leaves and organizing nodes, **`Shape.listed`** says they are all the children.
* `numbered_kid`: a node's ordinal is its place in its parent's list.
* **`Shape.spansOf_spec`**: a span is the hull of the positions below the node, since the reverse
  pass meets every child before its parent.
* `IsPlan` collects what `plan_tree` returns; **`planTree_isPlan`**, `planTree_ok_iff`.
-/

import Bookrack.Base.Hull
import Bookrack.Structure.Shape

namespace Bookrack.Structure

open Forest Hull

/-! ### Children -/

/-- The children of a node as `children` lists them. -/
def kids (extraction : Extraction) (nodes : List PlannedNode) (up : Nat) : List Nat :=
  (childrenOf extraction.toc.length nodes).getD up []

/-- The leaves under a node, in reading order. -/
def leavesUnder (extraction : Extraction) (nodes : List PlannedNode) (up : Nat) : List Nat :=
  (List.range' (firstLeaf extraction) (nodes.length - firstLeaf extraction)).filter
    (parentOf nodes · = some up)

/-- The organizing children of a node, in TOC order. -/
def orgsUnder (extraction : Extraction) (nodes : List PlannedNode) (up : Nat) : List Nat :=
  (List.range' 1 extraction.toc.length).filter (parentOf nodes · = some up)

theorem length_childrenOf (extraction : Extraction) (nodes : List PlannedNode) :
    (childrenOf extraction.toc.length nodes).length = nodes.length := by
  rw [childrenOf, length_attach_run, length_attach_run, List.length_replicate]

theorem childrenOf_getElem? (extraction : Extraction) (nodes : List PlannedNode) {up : Nat}
    (inside : up < nodes.length) : (childrenOf extraction.toc.length nodes)[up]? =
      some (leavesUnder extraction nodes up ++ orgsUnder extraction nodes up) := by
  rw [childrenOf, attach_run, attach_run, List.getElem?_replicate, if_pos inside]
  rfl

namespace Shape

variable {fns : TextFns} {params : StructureParams} {bookRootType : NodeType}
  {extraction : Extraction} {nodes : List PlannedNode}

/-- Shapes differ in ordinals only: the parents are the staged ones. -/
theorem parentOf_eq (shape : Shape fns params bookRootType extraction nodes) :
    parentOf nodes = parentOf (unnumbered fns params bookRootType extraction) := by
  funext idx
  rw [parentOf, parentOf]
  cases isStaged : (unnumbered fns params bookRootType extraction)[idx]? with
  | none =>
    rw [List.getElem?_eq_none_iff, ← shape.length, ← List.getElem?_eq_none_iff] at isStaged
    rw [isStaged]
  | some node =>
    obtain ⟨_, isNode⟩ := shape.staged isStaged
    rw [isNode]
    rfl

theorem childrenOf_eq (shape : Shape fns params bookRootType extraction nodes) :
    childrenOf extraction.toc.length nodes =
      childrenOf extraction.toc.length (unnumbered fns params bookRootType extraction) := by
  rw [childrenOf, childrenOf, shape.parentOf_eq, shape.length]

/-- **Leaves first, then organizing nodes.** -/
theorem kids_eq (shape : Shape fns params bookRootType extraction nodes) (up : Nat) :
    kids extraction nodes up = leavesUnder extraction nodes up ++ orgsUnder extraction nodes up
  := by
  rw [kids, List.getD_eq_getElem?_getD]
  by_cases inside : up < nodes.length
  · rw [childrenOf_getElem? extraction nodes inside]
    rfl
  · rw [List.getElem?_eq_none (by rw [length_childrenOf]; omega)]
    have childless : ∀ candidates : List Nat,
        candidates.filter (parentOf nodes · = some up) = [] := by
      intro candidates
      rw [List.filter_eq_nil_iff]
      intro child _ isUp
      have before := shape.rooted.earlier (of_decide_eq_true isUp)
      omega
    rw [leavesUnder, orgsUnder, childless, childless]
    rfl

theorem mem_leavesUnder (shape : Shape fns params bookRootType extraction nodes) {idx up : Nat} :
    idx ∈ leavesUnder extraction nodes up ↔
      firstLeaf extraction ≤ idx ∧ parentOf nodes idx = some up := by
  rw [leavesUnder, List.mem_filter, List.mem_range'_1, decide_eq_true_iff]
  constructor
  · exact fun ⟨⟨from', _⟩, isUp⟩ => ⟨from', isUp⟩
  · intro ⟨from', isUp⟩
    have inside := (shape.rooted.earlier isUp).2
    exact ⟨⟨from', by omega⟩, isUp⟩

theorem mem_orgsUnder (shape : Shape fns params bookRootType extraction nodes) {idx up : Nat} :
    idx ∈ orgsUnder extraction nodes up ↔
      idx < firstLeaf extraction ∧ parentOf nodes idx = some up := by
  rw [orgsUnder, List.mem_filter, List.mem_range'_1, decide_eq_true_iff, firstLeaf]
  constructor
  · rintro ⟨⟨-, upTo⟩, isUp⟩
    exact ⟨upTo, isUp⟩
  · rintro ⟨upTo, isUp⟩
    have before := (shape.rooted.earlier isUp).1
    exact ⟨⟨by omega, upTo⟩, isUp⟩

/-- **The lists hold all the children.** -/
theorem listed (shape : Shape fns params bookRootType extraction nodes) :
    Listed nodes.length (parentOf nodes) (kids extraction nodes) := by
  refine ⟨shape.rooted, fun {idx up} => ?_⟩
  rw [shape.kids_eq, List.mem_append, shape.mem_leavesUnder, shape.mem_orgsUnder]
  constructor
  · rintro (⟨-, isUp⟩ | ⟨-, isUp⟩)
    · exact isUp
    · exact isUp
  · intro isUp
    by_cases isLeaf : firstLeaf extraction ≤ idx
    · exact .inl ⟨isLeaf, isUp⟩
    · exact .inr ⟨not_le.mp isLeaf, isUp⟩

theorem leavesUnder_sorted (extraction : Extraction) (nodes : List PlannedNode) (up : Nat) :
    (leavesUnder extraction nodes up).Pairwise (· < ·) :=
  (List.pairwise_lt_range' _).filter _

theorem orgsUnder_sorted (extraction : Extraction) (nodes : List PlannedNode) (up : Nat) :
    (orgsUnder extraction nodes up).Pairwise (· < ·) :=
  (List.pairwise_lt_range' _).filter _

theorem kids_nodup (shape : Shape fns params bookRootType extraction nodes) (up : Nat) :
    (kids extraction nodes up).Nodup := by
  rw [shape.kids_eq, List.nodup_append]
  refine ⟨(leavesUnder_sorted extraction nodes up).imp Nat.ne_of_lt,
    (orgsUnder_sorted extraction nodes up).imp Nat.ne_of_lt, ?_⟩
  intro leaf isLeaf org isOrg same
  have one := (shape.mem_leavesUnder.mp isLeaf).1
  have other := (shape.mem_orgsUnder.mp isOrg).1
  omega

/-- The children listed are the nodes with that parent. -/
theorem filter_perm_kids (shape : Shape fns params bookRootType extraction nodes) (up : Nat) :
    ((List.range nodes.length).filter (parentOf nodes · = some up)).Perm
      (kids extraction nodes up) := by
  rw [List.perm_ext_iff_of_nodup (List.nodup_range.filter _) (shape.kids_nodup up)]
  intro idx
  rw [List.mem_filter, List.mem_range, decide_eq_true_iff, shape.listed.mem_iff]
  exact ⟨And.right, fun isUp => ⟨(shape.rooted.earlier isUp).2, isUp⟩⟩

/-! ### Ordinals -/

/-- The ordinals written: every child once. -/
theorem ordinals_distinct (shape : Shape fns params bookRootType extraction nodes) :
    (((childrenOf extraction.toc.length nodes).flatMap fun siblings =>
      siblings.zipIdx).map Prod.fst).Nodup := by
  rw [List.map_flatMap, List.nodup_flatMap]
  have isKids : ∀ {up siblings}, (childrenOf extraction.toc.length nodes)[up]? = some siblings →
      kids extraction nodes up = siblings := by
    intro up siblings isList
    rw [kids, List.getD_eq_getElem?_getD, isList]
    rfl
  constructor
  · intro siblings member
    obtain ⟨up, isList⟩ := List.getElem?_of_mem member
    rw [List.zipIdx_map_fst, ← isKids isList]
    exact shape.kids_nodup up
  · rw [List.pairwise_iff_getElem]
    intro up up' inside inside' less child member member'
    simp only [List.zipIdx_map_fst] at member member'
    rw [← isKids (List.getElem?_eq_getElem inside)] at member
    rw [← isKids (List.getElem?_eq_getElem inside')] at member'
    have one := shape.listed.mem_iff.mp member
    have other := shape.listed.mem_iff.mp member'
    have same := Option.some.inj (one.symm.trans other)
    omega

theorem numbered_eq (children : List (List Nat)) (nodes : List PlannedNode) :
    numbered children nodes = (children.flatMap fun siblings => siblings.zipIdx).foldl
      (fun nodes kid => nodes.modify kid.1 (.setOrdinal kid.2)) nodes := by
  rw [numbered, List.foldl_flatMap]

/-- **A node's ordinal is its place in its parent's list.** -/
theorem numbered_kid (shape : Shape fns params bookRootType extraction nodes)
    {up ordinal child : Nat} (isKid : (kids extraction nodes up)[ordinal]? = some child) :
    (numbered (childrenOf extraction.toc.length nodes) nodes)[child]? =
      nodes[child]?.map (.setOrdinal ordinal) := by
  rw [numbered_eq]
  apply modify_listed PlannedNode.setOrdinal _ _ shape.ordinals_distinct
  rw [List.mem_flatMap]
  have inside : up < nodes.length := by
    have isUp := shape.listed.mem_iff.mp (List.mem_of_getElem? isKid)
    have bounds := shape.rooted.earlier isUp
    omega
  refine ⟨_, List.mem_of_getElem? (childrenOf_getElem? extraction nodes inside), ?_⟩
  rw [← shape.kids_eq, List.mem_zipIdx_iff_getElem?]
  exact isKid

theorem numbered_root (shape : Shape fns params bookRootType extraction nodes) :
    (numbered (childrenOf extraction.toc.length nodes) nodes)[rootIndex]? = nodes[rootIndex]? := by
  rw [numbered_eq]
  apply modify_unlisted PlannedNode.setOrdinal
  intro member
  rw [List.map_flatMap, List.mem_flatMap] at member
  obtain ⟨siblings, isList, member⟩ := member
  obtain ⟨up, isList⟩ := List.getElem?_of_mem isList
  rw [List.zipIdx_map_fst] at member
  have isKids : kids extraction nodes up = siblings := by
    rw [kids, List.getD_eq_getElem?_getD, isList]
    rfl
  have isUp := shape.listed.mem_iff.mp (isKids ▸ member)
  rw [shape.parentOf_root] at isUp
  cases isUp

theorem length_numbered (children : List (List Nat)) (nodes : List PlannedNode) :
    (numbered children nodes).length = nodes.length := by
  rw [numbered_eq]
  generalize (children.flatMap fun siblings => siblings.zipIdx) = writes
  induction writes generalizing nodes with
  | nil => rfl
  | cons write rest ih => rw [List.foldl_cons, ih, List.length_modify]

/-- Numbering the siblings keeps the shape. -/
theorem numbered_shape (shape : Shape fns params bookRootType extraction nodes) :
    Shape fns params bookRootType extraction
      (numbered (childrenOf extraction.toc.length nodes) nodes) := by
  refine ⟨by rw [length_numbered, shape.length], fun {idx node} isStaged => ?_⟩
  obtain ⟨ordinal, isNode⟩ := shape.staged isStaged
  by_cases isRoot : idx = rootIndex
  · exact ⟨ordinal, by rw [isRoot, shape.numbered_root, ← isRoot, isNode]⟩
  · have inside := (List.getElem?_eq_some_iff.mp isNode).1
    obtain ⟨up, isUp⟩ := shape.rooted.attached (Nat.pos_of_ne_zero isRoot) inside
    obtain ⟨place, isKid⟩ := List.getElem?_of_mem (shape.listed.mem_iff.mpr isUp)
    exact ⟨place, by rw [shape.numbered_kid isKid, isNode]; rfl⟩

/-! ### Spans -/

theorem mergeSpan_eq_join (one other : Option (Int × Int)) :
    mergeSpan one other = join one other := by
  match one, other with
  | none, none => rfl
  | none, some _ => rfl
  | some _, none => rfl
  | some _, some _ => rfl

/-- **A span is the hull of the positions below the node.** -/
theorem spansOf_spec (shape : Shape fns params bookRootType extraction nodes)
    (position : PlannedNode → Option Int) {above : Nat} (inside : above < nodes.length) :
    IsHull {p | ∃ idx, Below (parentOf nodes) idx above ∧ nodes[idx]?.bind position = some p}
      ((spansOf position nodes).getD above none) := by
  let Summarises (lower : Set Nat) (span : Option (Int × Int)) : Prop :=
    IsHull {p | ∃ idx ∈ lower, nodes[idx]?.bind position = some p} span
  refine passUp_run Summarises shape.rooted ?_ (List.length_map _) ?_ inside
  · intro one other span span' first second
    show IsHull _ (mergeSpan span span')
    rw [mergeSpan_eq_join]
    convert first.union second using 1
    ext p
    simp only [Set.mem_ofPred_eq, Set.mem_union, or_and_right, exists_or]
  · intro idx inside
    show IsHull _ _
    rw [List.getD_eq_getElem?_getD, List.getElem?_map, List.getElem?_eq_getElem inside]
    cases isPosition : position nodes[idx] with
    | none =>
      convert isHull_empty (α := Int) using 1
      · ext p
        simp [List.getElem?_eq_getElem inside, isPosition]
      · simp [isPosition]
    | some p =>
      convert isHull_singleton p using 1
      · ext p'
        simp [List.getElem?_eq_getElem inside, isPosition, eq_comm]
      · simp [isPosition]

/-- Nothing else is below a leaf. -/
theorem below_leaf (shape : Shape fns params bookRootType extraction nodes) {idx leaf : Nat}
    (isLeaf : firstLeaf extraction ≤ leaf) (below : Below (parentOf nodes) idx leaf) :
    idx = leaf := by
  rcases below_iff_child.mp below with same | ⟨child, isUp, -⟩
  · exact same
  · have isOrg := shape.parent_inside isUp
    omega

/-- A leaf spans its own position. -/
theorem spansOf_leaf (shape : Shape fns params bookRootType extraction nodes)
    (position : PlannedNode → Option Int) {leaf : Nat} {node : PlannedNode} {p : Int}
    (isNode : nodes[leaf]? = some node) (isLeaf : firstLeaf extraction ≤ leaf)
    (isPosition : position node = some p) :
    (spansOf position nodes).getD leaf none = some (p, p) := by
  have isHull := shape.spansOf_spec position (List.getElem?_eq_some_iff.mp isNode).1
  have single : {p | ∃ idx, Below (parentOf nodes) idx leaf ∧ nodes[idx]?.bind position = some p} =
      {p} := by
    ext p'
    rw [Set.mem_ofPred_eq, Set.mem_singleton_iff]
    constructor
    · rintro ⟨idx, below, isPosition'⟩
      rw [shape.below_leaf isLeaf below, isNode, Option.bind_some, isPosition] at isPosition'
      exact (Option.some.inj isPosition').symm
    · rintro rfl
      exact ⟨leaf, .refl, by rw [isNode, Option.bind_some, isPosition]⟩
  rw [single] at isHull
  exact isHull.unique (isHull_singleton p)

end Shape

/-! ### What `plan_tree` returns -/

/-- The plan of an extraction. -/
structure IsPlan (fns : TextFns) (params : StructureParams) (bookRootType : NodeType)
    (extraction : Extraction) (plan : TreePlan) : Prop where
  shape : Shape fns params bookRootType extraction plan.nodes
  ordinals : ∀ {up ordinal child : Nat}, (kids extraction plan.nodes up)[ordinal]? = some child →
    ∃ node : PlannedNode, plan.nodes[child]? = some node ∧ node.ordinal = ordinal
  rootNode : plan.nodes[rootIndex]? = some (.root bookRootType extraction.title)
  docSpan : plan.docSpan = spansOf (·.docOrder) plan.nodes
  pageSpan : plan.pageSpan = spansOf (·.leafPage) plan.nodes
  subtreeSig : plan.subtreeSig = (subtreeHashes fns plan.nodes
    (childrenOf extraction.toc.length plan.nodes) plan.nodes.length rootIndex
    (List.replicate plan.nodes.length none)).2

section PlanTree

variable {fns : TextFns} {params : StructureParams} {bookRootType : NodeType}
  {extraction : Extraction}

/-- A plan is returned exactly when some surviving block is prose. -/
theorem planTree_ok_iff : (∃ plan, planTree fns bookRootType extraction params = .ok plan) ↔
    ∃ survivor ∈ survivors fns extraction, (leafType survivor.1.kind).isProseLeaf = true := by
  have counts : (plannedLeaves fns params bookRootType extraction).countP
      (·.nodeType.isProseLeaf) = 0 ↔
      ¬∃ survivor ∈ survivors fns extraction, (leafType survivor.1.kind).isProseLeaf = true := by
    rw [List.countP_eq_zero, not_exists]
    constructor
    · rintro noProse survivor ⟨member, isProse⟩
      obtain ⟨position, isSurvivor⟩ := List.getElem?_of_mem member
      exact noProse _ (List.mem_map.mpr
        ⟨(survivor, position), List.mem_zipIdx_iff_getElem?.mpr isSurvivor, rfl⟩) isProse
    · intro noProse node member
      obtain ⟨⟨survivor, position⟩, isSurvivor, rfl⟩ := List.mem_map.mp member
      intro isProse
      exact noProse survivor
        ⟨List.mem_of_getElem? (List.mem_zipIdx_iff_getElem?.mp isSurvivor), isProse⟩
  unfold planTree
  by_cases none : (plannedLeaves fns params bookRootType extraction).countP
      (·.nodeType.isProseLeaf) = 0
  · simp only [if_pos none]
    constructor
    · rintro ⟨_, planned⟩
      cases planned
    · exact fun isProse => absurd isProse (counts.mp none)
  · simp only [if_neg none]
    exact ⟨fun _ => not_not.mp fun without => none (counts.mpr without), fun _ => ⟨_, rfl⟩⟩

/-- **What `plan_tree` returns is the plan of the extraction.** -/
theorem planTree_isPlan {plan : TreePlan}
    (planned : planTree fns bookRootType extraction params = .ok plan) :
    IsPlan fns params bookRootType extraction plan := by
  have staged : Shape fns params bookRootType extraction _ := staged_shape
  have shape := staged.numbered_shape
  unfold planTree at planned
  by_cases empty : (plannedLeaves fns params bookRootType extraction).countP
      (·.nodeType.isProseLeaf) = 0
  · simp only [if_pos empty] at planned
    cases planned
  · simp only [if_neg empty] at planned
    obtain rfl := Except.ok.inj planned
    refine ⟨shape, fun {up ordinal child} isKid => ?_, ?_, rfl, rfl, ?_⟩
    · rw [kids, shape.childrenOf_eq] at isKid
      have isUp := staged.listed.mem_iff.mp (List.mem_of_getElem? isKid)
      have inside := (staged.rooted.earlier isUp).2
      exact ⟨_, by rw [staged.numbered_kid isKid, List.getElem?_eq_getElem inside]; rfl, rfl⟩
    · rw [staged.numbered_root]
      rfl
    · rw [shape.childrenOf_eq]

end PlanTree

end Bookrack.Structure
