/-
The tree of organizing nodes and the walk of a planned tree.

* **`Shape.below_org_iff`**: one entry's node is below another's exactly when the entry is nested
  under it in the table of contents, so what is below an organizing node is contiguous.
* `Shape.walk_orgs`: the walk over the organizing nodes meets them in TOC order.
* `childrenByOrdinal_eq`: sorting a node's children by ordinal gives the list they were numbered by.
* **`Shape.walk_leaves`**: the walk of the whole tree meets the leaves node by node, the organizing
  nodes in TOC order.
-/

import Bookrack.Structure.Tree

namespace Bookrack.Structure

open Forest Outline

/-- Entry `entry` is `above`, or nested under it. -/
abbrev Nested (entries : List TocEntry) (entry above : Nat) : Prop :=
  Under (depthOf entries) entry above

/-- The parents of the organizing nodes. -/
def orgParent (extraction : Extraction) (nodes : List PlannedNode) (idx : Nat) : Option Nat :=
  if idx < firstLeaf extraction then parentOf nodes idx else none

theorem orgParent_eq_some {extraction : Extraction} {nodes : List PlannedNode}
    {idx up : Nat} :
    orgParent extraction nodes idx = some up ↔
      idx < firstLeaf extraction ∧ parentOf nodes idx = some up := by
  unfold orgParent
  split
  · rename_i isOrg
    exact ⟨fun isUp => ⟨isOrg, isUp⟩, And.right⟩
  · rename_i isLeaf
    exact ⟨(nomatch ·), fun both => absurd both.1 isLeaf⟩

namespace Shape

variable {fns : TextFns} {params : StructureParams} {bookRootType : NodeType}
  {extraction : Extraction} {nodes : List PlannedNode}

theorem firstLeaf_le (shape : Shape fns params bookRootType extraction nodes) :
    firstLeaf extraction ≤ nodes.length := by
  rw [shape.size]
  omega

theorem orgs_listed (shape : Shape fns params bookRootType extraction nodes) :
    Listed (firstLeaf extraction) (orgParent extraction nodes) (orgsUnder extraction nodes) := by
  have rooted := shape.rooted
  refine ⟨⟨?_, fun {child up} isUp => ?_, fun {child} isChild inside => ?_⟩, fun {idx up} => ?_⟩
  · rw [orgParent, if_pos (by rw [firstLeaf]; omega)]
    exact rooted.root
  · obtain ⟨isOrg, isUp⟩ := orgParent_eq_some.mp isUp
    exact ⟨(rooted.earlier isUp).1, isOrg⟩
  · obtain ⟨up, isUp⟩ := rooted.attached isChild (inside.trans_le shape.firstLeaf_le)
    exact ⟨up, orgParent_eq_some.mpr ⟨inside, isUp⟩⟩
  · rw [shape.mem_orgsUnder, orgParent_eq_some]

/-- An organizing node's parents are organizing. -/
theorem below_orgParent (shape : Shape fns params bookRootType extraction nodes) {idx above : Nat}
    (isOrg : idx < firstLeaf extraction) :
    Below (orgParent extraction nodes) idx above ↔ Below (parentOf nodes) idx above := by
  constructor
  · exact Relation.ReflTransGen.mono (fun _ _ isUp => (orgParent_eq_some.mp isUp).2) _ _
  · intro below
    induction below using Relation.ReflTransGen.head_induction_on with
    | refl => exact .refl
    | head isUp _ ih =>
      have before := (shape.rooted.earlier isUp).1
      exact .head (orgParent_eq_some.mpr ⟨isOrg, isUp⟩) (ih (before.trans isOrg))

/-- **Below an entry's node are the nodes of the entries nested under it.** -/
theorem below_org_iff (shape : Shape fns params bookRootType extraction nodes) {entry above : Nat}
    (inside : entry < extraction.toc.length) :
    Below (parentOf nodes) (orgIndex entry) (orgIndex above) ↔
      Nested extraction.toc entry above := by
  rw [Nested, under_iff_chain]
  constructor
  · intro below
    induction entry using Nat.strongRecOn with
    | ind entry ih =>
      by_cases same : entry = above
      · rw [same]
      · have differ : orgIndex entry ≠ orgIndex above := by
          rw [orgIndex, orgIndex]
          omega
        rcases shape.parentOf_org inside with ⟨up, encloses, isUp⟩ | ⟨-, isRoot⟩
        · have before := encloses.1
          exact .head encloses (ih up before (before.trans inside) (below.up differ isUp))
        · have under := Below.le shape.rooted (below.up differ isRoot)
          rw [rootIndex, orgIndex] at under
          omega
  · intro chain
    induction chain using Relation.ReflTransGen.head_induction_on with
    | refl => exact .refl
    | head encloses _ ih =>
      exact .head ((shape.parentOf_org_eq inside).mpr encloses) (ih (encloses.1.trans inside))

theorem orgs_contiguous (shape : Shape fns params bookRootType extraction nodes) :
    Contiguous (orgParent extraction nodes) := by
  intro low mid high below after upTo
  by_cases same : mid = low
  · rw [same]
  · have isOrg : high < firstLeaf extraction := by
      by_contra isLeaf
      rcases below_iff_child.mp below with isSame | ⟨child, isUp, rest⟩
      · omega
      · rcases Relation.ReflTransGen.cases_head rest with isSame | ⟨up, isUp', -⟩
        · rw [isSame] at isLeaf
          exact isLeaf (orgParent_eq_some.mp isUp).1
        · exact isLeaf (orgParent_eq_some.mp isUp').1
    by_cases isRoot : low = rootIndex
    · rw [isRoot]
      exact below_root shape.orgs_listed.rooted (by omega)
    · obtain ⟨above, rfl⟩ : ∃ above, low = orgIndex above :=
        ⟨low - 1, by rw [orgIndex]; rw [rootIndex] at isRoot; omega⟩
      obtain ⟨entry, rfl⟩ : ∃ entry, high = orgIndex entry :=
        ⟨high - 1, by rw [orgIndex] at *; omega⟩
      obtain ⟨between, rfl⟩ : ∃ between, mid = orgIndex between :=
        ⟨mid - 1, by rw [orgIndex] at *; omega⟩
      rw [orgIndex, orgIndex] at after upTo
      rw [orgIndex, firstLeaf] at isOrg
      rw [shape.below_orgParent (by rw [orgIndex, firstLeaf]; omega),
        shape.below_org_iff (by omega)] at below
      rw [shape.below_orgParent (by rw [orgIndex, firstLeaf]; omega),
        shape.below_org_iff (by omega)]
      exact below.mid (by omega) (by omega)

/-- **The organizing nodes are walked in TOC order.** -/
theorem walk_orgs (shape : Shape fns params bookRootType extraction nodes) {fuel : Nat}
    (enough : firstLeaf extraction ≤ fuel) :
    walk (orgsUnder extraction nodes) fuel rootIndex = List.range (firstLeaf extraction) := by
  have listed := shape.orgs_listed
  have sorted : (walk (orgsUnder extraction nodes) fuel rootIndex).Pairwise (· < ·) :=
    listed.walk_sorted shape.orgs_contiguous (orgsUnder_sorted extraction nodes) (by omega)
  refine List.Perm.eq_of_pairwise (fun _ _ _ _ less less' => ?_) sorted List.pairwise_lt_range ?_
  · exact absurd less' less.asymm
  rw [List.perm_ext_iff_of_nodup (sorted.imp Nat.ne_of_lt) List.nodup_range]
  intro idx
  rw [listed.mem_walk (by omega), List.mem_range]
  constructor
  · intro below
    by_contra isLeaf
    rcases Relation.ReflTransGen.cases_head below with isRoot | ⟨up, isUp, -⟩
    · rw [isRoot, rootIndex, firstLeaf] at isLeaf
      omega
    · exact isLeaf (orgParent_eq_some.mp isUp).1
  · exact below_root listed.rooted

/-- **The leaves are met node by node, the organizing nodes in TOC order.** -/
theorem walk_leaves (shape : Shape fns params bookRootType extraction nodes) :
    (walk (kids extraction nodes) nodes.length rootIndex).filter
        (fun idx => decide (firstLeaf extraction ≤ idx)) =
      (List.range (firstLeaf extraction)).flatMap (leavesUnder extraction nodes) := by
  rw [← shape.walk_orgs shape.firstLeaf_le]
  refine shape.listed.walk_filter shape.kids_eq ?_ ?_ (by omega) ?_
  · intro up leaf isLeaf
    obtain ⟨isLeafIdx, -⟩ := shape.mem_leavesUnder.mp isLeaf
    refine ⟨decide_eq_true isLeafIdx, ?_⟩
    rw [List.eq_nil_iff_forall_not_mem]
    intro child isChild
    have isOrg := shape.parent_inside (shape.listed.mem_iff.mp isChild)
    omega
  · intro up child isChild
    exact decide_eq_false (not_le.mpr (shape.mem_orgsUnder.mp isChild).1)
  · exact decide_eq_false (by rw [rootIndex, firstLeaf]; omega)

end Shape

/-! ### Children by ordinal -/

/-- The ordinal of a planned node. -/
def ordinalOf (nodes : List PlannedNode) (idx : Nat) : Int :=
  (nodes[idx]?.map (·.ordinal)).getD 0

/-- A node's children by ascending ordinal. -/
def childrenByOrdinal (nodes : List PlannedNode) (up : Nat) : List Nat :=
  ((List.range nodes.length).filter (parentOf nodes · = some up)).insertionSort
    fun one other => ordinalOf nodes one ≤ ordinalOf nodes other

/-- Sorting by ordinal gives the list the children were numbered by. -/
theorem childrenByOrdinal_eq {fns : TextFns} {params : StructureParams} {bookRootType : NodeType}
    {extraction : Extraction} {plan : TreePlan}
    (isPlan : IsPlan fns params bookRootType extraction plan) :
    childrenByOrdinal plan.nodes = kids extraction plan.nodes := by
  funext up
  have place : ∀ {ordinal child : Nat}, (kids extraction plan.nodes up)[ordinal]? = some child →
      ordinalOf plan.nodes child = ordinal := by
    intro ordinal child isKid
    obtain ⟨node, isNode, isOrdinal⟩ := isPlan.ordinals isKid
    rw [ordinalOf, isNode]
    exact isOrdinal
  have isPerm : (childrenByOrdinal plan.nodes up).Perm (kids extraction plan.nodes up) :=
    (List.perm_insertionSort _ _).trans (isPlan.shape.filter_perm_kids up)
  have : Std.Total fun one other : Nat => ordinalOf plan.nodes one ≤ ordinalOf plan.nodes other :=
    ⟨fun _ _ => le_total _ _⟩
  have : IsTrans Nat fun one other => ordinalOf plan.nodes one ≤ ordinalOf plan.nodes other :=
    ⟨fun _ _ _ => le_trans⟩
  have sorted : (childrenByOrdinal plan.nodes up).Pairwise fun one other =>
      ordinalOf plan.nodes one ≤ ordinalOf plan.nodes other := List.pairwise_insertionSort _ _
  refine isPerm.eq_of_pairwise ?_ sorted ?_
  · intro one other member member' le le'
    obtain ⟨here, isHere⟩ := List.getElem?_of_mem (isPerm.subset member)
    obtain ⟨there, isThere⟩ := List.getElem?_of_mem member'
    rw [place isHere, place isThere] at le le'
    obtain rfl : here = there := by omega
    exact Option.some.inj (isHere.symm.trans isThere)
  · rw [List.pairwise_iff_getElem]
    intro here there inside inside' before
    rw [place (List.getElem?_eq_getElem inside), place (List.getElem?_eq_getElem inside')]
    omega

end Bookrack.Structure
