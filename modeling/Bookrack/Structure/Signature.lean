/-
The signature pass of `plan_tree`: what `subtree_hashes` returns and writes.

* `hashesBelow extraction nodes idx`: the normalized-text hashes below a node, in the order of the
  walk.
* `Signed`: a signature vector after a pass over some nodes. **`subtreeHashes_spec`**: a call
  returns the hashes below its node and signs the organizing nodes of the walk, each over the hashes
  below it. The fuel `plan_tree` gives is enough for every node.
* **`IsPlan.subtreeSig_eq`**: every organizing node of a plan is signed so.
-/

import Bookrack.Structure.OrgTree

namespace Bookrack.Structure

open Forest

/-- The normalized-text hash of a leaf. -/
def normOf (nodes : List PlannedNode) (idx : Nat) : Option String :=
  nodes[idx]?.bind (·.normSha256)

/-- The hashes below a node, in the order of the walk. -/
def hashesBelow (extraction : Extraction) (nodes : List PlannedNode) (idx : Nat) : List String :=
  (walk (kids extraction nodes) nodes.length idx).filterMap (normOf nodes)

/-- `after` is `before` with the organizing nodes visited signed. -/
structure Signed (fns : TextFns) (extraction : Extraction) (nodes : List PlannedNode)
    (visited : Nat → Prop) (before after : List (Option String)) : Prop where
  length : after.length = before.length
  signed : ∀ {idx}, visited idx → idx < firstLeaf extraction → idx < before.length →
    after[idx]? = some (some (signature fns (hashesBelow extraction nodes idx)))
  kept : ∀ {idx}, ¬(visited idx ∧ idx < firstLeaf extraction) → after[idx]? = before[idx]?

/-- Passes compose; the later pass signs what it visits over the same hashes. -/
theorem Signed.trans {fns : TextFns} {extraction : Extraction} {nodes : List PlannedNode}
    {visited visited' : Nat → Prop} {before mid after : List (Option String)}
    (first : Signed fns extraction nodes visited before mid)
    (second : Signed fns extraction nodes visited' mid after) :
    Signed fns extraction nodes (fun idx => visited idx ∨ visited' idx) before after := by
  refine ⟨second.length.trans first.length, fun {idx} isVisited isOrg inside => ?_,
    fun {idx} others => ?_⟩
  · by_cases later : visited' idx
    · exact second.signed later isOrg (first.length ▸ inside)
    · rw [second.kept fun both => later both.1]
      exact first.signed (isVisited.resolve_right later) isOrg inside
  · rw [second.kept fun both => others ⟨.inr both.1, both.2⟩,
      first.kept fun both => others ⟨.inl both.1, both.2⟩]

section Signatures

variable {fns : TextFns} {params : StructureParams} {bookRootType : NodeType}
  {extraction : Extraction} {nodes : List PlannedNode}

/-- At an organizing node: its children's hashes in turn. -/
theorem hashesBelow_org (shape : Shape fns params bookRootType extraction nodes) {idx : Nat}
    (isOrg : idx < firstLeaf extraction) : hashesBelow extraction nodes idx =
      (kids extraction nodes idx).flatMap (hashesBelow extraction nodes) := by
  have inside : idx < nodes.length := isOrg.trans_le shape.firstLeaf_le
  have isNode := List.getElem?_eq_getElem inside
  have hashless : normOf nodes idx = none := by
    rw [normOf, isNode]
    exact (shape.org_positionless isNode isOrg).2.2
  rw [hashesBelow, shape.listed.walk_eq (by omega), List.filterMap_cons_none hashless,
    List.filterMap_flatMap]
  rfl

/-- At a leaf: its own hash, if it is prose. -/
theorem hashesBelow_leaf (shape : Shape fns params bookRootType extraction nodes) {idx : Nat}
    {node : PlannedNode} (isNode : nodes[idx]? = some node)
    (isLeaf : firstLeaf extraction ≤ idx) :
    hashesBelow extraction nodes idx = node.normSha256.toList := by
  have childless : kids extraction nodes idx = [] := by
    rw [List.eq_nil_iff_forall_not_mem]
    intro child isChild
    have isOrg := shape.parent_inside (shape.listed.mem_iff.mp isChild)
    omega
  have isHash : normOf nodes idx = node.normSha256 := by
    rw [normOf, isNode]
    rfl
  rw [hashesBelow, shape.listed.walk_eq (by omega), childless, List.flatMap_nil,
    List.filterMap_cons, isHash]
  cases node.normSha256 <;> rfl

/-- The loop of `subtree_hashes` over a node's children. -/
def childrenLoop (fns : TextFns) (nodes : List PlannedNode) (children : List (List Nat))
    (fuel : Nat) (siblings : List Nat) (start : List String × List (Option String)) :
    List String × List (Option String) :=
  siblings.foldl (fun (hashes, sig) child =>
    let (more, sig) := subtreeHashes fns nodes children fuel child sig
    (hashes ++ more, sig)) start

/-- A call at an organizing node: the loop, then the signature over what it gathered. -/
theorem subtreeHashes_org {children : List (List Nat)} {fuel idx : Nat} {node : PlannedNode}
    (isNode : nodes[idx]? = some node) (isOrganizing : node.nodeType.isOrganizing = true)
    (sig : List (Option String)) : subtreeHashes fns nodes children (fuel + 1) idx sig =
      let looped := childrenLoop fns nodes children fuel (children.getD idx []) ([], sig)
      (looped.1, looped.2.set idx (some (signature fns looped.1))) := by
  rw [subtreeHashes, isNode]
  exact if_neg (by simp [isOrganizing])

/-- A call at a leaf. -/
theorem subtreeHashes_leaf {children : List (List Nat)} {fuel idx : Nat} {node : PlannedNode}
    (isNode : nodes[idx]? = some node) (isLeaf : node.nodeType.isOrganizing = false)
    (sig : List (Option String)) : subtreeHashes fns nodes children (fuel + 1) idx sig =
      (node.normSha256.toList, sig) := by
  rw [subtreeHashes, isNode]
  exact if_pos (by simp [isLeaf])

variable (fns extraction nodes) in
/-- The loop over the children, from what one call does. -/
theorem childrenLoop_spec (fuel : Nat) (children : List Nat)
    (calls : ∀ child ∈ children, ∀ sig : List (Option String), sig.length = nodes.length →
      (subtreeHashes fns nodes (childrenOf extraction.toc.length nodes) fuel child sig).1 =
        hashesBelow extraction nodes child ∧
      Signed fns extraction nodes (· ∈ walk (kids extraction nodes) nodes.length child) sig
        (subtreeHashes fns nodes (childrenOf extraction.toc.length nodes) fuel child sig).2)
    {sig : List (Option String)} (length : sig.length = nodes.length) (hashes : List String) :
    let looped := childrenLoop fns nodes (childrenOf extraction.toc.length nodes) fuel children
      (hashes, sig)
    looped.1 = hashes ++ children.flatMap (hashesBelow extraction nodes) ∧
      Signed fns extraction nodes (fun idx => ∃ child ∈ children,
        idx ∈ walk (kids extraction nodes) nodes.length child) sig looped.2 := by
  induction children generalizing sig hashes with
  | nil =>
    refine ⟨(List.append_nil hashes).symm, rfl, fun {idx} visited => ?_, fun _ => rfl⟩
    obtain ⟨_, member, -⟩ := visited
    exact absurd member List.not_mem_nil
  | cons child rest ih =>
    obtain ⟨isMore, signs⟩ := calls child List.mem_cons_self sig length
    have next := ih (fun child' member => calls child' (List.mem_cons_of_mem _ member))
      (signs.length.trans length) (hashes ++ (subtreeHashes fns nodes
        (childrenOf extraction.toc.length nodes) fuel child sig).1)
    refine ⟨?_, ?_⟩
    · rw [List.flatMap_cons, ← isMore, ← List.append_assoc]
      exact next.1
    · have composed := signs.trans next.2
      have visits : (fun idx => ∃ child' ∈ child :: rest,
          idx ∈ walk (kids extraction nodes) nodes.length child') = fun idx =>
          idx ∈ walk (kids extraction nodes) nodes.length child ∨ ∃ child' ∈ rest,
            idx ∈ walk (kids extraction nodes) nodes.length child' := by
        funext idx
        rw [List.exists_mem_cons_iff]
      rw [visits]
      exact composed

/-- **A call returns the hashes below its node and signs the organizing nodes it walks.** -/
theorem subtreeHashes_spec (shape : Shape fns params bookRootType extraction nodes)
    (rootKind : bookRootType.isOrganizing = true) {fuel : Nat} :
    ∀ {idx : Nat} {sig : List (Option String)}, idx < nodes.length → nodes.length - idx ≤ fuel →
      sig.length = nodes.length →
      (subtreeHashes fns nodes (childrenOf extraction.toc.length nodes) fuel idx sig).1 =
        hashesBelow extraction nodes idx ∧
      Signed fns extraction nodes (· ∈ walk (kids extraction nodes) nodes.length idx) sig
        (subtreeHashes fns nodes (childrenOf extraction.toc.length nodes) fuel idx sig).2 := by
  induction fuel with
  | zero =>
    intro idx sig inside enough
    omega
  | succ fuel ih =>
    intro idx sig inside enough length
    have isNode := List.getElem?_eq_getElem inside
    have isWalk := shape.listed.walk_eq (by omega : nodes.length - idx ≤ nodes.length)
    by_cases isOrg : idx < firstLeaf extraction
    · rw [subtreeHashes_org isNode ((shape.organizing_iff rootKind isNode).mpr isOrg)]
      have loop := childrenLoop_spec fns extraction nodes fuel (kids extraction nodes idx)
        (fun child member sig' length' => by
          have after := shape.listed.forward member
          exact ih after.2 (by omega) length') length []
      rw [show (childrenOf extraction.toc.length nodes).getD idx [] = kids extraction nodes idx
        from rfl]
      generalize childrenLoop fns nodes (childrenOf extraction.toc.length nodes) fuel
        (kids extraction nodes idx) ([], sig) = looped at loop
      obtain ⟨isHashes, signs⟩ := loop
      rw [List.nil_append, ← hashesBelow_org shape isOrg] at isHashes
      refine ⟨isHashes, ?_, ?_, ?_⟩
      · rw [List.length_set]
        exact signs.length
      · intro other visited isOrg' inside'
        by_cases same : other = idx
        · have inLoop := lt_of_lt_of_eq (length ▸ inside) signs.length.symm
          rw [same, List.getElem?_set_self inLoop]
          exact congrArg (fun hashes => some (some (signature fns hashes))) isHashes
        · rw [List.getElem?_set_ne (Ne.symm same)]
          rw [isWalk, List.mem_cons] at visited
          exact signs.signed (List.mem_flatMap.mp (visited.resolve_left same)) isOrg' inside'
      · intro other others
        have differs : idx ≠ other := by
          rintro rfl
          exact others ⟨isWalk ▸ List.mem_cons_self, isOrg⟩
        rw [List.getElem?_set_ne differs]
        refine signs.kept fun both => others ⟨?_, both.2⟩
        rw [isWalk]
        exact List.mem_cons_of_mem _ (List.mem_flatMap.mpr both.1)
    · have isLeafKind : nodes[idx].nodeType.isOrganizing = false := by
        rw [← Bool.not_eq_true, shape.organizing_iff rootKind isNode]
        exact isOrg
      rw [subtreeHashes_leaf isNode isLeafKind]
      refine ⟨(hashesBelow_leaf shape isNode (not_lt.mp isOrg)).symm, rfl, ?_, fun _ => rfl⟩
      intro other visited isOrg'
      have below := (shape.listed.mem_walk (by omega)).mp visited
      rw [shape.below_leaf (not_lt.mp isOrg) below] at isOrg'
      exact absurd isOrg' isOrg

/-- **Every organizing node of a plan is signed over the hashes below it.** -/
theorem IsPlan.subtreeSig_eq {plan : TreePlan}
    (isPlan : IsPlan fns params bookRootType extraction plan)
    (rootKind : bookRootType.isOrganizing = true) {idx : Nat}
    (isOrg : idx < firstLeaf extraction) : plan.subtreeSig.getD idx none =
      some (signature fns (hashesBelow extraction plan.nodes idx)) := by
  have shape := isPlan.shape
  have inside : idx < plan.nodes.length := isOrg.trans_le shape.firstLeaf_le
  have rootInside := (List.getElem?_eq_some_iff.mp isPlan.rootNode).1
  have signs := (subtreeHashes_spec shape rootKind rootInside (Nat.sub_le _ _)
    (List.length_replicate (a := (none : Option String)))).2
  have visited : idx ∈ walk (kids extraction plan.nodes) plan.nodes.length rootIndex :=
    (shape.listed.mem_walk (by omega)).mpr (below_root shape.rooted inside)
  rw [isPlan.subtreeSig, List.getD_eq_getElem?_getD,
    signs.signed visited isOrg (by rw [List.length_replicate]; exact inside)]
  rfl

/-- A leaf has no signature, and without an organizing root nothing has one. -/
theorem IsPlan.subtreeSig_some {plan : TreePlan}
    (isPlan : IsPlan fns params bookRootType extraction plan) {idx : Nat} {sig : String}
    (isSig : plan.subtreeSig.getD idx none = some sig) :
    bookRootType.isOrganizing = true ∧ idx < firstLeaf extraction := by
  have rootInside := (List.getElem?_eq_some_iff.mp isPlan.rootNode).1
  have blank : (List.replicate plan.nodes.length (none : Option String))[idx]?.getD none = none := by
    rw [List.getElem?_replicate]
    split <;> rfl
  rw [isPlan.subtreeSig, List.getD_eq_getElem?_getD] at isSig
  by_cases rootKind : bookRootType.isOrganizing = true
  · refine ⟨rootKind, ?_⟩
    by_contra isLeaf
    have signs := (subtreeHashes_spec isPlan.shape rootKind rootInside (Nat.sub_le _ _)
      (List.length_replicate (a := (none : Option String)))).2
    rw [signs.kept fun both => isLeaf both.2, blank] at isSig
    cases isSig
  · obtain ⟨count, isSucc⟩ : ∃ count, plan.nodes.length = count + 1 :=
      ⟨_, (Nat.sub_add_cancel rootInside).symm⟩
    have unsigned : (subtreeHashes fns plan.nodes (childrenOf extraction.toc.length plan.nodes)
        plan.nodes.length rootIndex (List.replicate plan.nodes.length none)).2 =
        List.replicate plan.nodes.length none := by
      have isLeaf : (PlannedNode.root bookRootType extraction.title).nodeType.isOrganizing = false :=
        Bool.not_eq_true _ ▸ rootKind
      conv_lhs => rw [isSucc, subtreeHashes_leaf isPlan.rootNode isLeaf]
      rw [isSucc]
    rw [unsigned, blank] at isSig
    cases isSig

end Signatures

end Bookrack.Structure
