/-
The rows a paper's plan is bound to.

* `IsPaperRow`: what a row takes from its planned node.
* `paperNodes_bound`: what `paperNodes` returns, row by row.
* **`paperNodes_isSome`** — with one id for each planned node, the rows are the work's and one for each.
-/

import Bookrack.Glean.Spans
import Bookrack.Structure.RowTree

namespace Bookrack.Glean

open Corpus (NewNode)
open Forest
open Structure (TextFns)

/-- What the row of a planned node holds. -/
structure IsPaperRow (plans : List PendingNode) (workNodeId : NodeId) (ids : List NodeId) (idx : Nat)
    (plan : PendingNode) (row : NewNode) : Prop where
  nodeId : ids[idx]? = some row.nodeId
  parentId : parentIdOf workNodeId ids plan = row.parentId
  attached : row.parentId.isSome
  bookRootId : row.bookRootId = workNodeId
  ordinal : (childIndexes (fun _ => 0) plans)[idx]? = some row.ordinal
  depth : row.depth = plan.depth
  nodeType : row.nodeType = plan.nodeType
  untitled : row.title = none
  unsigned : row.subtreeContentSha256 = none

/-- The columns of a leaf's row. -/
structure IsLeafRow (plans : List PendingNode) (idx : Nat) (plan : PendingNode) (row : NewNode) : Prop where
  text : row.textContent = plan.text
  positioned : (positionOf plans idx).isSome
  tocLo : row.tocLo = positionOf plans idx
  tocHi : row.tocHi = positionOf plans idx
  pageIndexStart : row.pageIndexStart = plan.sourceUnit.map fun page : Nat => (page : Int)
  pageIndexEnd : row.pageIndexEnd = plan.sourceUnit.map fun page : Nat => (page : Int)
  anchored : plan.nodeType.isProseLeaf = true → row.stableAnchor = plan.contentNamespace
  unhashed : plan.nodeType.isProseLeaf = false → row.hasContentHash = false

/-- The columns of an organizer's row. -/
structure IsOrganizerRow (plans : List PendingNode) (idx : Nat) (row : NewNode) : Prop where
  bodiless : row.hasBodyText = false
  unhashed : row.hasContentHash = false
  tocLo : row.tocLo = (tocHull (subtreeSpans plans idx)).map Prod.fst
  tocHi : row.tocHi = (tocHull (subtreeSpans plans idx)).map Prod.snd
  pageIndexStart : row.pageIndexStart = (pageHull (subtreeSpans plans idx)).map Prod.fst
  pageIndexEnd : row.pageIndexEnd = (pageHull (subtreeSpans plans idx)).map Prod.snd

section Binding

variable {fns : TextFns} {plans : List PendingNode} {workNodeId : NodeId} {ids : List NodeId} {idx : Nat}
  {plan : PendingNode} {row : NewNode}

theorem withSourceUnit_eq {node : NewNode} {sourceUnit : Option Nat} (unstarted : node.pageIndexStart = none)
    (unended : node.pageIndexEnd = none) : withSourceUnit node sourceUnit =
      { node with
        pageIndexStart := sourceUnit.map fun page : Nat => (page : Int)
        pageIndexEnd := sourceUnit.map fun page : Nat => (page : Int) } := by
  cases sourceUnit with
  | none =>
    obtain ⟨⟩ := node
    obtain rfl : _ = none := unstarted
    obtain rfl : _ = none := unended
    rfl
  | some page => rfl

theorem leafNode_spec {node : NewNode} (bound : leafNode fns plans idx plan node = some row) :
    ∃ text position, plan.text = some text ∧ positionOf plans idx = some position ∧
      (plan.nodeType.isProseLeaf = true ∧ (∃ contentNamespace, plan.contentNamespace = some contentNamespace ∧
          row = (withSourceUnit (((node.withText text).withTextStats text.length 0).withTocSpan position
            position)
            plan.sourceUnit).withContentHashes contentNamespace (fns.sha256Hex (asBytes text))
              (fns.normTextSha256 text)) ∨
        plan.nodeType.isProseLeaf = false ∧
          row = withSourceUnit (((node.withText text).withTextStats text.length 0).withTocSpan position position)
            plan.sourceUnit) := by
  unfold leafNode at bound
  obtain ⟨text, isText, bound⟩ := Option.bind_eq_some_iff.mp bound
  obtain ⟨position, isPosition, bound⟩ := Option.bind_eq_some_iff.mp bound
  refine ⟨text, position, isText, isPosition, ?_⟩
  dsimp only at bound
  split_ifs at bound with isProse
  · obtain ⟨contentNamespace, isNamespace, rfl⟩ := Option.map_eq_some_iff.mp bound
    exact .inl ⟨isProse, contentNamespace, isNamespace, rfl⟩
  · exact .inr ⟨Bool.not_eq_true _ ▸ isProse, (Option.some.inj bound).symm⟩

/-- **A bound row** is a leaf's or an organizer's. -/
theorem bindPaperNode_isRow (bound : bindPaperNode fns workNodeId ids plans (plan, idx) = some row) :
    IsPaperRow plans workNodeId ids idx plan row ∧
      (plan.isLeaf = true ∧ IsLeafRow plans idx plan row ∨
        plan.isLeaf = false ∧ IsOrganizerRow plans idx row) := by
  unfold bindPaperNode at bound
  obtain ⟨nodeId, isNodeId, bound⟩ := Option.bind_eq_some_iff.mp bound
  obtain ⟨parentId, isParentId, bound⟩ := Option.bind_eq_some_iff.mp bound
  obtain ⟨ordinal, isOrdinal, bound⟩ := Option.bind_eq_some_iff.mp bound
  dsimp only at isNodeId isParentId isOrdinal bound
  split_ifs at bound with isLeaf
  · obtain ⟨text, position, isText, isPosition, hashed⟩ := leafNode_spec bound
    rw [withSourceUnit_eq rfl rfl] at hashed
    have positioned : (positionOf plans idx).isSome := by
      rw [isPosition]
      rfl
    rcases hashed with ⟨isProse, contentNamespace, isNamespace, rfl⟩ | ⟨notProse, rfl⟩
    · refine ⟨⟨isNodeId, isParentId, rfl, rfl, isOrdinal, rfl, rfl, rfl, rfl⟩, .inl ⟨isLeaf, ?_⟩⟩
      refine ⟨isText.symm, positioned, isPosition.symm, isPosition.symm, rfl, rfl, fun _ => isNamespace.symm, ?_⟩
      exact fun notProse => absurd (isProse.symm.trans notProse) Bool.noConfusion
    · refine ⟨⟨isNodeId, isParentId, rfl, rfl, isOrdinal, rfl, rfl, rfl, rfl⟩, .inl ⟨isLeaf, ?_⟩⟩
      refine ⟨isText.symm, positioned, isPosition.symm, isPosition.symm, rfl, rfl, ?_, fun _ => rfl⟩
      exact fun isProse => absurd (isProse.symm.trans notProse) Bool.noConfusion
  · obtain rfl := Option.some.inj bound
    have organizes : plan.isLeaf = false := Bool.not_eq_true _ ▸ isLeaf
    unfold organizerNode
    cases isSpan : subtreeSpans plans idx with
    | none =>
      exact ⟨⟨isNodeId, isParentId, rfl, rfl, isOrdinal, rfl, rfl, rfl, rfl⟩, .inr ⟨organizes,
        rfl, rfl, by rw [isSpan]; rfl, by rw [isSpan]; rfl, by rw [isSpan]; rfl, by rw [isSpan]; rfl⟩⟩
    | some span =>
      exact ⟨⟨isNodeId, isParentId, rfl, rfl, isOrdinal, rfl, rfl, rfl, rfl⟩, .inr ⟨organizes,
        rfl, rfl, by rw [isSpan]; rfl, by rw [isSpan]; rfl, by rw [isSpan]; rfl, by rw [isSpan]; rfl⟩⟩

theorem leafNode_isSome (shaped : plan.Shaped) (isLeaf : plan.isLeaf = true) (isPlan : plans[idx]? = some plan)
    (node : NewNode) : ∃ row, leafNode fns plans idx plan node = some row := by
  obtain ⟨isText, isNamespace⟩ := shaped.worded isLeaf
  obtain ⟨text, isText⟩ := Option.isSome_iff_exists.mp isText
  obtain ⟨contentNamespace, isNamespace⟩ := Option.isSome_iff_exists.mp isNamespace
  have isPosition : (leafPosition 0 plans)[idx]?.join = _ := positionOf_leaf isPlan isLeaf
  unfold leafNode
  rw [isText, isPosition, isNamespace]
  dsimp only [bind, Option.bind]
  split_ifs
  · exact ⟨_, rfl⟩
  · exact ⟨_, rfl⟩

/-- With one id for each planned node, binding does not panic. -/
theorem bindPaperNode_isSome (planned : Planned plans) (enough : plans.length ≤ ids.length)
    (isPlan : plans[idx]? = some plan) :
    ∃ row, bindPaperNode fns workNodeId ids plans (plan, idx) = some row := by
  have inside := (List.getElem?_eq_some_iff.mp isPlan).1
  have shaped := planned.shaped plan (List.mem_of_getElem? isPlan)
  obtain ⟨nodeId, isNodeId⟩ : ∃ nodeId, ids[idx]? = some nodeId :=
    ⟨_, List.getElem?_eq_getElem (Nat.lt_of_lt_of_le inside enough)⟩
  obtain ⟨parentId, isParentId⟩ : ∃ parentId, parentIdOf workNodeId ids plan = some parentId := by
    unfold parentIdOf
    cases isUp : plan.parentIdx with
    | none => exact ⟨workNodeId, rfl⟩
    | some up =>
      have isParent : parentIn plans idx = some up := by
        rw [parentIn, isPlan]
        exact isUp
      have before := (parentIn_forward planned isParent).1
      exact ⟨_, List.getElem?_eq_getElem (by omega : up < ids.length)⟩
  obtain ⟨ordinal, isOrdinal⟩ : ∃ ordinal, (childIndexes (fun _ => 0) plans)[idx]? = some ordinal := by
    rw [getElem?_childIndexes, isPlan]
    exact ⟨_, rfl⟩
  unfold bindPaperNode
  dsimp only
  rw [isNodeId, isParentId, isOrdinal]
  dsimp only [bind, Option.bind]
  split_ifs with isLeaf
  · exact leafNode_isSome shaped isLeaf isPlan _
  · exact ⟨_, rfl⟩

/-- The rows of a paper: the work's, and one for each planned node. -/
structure BoundPaper (plans : List PendingNode) (workNodeId : NodeId) (ids : List NodeId) (rows : List NewNode)
    (rowAt : Nat → NewNode) : Prop where
  all : rows = (List.range (plans.length + 1)).map rowAt
  work : rowAt 0 = workNode workNodeId plans
  isRow : ∀ {idx plan}, plans[idx]? = some plan → IsPaperRow plans workNodeId ids idx plan (rowAt (idx + 1)) ∧
    (plan.isLeaf = true ∧ IsLeafRow plans idx plan (rowAt (idx + 1)) ∨
      plan.isLeaf = false ∧ IsOrganizerRow plans idx (rowAt (idx + 1)))

/-- **What `paperNodes` returns.** -/
theorem paperNodes_bound {rows : List NewNode} (isRows : paperNodes fns plans workNodeId ids = some rows) :
    ∃ rowAt, BoundPaper plans workNodeId ids rows rowAt := by
  unfold paperNodes at isRows
  obtain ⟨others, isOthers, rfl⟩ := Option.map_eq_some_iff.mp isRows
  obtain ⟨otherAt, all, bound⟩ := Rows.mapM_zipIdx isOthers (workNode workNodeId plans)
  refine ⟨fun node => Nat.casesOn node (workNode workNodeId plans) otherAt, ?_, rfl, ?_⟩
  · rw [all, List.range_succ_eq_map, List.map_cons, List.map_map]
    rfl
  · exact fun isPlan => bindPaperNode_isRow (bound isPlan)

/-- **With one id for each planned node, nothing panics.** -/
theorem paperNodes_isSome (planned : Planned plans) (enough : plans.length ≤ ids.length) :
    ∃ rows, paperNodes fns plans workNodeId ids = some rows := by
  obtain ⟨others, isOthers⟩ : ∃ others, plans.zipIdx.mapM (bindPaperNode fns workNodeId ids plans) =
      some others := by
    rw [Rows.mapM_isSome_iff]
    intro ⟨plan, idx⟩ member
    exact bindPaperNode_isSome planned enough (List.mem_zipIdx_iff_getElem?.mp member)
  exact ⟨_, congrArg (Option.map _) isOthers⟩

end Binding

end Bookrack.Glean
