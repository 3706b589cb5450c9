/-
Batches of rows that hold a forest in preorder.

* `RowTree ups rows rowAt`: rows that hold the forest of `ups`, numbered among their siblings.
* **`RowTree.walk_rows`**: the depth-first walk by ordinals visits the rows in the order of the batch.
-/

import Bookrack.Base.Preorder
import Bookrack.Structure.TocListing

namespace Bookrack.Structure

open Corpus Forest

/-- A row for the root and one for each node, in order. -/
structure RowTree (ups : List Nat) (rows : List NewNode) (rowAt : Nat → NewNode) : Prop extends
    RowForest (ups.length + 1) (upOf ups) rows rowAt where
  spined : Spined ups
  numbered : ∀ {node up}, upOf ups node = some up → (rowAt node).ordinal = earlierSiblings ups node

namespace RowTree

variable {ups : List Nat} {rows : List NewNode} {rowAt : Nat → NewNode} (tree : RowTree ups rows rowAt)

include tree

/-- A row's children, by ordinal, are its node's. -/
theorem childRows_eq {up : Nat} (inside : up < ups.length + 1) :
    childRows rows (rowAt up) = (kidsOf ups up).map rowAt := by
  have found : rows.filter (·.parentId = some (rowAt up).nodeId) = (kidsOf ups up).map rowAt :=
    tree.filter_parentId inside
  rw [childRows, found]
  apply List.Pairwise.insertionSort_eq
  rw [List.pairwise_map]
  refine (kidsOf_sorted up).imp_of_mem fun {one other} member member' before => ?_
  have isUp := mem_kidsOf.mp member
  have isUp' := mem_kidsOf.mp member'
  have less := earlierSiblings_lt isUp isUp' before
  rw [tree.numbered isUp, tree.numbered isUp']
  omega

/-- **The walk by ordinals visits the rows in order.** -/
theorem walk_rows : walk (childRows rows) rows.length (rowAt 0) = rows := by
  rw [tree.length_rows, walk_map tree.spined.listed (fun up inside => tree.childRows_eq inside)
    (Nat.succ_pos _), tree.spined.walk_eq (Nat.le_refl _)]
  exact tree.all.symm

end RowTree

end Bookrack.Structure
