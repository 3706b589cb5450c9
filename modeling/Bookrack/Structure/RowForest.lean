/-
Batches of rows that hold a forest.

* `DescendantRow rows`: following parent ids leads from one row to another.
* `RowForest size parent rows rowAt`: one row for each node, told apart by their ids and named by their
  parents' ids.
* **`RowForest.descendant_iff`** — following parent ids is following parents.
* `RowForest.insertNodes_alone`: such a batch goes into an empty table when its rows are well formed.
-/

import Bookrack.Base.Forest
import Bookrack.Corpus.Placed

namespace Bookrack.Structure

open Corpus Forest

/-- The parent id of one row is the id of another. -/
def ChildRow (rows : List NewNode) (row up : NewNode) : Prop :=
  row ∈ rows ∧ up ∈ rows ∧ row.parentId = some up.nodeId

/-- Following parent ids leads from one row to another. -/
def DescendantRow (rows : List NewNode) : NewNode → NewNode → Prop :=
  Relation.ReflTransGen (ChildRow rows)

/-- A row for each node, in order; the first is the root's. -/
structure RowForest (size : Nat) (parent : Nat → Option Nat) (rows : List NewNode) (rowAt : Nat → NewNode) :
    Prop where
  rooted : Rooted size parent
  all : rows = (List.range size).map rowAt
  distinct : (rows.map (·.nodeId)).Nodup
  root : (rowAt 0).parentId = none
  named : ∀ {node up}, parent node = some up → (rowAt node).parentId = some (rowAt up).nodeId

namespace RowForest

variable {size : Nat} {parent : Nat → Option Nat} {rows : List NewNode} {rowAt : Nat → NewNode}
  (forest : RowForest size parent rows rowAt)

include forest

theorem mem_iff {row : NewNode} : row ∈ rows ↔ ∃ node < size, rowAt node = row := by
  rw [forest.all, List.mem_map]
  exact exists_congr fun node => and_congr_left fun _ => List.mem_range

theorem mem {node : Nat} (inside : node < size) : rowAt node ∈ rows := forest.mem_iff.mpr ⟨node, inside, rfl⟩

theorem length_rows : rows.length = size := by
  rw [forest.all, List.length_map, List.length_range]

/-- Rows are told apart by their ids. -/
theorem nodeId_injective {one other : Nat} (inside : one < size) (inside' : other < size)
    (same : (rowAt one).nodeId = (rowAt other).nodeId) : one = other := by
  have distinct := forest.distinct
  rw [forest.all, List.map_map] at distinct
  exact List.inj_on_of_nodup_map distinct (List.mem_range.mpr inside) (List.mem_range.mpr inside') same

/-- A row without a parent is the root's. -/
theorem eq_root {node : Nat} (inside : node < size) (parentless : (rowAt node).parentId = none) : node = 0 := by
  by_contra notRoot
  obtain ⟨up, isUp⟩ := forest.rooted.attached (Nat.pos_of_ne_zero notRoot) inside
  rw [forest.named isUp] at parentless
  cases parentless

/-- A row with a parent is that of a node with one. -/
theorem exists_parent {node : Nat} (inside : node < size) {parentId : NodeId}
    (isParent : (rowAt node).parentId = some parentId) : ∃ up < node, parent node = some up ∧
      (rowAt up).nodeId = parentId := by
  cases isUp : parent node with
  | some up =>
    exact ⟨up, (forest.rooted.earlier isUp).1, rfl, Option.some.inj ((forest.named isUp).symm.trans isParent)⟩
  | none =>
    have isRoot : node = 0 := by
      by_contra notRoot
      obtain ⟨up, isUp'⟩ := forest.rooted.attached (Nat.pos_of_ne_zero notRoot) inside
      cases isUp.symm.trans isUp'
    rw [isRoot, forest.root] at isParent
    cases isParent

/-- A parent id names the row of the parent. -/
theorem parentId_iff {node up : Nat} (inside : node < size) (upInside : up < size) :
    (rowAt node).parentId = some (rowAt up).nodeId ↔ parent node = some up := by
  constructor
  · intro names
    obtain ⟨other, before, isUp, same⟩ := forest.exists_parent inside names
    rw [isUp, forest.nodeId_injective (before.trans inside) upInside same]
  · exact forest.named

/-- **Following parent ids is following parents.** -/
theorem descendant_iff {node above : Nat} (inside : node < size) (aboveInside : above < size) :
    DescendantRow rows (rowAt node) (rowAt above) ↔ Below parent node above := by
  constructor
  · intro descends
    obtain ⟨row, isRow⟩ : ∃ row, row = rowAt node := ⟨_, rfl⟩
    rw [← isRow] at descends
    induction descends using Relation.ReflTransGen.head_induction_on generalizing node with
    | refl => rw [forest.nodeId_injective inside aboveInside (by rw [isRow])]
    | head step _ ih =>
      obtain ⟨-, isUp, names⟩ := step
      obtain ⟨up, upInside, rfl⟩ := forest.mem_iff.mp isUp
      rw [isRow] at names
      exact .head ((forest.parentId_iff inside upInside).mp names) (ih upInside rfl)
  · intro below
    induction below using Relation.ReflTransGen.head_induction_on with
    | refl => exact .refl
    | head isUp _ ih =>
      have upInside := (forest.rooted.earlier isUp).1.trans inside
      exact .head ⟨forest.mem inside, forest.mem upInside, forest.named isUp⟩ (ih upInside)

/-- The root's is the one row without a parent. -/
theorem oneRoot (nonempty : 0 < size) : rows.filter (·.parentId.isNone) = [rowAt 0] := by
  obtain ⟨rest, rfl⟩ := Nat.exists_eq_add_of_lt nonempty
  rw [Nat.zero_add] at forest
  rw [forest.all, List.range_succ_eq_map, List.map_cons,
    List.filter_cons_of_pos (by rw [forest.root]; rfl)]
  congr 1
  rw [List.filter_eq_nil_iff, List.map_map]
  intro row member isRoot
  obtain ⟨node, inside, rfl⟩ := List.mem_map.mp member
  exact Nat.succ_ne_zero node (forest.eq_root (Nat.succ_lt_succ (List.mem_range.mp inside))
    (Option.isNone_iff_eq_none.mp isRoot))

/-- The rows under a row are those of the nodes under its node. -/
theorem filter_parentId {up : Nat} (inside : up < size) :
    rows.filter (·.parentId = some (rowAt up).nodeId) =
      ((List.range size).filter (parent · = some up)).map rowAt := by
  rw [forest.all, List.filter_map]
  congr 1
  apply List.filter_congr
  intro node member
  exact decide_eq_decide.mpr (forest.parentId_iff (List.mem_range.mp member) inside)

/-- **A forest of well-formed rows goes into an empty table.** -/
theorem insertNodes_alone (wellFormed : ∀ row ∈ rows, row.WellFormed) :
    Corpus.insertNodes [] rows = .ok rows := by
  have isNew : ∀ row ∈ rows, ∀ old ∈ ([] : List Node), old.nodeId ≠ row.nodeId :=
    fun _ _ _ isOld => absurd isOld List.not_mem_nil
  rw [Corpus.insertNodes, validateAll_of_wellFormed wellFormed,
    CorpusDb.insertAll_of_fresh forest.distinct isNew,
    List.nil_append]
  dsimp only
  rw [if_neg]
  intro ⟨row, isRow, parentId, isParent, missing⟩
  obtain ⟨node, inside, rfl⟩ := forest.mem_iff.mp isRow
  obtain ⟨up, before, -, same⟩ := forest.exists_parent inside isParent
  exact missing (rowAt up) (forest.mem (before.trans inside)) same

end RowForest

end Bookrack.Structure
