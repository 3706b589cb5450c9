/-
Node ids, their partitions (`core/src/partition.rs`) and node types (`core/src/node_type.rs`).

`PartitionIdx.At.divides`: a node composed from a partition and an offset is divided back to both.
-/

import Mathlib.Data.Int.Notation

namespace Bookrack

/-- The `i64` a computation leaves; a release build wraps. -/
def toI64 (n : Int) : Int := (BitVec.ofInt 64 n).toInt

theorem toI64_of_fits {n : Int} (low : -9223372036854775808 ≤ n) (high : n ≤ 9223372036854775807) :
    toI64 n = n := by
  rw [toI64, BitVec.toInt_ofInt]
  exact Int.bmod_eq_of_le (by omega) (by omega)

/-! ### Ids -/

/-- `NODE_PARTITION_FACTOR`. -/
def nodePartitionFactor : Int := 100000000

/-- `NODE_CAPACITY`: the largest local offset. -/
def nodeCapacity : Int := nodePartitionFactor - 1

/-- A node's global identifier. -/
structure NodeId where
  get : Int
  deriving DecidableEq, Repr

/-- The index of a book's id partition. -/
structure PartitionIdx where
  get : Int
  deriving DecidableEq, Repr

/-- `NodeId::partition`; the division truncates. -/
def NodeId.partition (node : NodeId) : PartitionIdx := ⟨node.get.tdiv nodePartitionFactor⟩

/-- `NodeId::local_offset`. -/
def NodeId.localOffset (node : NodeId) : Int := node.get.tmod nodePartitionFactor

namespace PartitionIdx

/-- `PartitionIdx::root`: local offset 1. -/
def root (idx : PartitionIdx) : NodeId := ⟨toI64 (idx.get * nodePartitionFactor + 1)⟩

/-- `PartitionIdx::node_id`. -/
def nodeId (idx : PartitionIdx) (localOffset : Int) : Option NodeId :=
  if 1 ≤ localOffset ∧ localOffset ≤ nodeCapacity then
    some ⟨toI64 (idx.get * nodePartitionFactor + localOffset)⟩
  else none

/-- `PartitionIdx::contains`. -/
def contains (idx : PartitionIdx) (node : NodeId) : Bool :=
  decide (node.get.tdiv nodePartitionFactor = idx.get)

@[simp] theorem contains_iff {idx : PartitionIdx} {node : NodeId} :
    idx.contains node = true ↔ node.partition = idx := by
  obtain ⟨raw⟩ := idx
  simp [contains, NodeId.partition]

/-- A positive index all of whose node ids fit in an `i64`. -/
structure Fits (idx : PartitionIdx) : Prop where
  positive : 1 ≤ idx.get
  fits : idx.get * nodePartitionFactor + nodeCapacity ≤ 9223372036854775807

instance (idx : PartitionIdx) : Decidable idx.Fits :=
  decidable_of_iff (1 ≤ idx.get ∧
      idx.get * nodePartitionFactor + nodeCapacity ≤ 9223372036854775807)
    ⟨fun both => ⟨both.1, both.2⟩, fun fits => ⟨fits.positive, fits.fits⟩⟩

/-- A node at a local offset of a partition. -/
def At (idx : PartitionIdx) (localOffset : Int) (node : NodeId) : Prop :=
  1 ≤ localOffset ∧ localOffset ≤ nodeCapacity ∧
    node.get = idx.get * nodePartitionFactor + localOffset

variable {idx : PartitionIdx} {localOffset : Int} {node : NodeId}

theorem root_at (fits : idx.Fits) : idx.At 1 idx.root := by
  obtain ⟨positive, fits⟩ := fits
  unfold nodePartitionFactor nodeCapacity nodePartitionFactor at fits
  refine ⟨by decide, by decide, ?_⟩
  dsimp only [root]
  unfold nodePartitionFactor
  exact toI64_of_fits (by omega) (by omega)

theorem nodeId_eq (fits : idx.Fits) (first : 1 ≤ localOffset) (last : localOffset ≤ nodeCapacity) :
    idx.nodeId localOffset = some ⟨idx.get * nodePartitionFactor + localOffset⟩ := by
  obtain ⟨positive, fits⟩ := fits
  rw [nodeId, if_pos ⟨first, last⟩]
  unfold nodeCapacity nodePartitionFactor at *
  rw [toI64_of_fits (by omega) (by omega)]

/-- **A node of a partition is divided back to it**, and the remainder is its offset. -/
theorem At.divides (fits : idx.Fits) (isAt : idx.At localOffset node) :
    node.partition = idx ∧ node.localOffset = localOffset := by
  obtain ⟨positive, -⟩ := fits
  obtain ⟨first, last, isSum⟩ := isAt
  obtain ⟨raw⟩ := node
  obtain ⟨index⟩ := idx
  unfold nodeCapacity nodePartitionFactor at last
  unfold nodePartitionFactor at isSum
  dsimp only at isSum positive
  have nonnegative : 0 ≤ raw := by omega
  rw [NodeId.partition, NodeId.localOffset]
  unfold nodePartitionFactor
  rw [Int.tdiv_eq_ediv_of_nonneg nonnegative, Int.tmod_eq_emod_of_nonneg nonnegative,
    PartitionIdx.mk.injEq]
  omega

theorem root_partition (fits : idx.Fits) : idx.root.partition = idx :=
  ((root_at fits).divides fits).1

end PartitionIdx

/-! ### Types -/

/-- The type of a corpus node. -/
inductive NodeType
  | collection
  | volume
  | work
  | chapter
  | section
  | subsection
  | paragraph
  | heading
  | footnote
  | quote
  | poem
  | figure
  | figureCaption
  | table
  | formula
  | code
  | runningHeader
  | imageGarbage
  deriving DecidableEq, Repr

/-- `NodeType::is_organizing`. -/
def NodeType.isOrganizing : NodeType → Bool
  | .collection | .volume | .work | .chapter | .section | .subsection => true
  | _ => false

/-- `NodeType::is_prose_leaf`. -/
def NodeType.isProseLeaf : NodeType → Bool
  | .paragraph | .heading | .footnote | .quote | .poem => true
  | _ => false

theorem NodeType.not_organizing_of_proseLeaf {nodeType : NodeType}
    (isProse : nodeType.isProseLeaf = true) : nodeType.isOrganizing = false := by
  cases nodeType <;> first | rfl | exact absurd isProse (by decide)

end Bookrack
