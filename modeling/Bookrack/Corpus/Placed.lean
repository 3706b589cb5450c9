/-
The nodes of one book (`corpus/src/node.rs`), and where they lie in `corpus.db`.

* `Placed`: every node sits at an offset of its book's partition.
* `bookNodes_dropPartition_self`, `bookNodes_dropPartition_ne`: a dropped partition takes its book's nodes
  and no other's.
* `allocatePartition_dropped`, `insertNodes_alone`: after a drop the partition can be allocated, and a batch
  goes in exactly when it would into an empty table.
-/

import Bookrack.Corpus.Partition
import Mathlib.Data.List.Sort

namespace Bookrack.Corpus

/-- `Corpus::book_nodes`. -/
def CorpusDb.bookNodes (corpus : CorpusDb) (bookRootId : NodeId) : List Node :=
  (corpus.nodes.filter fun node => decide (node.bookRootId = bookRootId)).insertionSort
    fun one other => one.nodeId.get ≤ other.nodeId.get

/-- Every node sits at an offset of its book's partition. -/
structure CorpusDb.Placed (corpus : CorpusDb) : Prop where
  keyed : ∀ row ∈ corpus.partitions, row.Keyed
  wellFormed : ∀ node ∈ corpus.nodes, node.WellFormed
  inBook : ∀ node ∈ corpus.nodes, ∃ idx : PartitionIdx, ∃ localOffset, idx.Fits ∧
    node.bookRootId = idx.root ∧ idx.At localOffset node.nodeId

theorem root_inj {idx other : PartitionIdx} (fits : idx.Fits) (fits' : other.Fits) :
    idx.root = other.root ↔ idx = other := by
  refine ⟨fun same => ?_, fun same => by rw [same]⟩
  rw [← PartitionIdx.root_partition fits, ← PartitionIdx.root_partition fits', same]

namespace CorpusDb

variable {corpus after : CorpusDb} {idx other : PartitionIdx}

theorem empty_placed : CorpusDb.empty.Placed where
  keyed := fun _ member => absurd member List.not_mem_nil
  wellFormed := fun _ member => absurd member List.not_mem_nil
  inBook := fun _ member => absurd member List.not_mem_nil

theorem mem_bookNodes {node : Node} {bookRootId : NodeId} :
    node ∈ corpus.bookNodes bookRootId ↔ node ∈ corpus.nodes ∧ node.bookRootId = bookRootId := by
  rw [bookNodes, (List.perm_insertionSort _ _).mem_iff, List.mem_filter, decide_eq_true_iff]

theorem bookNodes_of_nodes {bookRootId : NodeId} (sameNodes : after.nodes = corpus.nodes) :
    after.bookNodes bookRootId = corpus.bookNodes bookRootId := by
  rw [bookNodes, bookNodes, sameNodes]

/-! ### Dropping -/

theorem dropPartition_placed (placed : corpus.Placed) : (corpus.dropPartition idx).Placed where
  keyed := fun row member => placed.keyed row (List.mem_filter.mp member).1
  wellFormed := fun node member => placed.wellFormed node (Cascade.mem_remove.mp member).1
  inBook := fun node member => placed.inBook node (Cascade.mem_remove.mp member).1

theorem bookNodes_dropPartition_self : (corpus.dropPartition idx).bookNodes idx.root = [] := by
  rw [List.eq_nil_iff_forall_not_mem]
  intro node member
  obtain ⟨isLeft, isBook⟩ := mem_bookNodes.mp member
  have spared := Cascade.not_chosen_of_mem_remove isLeft
  rw [isBook, decide_eq_false_iff_not] at spared
  exact spared rfl

theorem bookNodes_dropPartition_ne (placed : corpus.Placed) (fits : idx.Fits) (fits' : other.Fits)
    (isOther : other ≠ idx) :
    (corpus.dropPartition idx).bookNodes other.root = corpus.bookNodes other.root := by
  have isFilter : (corpus.dropPartition idx).nodes.filter (fun node => decide (node.bookRootId = other.root)) =
      corpus.nodes.filter fun node => decide (node.bookRootId = other.root) := by
    show (List.filter _ _).filter _ = _
    rw [List.filter_filter]
    refine List.filter_congr fun node isNode => ?_
    by_cases isBook : node.bookRootId = other.root
    · have isLeft : node ∈ (corpus.dropPartition idx).nodes := by
        by_contra isGone
        have gone := (mem_dropPartition placed.wellFormed fits isNode isGone).2
        rw [isBook, PartitionIdx.root_partition fits'] at gone
        exact isOther gone
      simp [isBook, (Cascade.mem_remove.mp isLeft).2]
    · simp [isBook]
  rw [bookNodes, bookNodes, isFilter]

theorem not_mem_dropPartition : ∀ row ∈ (corpus.dropPartition idx).partitions, row.idx ≠ idx :=
  fun _ member => of_decide_eq_true (List.mem_filter.mp member).2

/-! ### Allocating -/

/-- The row a partition is allocated with. -/
def freshPartition (idx : PartitionIdx) (now : String) : Partition := ⟨idx, idx.root, idx.get, 2, now⟩

/-- The corpus once the partition is allocated. -/
def allocated (corpus : CorpusDb) (idx : PartitionIdx) (now : String) : CorpusDb :=
  { corpus with partitions := corpus.partitions ++ [freshPartition idx now] }

theorem freshPartition_keyed (fits : idx.Fits) (now : String) : (freshPartition idx now).Keyed :=
  ⟨rfl, rfl, fits, Int.le_refl 2, (by decide : (2 : Int) ≤ nodeCapacity + 1)⟩

theorem allocatePartition_free (placed : corpus.Placed) (fits : idx.Fits) (now : String)
    (free : ∀ row ∈ corpus.partitions, row.idx ≠ idx) :
    corpus.allocatePartition idx.get now = (.ok (freshPartition idx now), corpus.allocated idx now) := by
  have notOwned : ¬ ∃ row ∈ corpus.partitions, row.intakeId = idx.get := by
    rintro ⟨row, isRow, owned⟩
    refine free row isRow ?_
    rw [(placed.keyed row isRow).byIntake] at owned
    exact congrArg PartitionIdx.mk owned
  have notTaken : ¬ ∃ row ∈ corpus.partitions, row.idx = idx ∨ row.bookRootId = idx.root := by
    rintro ⟨row, isRow, isIdx | isRoot⟩
    · exact free row isRow isIdx
    · rw [(placed.keyed row isRow).rooted, root_inj (placed.keyed row isRow).fits fits] at isRoot
      exact free row isRow isRoot
  rw [allocatePartition, if_neg (by have := fits.positive; omega)]
  dsimp only
  rw [if_neg notOwned, if_neg notTaken]
  rfl

theorem allocated_placed (placed : corpus.Placed) (fits : idx.Fits) (now : String) :
    (corpus.allocated idx now).Placed where
  keyed := by
    intro row member
    rcases List.mem_append.mp member with isOld | isNew
    · exact placed.keyed row isOld
    · rw [List.mem_singleton.mp isNew]
      exact freshPartition_keyed fits now
  wellFormed := placed.wellFormed
  inBook := placed.inBook

/-- **After a drop, ids are handed out exactly while they fit the block.** -/
theorem allocateNodeIds_fresh (placed : corpus.Placed) (fits : idx.Fits) (now : String)
    (free : ∀ row ∈ corpus.partitions, row.idx ≠ idx) (count : UInt32) :
    if 1 + (count.toNat : Int) ≤ nodeCapacity then
      ∃ advanced : CorpusDb, advanced.Placed ∧ advanced.nodes = corpus.nodes ∧
        (corpus.allocated idx now).allocateNodeIds idx count = (.ok (idsFrom idx 2 count), advanced)
    else ∃ refused,
      (corpus.allocated idx now).allocateNodeIds idx count = (.error refused, corpus.allocated idx now) := by
  have isRow : (corpus.allocated idx now).partitions.find? (fun row => decide (row.idx = idx)) =
      some (freshPartition idx now) := by
    rw [allocated, List.find?_append, List.find?_eq_none.mpr fun row isRow isIdx =>
      free row isRow (of_decide_eq_true isIdx)]
    simp [freshPartition]
  have isPlaced := allocated_placed placed fits now
  rw [allocateNodeIds]
  split_ifs with roomy none none
  · refine ⟨_, isPlaced, rfl, ?_⟩
    rw [none]
    rfl
  · have isCount : (freshPartition idx now).nextLocalId + (count.toNat : Int) - 1 = 1 + count.toNat := by
      dsimp only [freshPartition]
      omega
    have positive : 0 < count.toNat := by
      rw [Nat.pos_iff_ne_zero]
      exact fun isZero => none (UInt32.toNat_inj.mp isZero)
    have ids : (List.range count.toNat).mapM (fun (i : Nat) =>
        idx.nodeId ((freshPartition idx now).nextLocalId + i)) = some (idsFrom idx 2 count) := by
      refine mapM_of_some fun i isIn => PartitionIdx.nodeId_eq fits ?_ ?_
      · dsimp only [freshPartition]
        omega
      · have := List.mem_range.mp isIn
        dsimp only [freshPartition]
        omega
    rw [isRow]
    dsimp only
    rw [isCount, if_neg (by omega), ids]
    refine ⟨(corpus.allocated idx now).setNextLocalId idx (1 + count.toNat + 1),
      ⟨?_, isPlaced.wellFormed, isPlaced.inBook⟩,
      rfl, rfl⟩
    intro row member
    obtain ⟨old, isOld, rfl⟩ := List.mem_map.mp member
    have keyed := isPlaced.keyed old isOld
    split_ifs
    · exact ⟨keyed.byIntake, keyed.rooted, keyed.fits, by dsimp only; omega, by dsimp only; omega⟩
    · exact keyed
  · rw [none] at roomy
    exact absurd (by decide : 1 + ((0 : UInt32).toNat : Int) ≤ nodeCapacity) roomy
  · rw [isRow]
    dsimp only
    rw [if_pos (by dsimp only [freshPartition]; omega)]
    exact ⟨_, rfl⟩

/-! ### Inserting -/

/-- A batch of nodes of one book, at offsets of its partition. -/
def InBook (idx : PartitionIdx) (nodes : List NewNode) : Prop :=
  ∀ node ∈ nodes, node.bookRootId = idx.root ∧ ∃ localOffset, idx.At localOffset node.nodeId

theorem insertAll_of_fresh {nodes : List NewNode} : ∀ {table : List Node},
    (nodes.map (·.nodeId)).Nodup → (∀ node ∈ nodes, ∀ row ∈ table, row.nodeId ≠ node.nodeId) →
    insertAll table nodes = .ok (table ++ nodes) := by
  induction nodes with
  | nil => exact fun _ _ => by rw [insertAll, List.append_nil]
  | cons node rest ih =>
    intro table distinct isNew
    rw [List.map_cons, List.nodup_cons] at distinct
    rw [insertAll, if_neg, ih distinct.2, List.append_assoc, List.singleton_append]
    · intro other isOther row isRow same
      rcases List.mem_append.mp isRow with isOld | isNode
      · exact isNew other (List.mem_cons_of_mem _ isOther) row isOld same
      · rw [List.mem_singleton.mp isNode] at same
        exact distinct.1 (same ▸ List.mem_map_of_mem isOther)
    · rintro ⟨row, isRow, same⟩
      exact isNew node List.mem_cons_self row isRow same

/-- A node of a book lies in its partition. -/
theorem InBook.partition {nodes : List NewNode} (inBook : InBook idx nodes) (fits : idx.Fits) {node : NewNode}
    (member : node ∈ nodes) : node.nodeId.partition = idx := by
  obtain ⟨_, _, isAt⟩ := inBook node member
  exact (isAt.divides fits).1

theorem partition_of_placed (placed : corpus.Placed) {row : Node} (isRow : row ∈ corpus.nodes) :
    ∃ other : PartitionIdx, other.Fits ∧ row.bookRootId = other.root ∧ row.nodeId.partition = other := by
  obtain ⟨other, _, fits, isRoot, isAt⟩ := placed.inBook row isRow
  exact ⟨other, fits, isRoot, (isAt.divides fits).1⟩

/-- **A batch goes in among the nodes of other books exactly when it would go in alone.** -/
theorem insertNodes_alone (placed : corpus.Placed) (fits : idx.Fits)
    (free : corpus.bookNodes idx.root = []) {nodes : List NewNode} (inBook : InBook idx nodes) :
    (∃ written, Corpus.insertNodes corpus.nodes nodes = .ok written) ↔
      ∃ written, Corpus.insertNodes [] nodes = .ok written := by
  have apart : ∀ row ∈ corpus.nodes, row.nodeId.partition ≠ idx := by
    intro row isRow isIdx
    obtain ⟨other, fits', isRoot, isPartition⟩ := partition_of_placed placed isRow
    have member : row ∈ corpus.bookNodes idx.root := by
      rw [mem_bookNodes, isRoot, ← isPartition, isIdx]
      exact ⟨isRow, rfl⟩
    rw [free] at member
    exact absurd member List.not_mem_nil
  constructor
  · rintro ⟨written, inserts⟩
    obtain ⟨isAll, distinct, -⟩ := insertNodes_ok inserts
    have wellFormed := insertNodes_wellFormed inserts
    unfold Corpus.insertNodes at inserts ⊢
    split at inserts
    · cases inserts
    · rename_i valid
      rw [insertAll_of_fresh distinct fun _ _ _ isRow => absurd isRow List.not_mem_nil]
      dsimp only
      split at inserts
      · cases inserts
      · split_ifs at inserts with orphan
        obtain rfl := Except.ok.inj inserts
        refine ⟨nodes, if_neg ?_⟩
        rintro ⟨node, isNode, parent, isParent, missing⟩
        refine orphan ⟨node, isNode, parent, isParent, fun row isRow => ?_⟩
        rw [isAll] at isRow
        rcases List.mem_append.mp isRow with isOld | isNew
        · intro same
          have isIdx := (wellFormed node isNode).parentPartition parent isParent
          rw [← same, (inBook node isNode).1, PartitionIdx.root_partition fits] at isIdx
          exact apart row isOld isIdx
        · exact missing row isNew
  · rintro ⟨written, inserts⟩
    obtain ⟨isAll, distinct, -⟩ := insertNodes_ok inserts
    rw [List.nil_append] at isAll
    unfold Corpus.insertNodes at inserts ⊢
    split at inserts
    · cases inserts
    · rename_i valid
      rw [insertAll_of_fresh distinct fun node isNode row isRow same =>
        apart row isRow (same ▸ inBook.partition fits isNode)]
      dsimp only
      split at inserts
      · cases inserts
      · split_ifs at inserts with orphan
        obtain rfl := Except.ok.inj inserts
        refine ⟨_, if_neg ?_⟩
        rintro ⟨node, isNode, parent, isParent, missing⟩
        refine orphan ⟨node, isNode, parent, isParent, fun row isRow => missing row ?_⟩
        rw [isAll] at isRow
        exact List.mem_append_right _ isRow

/-- **What a batch that goes in leaves**: the book's nodes are the batch, those of other books are as they
were. -/
theorem inserted_placed (placed : corpus.Placed) (fits : idx.Fits) {nodes written : List NewNode}
    (inBook : InBook idx nodes) (inserts : Corpus.insertNodes corpus.nodes nodes = .ok written) :
    Placed { corpus with nodes := written } where
  keyed := placed.keyed
  wellFormed := by
    obtain ⟨isAll, -, -⟩ := insertNodes_ok inserts
    intro node member
    rw [isAll] at member
    rcases List.mem_append.mp member with isOld | isNew
    · exact placed.wellFormed node isOld
    · exact insertNodes_wellFormed inserts node isNew
  inBook := by
    obtain ⟨isAll, -, -⟩ := insertNodes_ok inserts
    intro node member
    rw [isAll] at member
    rcases List.mem_append.mp member with isOld | isNew
    · exact placed.inBook node isOld
    · obtain ⟨isRoot, localOffset, isAt⟩ := inBook node isNew
      exact ⟨idx, localOffset, fits, isRoot, isAt⟩

/-- The nodes of a batch in the order they are read back. -/
def sortedNodes (nodes : List NewNode) : List Node :=
  nodes.insertionSort fun one other => one.nodeId.get ≤ other.nodeId.get

theorem bookNodes_inserted_self (free : corpus.bookNodes idx.root = []) {nodes written : List NewNode}
    (inBook : InBook idx nodes) (inserts : Corpus.insertNodes corpus.nodes nodes = .ok written) :
    CorpusDb.bookNodes { corpus with nodes := written } idx.root = sortedNodes nodes := by
  obtain ⟨rfl, -, -⟩ := insertNodes_ok inserts
  have none : (corpus.nodes.filter fun node => decide (node.bookRootId = idx.root)) = [] := by
    refine List.filter_eq_nil_iff.mpr fun row isRow isBook => ?_
    have member := mem_bookNodes.mpr ⟨isRow, of_decide_eq_true isBook⟩
    rw [free] at member
    exact absurd member List.not_mem_nil
  have all : (nodes.filter fun node => decide (node.bookRootId = idx.root)) = nodes :=
    List.filter_eq_self.mpr fun node member => decide_eq_true (inBook node member).1
  rw [bookNodes, List.filter_append, none, all, List.nil_append]
  rfl

theorem bookNodes_inserted_ne (fits : idx.Fits) (fits' : other.Fits) (isOther : other ≠ idx)
    {nodes written : List NewNode} (inBook : InBook idx nodes)
    (inserts : Corpus.insertNodes corpus.nodes nodes = .ok written) :
    CorpusDb.bookNodes { corpus with nodes := written } other.root = corpus.bookNodes other.root := by
  obtain ⟨rfl, -, -⟩ := insertNodes_ok inserts
  have none : (nodes.filter fun node => decide (node.bookRootId = other.root)) = [] := by
    refine List.filter_eq_nil_iff.mpr fun node member isBook => isOther ?_
    have isRoot := of_decide_eq_true isBook
    rw [(inBook node member).1] at isRoot
    exact ((root_inj fits fits').mp isRoot).symm
  rw [bookNodes, bookNodes, List.filter_append, none, List.append_nil]

end CorpusDb

end Bookrack.Corpus
