/-
`build_structure` writes the tree of the paper.

* `buildStructure_writes` — its writes are those of a tree (`writeTree`), with the batch `paperBatch`.
* `PaperIds.handed`: the ids a dropped partition hands out. `paperBatch_built`: bound to them, the batch
  is the tree of the paper; `paperBatch_isSome`: and it is one while the partition has room.
* **`buildStructure_paperTree`** — for every abstract and every block list, a run that returns has left
  the tree of the paper; and a run returns when its writes go through and the partition has room.
-/

import Bookrack.Glean.PaperTree

namespace Bookrack.Glean

open Corpus (NewNode)
open Corpus.CorpusDb (InBook idsFrom sortedNodes)
open Prog
open Structure (TextFns plainFns RowTree)

/-! ### The writes -/

/-- The nodes of a paper, waiting for their ids. -/
def paperBatch (fns : TextFns) (call : BuildCall) : TreeBatch where
  count := UInt32.ofNat call.planner.plans.length
  bind := paperNodes fns call.planner.plans

/-- The writes of a call: with nothing planned no id is asked for. -/
def BuildCall.treeFates (call : BuildCall) : TreeFates :=
  if call.planner.plans.isEmpty then { call.fates with allocateIds := .done } else call.fates

theorem allocateFor_eq (idx : PartitionIdx) (plans : List PendingNode) (fate : Fate) :
    allocateFor idx plans fate =
      corpusCall (if plans.isEmpty then .done else fate)
        (·.allocateNodeIds idx (UInt32.ofNat plans.length)) := by
  cases plans with
  | nil => rfl
  | cons plan rest => rfl

/-- **The writes of `build_structure`** are those of a tree. -/
theorem buildStructure_writes (fns : TextFns) (call : BuildCall) :
    (buildStructure fns call >>= fun result => pure result.nodesWritten) =
      writeTree ⟨call.intakeId⟩ call.now (paperBatch fns call) call.treeFates := by
  have sameFates : call.treeFates.drop = call.fates.drop ∧
      call.treeFates.allocatePartition = call.fates.allocatePartition ∧
      call.treeFates.insert = call.fates.insert ∧
      call.treeFates.allocateIds = if call.planner.plans.isEmpty then .done else call.fates.allocateIds := by
    unfold BuildCall.treeFates
    split_ifs
    · exact ⟨rfl, rfl, rfl, rfl⟩
    · exact ⟨rfl, rfl, rfl, rfl⟩
  obtain ⟨sameDrop, samePartition, sameInsert, sameIds⟩ := sameFates
  unfold buildStructure writeTree
  rw [sameDrop, samePartition, sameInsert, sameIds, bind_bind]
  congr 1
  funext _
  rw [bind_bind]
  congr 1
  funext allocated
  cases allocated with
  | error _ => rfl
  | ok partition =>
    dsimp only
    rw [allocateFor_eq, bind_bind]
    congr 1
    funext handed
    cases handed with
    | error refused => cases refused <;> rfl
    | ok ids =>
      dsimp only
      rw [bind_bind]
      congr 1
      funext nodes
      rw [bind_bind]
      congr 1
      funext inserted
      cases inserted with
      | error _ => rfl
      | ok _ => rfl

/-! ### The ids -/

section Handed

variable {idx : PartitionIdx} {count : UInt32}

/-- **The ids a dropped partition hands out.** -/
theorem PaperIds.handed (fits : idx.Fits) (roomy : 1 + (count.toNat : Int) ≤ nodeCapacity) :
    PaperIds idx idx.root (idsFrom idx 2 count) where
  distinct := by
    rw [List.nodup_cons]
    refine ⟨fun member => ?_, Corpus.CorpusDb.idsFrom_nodup 2⟩
    obtain ⟨offset, isAt, past, -⟩ := Corpus.CorpusDb.idsFrom_at (by omega) (by omega) member
    have isOffset := (isAt.divides fits).2
    rw [((PartitionIdx.root_at fits).divides fits).2] at isOffset
    omega
  partition := by
    intro id member
    obtain ⟨_, isAt⟩ := at_of_mem_ids fits roomy member
    exact (isAt.divides fits).1

theorem handed_sorted (fits : idx.Fits) (roomy : 1 + (count.toNat : Int) ≤ nodeCapacity) :
    (idx.root :: idsFrom idx 2 count).Pairwise fun one other => one.get ≤ other.get := by
  rw [List.pairwise_cons]
  constructor
  · intro id member
    obtain ⟨offset, ⟨_, _, isSum⟩, past, -⟩ := Corpus.CorpusDb.idsFrom_at (by omega) (by omega) member
    obtain ⟨_, _, isRoot⟩ := PartitionIdx.root_at fits
    omega
  · rw [idsFrom, List.pairwise_map]
    refine List.pairwise_lt_range.imp fun before => ?_
    dsimp only
    omega

end Handed

section Batch

variable {fns : TextFns} {call : BuildCall} {workNodeId : NodeId} {ids : List NodeId} {rows : List NewNode}
  {rowAt : Nat → NewNode}

/-- Rows in the order of their ids are sorted. -/
theorem BoundPaper.sorted {plans : List PendingNode} (bound : BoundPaper plans workNodeId ids rows rowAt)
    (ordered : (workNodeId :: ids).Pairwise fun one other => one.get ≤ other.get) : sortedNodes rows = rows := by
  apply List.Pairwise.insertionSort_eq
  rw [← List.pairwise_map (f := NewNode.nodeId) (R := fun one other => one.get ≤ other.get), bound.map_nodeId]
  exact ordered.sublist ((List.take_sublist _ _).cons_cons _)

/-- The rows are the book's. -/
theorem BoundPaper.inBook {plans : List PendingNode} {idx : PartitionIdx} {count : UInt32}
    (fits : idx.Fits) (roomy : 1 + (count.toNat : Int) ≤ nodeCapacity)
    (bound : BoundPaper plans idx.root (idsFrom idx 2 count) rows rowAt) : InBook idx rows := by
  intro row member
  have isId : row.nodeId ∈ idx.root :: idsFrom idx 2 count := by
    have isMapped := List.mem_map_of_mem (f := NewNode.nodeId) member
    rw [bound.map_nodeId] at isMapped
    exact ((List.take_sublist _ _).cons_cons _).subset isMapped
  refine ⟨?_, at_of_mem_ids fits roomy isId⟩
  rw [bound.rows_eq] at member
  rcases List.mem_cons.mp member with rfl | isPlanned
  · exact bound.work_bookRootId
  · obtain ⟨place, inside, rfl⟩ := List.mem_map.mp isPlanned
    exact (bound.isRow (List.getElem?_eq_getElem (List.mem_range.mp inside))).1.bookRootId

/-- What the batch binds: the rows of the plan, under the ids of the partition. -/
theorem paperBatch_bound (fits : PartitionIdx.Fits ⟨call.intakeId⟩) {tree : List NewNode}
    (built : (paperBatch fns call).built ⟨call.intakeId⟩ = some tree) : ∃ workNodeId ids rowAt,
    BoundPaper call.planner.plans workNodeId ids tree rowAt ∧ PaperIds ⟨call.intakeId⟩ workNodeId ids := by
  unfold TreeBatch.built at built
  split_ifs at built with roomy
  split at built
  · cases built
  · rename_i rows isBound
    split at built
    · cases built
    · obtain rfl := Option.some.inj built
      obtain ⟨rowAt, bound⟩ := paperNodes_bound isBound
      rw [bound.sorted (handed_sorted fits roomy)]
      exact ⟨_, _, rowAt, bound, .handed fits roomy⟩

/-- **The batch is the tree of the paper.** -/
theorem paperBatch_built (fits : PartitionIdx.Fits ⟨call.intakeId⟩) {tree : List NewNode}
    (built : (paperBatch fns call).built ⟨call.intakeId⟩ = some tree) :
    PaperTree call.intakeId call.abstractText call.bodyBlocks tree := by
  obtain ⟨workNodeId, ids, rowAt, bound, paperIds⟩ := paperBatch_bound fits built
  exact bound.paperTree paperIds

/-- **While the partition has room**, it is one. -/
theorem paperBatch_isSome (fits : PartitionIdx.Fits ⟨call.intakeId⟩)
    (roomy : 1 + (call.planner.plans.length : Int) ≤ nodeCapacity) :
    ((paperBatch fns call).built ⟨call.intakeId⟩).isSome := by
  have planned : Planned call.planner.plans :=
    (planPaper_sound call.intakeId call.abstractText call.bodyBlocks).1.isOpen.planned
  have isCount : (UInt32.ofNat call.planner.plans.length).toNat = call.planner.plans.length := by
    unfold nodeCapacity nodePartitionFactor at roomy
    exact UInt32.toNat_ofNat_of_lt' (by show call.planner.plans.length < 4294967296; omega)
  have roomy' : 1 + ((paperBatch fns call).count.toNat : Int) ≤ nodeCapacity := by
    rw [paperBatch, isCount]
    exact roomy
  have enough : call.planner.plans.length ≤ (idsFrom ⟨call.intakeId⟩ 2 (paperBatch fns call).count).length := by
    rw [idsFrom, List.length_map, List.length_range, paperBatch, isCount]
  obtain ⟨rows, isRows⟩ : ∃ rows, paperNodes fns call.planner.plans (PartitionIdx.root ⟨call.intakeId⟩)
      (idsFrom ⟨call.intakeId⟩ 2 (paperBatch fns call).count) = some rows := paperNodes_isSome planned enough
  obtain ⟨rowAt, bound⟩ := paperNodes_bound isRows
  have paperIds := PaperIds.handed fits roomy'
  have wellFormed : ∀ row ∈ rows, row.WellFormed := fun row member =>
    row.validate_ok_iff.mp ((bound.paperTree paperIds).valid row member)
  have isBound : (paperBatch fns call).bind (PartitionIdx.root ⟨call.intakeId⟩)
      (idsFrom ⟨call.intakeId⟩ 2 (paperBatch fns call).count) = some rows := isRows
  rw [TreeBatch.built, if_pos roomy', isBound]
  dsimp only
  rw [(bound.rowTree planned paperIds).insertNodes_alone wellFormed]
  rfl

end Batch

/-! ### The run -/

/-- The writes go through, and the partition has room for the paper. -/
def BuildCall.Writes (call : BuildCall) : Prop :=
  call.fates = .allDone ∧ 1 + (call.planner.plans.length : Int) ≤ nodeCapacity

instance (call : BuildCall) : Decidable call.Writes := inferInstanceAs (Decidable (_ ∧ _))

/-- **What `build_structure` leaves** is what the batch is bound to. -/
theorem buildStructure_built {fns : TextFns} {call : BuildCall} (fits : PartitionIdx.Fits ⟨call.intakeId⟩)
    {library : Library} (placed : library.corpus.Placed) :
    Ends (buildStructure fns call) library
      (fun _ after => ∃ tree, (paperBatch fns call).built ⟨call.intakeId⟩ = some tree ∧
        Retree ⟨call.intakeId⟩ tree library after)
      (fun _ _ => ¬ call.Writes) (fun _ => ¬ call.Writes) := by
  have unwritten : ¬ (call.treeFates = .allDone ∧ ((paperBatch fns call).built ⟨call.intakeId⟩).isSome) →
      ¬ call.Writes := by
    intro notAll ⟨allDone, roomy⟩
    refine notAll ⟨?_, paperBatch_isSome fits roomy⟩
    unfold BuildCall.treeFates
    rw [allDone]
    split_ifs <;> rfl
  have undropped : call.treeFates.drop ≠ .done → ¬ call.Writes := by
    intro notDone ⟨allDone, _⟩
    refine notDone ?_
    unfold BuildCall.treeFates
    rw [allDone]
    split_ifs <;> rfl
  have writes : Ends (writeTree ⟨call.intakeId⟩ call.now (paperBatch fns call) call.treeFates) library _ _ _ :=
    writeTree_ends fits placed fun roomy nodes isBound => by
      obtain ⟨rowAt, bound⟩ := paperNodes_bound isBound
      exact bound.inBook fits roomy
  rw [← buildStructure_writes, ends_bind] at writes
  refine writes.mono ?_ ?_ ?_
  · intro _ after ⟨_, tree, built, retree⟩
    exact ⟨tree, built, retree⟩
  · intro _ after ends
    rcases ends with ⟨isFailed, -⟩ | ⟨-, notAll, -⟩
    · exact undropped (isFailed ▸ by decide)
    · exact unwritten notAll
  · intro after ends
    rcases ends with ⟨isCut, -⟩ | ⟨-, notAll, -⟩
    · exact undropped (isCut ▸ by decide)
    · exact unwritten notAll

/-- **`build_structure` writes the tree of the paper.** -/
theorem buildStructure_paperTree {fns : TextFns} {call : BuildCall} (fits : PartitionIdx.Fits ⟨call.intakeId⟩)
    {library : Library} (placed : library.corpus.Placed) :
    Ends (buildStructure fns call) library
      (fun _ after => ∃ rows, PaperTree call.intakeId call.abstractText call.bodyBlocks rows ∧
        Retree ⟨call.intakeId⟩ rows library after)
      (fun _ _ => ¬ call.Writes) (fun _ => ¬ call.Writes) := by
  refine (buildStructure_built fits placed).mono ?_ (fun _ _ => id) fun _ => id
  intro _ after ⟨tree, built, retree⟩
  exact ⟨tree, paperBatch_built fits built, retree⟩

/-- A paper with an abstract, a section and a caption after a blank block. -/
def plainPaper : BuildCall where
  intakeId := 7
  abstractText := some " An abstract. "
  bodyBlocks := [⟨.body, "Before.", 0⟩, ⟨.heading 2, "Auto", 1⟩, ⟨.body, " ", 1⟩, ⟨.caption, "Figure 1", 2⟩]
  now := "2026-01-01"
  fates := .allDone

/-- Written into an empty library. -/
theorem plainPaper_paperTree : ∃ rows, PaperTree 7 plainPaper.abstractText plainPaper.bodyBlocks rows ∧
    ∃ result after, buildStructure plainFns plainPaper .empty = (.value result, after) ∧
      after.tree 7 = rows := by
  have placed : Library.empty.corpus.Placed := Corpus.CorpusDb.empty_placed
  have fits : PartitionIdx.Fits ⟨plainPaper.intakeId⟩ := by decide
  have ends := @buildStructure_paperTree plainFns plainPaper fits .empty placed
  have writes : plainPaper.Writes := by decide
  unfold Ends at ends
  split at ends
  · rename_i result after isValue
    obtain ⟨rows, isTree, retree⟩ := ends
    exact ⟨rows, isTree, result, after, isValue, retree.self⟩
  · exact absurd writes ends
  · exact absurd writes ends

end Bookrack.Glean
