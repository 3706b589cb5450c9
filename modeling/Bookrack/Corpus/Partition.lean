/-
The node-id partition allocator (`corpus/src/partition.rs`) over the two tables of `corpus.db`, and
histories of its calls and of node inserts.

* `CorpusDb.allocatePartition`, `CorpusDb.allocateNodeIds`, `CorpusDb.dropPartition`, as calls that return
  and leave a corpus; `History` adds the ids handed out for the partitions that are live.
* `History.Sound`: every allocator row is keyed by its intake, and every id handed out for a live
  partition lies below that partition's cursor. `Sound.step`: every call keeps it.
* **`ids_distinct_and_confined`**: over every history, the live ids are distinct and stay in their
  book, a refused allocation changes nothing, and dropping a book removes no other book's node.
-/

import Bookrack.Base.Cascade
import Bookrack.Base.Run
import Bookrack.Corpus.Node

namespace Bookrack.Corpus

open Run

/-! ### The tables -/

/-- One allocated partition: a row of `node_id_partitions`. -/
structure Partition where
  idx : PartitionIdx
  bookRootId : NodeId
  intakeId : Int
  nextLocalId : Int
  allocatedAt : String
  deriving DecidableEq, Repr

/-- `corpus.db`: the allocator's rows and the nodes. -/
structure CorpusDb where
  partitions : List Partition
  nodes : List Node
  deriving DecidableEq, Repr

/-- Why an allocation failed. `offsetOutOfRange` is the panic of `expect` while ids are composed. -/
inductive PartitionError
  | invalidIntakeId (intakeId : Int)
  | partitionAlreadyAllocated (intakeId : Int)
  | unknownPartition (partition : PartitionIdx)
  | partitionExhausted (partition : PartitionIdx) (requested : UInt32)
  | uniqueViolation
  | offsetOutOfRange
  deriving DecidableEq, Repr

namespace CorpusDb

/-- `Corpus::open` on a new file. -/
def empty : CorpusDb := ⟨[], []⟩

/-- `Corpus::allocate_partition`; `now` is SQLite's timestamp. -/
def allocatePartition (corpus : CorpusDb) (intakeId : Int) (now : String) :
    Except PartitionError Partition × CorpusDb :=
  if intakeId < 1 then (.error (.invalidIntakeId intakeId), corpus)
  else
    let idx : PartitionIdx := ⟨intakeId⟩
    let bookRootId := idx.root
    if ∃ row ∈ corpus.partitions, row.intakeId = intakeId then
      (.error (.partitionAlreadyAllocated intakeId), corpus)
    else if ∃ row ∈ corpus.partitions, row.idx = idx ∨ row.bookRootId = bookRootId then
      -- the primary key and the unique root column; the transaction rolls back
      (.error .uniqueViolation, corpus)
    else
      let row : Partition := ⟨idx, bookRootId, intakeId, 2, now⟩
      (.ok row, { corpus with partitions := corpus.partitions ++ [row] })

/-- `Corpus::partition_for_intake`. -/
def partitionForIntake (corpus : CorpusDb) (intakeId : Int) : Option Partition :=
  corpus.partitions.find? fun row => decide (row.intakeId = intakeId)

/-- `UPDATE_NEXT_LOCAL_ID`. -/
def setNextLocalId (corpus : CorpusDb) (partition : PartitionIdx) (next : Int) : CorpusDb :=
  { corpus with
    partitions := corpus.partitions.map fun row =>
      if row.idx = partition then { row with nextLocalId := next } else row }

/-- `Corpus::allocate_node_ids`. -/
def allocateNodeIds (corpus : CorpusDb) (partition : PartitionIdx) (count : UInt32) :
    Except PartitionError (List NodeId) × CorpusDb :=
  if count = 0 then (.ok [], corpus)
  else
    match corpus.partitions.find? fun row => decide (row.idx = partition) with
    | none => (.error (.unknownPartition partition), corpus)
    | some row =>
      let next := row.nextLocalId
      let last := next + count.toNat - 1
      if nodeCapacity < last then (.error (.partitionExhausted partition count), corpus)
      else
        let advanced := corpus.setNextLocalId partition (last + 1)
        match (List.range count.toNat).mapM fun (i : Nat) => partition.nodeId (next + i) with
        | none => (.error .offsetOutOfRange, advanced)
        | some ids => (.ok ids, advanced)

/-- `Corpus::insert_nodes`. -/
def insertNodes (corpus : CorpusDb) (nodes : List NewNode) : Except CorpusError Unit × CorpusDb :=
  match Bookrack.Corpus.insertNodes corpus.nodes nodes with
  | .error refused => (.error refused, corpus)
  | .ok written => (.ok (), { corpus with nodes := written })

/-- `Corpus::drop_partition`: the rows that carry the book's root id go with everything below them
(`parent_id` cascades), then the allocator row. -/
def dropPartition (corpus : CorpusDb) (partition : PartitionIdx) : CorpusDb where
  partitions := corpus.partitions.filter fun row => decide (row.idx ≠ partition)
  nodes := Cascade.remove NewNode.nodeId NewNode.parentId corpus.nodes
    fun row => decide (row.bookRootId = partition.root)

end CorpusDb

/-! ### Histories -/

/-- One call. `insert_node` is the batch of one. -/
inductive Op
  | allocatePartition (intakeId : Int) (now : String)
  | allocateNodeIds (partition : PartitionIdx) (count : UInt32)
  | insertNodes (nodes : List NewNode)
  | dropPartition (partition : PartitionIdx)
  deriving DecidableEq, Repr

/-- The intake a call names is positive and its node ids fit in an `i64`. -/
def Op.Fits : Op → Prop
  | .allocatePartition intakeId _ => PartitionIdx.Fits ⟨intakeId⟩
  | .dropPartition partition => partition.Fits
  | _ => True

instance : DecidablePred Op.Fits
  | .allocatePartition intakeId _ => inferInstanceAs (Decidable (PartitionIdx.Fits ⟨intakeId⟩))
  | .dropPartition partition => inferInstanceAs (Decidable partition.Fits)
  | .allocateNodeIds _ _ => isTrue trivial
  | .insertNodes _ => isTrue trivial

/-- The corpus with the ids handed out for the partitions that are live, roots included. -/
structure History where
  corpus : CorpusDb
  handed : List (PartitionIdx × NodeId)

namespace History

def start : History := ⟨.empty, []⟩

/-- The state a call leaves. -/
def after (history : History) : Op → History
  | .allocatePartition intakeId now =>
    match history.corpus.allocatePartition intakeId now with
    | (.ok row, corpus) => ⟨corpus, history.handed ++ [(row.idx, row.bookRootId)]⟩
    | (.error _, corpus) => ⟨corpus, history.handed⟩
  | .allocateNodeIds partition count =>
    match history.corpus.allocateNodeIds partition count with
    | (.ok ids, corpus) => ⟨corpus, history.handed ++ ids.map (Prod.mk partition)⟩
    | (.error _, corpus) => ⟨corpus, history.handed⟩
  | .insertNodes nodes => ⟨(history.corpus.insertNodes nodes).2, history.handed⟩
  | .dropPartition partition =>
    ⟨history.corpus.dropPartition partition,
      history.handed.filter fun entry => decide (entry.1 ≠ partition)⟩

end History

/-- One call of a history. -/
def Step (before : History) (op : Op) (next : History) : Prop := op.Fits ∧ next = before.after op

/-! ### What the allocator keeps -/

/-- An allocator row: keyed by its intake, its cursor past the root and inside the block. -/
structure Partition.Keyed (row : Partition) : Prop where
  byIntake : row.intakeId = row.idx.get
  rooted : row.bookRootId = row.idx.root
  fits : row.idx.Fits
  pastRoot : 2 ≤ row.nextLocalId
  inside : row.nextLocalId ≤ nodeCapacity + 1

/-- An id handed out for a partition lies below the partition's cursor. -/
def Below (partitions : List Partition) (entry : PartitionIdx × NodeId) : Prop :=
  ∃ row ∈ partitions, row.idx = entry.1 ∧
    ∃ offset, entry.1.At offset entry.2 ∧ offset < row.nextLocalId

namespace History

/-- What holds in every history. -/
structure Sound (history : History) : Prop where
  keyed : ∀ row ∈ history.corpus.partitions, row.Keyed
  single : (history.corpus.partitions.map (·.idx)).Nodup
  below : ∀ entry ∈ history.handed, Below history.corpus.partitions entry
  distinct : (history.handed.map Prod.snd).Nodup
  placed : ∀ node ∈ history.corpus.nodes, node.WellFormed

end History

theorem mapM_of_some {α β : Type} {f : α → Option β} {g : α → β} {values : List α}
    (each : ∀ value ∈ values, f value = some (g value)) :
    values.mapM f = some (values.map g) := by
  induction values with
  | nil => rfl
  | cons value rest ih =>
    rw [List.mapM_cons, each value List.mem_cons_self,
      ih fun other member => each other (List.mem_cons_of_mem _ member)]
    rfl

namespace CorpusDb

variable {corpus after : CorpusDb} {partition : PartitionIdx} {count : UInt32}

/-- The ids from a local offset on. -/
def idsFrom (partition : PartitionIdx) (next : Int) (count : UInt32) : List NodeId :=
  (List.range count.toNat).map fun (i : Nat) => ⟨partition.get * nodePartitionFactor + (next + i)⟩

theorem allocatePartition_refused {intakeId : Int} {now : String} {refused : PartitionError}
    (isRefused : corpus.allocatePartition intakeId now = (.error refused, after)) :
    after = corpus := by
  dsimp only [allocatePartition] at isRefused
  split_ifs at isRefused with low owned taken
  · exact (Prod.mk.inj isRefused).2.symm
  · exact (Prod.mk.inj isRefused).2.symm
  · exact (Prod.mk.inj isRefused).2.symm
  · cases (Prod.mk.inj isRefused).1

/-- An allocated partition is new, keyed by its intake, and its cursor stands past the root. -/
theorem allocatePartition_ok {intakeId : Int} {now : String} {row : Partition}
    (isDone : corpus.allocatePartition intakeId now = (.ok row, after)) :
    row = ⟨⟨intakeId⟩, (PartitionIdx.mk intakeId).root, intakeId, 2, now⟩ ∧
      (∀ other ∈ corpus.partitions, other.idx ≠ ⟨intakeId⟩) ∧
      after = { corpus with partitions := corpus.partitions ++ [row] } := by
  dsimp only [allocatePartition] at isDone
  split_ifs at isDone with low owned taken
  · cases (Prod.mk.inj isDone).1
  · cases (Prod.mk.inj isDone).1
  · cases (Prod.mk.inj isDone).1
  · obtain ⟨isRow, isAfter⟩ := Prod.mk.inj isDone
    obtain rfl := Except.ok.inj isRow
    exact ⟨rfl, fun other isOther same => taken ⟨other, isOther, .inl same⟩, isAfter.symm⟩

/-- **A call for ids** reserves none and is refused or empty, or it hands out the next ones up to the
new cursor; composing them never panics. -/
theorem allocateNodeIds_cases (keyed : ∀ row ∈ corpus.partitions, row.Keyed)
    (partition : PartitionIdx) (count : UInt32) :
    (∃ refused, corpus.allocateNodeIds partition count = (.error refused, corpus)) ∨
    count = 0 ∧ corpus.allocateNodeIds partition count = (.ok [], corpus) ∨
    ∃ row ∈ corpus.partitions, row.idx = partition ∧
      row.nextLocalId + count.toNat ≤ nodeCapacity + 1 ∧
      corpus.allocateNodeIds partition count = (.ok (idsFrom partition row.nextLocalId count),
        corpus.setNextLocalId partition (row.nextLocalId + count.toNat)) := by
  unfold allocateNodeIds
  split_ifs with none
  · exact .inr (.inl ⟨none, rfl⟩)
  · split
    · exact .inl ⟨_, rfl⟩
    · rename_i row isRow
      obtain ⟨isIdx, isMember⟩ : row.idx = partition ∧ row ∈ corpus.partitions :=
        ⟨by simpa using List.find?_some isRow, List.mem_of_find?_eq_some isRow⟩
      subst isIdx
      obtain ⟨byIntake, rooted, fits, pastRoot, inside⟩ := keyed row isMember
      dsimp only
      split_ifs with exceeds
      · exact .inl ⟨_, rfl⟩
      · refine .inr (.inr ⟨row, isMember, rfl, by omega, ?_⟩)
        rw [mapM_of_some fun i isIn => PartitionIdx.nodeId_eq fits (by omega) (by
          have := List.mem_range.mp isIn
          omega)]
        rw [show row.nextLocalId + count.toNat - 1 + 1 = row.nextLocalId + (count.toNat : Int) by
          omega]
        rfl

theorem allocateNodeIds_refused (keyed : ∀ row ∈ corpus.partitions, row.Keyed)
    {refused : PartitionError}
    (isRefused : corpus.allocateNodeIds partition count = (.error refused, after)) :
    after = corpus := by
  rcases allocateNodeIds_cases keyed partition count with
    ⟨other, isOther⟩ | ⟨-, isEmpty⟩ | ⟨row, -, -, -, isDone⟩
  · exact (Prod.mk.inj (isRefused.symm.trans isOther)).2
  · cases (Prod.mk.inj (isRefused.symm.trans isEmpty)).1
  · cases (Prod.mk.inj (isRefused.symm.trans isDone)).1

/-- A call that is granted hands out as many ids as it was asked for. -/
theorem allocateNodeIds_granted (keyed : ∀ row ∈ corpus.partitions, row.Keyed) {ids : List NodeId}
    (isGranted : corpus.allocateNodeIds partition count = (.ok ids, after)) :
    ids.length = count.toNat := by
  rcases allocateNodeIds_cases keyed partition count with
    ⟨refused, isRefused⟩ | ⟨rfl, isEmpty⟩ | ⟨row, -, -, -, isDone⟩
  · cases (Prod.mk.inj (isGranted.symm.trans isRefused)).1
  · obtain rfl := Except.ok.inj (Prod.mk.inj (isGranted.symm.trans isEmpty)).1
    rfl
  · obtain rfl := Except.ok.inj (Prod.mk.inj (isGranted.symm.trans isDone)).1
    rw [idsFrom, List.length_map, List.length_range]

theorem idsFrom_at {next : Int} (first : 1 ≤ next) (last : next + count.toNat ≤ nodeCapacity + 1)
    {node : NodeId} (isId : node ∈ idsFrom partition next count) :
    ∃ offset, partition.At offset node ∧ next ≤ offset ∧ offset < next + count.toNat := by
  obtain ⟨i, isIn, rfl⟩ := List.mem_map.mp isId
  have := List.mem_range.mp isIn
  exact ⟨next + i, ⟨by omega, by omega, rfl⟩, by omega, by omega⟩

theorem idsFrom_nodup (next : Int) : (idsFrom partition next count).Nodup := by
  refine List.Nodup.map (fun one other same => ?_) List.nodup_range
  have := NodeId.mk.inj same
  omega

/-- A partition is removed with nodes of its own book only. -/
theorem mem_dropPartition (placed : ∀ node ∈ corpus.nodes, node.WellFormed) (fits : partition.Fits)
    {node : Node} (isNode : node ∈ corpus.nodes)
    (isGone : node ∉ (corpus.dropPartition partition).nodes) :
    node.nodeId.partition = partition ∧ node.bookRootId.partition = partition := by
  have carried : ∀ row ∈ corpus.nodes, row.bookRootId.partition = partition →
      row.nodeId.partition = partition := by
    intro row isRow carries
    exact (placed row isRow).ownPartition.trans carries
  have book : node.bookRootId.partition = partition := by
    refine Cascade.remove_subset (P := fun row => row.bookRootId.partition = partition) ?_ ?_ isNode
      isGone
    · intro row chosen
      rw [of_decide_eq_true chosen, PartitionIdx.root_partition fits]
    · intro row isRow parent isParent names ofParent
      -- the parent edge stays in the partition of the row's book
      rw [← (placed row isRow).parentPartition _ names]
      exact carried parent isParent ofParent
  exact ⟨carried node isNode book, book⟩

end CorpusDb

/-! ### Every call keeps it -/

theorem Below.of_rows {partitions partitions' : List Partition} {entry : PartitionIdx × NodeId}
    (isBelow : Below partitions entry)
    (rises : ∀ row ∈ partitions, row.idx = entry.1 →
      ∃ row' ∈ partitions', row'.idx = entry.1 ∧ row.nextLocalId ≤ row'.nextLocalId) :
    Below partitions' entry := by
  obtain ⟨row, isRow, owns, offset, isAt, isBelow⟩ := isBelow
  obtain ⟨row', isRow', owns', atLeast⟩ := rises row isRow owns
  exact ⟨row', isRow', owns', offset, isAt, by omega⟩

namespace History.Sound

open CorpusDb

variable {history : History} (sound : history.Sound)
include sound

theorem allocatePartition {intakeId : Int} (fits : PartitionIdx.Fits ⟨intakeId⟩) (now : String) :
    (history.after (.allocatePartition intakeId now)).Sound := by
  dsimp only [after]
  split
  · rename_i row corpus isDone
    obtain ⟨isRow, isNew, rfl⟩ := allocatePartition_ok isDone
    have rootAt : row.idx.At 1 row.bookRootId := by
      rw [isRow]
      exact PartitionIdx.root_at fits
    have rowFits : row.idx.Fits := by
      rw [isRow]
      exact fits
    have isIdx : row.idx = ⟨intakeId⟩ := by rw [isRow]
    refine ⟨?_, ?_, ?_, ?_, sound.placed⟩
    · intro other member
      rcases List.mem_append.mp member with before | isLast
      · exact sound.keyed other before
      · rw [List.mem_singleton.mp isLast, isRow]
        exact ⟨rfl, rfl, fits, Int.le_refl 2, show (2 : Int) ≤ nodeCapacity + 1 by decide⟩
    · rw [List.map_append, List.map_singleton, List.nodup_append]
      refine ⟨sound.single, List.nodup_singleton _, ?_⟩
      intro idx isIn other isOther
      obtain ⟨before, isBefore, rfl⟩ := List.mem_map.mp isIn
      rw [List.mem_singleton.mp isOther, isIdx]
      exact isNew before isBefore
    · intro entry member
      rcases List.mem_append.mp member with before | isLast
      · refine (sound.below entry before).of_rows fun other isOther owns => ?_
        exact ⟨other, List.mem_append_left _ isOther, owns, Int.le_refl _⟩
      · rw [List.mem_singleton.mp isLast]
        refine ⟨row, List.mem_append_right _ (List.mem_singleton_self row), rfl, 1, rootAt, ?_⟩
        rw [isRow]
        exact show (1 : Int) < 2 by decide
    · rw [List.map_append, List.map_singleton, List.nodup_append]
      refine ⟨sound.distinct, List.nodup_singleton _, ?_⟩
      rintro id isIn other isOther rfl
      obtain ⟨entry, isEntry, rfl⟩ := List.mem_map.mp isIn
      obtain ⟨before, isBefore, owns, offset, isAt, -⟩ := sound.below entry isEntry
      -- two ids that agree are of one partition, and this one is new
      have beforeFits := (sound.keyed before isBefore).fits
      rw [owns] at beforeFits
      have same : entry.1 = row.idx := by
        rw [← (isAt.divides beforeFits).1, List.mem_singleton.mp isOther,
          (rootAt.divides rowFits).1]
      exact isNew before isBefore (owns.trans (same.trans isIdx))
  · rename_i refused corpus isRefused
    rw [allocatePartition_refused isRefused]
    exact sound

theorem allocateNodeIds (partition : PartitionIdx) (count : UInt32) :
    (history.after (.allocateNodeIds partition count)).Sound := by
  dsimp only [after]
  rcases allocateNodeIds_cases sound.keyed partition count with
    ⟨refused, isRefused⟩ | ⟨-, isEmpty⟩ | ⟨row, isRow, owns, room, isDone⟩
  · rw [isRefused]
    exact sound
  · rw [isEmpty]
    simpa using sound
  · rw [isDone]
    obtain ⟨byIntake, rooted, fits, pastRoot, inside⟩ := sound.keyed row isRow
    have unique : ∀ other ∈ history.corpus.partitions, other.idx = partition → other = row :=
      fun other isOther owns' => List.inj_on_of_nodup_map sound.single isOther isRow
        (owns'.trans owns.symm)
    have isAdvanced : { row with nextLocalId := row.nextLocalId + count.toNat } ∈
        (history.corpus.setNextLocalId partition (row.nextLocalId + count.toNat)).partitions :=
      List.mem_map.mpr ⟨row, isRow, if_pos owns⟩
    refine ⟨?_, ?_, ?_, ?_, sound.placed⟩
    · intro other member
      obtain ⟨before, isBefore, rfl⟩ := List.mem_map.mp member
      split_ifs with owns'
      · rw [unique before isBefore owns']
        exact ⟨byIntake, rooted, fits, by dsimp only; omega, room⟩
      · exact sound.keyed before isBefore
    · have kept : (history.corpus.setNextLocalId partition
          (row.nextLocalId + count.toNat)).partitions.map (·.idx) =
          history.corpus.partitions.map (·.idx) := by
        rw [setNextLocalId, List.map_map]
        refine List.map_congr_left fun other _ => ?_
        dsimp only [Function.comp_apply]
        split_ifs <;> rfl
      rw [kept]
      exact sound.single
    · intro entry member
      rcases List.mem_append.mp member with before | isLast
      · refine (sound.below entry before).of_rows fun other isOther owns' => ?_
        by_cases advances : other.idx = partition
        · refine ⟨_, isAdvanced, (owns.trans advances.symm).trans owns', ?_⟩
          rw [unique other isOther advances]
          exact Int.le_add_of_nonneg_right (Int.natCast_nonneg _)
        · exact ⟨other, List.mem_map.mpr ⟨other, isOther, if_neg advances⟩, owns', Int.le_refl _⟩
      · obtain ⟨id, isId, rfl⟩ := List.mem_map.mp isLast
        obtain ⟨offset, isAt, -, isBelow⟩ := idsFrom_at (by omega) room isId
        exact ⟨_, isAdvanced, owns, offset, isAt, isBelow⟩
    · rw [List.map_append, List.map_map, List.nodup_append]
      refine ⟨sound.distinct, ?_, ?_⟩
      · rw [show Prod.snd ∘ Prod.mk partition = (id : NodeId → NodeId) from rfl, List.map_id]
        exact idsFrom_nodup row.nextLocalId
      · rintro id isIn other isOther rfl
        obtain ⟨entry, isEntry, rfl⟩ := List.mem_map.mp isIn
        obtain ⟨new, isNew, same⟩ := List.mem_map.mp isOther
        obtain ⟨before, isBefore, owns', offset, isAt, isBelow⟩ := sound.below entry isEntry
        obtain ⟨offset', isAt', fresh, -⟩ := idsFrom_at (by omega) room isNew
        have beforeFits := (sound.keyed before isBefore).fits
        rw [owns'] at beforeFits
        rw [owns] at fits
        change new = entry.2 at same
        rw [same] at isAt'
        -- the same id would be at one offset of one partition, below its cursor and not
        have parts := isAt.divides beforeFits
        have parts' := isAt'.divides fits
        have isRow' := unique before isBefore (owns'.trans (parts.1.symm.trans parts'.1))
        rw [isRow', ← parts.2, parts'.2] at isBelow
        omega

theorem dropPartition (partition : PartitionIdx) :
    (history.after (.dropPartition partition)).Sound := by
  refine ⟨?_, ?_, ?_, ?_, ?_⟩
  · exact fun row isRow => sound.keyed row (List.mem_filter.mp isRow).1
  · exact sound.single.sublist (List.filter_sublist.map _)
  · intro entry isEntry
    obtain ⟨isBefore, other⟩ := List.mem_filter.mp isEntry
    refine (sound.below entry isBefore).of_rows fun row isRow owns => ?_
    exact ⟨row, List.mem_filter.mpr ⟨isRow, by rw [owns]; exact other⟩, owns, Int.le_refl _⟩
  · exact sound.distinct.sublist (List.filter_sublist.map _)
  · exact fun node isNode => sound.placed node (Cascade.mem_remove.mp isNode).1

theorem insertNodes (nodes : List NewNode) : (history.after (.insertNodes nodes)).Sound := by
  refine ⟨?_, ?_, ?_, sound.distinct, ?_⟩
  all_goals
    dsimp only [after, CorpusDb.insertNodes]
    split
  · exact sound.keyed
  · exact sound.keyed
  · exact sound.single
  · exact sound.single
  · exact sound.below
  · exact sound.below
  · exact sound.placed
  · rename_i written isWritten
    intro node isNode
    rw [(insertNodes_ok isWritten).1] at isNode
    rcases List.mem_append.mp isNode with before | isNew
    · exact sound.placed node before
    · exact insertNodes_wellFormed isWritten node isNew

/-- **Every call keeps it.** -/
theorem step {op : Op} (fits : op.Fits) : (history.after op).Sound := by
  cases op with
  | allocatePartition intakeId now => exact sound.allocatePartition fits now
  | allocateNodeIds partition count => exact sound.allocateNodeIds partition count
  | insertNodes nodes => exact sound.insertNodes nodes
  | dropPartition partition => exact sound.dropPartition partition

end History.Sound

theorem History.start_sound : History.start.Sound :=
  ⟨fun _ member => absurd member List.not_mem_nil, .nil,
    fun _ member => absurd member List.not_mem_nil, .nil,
    fun _ member => absurd member List.not_mem_nil⟩

theorem sound_of_run {trace : List (Op × History)} (run : Along Step History.start trace) :
    (finish History.start trace).Sound := by
  refine run.finish_invariant History.Sound ?_ History.start_sound
  rintro before op _ sound ⟨fits, rfl⟩
  exact sound.step fits

/-- **Node ids never collide and never leave their book.** After every history of calls, the ids
handed out for live partitions are pairwise distinct, each is divided back to its partition, whose
index is the intake it was allocated for, with an offset inside the block; a refused allocation
leaves the corpus, and a granted one hands out as many ids as it was asked for; and a partition is
removed with nodes of its own book only. -/
theorem ids_distinct_and_confined {trace : List (Op × History)}
    (run : Along Step History.start trace) :
    let history := finish History.start trace
    (history.handed.map Prod.snd).Nodup ∧
      (∀ entry ∈ history.handed, entry.2.partition = entry.1 ∧ 1 ≤ entry.2.localOffset ∧
        entry.2.localOffset ≤ nodeCapacity ∧
        ∃ row ∈ history.corpus.partitions, row.idx = entry.1 ∧ row.intakeId = entry.1.get) ∧
      (∀ intakeId now refused after,
        history.corpus.allocatePartition intakeId now = (.error refused, after) →
          after = history.corpus) ∧
      (∀ partition count refused after,
        history.corpus.allocateNodeIds partition count = (.error refused, after) →
          after = history.corpus) ∧
      (∀ partition count ids after,
        history.corpus.allocateNodeIds partition count = (.ok ids, after) →
          ids.length = count.toNat) ∧
      ∀ partition : PartitionIdx, partition.Fits → ∀ node ∈ history.corpus.nodes,
        node ∉ (history.corpus.dropPartition partition).nodes →
          node.nodeId.partition = partition ∧ node.bookRootId.partition = partition := by
  intro history
  have sound : history.Sound := sound_of_run run
  refine ⟨sound.distinct, fun entry member => ?_, fun _ _ _ _ => CorpusDb.allocatePartition_refused,
    fun _ _ _ _ => CorpusDb.allocateNodeIds_refused sound.keyed,
    fun _ _ _ _ => CorpusDb.allocateNodeIds_granted sound.keyed,
    fun partition fits node isNode => CorpusDb.mem_dropPartition sound.placed fits isNode⟩
  obtain ⟨row, isRow, owns, offset, isAt, -⟩ := sound.below entry member
  obtain ⟨byIntake, -, fits, -, -⟩ := sound.keyed row isRow
  rw [owns] at fits
  obtain ⟨isOf, isOffset⟩ := isAt.divides fits
  refine ⟨isOf, ?_, ?_, row, isRow, owns, byIntake.trans (congrArg _ owns)⟩
  · rw [isOffset]
    exact isAt.1
  · rw [isOffset]
    exact isAt.2.1

/-- The trace of a sequence of calls. -/
def History.trace (history : History) : List Op → List (Op × History)
  | [] => []
  | op :: rest => (op, history.after op) :: trace (history.after op) rest

theorem History.trace_along (history : History) {ops : List Op} (fits : ∀ op ∈ ops, op.Fits) :
    Along Step history (history.trace ops) := by
  induction ops generalizing history with
  | nil => exact trivial
  | cons op rest ih =>
    exact ⟨⟨fits op List.mem_cons_self, rfl⟩,
      ih _ fun later member => fits later (List.mem_cons_of_mem _ member)⟩

/-- Two books, the second with a root and a paragraph below it; the first is dropped. -/
def twoBooks : List Op :=
  [.allocatePartition 3 "2026-01-01T00:00:00Z", .allocateNodeIds ⟨3⟩ 2,
    .allocatePartition 7 "2026-01-01T00:00:01Z", .allocateNodeIds ⟨7⟩ 1,
    .insertNodes [.root ⟨700000001⟩ .work,
      .child ⟨700000002⟩ ⟨700000001⟩ ⟨700000001⟩ 0 1 .paragraph],
    .dropPartition ⟨3⟩]

/-- The live ids are distinct, and a call for three more ids of the second book returns three. -/
theorem ids_distinct_and_confined_twoBooks :
    ((finish History.start (History.start.trace twoBooks)).handed.map Prod.snd).Nodup ∧
      (∀ partition count refused after,
        (finish History.start (History.start.trace twoBooks)).corpus.allocateNodeIds partition
            count = (.error refused, after) →
          after = (finish History.start (History.start.trace twoBooks)).corpus) ∧
      ∃ ids after, (finish History.start (History.start.trace twoBooks)).corpus.allocateNodeIds ⟨7⟩ 3
        = (.ok ids, after) ∧ ids.length = 3 := by
  have fits : ∀ op ∈ twoBooks, op.Fits := by decide
  obtain ⟨distinct, -, -, refused, granted, -⟩ :=
    ids_distinct_and_confined (History.start.trace_along fits)
  exact ⟨distinct, refused, _, _, rfl, granted ⟨7⟩ 3 _ _ rfl⟩

end Bookrack.Corpus
