/-
Writing a book's tree: the partition is dropped, allocated anew, and a batch of nodes inserted under the
ids handed out (`ingest/src/lib.rs`, `glean/src/lib.rs`).

* `TreeBatch.built` — the tree a batch leaves, read back from an otherwise empty corpus.
* **`writeTree_ends`** — over any corpus the batch leaves that tree and every other book's as it was; a
  write that ends early has done nothing or has left the book without nodes.
-/

import Bookrack.Library.Vectors

namespace Bookrack

open Corpus (CorpusDb Node NewNode Partition PartitionError CorpusError)
open Corpus.CorpusDb (Placed InBook sortedNodes idsFrom)
open Prog

/-- What happens to the four writes. -/
structure TreeFates where
  drop : Fate
  allocatePartition : Fate
  allocateIds : Fate
  insert : Fate
  deriving DecidableEq

/-- Every write goes through. -/
def TreeFates.allDone : TreeFates := ⟨.done, .done, .done, .done⟩

/-- A batch of nodes that waits for its ids; `none` is a panic. -/
structure TreeBatch where
  count : UInt32
  bind : NodeId → List NodeId → Option (List NewNode)

/-- A call on the corpus, with its own refusal as a result. -/
def corpusCall {ε α : Type} (fate : Fate) (call : CorpusDb → Except ε α × CorpusDb) :
    Prog Library PipelineError (Except ε α) :=
  match fate with
  | .done => fun library => (.value (call library.corpus).1, library.setCorpus (call library.corpus).2)
  | .failed => throw .corpus
  | .cut => halt

/-- The tree writes of `ingest_structure` and `build_structure`; the number of nodes written. `now` is
SQLite's timestamp. -/
def writeTree (idx : PartitionIdx) (now : String) (batch : TreeBatch) (fates : TreeFates) :
    Prog Library PipelineError Nat := do
  write fates.drop .corpus fun library => library.setCorpus (library.corpus.dropPartition idx)
  match ← corpusCall fates.allocatePartition (·.allocatePartition idx.get now) with
  | .error _ => throw .corpus
  | .ok partition =>
    match ← corpusCall fates.allocateIds (·.allocateNodeIds idx batch.count) with
    | .error .offsetOutOfRange => halt
    | .error _ => throw .corpus
    | .ok ids =>
      let nodes ← unwrap (batch.bind partition.bookRootId ids)
      match ← corpusCall fates.insert (·.insertNodes nodes) with
      | .error _ => throw .corpus
      | .ok () => pure nodes.length

/-- The tree a batch leaves in an otherwise empty corpus; `none` where it is refused or panics. -/
def TreeBatch.built (batch : TreeBatch) (idx : PartitionIdx) : Option (List Node) :=
  if 1 + (batch.count.toNat : Int) ≤ nodeCapacity then
    match batch.bind idx.root (idsFrom idx 2 batch.count) with
    | none => none
    | some nodes =>
      match Corpus.insertNodes [] nodes with
      | .error _ => none
      | .ok _ => some (sortedNodes nodes)
  else none

/-- A step that changes the tree of one book only. -/
structure Retree (idx : PartitionIdx) (tree : List Node) (before after : Library) : Prop where
  corpus : after = before.setCorpus after.corpus
  placed : after.corpus.Placed
  self : after.tree idx.get = tree
  others : ∀ id, PartitionIdx.Fits ⟨id⟩ → id ≠ idx.get → after.tree id = before.tree id

/-- An id of a batch lies in the partition. -/
theorem at_of_mem_ids {idx : PartitionIdx} (fits : idx.Fits) {count : UInt32}
    (roomy : 1 + (count.toNat : Int) ≤ nodeCapacity) {node : NodeId}
    (member : node ∈ idx.root :: idsFrom idx 2 count) : ∃ localOffset, idx.At localOffset node := by
  rcases List.mem_cons.mp member with rfl | isId
  · exact ⟨1, PartitionIdx.root_at fits⟩
  · obtain ⟨offset, isAt, -⟩ := CorpusDb.idsFrom_at (by omega) (by omega) isId
    exact ⟨offset, isAt⟩

section WriteTree

variable {idx : PartitionIdx} {now : String} {batch : TreeBatch} {fates : TreeFates}

theorem corpusCall_ends {ε α : Type} {fate : Fate} {call : CorpusDb → Except ε α × CorpusDb}
    {library : Library} {post : Except ε α → Library → Prop} {fail : PipelineError → Library → Prop}
    {cut : Library → Prop}
    (done : fate = .done → post (call library.corpus).1 (library.setCorpus (call library.corpus).2))
    (failed : fate = .failed → fail .corpus library) (isCut : fate = .cut → cut library) :
    Ends (corpusCall fate call) library post fail cut := by
  cases fate with
  | done => exact done rfl
  | failed => exact failed rfl
  | cut => exact isCut rfl

/-- After the drop: the book has no nodes, and its partition no row. -/
structure Dropped (idx : PartitionIdx) (before after : Library) : Prop extends
    Retree idx [] before after where
  free : ∀ row ∈ after.corpus.partitions, row.idx ≠ idx

theorem dropped (fits : idx.Fits) {library : Library} (placed : library.corpus.Placed) :
    Dropped idx library (library.setCorpus (library.corpus.dropPartition idx)) where
  corpus := rfl
  placed := CorpusDb.dropPartition_placed placed
  self := CorpusDb.bookNodes_dropPartition_self
  others := fun _ fits' isOther =>
    CorpusDb.bookNodes_dropPartition_ne placed fits fits' fun same => isOther (congrArg PartitionIdx.get same)
  free := CorpusDb.not_mem_dropPartition

/-- A corpus with the same nodes gives the same trees. -/
theorem Retree.of_nodes {tree : List Node} {before after : Library} (retree : Retree idx tree before after)
    {corpus : CorpusDb} (placed : corpus.Placed) (sameNodes : corpus.nodes = after.corpus.nodes) :
    Retree idx tree before (after.setCorpus corpus) where
  corpus := by
    rw [retree.corpus]
    rfl
  placed := placed
  self := (CorpusDb.bookNodes_of_nodes sameNodes).trans retree.self
  others := fun id fits isOther => (CorpusDb.bookNodes_of_nodes sameNodes).trans (retree.others id fits isOther)

/-- **What writing a tree leaves.** -/
theorem writeTree_ends (fits : idx.Fits) {library : Library} (placed : library.corpus.Placed)
    (inBook : 1 + (batch.count.toNat : Int) ≤ nodeCapacity → ∀ nodes,
      batch.bind idx.root (idsFrom idx 2 batch.count) = some nodes → InBook idx nodes) :
    Ends (writeTree idx now batch fates) library
      (fun _ after => fates = .allDone ∧ ∃ tree, batch.built idx = some tree ∧ Retree idx tree library after)
      (fun _ after => fates.drop = .failed ∧ after = library ∨
        fates.drop = .done ∧ ¬ (fates = .allDone ∧ (batch.built idx).isSome) ∧ Retree idx [] library after)
      (fun after => fates.drop = .cut ∧ after = library ∨
        fates.drop = .done ∧ ¬ (fates = .allDone ∧ (batch.built idx).isSome) ∧
          Retree idx [] library after) := by
  unfold writeTree
  rw [ends_bind]
  refine Ends.write (fun isDropped => ?_) (fun isFailed => .inl ⟨isFailed, rfl⟩) fun isCut => .inl ⟨isCut, rfl⟩
  have gone := dropped fits placed
  generalize library.setCorpus (library.corpus.dropPartition idx) = bare at gone
  -- what a write after the drop leaves when it ends early
  have early : ∀ {corpus : CorpusDb}, corpus.Placed → corpus.nodes = bare.corpus.nodes →
      ¬ (fates = .allDone ∧ (batch.built idx).isSome) → fates.drop = .done ∧
        ¬ (fates = .allDone ∧ (batch.built idx).isSome) ∧ Retree idx [] library (bare.setCorpus corpus) :=
    fun isPlaced sameNodes notAll => ⟨isDropped, notAll, gone.toRetree.of_nodes isPlaced sameNodes⟩
  have fated : ∀ (fate : TreeFates → Fate), fate .allDone = .done → fate fates ≠ .done →
      ¬ (fates = .allDone ∧ (batch.built idx).isSome) := fun _ isDone notDone both => notDone (both.1 ▸ isDone)
  rw [ends_bind]
  refine corpusCall_ends (fun isAllocated => ?_)
    (fun isFailed => .inr (early gone.placed rfl (fated TreeFates.allocatePartition rfl (by simp [isFailed]))))
    (fun isCut => .inr (early gone.placed rfl (fated TreeFates.allocatePartition rfl (by simp [isCut]))))
  have isPlaced := CorpusDb.allocated_placed gone.placed fits now
  rw [CorpusDb.allocatePartition_free gone.placed fits now gone.free]
  dsimp only
  rw [ends_bind]
  refine corpusCall_ends (fun areAllocated => ?_)
    (fun isFailed => .inr (early isPlaced rfl (fated TreeFates.allocateIds rfl (by simp [isFailed]))))
    (fun isCut => .inr (early isPlaced rfl (fated TreeFates.allocateIds rfl (by simp [isCut]))))
  have isIds := CorpusDb.allocateNodeIds_fresh gone.placed fits now gone.free batch.count
  split_ifs at isIds with roomy
  swap
  · obtain ⟨refused, isRefused⟩ := isIds
    have unbuilt : ¬ (fates = .allDone ∧ (batch.built idx).isSome) := by
      rw [TreeBatch.built, if_neg roomy]
      simp
    dsimp only [Library.setCorpus]
    rw [isRefused]
    dsimp only
    split
    · exact .inr (early isPlaced rfl unbuilt)
    · exact .inr (early isPlaced rfl unbuilt)
    · cases ‹Except.error _ = Except.ok _›
  obtain ⟨corpus, isPlaced', sameNodes, isDone⟩ := isIds
  dsimp only [Library.setCorpus]
  rw [isDone]
  dsimp only
  rw [ends_bind]
  refine Ends.unwrap (fun nodes isBound => ?_) fun isNone => ?_
  swap
  · refine .inr (early isPlaced' sameNodes ?_)
    rw [TreeBatch.built, if_pos roomy]
    change batch.bind idx.root _ = none at isNone
    rw [isNone]
    simp
  have inBook' := inBook roomy nodes isBound
  rw [ends_bind]
  refine corpusCall_ends (fun isInserted => ?_)
    (fun isFailed => .inr (early isPlaced' sameNodes (fated TreeFates.insert rfl (by simp [isFailed]))))
    (fun isCut => .inr (early isPlaced' sameNodes (fated TreeFates.insert rfl (by simp [isCut]))))
  have free : corpus.bookNodes idx.root = [] := (CorpusDb.bookNodes_of_nodes sameNodes).trans gone.self
  have alone := CorpusDb.insertNodes_alone isPlaced' fits free inBook'
  have isBuilt : batch.built idx = match Corpus.insertNodes [] nodes with
      | .error _ => none
      | .ok _ => some (sortedNodes nodes) := by
    rw [TreeBatch.built, if_pos roomy]
    change batch.bind idx.root _ = some nodes at isBound
    rw [isBound]
  dsimp only [CorpusDb.insertNodes]
  cases inserts : Corpus.insertNodes corpus.nodes nodes with
  | error refused =>
    refine .inr (early isPlaced' sameNodes ?_)
    rw [isBuilt]
    cases single : Corpus.insertNodes [] nodes with
    | error _ => simp
    | ok written =>
      obtain ⟨written', inserts'⟩ := alone.mpr ⟨written, single⟩
      rw [inserts] at inserts'
      cases inserts'
  | ok written =>
    obtain ⟨written', single⟩ := alone.mp ⟨written, inserts⟩
    rw [single] at isBuilt
    have all : fates = .allDone := by
      obtain ⟨_, _, _, _⟩ := fates
      dsimp only at isDropped isAllocated areAllocated isInserted
      rw [isDropped, isAllocated, areAllocated, isInserted]
      rfl
    refine ⟨all, _, isBuilt, ?_, CorpusDb.inserted_placed isPlaced' fits inBook' inserts, ?_, ?_⟩
    · rw [gone.corpus]
      rfl
    · exact CorpusDb.bookNodes_inserted_self free inBook' inserts
    · intro other fits' isOther
      refine (CorpusDb.bookNodes_inserted_ne fits fits' (fun same => isOther (congrArg PartitionIdx.get same))
        inBook' inserts).trans ?_
      exact (CorpusDb.bookNodes_of_nodes sameNodes).trans (gone.others other fits' isOther)

end WriteTree

end Bookrack
