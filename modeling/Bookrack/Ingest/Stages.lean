/-
What the stages of the book pipeline leave (`ingest/src/lib.rs`).

* `builtTree` — the tree `ingest_structure` builds from an extraction.
* **`ingestStructure_ends`** — that tree, or the library as it was, or a book without nodes.
* **`embedBookChunks_refills`** — the rows of the plans, or the library as it was, or rows of the first plans.
* `storeEnvelope_ends` — the new envelope, or what the failed write and the removals leave.
-/

import Bookrack.Chunk.Starts
import Bookrack.Ingest.Book
import Bookrack.Library.Within

namespace Bookrack.Ingest

open Chunk (ChunkPlan ChunkLeaf)
open Corpus (Node NewNode CorpusDb)
open Corpus.CorpusDb (InBook idsFrom)
open Structure (planTree planTree_isPlan intoNewNodes_rows)
open Prog

variable {tools : Toolchain} {binary : Binary} {id : Int} {library : Library}

/-! ### CHUNK -/

theorem mem_chunkLeaves {nodes : List Node} {leaf : ChunkLeaf} (member : leaf ∈ chunkLeaves nodes) :
    ∃ node ∈ nodes, node.nodeId = leaf.nodeId := by
  obtain ⟨node, isNode, isLeaf⟩ := List.mem_filterMap.mp member
  rw [(List.perm_insertionSort _ _).mem_iff] at isNode
  obtain ⟨text, _, rfl⟩ := Option.map_eq_some_iff.mp isLeaf
  exact ⟨node, List.mem_of_mem_filter isNode, rfl⟩

/-- A node of a book's tree lies in the book's range. -/
theorem at_of_mem_tree (placed : library.corpus.Placed) (fits : PartitionIdx.Fits ⟨id⟩) {node : Node}
    (member : node ∈ library.tree id) : ∃ localOffset, PartitionIdx.At ⟨id⟩ localOffset node.nodeId := by
  obtain ⟨isNode, isBook⟩ := CorpusDb.mem_bookNodes.mp member
  obtain ⟨idx, localOffset, fits', isRoot, isAt⟩ := placed.inBook node isNode
  rw [isBook, Corpus.root_inj fits fits'] at isRoot
  rw [← isRoot] at isAt
  exact ⟨localOffset, isAt⟩

/-- **The plans of a book's tree start in the book's range.** -/
theorem planBookChunks_inBounds (placed : library.corpus.Placed) (fits : PartitionIdx.Fits ⟨id⟩)
    {plans : List ChunkPlan} (planned : planBookChunks tools binary (library.tree id) = some plans) :
    ∀ plan ∈ plans, inBounds ⟨id⟩ plan = true := by
  intro plan member
  obtain ⟨leaf, isLeaf, isStart⟩ := Chunk.planChunks_start planned plan member
  obtain ⟨node, isNode, same⟩ := mem_chunkLeaves isLeaf
  obtain ⟨localOffset, isAt⟩ := at_of_mem_tree placed fits isNode
  rw [same, isStart] at isAt
  exact (inBounds_iff fits).mpr ⟨localOffset, isAt⟩

/-- A book without nodes has no chunk. -/
theorem planBookChunks_nil {plans : List ChunkPlan} (planned : planBookChunks tools binary [] = some plans) :
    plans = [] := Chunk.planChunks_nil planned

/-! ### STRUCTURE -/

/-- The tree `ingest_structure` builds; `none` where it is refused or panics. -/
def builtTree (tools : Toolchain) (binary : Binary) (id : Int) (content : Structure.Extraction) :
    Option (List Node) :=
  (bookBatch tools binary content).bind (·.built ⟨id⟩)

theorem idAt_mem (bookRootId : NodeId) (ids : List NodeId) (idx : Nat) :
    Structure.idAt bookRootId ids idx ∈ bookRootId :: ids := by
  unfold Structure.idAt Structure.idOf
  split_ifs
  · exact List.mem_cons_self
  · cases isId : ids[idx - 1]? with
    | none => exact List.mem_cons_self
    | some found => exact List.mem_cons_of_mem _ (List.mem_of_getElem? isId)

/-- The nodes of an extraction are bound to ids of the book's partition. -/
theorem bookBatch_inBook (fits : PartitionIdx.Fits ⟨id⟩) {content : Structure.Extraction}
    {batch : TreeBatch} (isBatch : bookBatch tools binary content = some batch)
    (roomy : 1 + (batch.count.toNat : Int) ≤ nodeCapacity) (nodes : List NewNode)
    (isBound : batch.bind (PartitionIdx.root ⟨id⟩) (idsFrom ⟨id⟩ 2 batch.count) = some nodes) :
    InBook ⟨id⟩ nodes := by
  unfold bookBatch at isBatch
  split at isBatch
  · cases isBatch
  rename_i plan planned
  obtain rfl := Option.some.inj isBatch
  obtain ⟨rowAt, bound⟩ := intoNewNodes_rows (planTree_isPlan planned) isBound
  intro node member
  obtain ⟨idx, inside, rfl⟩ := bound.mem_iff.mp member
  have isRow := bound.isRow (List.getElem?_eq_getElem inside)
  refine ⟨isRow.bookRootId, ?_⟩
  rw [isRow.nodeId]
  exact at_of_mem_ids fits roomy (idAt_mem _ _ _)

/-- The book was left without nodes: the partition was dropped and the new tree did not follow. -/
structure Emptied (tools : Toolchain) (binary : Binary) (id : Int) (content : Structure.Extraction)
    (fates : TreeFates) (before after : Library) : Prop where
  isBatch : (bookBatch tools binary content).isSome
  dropped : fates.drop = .done
  unbuilt : ¬ (fates = .allDone ∧ (builtTree tools binary id content).isSome)
  retree : Retree ⟨id⟩ [] before after

/-- **What STRUCTURE leaves.** -/
theorem ingestStructure_ends (fits : PartitionIdx.Fits ⟨id⟩) (placed : library.corpus.Placed)
    (content : Structure.Extraction) (now : String) (fates : TreeFates) :
    Ends (ingestStructure tools binary id content now fates) library
      (fun _ after => fates = .allDone ∧ ∃ tree, builtTree tools binary id content = some tree ∧
        Retree ⟨id⟩ tree library after)
      (fun _ after => after = library ∨ Emptied tools binary id content fates library after)
      (fun after => after = library ∨ Emptied tools binary id content fates library after) := by
  unfold ingestStructure
  cases planned : planTree (tools.fns binary.normalizeVersion) .work content defaultStructure with
  | error _ => exact .inl rfl
  | ok plan =>
    have isBatch : bookBatch tools binary content = some ⟨UInt32.ofNat plan.childCount, plan.intoNewNodes⟩ := by
      rw [bookBatch, planned]
    have isBuilt : builtTree tools binary id content =
        TreeBatch.built ⟨UInt32.ofNat plan.childCount, plan.intoNewNodes⟩ ⟨id⟩ := by
      rw [builtTree, isBatch]
      rfl
    have isSome : (bookBatch tools binary content).isSome := by rw [isBatch]; rfl
    dsimp only
    rw [ends_bind]
    refine (writeTree_ends fits placed (bookBatch_inBook fits isBatch)).mono ?_ ?_ ?_
    · rintro count after ⟨all, tree, built, retree⟩
      exact ⟨all, tree, isBuilt.trans built, retree⟩
    · rintro _ after (⟨-, same⟩ | ⟨isDone, unbuilt, retree⟩)
      · exact .inl same
      · rw [← isBuilt] at unbuilt
        exact .inr ⟨isSome, isDone, unbuilt, retree⟩
    · rintro after (⟨-, same⟩ | ⟨isDone, unbuilt, retree⟩)
      · exact .inl same
      · rw [← isBuilt] at unbuilt
        exact .inr ⟨isSome, isDone, unbuilt, retree⟩

/-! ### EMBED -/

/-- Once it has deleted the book's rows, the run writes all of them again. -/
def EmbedRun.Unbroken (tools : Toolchain) (binary : Binary) (run : EmbedRun) (plans : List ChunkPlan)
    (library : Library) : Prop :=
  ∀ first probed, plans.head? = some first → run.Deletes binary library.stamps first probed →
    run.fates.countAfter = .done ∧ ∃ all, Writes tools run (library.tableDim probed) 0
      (batches run.config plans) all

/-- The book's rows were deleted and these written, under the stamps of this binary and model. -/
structure EmbedRun.Refilled (binary : Binary) (run : EmbedRun) (id : Int) (plans : List ChunkPlan)
    (written : List ChunkRow) (before after : Library) : Prop where
  isCons : plans ≠ []
  rows : ∃ probed dim, after = before.withVectors (currentIndexStamps binary run.config.model probed) dim
      (before.rowsOutside ⟨id⟩ ++ written) ∧
    (before.stamps = none ∨ before.stamps = some (currentIndexStamps binary run.config.model probed))
  appended : run.Appended plans written
  inside : ∀ row ∈ written, inBounds ⟨id⟩ row.plan = true

section Embedding

variable {run : EmbedRun} {plans : List ChunkPlan} {written : List ChunkRow} {after : Library}

theorem EmbedRun.Refilled.rowsOf (refilled : run.Refilled binary id plans written library after) :
    after.rowsOf id = written := by
  obtain ⟨_, _, rfl, _⟩ := refilled.rows
  exact Library.rowsOf_rewritten_self refilled.inside

/-- Only the stamps and the table change. -/
theorem EmbedRun.Refilled.rest (refilled : run.Refilled binary id plans written library after) :
    after = { library with stamps := after.stamps, table := after.table } := by
  obtain ⟨_, _, rfl, _⟩ := refilled.rows
  rfl

theorem EmbedRun.Refilled.local (fits : PartitionIdx.Fits ⟨id⟩)
    (refilled : run.Refilled binary id plans written library after) : Local id library after := by
  obtain ⟨_, _, rfl, _⟩ := refilled.rows
  exact local_withVectors fits refilled.inside

/-- **What an EMBED run leaves of a book**, its plans lying in the book's range. -/
theorem embedBookChunks_refills (fits : PartitionIdx.Fits ⟨id⟩)
    (inside : ∀ plan ∈ plans, inBounds ⟨id⟩ plan = true) :
    Ends (embedBookChunks tools binary plans run) library
      (fun _ after => plans = [] ∧ after = library ∨
        ∃ written, run.Refilled binary id plans written library after ∧ written.map (·.plan) = plans)
      (fun _ after => Untouched library after ∨ ∃ written, run.Refilled binary id plans written library after ∧
        (run.Unbroken tools binary plans library → written.map (·.plan) = plans))
      (fun after => Untouched library after ∨ ∃ written, run.Refilled binary id plans written library after ∧
        (run.Unbroken tools binary plans library → written.map (·.plan) = plans)) := by
  cases plans with
  | nil => exact .inl ⟨rfl, rfl⟩
  | cons first others =>
    have isFirst : first.startNodeId.partition = ⟨id⟩ :=
      partition_of_inBounds fits (inside first List.mem_cons_self)
    have refilled : ∀ {probed written after},
        run.Rewrote binary first others probed written library after →
        run.Refilled binary id (first :: others) written library after := by
      rintro probed written after ⟨deletes, isAfter, appended⟩
      rw [isFirst] at isAfter
      refine ⟨List.cons_ne_nil _ _, ⟨probed, _, isAfter, deletes.reconcile.imp_left And.left⟩, appended, ?_⟩
      intro row member
      exact inside _ (appended.isPrefix.subset (List.mem_map_of_mem member))
    refine (embedBookChunks_ends first others library).mono ?_ ?_ ?_
    · rintro report after ⟨⟨probed, written, rewrote, _, writes⟩, _⟩
      exact .inr ⟨written, refilled rewrote, writes.plans.trans (batches_flatten _)⟩
    · rintro _ after (⟨_, untouched⟩ | ⟨probed, written, rewrote, refused, _⟩)
      · exact .inl untouched
      · refine .inr ⟨written, refilled rewrote, fun unbroken => ?_⟩
        obtain ⟨isCounted, all, writes⟩ := unbroken first probed rfl rewrote.deletes
        exact absurd writes (refused isCounted all)
    · rintro after (untouched | ⟨probed, written, rewrote, isAll | refused⟩)
      · exact .inl untouched
      · exact .inr ⟨written, refilled rewrote, fun _ => isAll⟩
      · refine .inr ⟨written, refilled rewrote, fun unbroken => ?_⟩
        obtain ⟨isCounted, all, writes⟩ := unbroken first probed rfl rewrote.deletes
        exact absurd writes (refused isCounted all)

end Embedding

/-! ### Envelopes -/

/-- The old envelope is gone from under the canonical name: replaced, or removed after a failed write. -/
def EnvelopeFates.Handled (fates : EnvelopeFates) : Prop :=
  fates.write = .done ∨ fates.write = .failed ∧ fates.removeCanonical = .done

/-- What storing an envelope leaves: no file but the book's envelopes has changed, and under the canonical
name is the new envelope, none, or the old one where it was not handled. -/
structure Filed (id : Int) (sourceSha : String) (extraction : Extracted) (fates : EnvelopeFates)
    (before after : Library) : Prop where
  rest : after = { before with intakes := after.intakes, files := after.files }
  intakes : after.intakes = before.intakes ∨
    after.intakes = (before.setStoredPath id (.envelope id)).intakes
  canonical : after.files (.envelope id) = some (.envelope ⟨id, sourceSha, extraction⟩) ∨
    after.files (.envelope id) = none ∨
    after.files (.envelope id) = before.files (.envelope id) ∧ ¬ fates.Handled
  legacy : after.files (.legacyEnvelope id) = before.files (.legacyEnvelope id) ∨
    after.files (.legacyEnvelope id) = none
  others : ∀ name, name ≠ .envelope id → name ≠ .legacyEnvelope id → after.files name = before.files name

section Filing

variable {sourceSha : String} {extraction : Extracted} {fates : EnvelopeFates} {before after : Library}

theorem Filed.setStoredPath (filed : Filed id sourceSha extraction fates before after)
    (same : after.intakes = before.intakes) :
    Filed id sourceSha extraction fates before (after.setStoredPath id (.envelope id)) where
  rest := by
    rw [filed.rest]
    rfl
  intakes := by
    refine .inr ?_
    rw [filed.rest, same]
    rfl
  canonical := filed.canonical
  legacy := filed.legacy
  others := filed.others

theorem Filed.removeLegacy (filed : Filed id sourceSha extraction fates before after) :
    Filed id sourceSha extraction fates before (after.removeFile (.legacyEnvelope id)) where
  rest := by
    rw [filed.rest]
    rfl
  intakes := filed.intakes
  canonical := by
    rw [Library.files_removeFile_ne _ StoreName.noConfusion]
    exact filed.canonical
  legacy := .inr (Library.files_removeFile_self _ _)
  others := by
    intro name notCanonical notLegacy
    exact (Library.files_removeFile_ne _ notLegacy).trans (filed.others name notCanonical notLegacy)

theorem Filed.local (filed : Filed id sourceSha extraction fates before after) : Local id before after := by
  have refiled : Local id before { before with files := after.files } := by
    refine fun sound => ⟨⟨sound.placed, sound.distinct, sound.fits⟩, fun _ _ => Iff.rfl, fun _ _ => rfl,
      fun _ _ => rfl, fun name isOther => ?_, fun _ _ _ => rfl, fun _ _ _ => rfl⟩
    refine filed.others name (fun same => isOther ?_) fun same => isOther ?_
    · rw [same, StoreName.intakeId]
    · rw [same, StoreName.intakeId]
  rw [filed.rest]
  rcases filed.intakes with same | stored
  · rw [same]
    exact refiled
  · rw [stored]
    exact (Local.frame id).trans refiled (local_setStoredPath _ _)

theorem Filed.isEmbedded (filed : Filed id sourceSha extraction fates before after) {other : Int} :
    after.IsEmbedded other ↔ before.IsEmbedded other := by
  rcases filed.intakes with same | stored
  · rw [Library.IsEmbedded, same]
    rfl
  · rw [Library.IsEmbedded, stored]
    exact isEmbedded_setStoredPath _

/-- The library as it was, where the old envelope was not handled. -/
theorem Filed.unchanged (unhandled : ¬ fates.Handled) :
    Filed id sourceSha extraction fates before before where
  rest := rfl
  intakes := .inl rfl
  canonical := .inr (.inr ⟨rfl, unhandled⟩)
  legacy := .inl rfl
  others := fun _ _ _ => rfl

theorem Filed.putFile :
    Filed id sourceSha extraction fates before
      (before.putFile (.envelope id) (.envelope ⟨id, sourceSha, extraction⟩)) where
  rest := rfl
  intakes := .inl rfl
  canonical := .inl (Library.files_putFile_self _ _ _)
  legacy := .inl (Library.files_putFile_ne _ _ StoreName.noConfusion)
  others := fun _ notCanonical _ => Library.files_putFile_ne _ _ notCanonical

theorem Filed.removeCanonical :
    Filed id sourceSha extraction fates before (before.removeFile (.envelope id)) where
  rest := rfl
  intakes := .inl rfl
  canonical := .inr (.inl (Library.files_removeFile_self _ _))
  legacy := .inl (Library.files_removeFile_ne _ StoreName.noConfusion)
  others := fun _ notCanonical _ => Library.files_removeFile_ne _ notCanonical

variable (id sourceSha extraction fates) in
/-- The envelope is filed, and it is told whether it was written. -/
def Stored (before : Library) (written : Bool) (after : Library) : Prop :=
  Filed id sourceSha extraction fates before after ∧
    (written = true → fates.write = .done ∧
      after.files (.envelope id) = some (.envelope ⟨id, sourceSha, extraction⟩)) ∧
    (written = false → fates.write = .failed ∧ after.intakes = before.intakes)

/-- The last step: the legacy copy goes, or it stays. -/
theorem removeLegacy_ends (written : Bool) (post : Bool → Library → Prop) {after : Library}
    (isFiled : Filed id sourceSha extraction fates before after)
    (removed : post written (after.removeFile (.legacyEnvelope id))) (kept : post written after) :
    Ends (do
      let _ ← quietly fates.removeLegacy (Library.removeFile (.legacyEnvelope id))
      pure written : Prog Library PipelineError Bool) after post (fun _ _ => False)
      (fun after => Filed id sourceSha extraction fates before after) := by
  rw [ends_bind]
  exact Ends.quietly (fun _ => removed) (fun _ => kept) fun _ => isFiled

variable (sourceSha extraction fates) in
/-- **What storing an envelope leaves.** -/
theorem storeEnvelope_ends :
    Ends (storeEnvelope id sourceSha extraction fates) library
      (fun written after => Filed id sourceSha extraction fates library after ∧
        (written = true → fates.write = .done ∧
          after.files (.envelope id) = some (.envelope ⟨id, sourceSha, extraction⟩)) ∧
        (written = false → fates.write = .failed ∧ after.intakes = library.intakes))
      (fun _ _ => False)
      (fun after => Filed id sourceSha extraction fates library after) := by
  unfold storeEnvelope
  rw [ends_bind]
  refine Ends.quietly (fun isWritten => ?_) (fun isFailed => ?_) fun isCut => ?_
  · -- the new envelope is there from now on
    have keep : ∀ after : Library, after.files (.envelope id) = some (.envelope ⟨id, sourceSha, extraction⟩) →
        (after.removeFile (.legacyEnvelope id)).files (.envelope id) =
          some (.envelope ⟨id, sourceSha, extraction⟩) :=
      fun after isNew => (Library.files_removeFile_ne after StoreName.noConfusion).trans isNew
    have isStored : (library.putFile (.envelope id) (.envelope ⟨id, sourceSha, extraction⟩)).files
      (.envelope id) =
        some (.envelope ⟨id, sourceSha, extraction⟩) := Library.files_putFile_self _ _ _
    have filed : Filed id sourceSha extraction fates library
        (library.putFile (.envelope id) (.envelope ⟨id, sourceSha, extraction⟩)) := .putFile
    have last (after : Library) (isFiled : Filed id sourceSha extraction fates library after)
        (isNew : after.files (.envelope id) = some (.envelope ⟨id, sourceSha, extraction⟩)) :=
      removeLegacy_ends true (Stored id sourceSha extraction fates library) isFiled
        ⟨isFiled.removeLegacy, fun _ => ⟨isWritten, keep after isNew⟩, Bool.noConfusion⟩
        ⟨isFiled, fun _ => ⟨isWritten, isNew⟩, Bool.noConfusion⟩
    rw [if_pos rfl, ends_bind]
    refine Ends.quietly (fun _ => ?_) (fun _ => ?_) fun _ => filed
    · exact last _ (filed.setStoredPath rfl) isStored
    · exact last _ filed isStored
  · have last (after : Library) (isFiled : Filed id sourceSha extraction fates library after)
        (same : after.intakes = library.intakes) :=
      removeLegacy_ends false (Stored id sourceSha extraction fates library) isFiled
        ⟨isFiled.removeLegacy, Bool.noConfusion, fun _ => ⟨isFailed, same⟩⟩
        ⟨isFiled, Bool.noConfusion, fun _ => ⟨isFailed, same⟩⟩
    have unhandled : fates.removeCanonical ≠ .done → ¬ fates.Handled := by
      rintro notRemoved (isDone | ⟨_, isRemoved⟩)
      · exact Fate.noConfusion (isFailed.symm.trans isDone)
      · exact notRemoved isRemoved
    rw [if_neg Bool.false_ne_true, ends_bind]
    refine Ends.quietly (fun _ => ?_) (fun isKept => ?_) fun isKept => ?_
    · exact last _ .removeCanonical rfl
    · exact last _ (.unchanged (unhandled (by simp [isKept]))) rfl
    · exact .unchanged (unhandled (by simp [isKept]))
  · refine .unchanged ?_
    rintro (isDone | ⟨isFailed, _⟩)
    · exact Fate.noConfusion (isCut.symm.trans isDone)
    · exact Fate.noConfusion (isCut.symm.trans isFailed)

end Filing

end Bookrack.Ingest
