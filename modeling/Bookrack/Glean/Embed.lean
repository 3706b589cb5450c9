/-
CHUNK and EMBED for papers (`glean/src/lib.rs`).

* `planChunks`: the chunks of an abstract leaf, all in that leaf.
* **`embedAndWriteChunks_ends`** — what embedding a paper leaves. Unlike the book pipeline, all chunks go
  out in one request, after the old rows are deleted.
-/

import Bookrack.Ingest.Embed

namespace Bookrack.Glean

open Chunk (ChunkPlan ChunkParams TextSplitter)
open Ingest (toRows toRows_plans)
open Prog

variable (tools : Toolchain) (binary : Binary)

/-! ### Planning -/

/-- The plan of one chunk of a leaf; `none` is the panic of a slice inside a character. -/
def plannedChunk (normalizeVersion : Nat) (leafId : NodeId) (text : String) (byteStart : Nat)
    (chunk : String) : Option ChunkPlan := do
  let before ← sliceTo text byteStart
  let start := asI32 before.length
  some
    { startNodeId := leafId
      startCharOffset := start
      endNodeId := leafId
      endCharOffset := (start + asI32 chunk.length).bmod (2 ^ 32)
      text := chunk
      normChunkSha256 := (tools.fns normalizeVersion).normTextSha256 chunk }

/-- `plan_chunks`; `none` is a panic. -/
def planChunks (leafId : NodeId) (text : String) : Option (List ChunkPlan) := do
  let splitter ← tools.splitterFor binary.chunkVersion .default
  ((splitter.chunkIndices text).filter fun (_, chunk) => chunk ≠ "").mapM fun (byteStart, chunk) =>
    plannedChunk tools binary.normalizeVersion leafId text byteStart chunk

/-! ### Embedding -/

/-- What happens to the writes of one embedding of a paper. -/
structure EmbedFates where
  reconcile : Fate
  openStore : Fate
  delete : Fate
  append : Fate

/-- Every write goes through. -/
def EmbedFates.allDone : EmbedFates := ⟨.done, .done, .done, .done⟩

/-- One embedding of a paper: the configured model, and what the embedder and the stores do. -/
structure EmbedRun where
  model : String
  embedder : Embedder
  fates : EmbedFates

/-- `probe_dimension`. -/
def EmbedRun.probe (run : EmbedRun) : Except PipelineError Nat :=
  match run.embedder.probe ["bookrack glean probe"] with
  | .error reason => .error (.embed reason)
  | .ok vectors =>
    match vectors.head? with
    | none => .error .emptyEmbedding
    | some first => .ok first.length

/-- `embed_and_write_chunks`; the number of rows written. -/
def embedAndWriteChunks (intakeId : Int) (plans : List ChunkPlan) (run : EmbedRun) :
    Prog Library PipelineError Nat :=
  if plans.isEmpty then pure 0
  else
    match run.probe with
    | .error reason => throw reason
    | .ok probed => do
      reconcileIndexStamps run.fates.reconcile (currentIndexStamps binary run.model probed)
      let dim ← openChunkStore run.fates.openStore probed
      write run.fates.delete .vectors (Library.deleteRows ⟨intakeId⟩)
      match run.embedder.embedBatch 0 [] (plans.map (·.text)) with
      | .error reason => throw (.embed reason)
      | .ok vectors => append tools run.fates.append dim (toRows plans vectors)

/-! ### What a run leaves -/

variable {tools binary} {run : EmbedRun}

/-- The run gets as far as deleting the paper's rows, with the stamps it found. -/
structure EmbedRun.Deletes (binary : Binary) (run : EmbedRun) (stamps : Option IndexStamps)
    (probed : Nat) : Prop where
  probe : run.probe = .ok probed
  reconcile : stamps = none ∧ run.fates.reconcile = .done ∨
    stamps = some (currentIndexStamps binary run.model probed)
  openStore : run.fates.openStore = .done
  delete : run.fates.delete = .done

/-- From the deletion on nothing is refused: the embedder answers, its vectors fit the table and the
append goes through. -/
structure EmbedRun.Writes (tools : Toolchain) (run : EmbedRun) (dim : Nat) (plans : List ChunkPlan)
    (vectors : List Vector) : Prop where
  served : run.embedder.embedBatch 0 [] (plans.map (·.text)) = .ok vectors
  takes : tools.Takes dim (toRows plans vectors)
  append : run.fates.append = .done

/-- A run that deleted the paper's rows and appended these. -/
structure EmbedRun.Rewrote (binary : Binary) (run : EmbedRun) (intakeId : Int) (probed : Nat)
    (written : List ChunkRow) (before after : Library) : Prop where
  deletes : run.Deletes binary before.stamps probed
  rows : after = before.withVectors (currentIndexStamps binary run.model probed) (before.tableDim probed)
    (before.rowsOutside ⟨intakeId⟩ ++ written)

variable (tools) in
/-- Every plan has its row, and nothing was refused from the deletion on. -/
def EmbedRun.Wrote (binary : Binary) (run : EmbedRun) (intakeId : Int) (plans : List ChunkPlan)
    (before after : Library) : Prop :=
  ∃ probed vectors, run.Rewrote binary intakeId probed (toRows plans vectors) before after ∧
    run.Writes tools (before.tableDim probed) plans vectors

variable (tools) in
/-- The rows were deleted, something was refused, and no plan has a row. -/
def EmbedRun.Lost (binary : Binary) (run : EmbedRun) (intakeId : Int) (plans : List ChunkPlan)
    (before after : Library) : Prop :=
  ∃ probed, run.Rewrote binary intakeId probed [] before after ∧
    ∀ vectors, ¬ run.Writes tools (before.tableDim probed) plans vectors

/-- **What embedding a paper leaves.** -/
theorem embedAndWriteChunks_ends {plans : List ChunkPlan} (isCons : plans ≠ []) (intakeId : Int)
    (library : Library) :
    Ends (embedAndWriteChunks tools binary intakeId plans run) library
      (fun count after => run.Wrote tools binary intakeId plans library after ∧ count = plans.length)
      (fun _ after => (∀ probed, ¬ run.Deletes binary library.stamps probed) ∧ Untouched library after ∨
        run.Lost tools binary intakeId plans library after)
      (fun after => Untouched library after ∨
        ∃ probed, run.Rewrote binary intakeId probed [] library after) := by
  have nothing : Untouched library library := ⟨_, _, rfl, rfl, .inl rfl⟩
  unfold embedAndWriteChunks
  rw [if_neg (by simpa using isCons)]
  cases isProbe : run.probe with
  | error reason =>
    refine .inl ⟨fun probed deletes => ?_, nothing⟩
    rw [deletes.probe] at isProbe
    cases isProbe
  | ok probed =>
    dsimp only
    have only : ∀ {other}, run.probe = .ok other → other = probed := fun same =>
      (Except.ok.inj (isProbe.symm.trans same)).symm
    -- once the stamps are on
    have replaced : ∀ stamped : Library,
        stamped = { library with stamps := some (currentIndexStamps binary run.model probed) } →
        (library.stamps = none ∧ run.fates.reconcile = .done ∨
          library.stamps = some (currentIndexStamps binary run.model probed)) →
        Ends (do
          let dim ← openChunkStore run.fates.openStore probed
          write run.fates.delete .vectors (Library.deleteRows ⟨intakeId⟩)
          match run.embedder.embedBatch 0 [] (plans.map (·.text)) with
          | .error reason => throw (.embed reason)
          | .ok vectors => append tools run.fates.append dim (toRows plans vectors)) stamped
          (fun count after => run.Wrote tools binary intakeId plans library after ∧ count = plans.length)
          (fun _ after => (∀ probed, ¬ run.Deletes binary library.stamps probed) ∧ Untouched library after ∨
            run.Lost tools binary intakeId plans library after)
          (fun after => Untouched library after ∨
            ∃ probed, run.Rewrote binary intakeId probed [] library after) := by
      rintro stamped rfl reconciled
      have before : ∀ {table after}, after = { library with
          stamps := some (currentIndexStamps binary run.model probed), table } →
          after.rows = library.rows → Untouched library after := by
        intro table after isAfter sameRows
        refine ⟨_, _, isAfter, sameRows, ?_⟩
        rcases reconciled with ⟨isNone, _⟩ | isSome
        · exact .inr isNone
        · exact .inl isSome.symm
      rw [ends_bind]
      refine openChunkStore_ends (fun isOpen => ?_) ?_ fun _ => .inl (before rfl rfl)
      swap
      · exact fun failed => .inl ⟨fun _ deletes => Fate.noConfusion (failed.symm.trans deletes.openStore),
          before rfl rfl⟩
      rw [ends_bind]
      refine Ends.write (fun isDeleted => ?_) ?_ fun _ => .inl (before rfl rfl)
      swap
      · exact fun failed => .inl ⟨fun _ deletes => Fate.noConfusion (failed.symm.trans deletes.delete),
          before rfl rfl⟩
      have deletes : run.Deletes binary library.stamps probed := ⟨isProbe, reconciled, isOpen, isDeleted⟩
      have bare : run.Rewrote binary intakeId probed [] library
          (library.withVectors (currentIndexStamps binary run.model probed) (library.tableDim probed)
            (library.rowsOutside ⟨intakeId⟩)) := ⟨deletes, by rw [List.append_nil]⟩
      show Ends _ (library.withVectors (currentIndexStamps binary run.model probed)
        (library.tableDim probed) (library.rowsOutside ⟨intakeId⟩)) _ _ _
      cases answered : run.embedder.embedBatch 0 [] (plans.map (·.text)) with
      | error reason =>
        refine .inr ⟨probed, bare, fun vectors writes => ?_⟩
        rw [writes.served] at answered
        cases answered
      | ok vectors =>
        have same := run.embedder.onePerText answered
        rw [List.length_map] at same
        have isRows : (toRows plans vectors).length = plans.length := by
          rw [← List.length_map (·.plan), toRows_plans same]
        refine append_ends ?_ ?_ ?_ fun _ _ => .inr ⟨probed, bare⟩
        · rw [← List.length_pos_iff, isRows]
          exact List.length_pos_iff.mpr isCons
        · exact fun takes isDone => ⟨⟨probed, vectors, ⟨deletes, rfl⟩, answered, takes, isDone⟩, isRows⟩
        · intro refused
          refine .inr ⟨probed, bare, fun vectors' writes => refused ?_⟩
          obtain rfl := Except.ok.inj (answered.symm.trans writes.served)
          exact ⟨writes.takes, writes.append⟩
    rw [ends_bind]
    refine reconcileIndexStamps_ends ?_ ?_ ?_ fun _ => .inl nothing
    · exact fun isNone isDone => replaced _ rfl (.inl ⟨isNone, isDone⟩)
    · intro isSome
      refine replaced _ ?_ (.inr isSome)
      rw [← isSome]
    · exact fun refused _ => .inl ⟨fun other deletes => refused (only deletes.probe ▸ deletes.reconcile),
        nothing⟩

end Bookrack.Glean
