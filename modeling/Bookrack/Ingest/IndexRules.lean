/-
What keeps an invariant of the index: the drivers of the book pipeline write beside the stamps and the
rows, but for a few writes.

* `IndexRules` — what to show of an invariant: it outlives the loss of rows, the putting on of stamps, and
  every EMBED run of a given kind.
* **`IndexRules.ingestBook`**, **`IndexRules.rebuild`**, **`IndexRules.reembedAll`**,
  **`IndexRules.rechunk`** — the drivers then keep it, wherever they end.
-/

import Bookrack.Ingest.Removal

namespace Bookrack.Ingest

open Chunk (ChunkPlan)
open Prog

/-! ### The commands that put stamps on -/

section Stamps

variable (binary : Binary)

/-- `reconcile` of `cmd/stamps.rs`; `probe` is what the live embedder answers its probe with. -/
def reconcileStamps (model : String) (probe : Except PipelineError Nat) (openCorpus fate : Fate) :
    Prog Library PipelineError IndexStamps :=
  match probe with
  | .error reason => throw reason
  | .ok dim => do
    write openCorpus .corpus fun library => library
    reconcileIndexStamps fate (currentIndexStamps binary model dim)
    pure (currentIndexStamps binary model dim)

/-- `stamp_index_from_existing_chunks`. -/
def stampIndexFromExistingChunks (model : String) (tryOpen countRows fate : Fate) :
    Prog Library PipelineError Bool := do
  write tryOpen .vectors fun library => library
  match ← read (·.table) with
  | none => pure false
  | some table =>
    write countRows .vectors fun library => library
    if table.rows.length = 0 then pure false
    else
      reconcileIndexStamps fate (currentIndexStamps binary model table.dim)
      pure true

end Stamps

/-! ### Rules -/

/-- `P` holds afterwards if it held before. -/
def Keeps (P : Library → Prop) (before after : Library) : Prop := P before → P after

theorem keeps (P : Library → Prop) : Frame (Keeps P) where
  refl := fun _ holds => holds
  trans := fun one two holds => two (one holds)

/-- What to show of an invariant of the index under the EMBED runs of this kind. -/
structure IndexRules (tools : Toolchain) (allowed : Binary → EmbedRun → Prop) (P : Library → Prop) : Prop where
  fewer : ∀ {before after : Library}, P before → after.stamps = before.stamps →
    (∀ row ∈ after.rows, row ∈ before.rows) → P after
  reconcile : ∀ fate expected, Moves (Keeps P) (reconcileIndexStamps fate expected)
  tree : ∀ {binary nodes plans run}, allowed binary run → planBookChunks tools binary nodes = some plans →
    Moves (Keeps P) (embedBookChunks tools binary plans run)
  reembed : ∀ {binary intakeId run}, allowed binary run.embed →
    Moves (Keeps P) (reembedBook tools binary intakeId run)

section Drivers

variable {tools : Toolchain} {binary : Binary} {allowed : Binary → EmbedRun → Prop} {P : Library → Prop}
  (rules : IndexRules tools allowed P)
include rules

/-- A write beside the stamps and the rows. -/
theorem IndexRules.write {fate : Fate} {reason : PipelineError} {change : Library → Library}
    (stamps : ∀ library, (change library).stamps = library.stamps)
    (rows : ∀ library, (change library).rows = library.rows) :
    Moves (Keeps P) (write fate reason change) :=
  Moves.write (keeps P) fun library holds =>
    rules.fewer holds (stamps library) fun row isRow => by rwa [rows] at isRow

theorem IndexRules.quietly {fate : Fate} {change : Library → Library}
    (stamps : ∀ library, (change library).stamps = library.stamps)
    (rows : ∀ library, (change library).rows = library.rows) :
    Moves (Keeps P) (quietly fate change : Prog Library PipelineError Bool) :=
  Moves.quietly (keeps P) fun library holds =>
    rules.fewer holds (stamps library) fun row isRow => by rwa [rows] at isRow

omit rules in
/-- A stretch of a driver that plans a tree and goes on with the plans. -/
theorem unwrap_plans {α : Type} {nodes : List Corpus.Node}
    {next : List ChunkPlan → Prog Library PipelineError α}
    (rest : ∀ plans, planBookChunks tools binary nodes = some plans → Moves (Keeps P) (next plans)) :
    Moves (Keeps P) (unwrap (planBookChunks tools binary nodes) >>= next) := by
  cases isPlans : planBookChunks tools binary nodes with
  | none => exact Moves.halt (keeps P)
  | some plans => exact rest plans isPlans

/-! ### Ingest and rebuild -/

theorem IndexRules.corpusCall {ε α : Type} (fate : Fate)
    (call : Corpus.CorpusDb → Except ε α × Corpus.CorpusDb) :
    Moves (Keeps P) (corpusCall fate call) := by
  cases fate with
  | done => exact fun _ holds => rules.fewer holds rfl fun _ isRow => isRow
  | failed => exact Moves.throw (keeps P) _
  | cut => exact Moves.halt (keeps P)

theorem IndexRules.writeTree (idx : PartitionIdx) (now : String) (batch : TreeBatch) (fates : TreeFates) :
    Moves (Keeps P) (writeTree idx now batch fates) := by
  have frame := keeps P
  refine Moves.bind frame (rules.write (fun _ => rfl) fun _ => rfl) fun _ => ?_
  refine Moves.bind frame (rules.corpusCall _ _) fun allocated => ?_
  cases allocated with
  | error reason => exact Moves.throw frame _
  | ok partition =>
    refine Moves.bind frame (rules.corpusCall _ _) fun handedOut => ?_
    cases handedOut with
    | error reason =>
      cases reason with
      | offsetOutOfRange => exact Moves.halt frame
      | _ => exact Moves.throw frame _
    | ok ids =>
      refine Moves.bind frame (Moves.unwrap frame _) fun nodes => ?_
      refine Moves.bind frame (rules.corpusCall _ _) fun inserted => ?_
      cases inserted with
      | error reason => exact Moves.throw frame _
      | ok _ => exact Moves.pure frame _

theorem IndexRules.ingestStructure (intakeId : Int) (content : Structure.Extraction) (now : String)
    (fates : TreeFates) :
    Moves (Keeps P) (ingestStructure tools binary intakeId content now fates) := by
  unfold Ingest.ingestStructure
  cases Structure.planTree (tools.fns binary.normalizeVersion) .work content defaultStructure with
  | error reason => exact Moves.throw (keeps P) _
  | ok plan =>
    refine Moves.bind (keeps P) (rules.writeTree _ _ _ _) fun _ => ?_
    exact Moves.pure (keeps P) _

theorem IndexRules.resumeFromChunk {intakeId : Int} {run : EmbedRun} {fates : ResumeFates}
    (isAllowed : allowed binary run) :
    Moves (Keeps P) (resumeFromChunk tools binary intakeId run fates) := by
  have frame := keeps P
  refine Moves.bind frame (Moves.attempt (rules.write (fun _ => rfl) fun _ => rfl)) fun readTree => ?_
  cases readTree with
  | error reason =>
    exact Moves.bind frame (rules.quietly (fun _ => rfl) fun _ => rfl) fun _ => Moves.throw frame _
  | ok _ =>
    refine Moves.bind frame (Moves.read frame _) fun nodes => unwrap_plans fun plans isPlans => ?_
    refine Moves.bind frame (Moves.attempt (rules.tree isAllowed isPlans)) fun embedded => ?_
    cases embedded with
    | error reason =>
      exact Moves.bind frame (rules.quietly (fun _ => rfl) fun _ => rfl) fun _ => Moves.throw frame _
    | ok report =>
      refine Moves.bind frame (rules.write (fun _ => rfl) fun _ => rfl) fun _ => ?_
      refine Moves.bind frame (rules.write (fun _ => rfl) fun _ => rfl) fun _ => ?_
      exact Moves.bind frame (rules.quietly (fun _ => rfl) fun _ => rfl) fun _ => Moves.pure frame _

theorem IndexRules.storeEnvelope (intakeId : Int) (sourceSha : String) (extraction : Extracted)
    (fates : EnvelopeFates) :
    Moves (Keeps P) (storeEnvelope intakeId sourceSha extraction fates) := by
  have frame := keeps P
  refine Moves.bind frame (rules.quietly (fun _ => rfl) fun _ => rfl) fun written => ?_
  split_ifs
  · refine Moves.bind frame (rules.quietly (fun _ => rfl) fun _ => rfl) fun _ => ?_
    exact Moves.bind frame (rules.quietly (fun _ => rfl) fun _ => rfl) fun _ => Moves.pure frame _
  · refine Moves.bind frame (rules.quietly (fun _ => rfl) fun _ => rfl) fun _ => ?_
    exact Moves.bind frame (rules.quietly (fun _ => rfl) fun _ => rfl) fun _ => Moves.pure frame _

theorem IndexRules.registerIntake (sourceSha : String) (newId : Int) (fate : Fate) :
    Moves (Keeps P) (registerIntake sourceSha newId fate) := by
  have frame := keeps P
  refine Moves.bind frame (Moves.read frame _) fun found => ?_
  cases found with
  | some intake =>
    exact Moves.bind frame (rules.write (fun _ => rfl) fun _ => rfl) fun _ => Moves.pure frame _
  | none => exact Moves.bind frame (rules.write (fun _ => rfl) fun _ => rfl) fun _ => Moves.pure frame _

theorem IndexRules.anchorScan (call : IngestCall) (reason : String) :
    Moves (Keeps P) (anchorScan call reason) := by
  have frame := keeps P
  refine Moves.bind frame (rules.registerIntake _ _ _) fun (intakeId, isNew) => ?_
  dsimp only
  split_ifs
  · refine Moves.bind frame (rules.write (fun _ => rfl) fun _ => rfl) fun _ => ?_
    refine Moves.bind frame (rules.write (fun _ => rfl) fun _ => rfl) fun _ => ?_
    refine Moves.bind frame (rules.write (fun _ => rfl) fun _ => rfl) fun _ => ?_
    exact Moves.bind frame (rules.write (fun _ => rfl) fun _ => rfl) fun _ => Moves.throw frame _
  · exact Moves.throw frame _

theorem IndexRules.checkEnvelope (intake : Intake) (extraction : Extracted) (sourceSha : String)
    (fates : RestampFates) :
    Moves (Keeps P) (checkEnvelope intake extraction sourceSha fates) := by
  have frame := keeps P
  refine Moves.bind frame (Moves.attempt (rules.write (fun _ => rfl) fun _ => rfl)) fun readable => ?_
  cases readable with
  | error reason => exact Moves.pure frame _
  | ok _ =>
    refine Moves.bind frame (Moves.read frame _) fun file => ?_
    cases compareEnvelope intake extraction file with
    | unchanged =>
      refine Moves.bind frame (rules.storeEnvelope _ _ _ _) fun isStored => ?_
      split_ifs
      · exact Moves.pure frame _
      · exact Moves.pure frame _
    | _ => exact Moves.pure frame _

theorem IndexRules.restampIfUnchanged (intake : Intake) (extraction : Extracted) (sourceSha : String)
    (fates : RestampFates) :
    Moves (Keeps P) (restampIfUnchanged intake extraction sourceSha fates) := by
  have frame := keeps P
  refine Moves.bind frame (rules.checkEnvelope _ _ _ _) fun check => ?_
  cases check with
  | unchanged =>
    refine Moves.bind frame (rules.write (fun _ => rfl) fun _ => rfl) fun _ => ?_
    exact Moves.bind frame (rules.write (fun _ => rfl) fun _ => rfl) fun _ => Moves.pure frame _
  | _ => exact Moves.pure frame _

variable {call : IngestCall}

theorem IndexRules.runStages (isAllowed : allowed binary call.run) (extraction : Extracted) :
    Moves (Keeps P) (runStages tools binary call extraction) := by
  have frame := keeps P
  refine Moves.bind frame (rules.registerIntake _ _ _) fun (intakeId, isNew) => ?_
  refine Moves.bind frame (rules.write (fun _ => rfl) fun _ => rfl) fun _ => ?_
  refine Moves.bind frame (rules.ingestStructure _ _ _ _) fun structured => ?_
  refine Moves.bind frame (rules.write (fun _ => rfl) fun _ => rfl) fun _ => ?_
  refine Moves.bind frame (rules.quietly (fun _ => rfl) fun _ => rfl) fun _ => ?_
  refine Moves.bind frame (rules.write (fun _ => rfl) fun _ => rfl) fun _ => ?_
  refine Moves.bind frame (rules.storeEnvelope _ _ _ _) fun _ => ?_
  dsimp only
  split_ifs
  · exact Moves.bind frame (rules.quietly (fun _ => rfl) fun _ => rfl) fun _ => Moves.pure frame _
  · exact Moves.bind frame (rules.resumeFromChunk isAllowed) fun _ => Moves.pure frame _

theorem IndexRules.extractAndRun (isAllowed : allowed binary call.run) (behind : Option Intake) :
    Moves (Keeps P) (extractAndRun tools binary call behind) := by
  have frame := keeps P
  unfold Ingest.extractAndRun
  cases call.extract with
  | failed => exact Moves.throw frame _
  | needsOcr reason => exact rules.anchorScan call reason
  | extracted extraction =>
    cases behind with
    | none => exact rules.runStages isAllowed extraction
    | some intake =>
      refine Moves.bind frame (rules.restampIfUnchanged _ _ _ _) fun report => ?_
      cases report with
      | some report => exact Moves.pure frame _
      | none => exact rules.runStages isAllowed extraction

theorem IndexRules.ingestBook (isAllowed : allowed binary call.run) :
    Moves (Keeps P) (ingestBook tools binary call) := by
  have frame := keeps P
  unfold Ingest.ingestBook
  split_ifs
  · exact rules.extractAndRun isAllowed none
  refine Moves.bind frame (rules.write (fun _ => rfl) fun _ => rfl) fun _ => ?_
  refine Moves.bind frame (Moves.read frame _) fun found => ?_
  cases found with
  | current intakeId => exact Moves.pure frame _
  | extractorBehind intake => exact rules.extractAndRun isAllowed (some intake)
  | rerun => exact rules.extractAndRun isAllowed none

theorem IndexRules.rebuild (run : RebuildRun) :
    Moves (Keeps P) (rebuildFromIntakes tools binary run) := by
  have frame := keeps P
  refine Moves.bind frame (rules.write (fun _ => rfl) fun _ => rfl) fun _ => ?_
  refine Moves.bind frame (Moves.read frame _) fun resolved => ?_
  cases resolved with
  | error reason => exact Moves.throw frame _
  | ok targets =>
    refine Moves.loop frame (fun position intake report => ?_) _ _
    unfold rebuildOne
    dsimp only
    cases intake.storedPath with
    | none => exact Moves.pure frame _
    | some path =>
      refine Moves.bind frame (Moves.attempt (rules.write (fun _ => rfl) fun _ => rfl)) fun readable => ?_
      cases readable with
      | error reason => exact Moves.pure frame _
      | ok _ =>
        refine Moves.bind frame (Moves.read frame _) fun file => ?_
        cases file with
        | none => exact Moves.pure frame _
        | some file =>
          cases file with
          | other => exact Moves.pure frame _
          | envelope envelope =>
            dsimp only
            split_ifs
            · exact Moves.pure frame _
            · exact Moves.pure frame _
            refine Moves.bind frame (Moves.attempt (rules.ingestStructure _ _ _ _)) fun built => ?_
            cases built with
            | ok _ => exact Moves.pure frame _
            | error reason => exact Moves.pure frame _

/-! ### Reembedding and rechunking -/

omit rules in
theorem reembedEach_keeps {one : Nat → Int → Prog Library PipelineError Nat}
    (each : ∀ position id, Moves (Keeps P) (one position id)) (targets : List Int) :
    ∀ position report, Moves (Keeps P) (reembedEach one position report targets) := by
  induction targets with
  | nil => exact fun _ _ => Moves.pure (keeps P) _
  | cons id rest ih =>
    intro position report
    refine Moves.bind (keeps P) (each position id) fun written => ?_
    split_ifs
    · exact ih _ _
    · exact ih _ _

theorem IndexRules.reembedAll {params : TargetParams} {collect : Fate} {runs : Nat → ReembedRun}
    (isAllowed : ∀ position, allowed binary (runs position).embed) :
    Moves (Keeps P) (reembedAllBooks tools binary params collect runs) := by
  have frame := keeps P
  refine Moves.bind frame (rules.write (fun _ => rfl) fun _ => rfl) fun _ => ?_
  refine Moves.bind frame (Moves.read frame _) fun resolved => ?_
  cases resolved with
  | error reason => exact Moves.throw frame _
  | ok intakes =>
    refine reembedEach_keeps (fun position id => ?_) _ _ _
    exact Moves.bind frame (rules.reembed (isAllowed position)) fun _ => Moves.pure frame _

variable {run : ResetRun}

/-- The build phase of a reset. -/
theorem IndexRules.rechunk (isAllowed : ∀ position, allowed binary (run.embed position)) :
    Moves (Keeps P) (do
      Prog.write run.listExtracted .catalog fun library => library
      let targets ← read (·.intakesWithStatus .extracted)
      loop targets ⟨0, 0, []⟩ (rechunkOne tools binary run)) := by
  have frame := keeps P
  refine Moves.bind frame (rules.write (fun _ => rfl) fun _ => rfl) fun _ => ?_
  refine Moves.bind frame (Moves.read frame _) fun targets =>
    Moves.loop frame (fun position intake report => ?_) _ _
  refine Moves.bind frame (rules.write (fun _ => rfl) fun _ => rfl) fun _ => ?_
  refine Moves.bind frame (Moves.read frame _) fun nodes => unwrap_plans fun plans isPlans => ?_
  split_ifs
  · exact Moves.pure frame _
  refine Moves.bind frame (rules.tree (isAllowed position) isPlans) fun embedded => ?_
  exact Moves.bind frame (rules.write (fun _ => rfl) fun _ => rfl) fun _ => Moves.pure frame _

/-- The steps of a fresh reset behind the drop of the table. -/
theorem IndexRules.demotions :
    Moves (Keeps P) (do
      Prog.write run.removeSidecar PipelineError.vectors fun library => library
      Prog.write run.listEmbedded .catalog fun library => library
      let embedded ← read (·.intakesWithStatus .embedded)
      loop embedded () fun position intake _ =>
        Prog.write (run.demote position) .catalog (Library.setIntakeStatus intake.intakeId .extracted)) := by
  have frame := keeps P
  refine Moves.bind frame (rules.write (fun _ => rfl) fun _ => rfl) fun _ => ?_
  refine Moves.bind frame (rules.write (fun _ => rfl) fun _ => rfl) fun _ => ?_
  refine Moves.bind frame (Moves.read frame _) fun embedded => Moves.loop frame (fun position intake _ => ?_) _ _
  exact rules.write (fun _ => rfl) fun _ => rfl

/-! ### Stamps -/

theorem IndexRules.reconcileStamps (model : String) (probe : Except PipelineError Nat)
    (openCorpus fate : Fate) :
    Moves (Keeps P) (reconcileStamps binary model probe openCorpus fate) := by
  have frame := keeps P
  cases probe with
  | error reason => exact Moves.throw frame _
  | ok dim =>
    refine Moves.bind frame (rules.write (fun _ => rfl) fun _ => rfl) fun _ => ?_
    exact Moves.bind frame (rules.reconcile _ _) fun _ => Moves.pure frame _

theorem IndexRules.stampExisting (model : String) (tryOpen countRows fate : Fate) :
    Moves (Keeps P) (stampIndexFromExistingChunks binary model tryOpen countRows fate) := by
  have frame := keeps P
  refine Moves.bind frame (rules.write (fun _ => rfl) fun _ => rfl) fun _ => ?_
  refine Moves.bind frame (Moves.read frame _) fun table => ?_
  cases table with
  | none => exact Moves.pure frame _
  | some table =>
    refine Moves.bind frame (rules.write (fun _ => rfl) fun _ => rfl) fun _ => ?_
    split_ifs
    · exact Moves.pure frame _
    · exact Moves.bind frame (rules.reconcile _ _) fun _ => Moves.pure frame _

/-! ### Removal -/

omit rules in
theorem shelfFrame (P : Library → Prop) : Frame fun before after : Shelf => P before.library →
    P after.library where
  refl := fun _ holds => holds
  trans := fun one two holds => two (one holds)

/-- A removal takes rows away, and leaves the stamps. -/
theorem IndexRules.remove (fingerprint : RemovePlan → String) (id : Int) (expected : Option String)
    (fates : RemoveFates) :
    Moves (fun before after : Shelf => P before.library → P after.library)
      (executeRemoveFromPlan fingerprint id expected fates) := by
  have frame := shelfFrame P
  have beside : ∀ {fate : Fate} {reason : RemoveError} {step : Shelf → Shelf},
      (∀ shelf, (step shelf).library.stamps = shelf.library.stamps) →
      (∀ shelf, ∀ row ∈ (step shelf).library.rows, row ∈ shelf.library.rows) →
      Moves (fun before after : Shelf => P before.library → P after.library) (Prog.write fate reason step) :=
    fun stamps rows => Moves.write frame fun shelf holds => rules.fewer holds (stamps shelf) (rows shelf)
  have reads : ∀ {fate : Fate} {reason : RemoveError},
      Moves (fun before after : Shelf => P before.library → P after.library)
        (Prog.write fate reason fun shelf => shelf) :=
    beside (fun _ => rfl) fun _ _ isRow => isRow
  refine Moves.bind frame reads fun _ => Moves.bind frame reads fun _ => ?_
  refine Moves.bind frame (Moves.read frame _) fun found => ?_
  cases found with
  | none => exact Moves.throw frame _
  | some intake =>
    refine Moves.bind frame ?_ fun _ => Moves.bind frame (Moves.read frame _) fun deleted => ?_
    · unfold checkDrift
      cases expected with
      | none => exact Moves.pure frame _
      | some expected =>
        refine Moves.bind frame ?_ fun current => ?_
        · refine Moves.bind frame reads fun _ => Moves.bind frame (Moves.read frame _) fun counts => ?_
          refine Moves.bind frame (Moves.read frame _) fun _ => Moves.bind frame reads fun _ => ?_
          refine Moves.bind frame ?_ fun rows => Moves.bind frame reads fun _ => ?_
          · refine Moves.bind frame (Moves.read frame _) fun table => ?_
            cases table with
            | none => exact Moves.pure frame _
            | some table =>
              exact Moves.bind frame (Moves.quietly frame fun _ holds => holds)
                fun _ => Moves.read frame _
          · exact Moves.bind frame reads fun _ => Moves.bind frame (Moves.read frame _)
              fun _ => Moves.pure frame _
        · split_ifs
          · exact Moves.throw frame _
          · exact Moves.pure frame _
    refine Moves.bind frame (beside (fun _ => rfl) fun _ _ isRow => isRow) fun _ => ?_
    refine Moves.bind frame reads fun _ => ?_
    refine Moves.bind frame (beside (fun _ => rfl) fun _ _ isRow => isRow) fun _ => ?_
    refine Moves.bind frame ?_ fun _ => Moves.bind frame ?_ fun _ => ?_
    · refine Moves.bind frame reads fun _ => Moves.bind frame (Moves.read frame _) fun stamps => ?_
      cases stamps with
      | none => exact Moves.pure frame _
      | some stamps =>
        refine Moves.bind frame (beside (fun _ => rfl) fun shelf row isRow => ?_) fun _ =>
          beside (fun _ => rfl) fun shelf row isRow => ?_
        · rwa [Shelf.change, Library.rows_openTable] at isRow
        · rw [Shelf.change, rows_deleteRows] at isRow
          exact List.mem_of_mem_filter isRow
    · unfold removeEnvelope
      cases intake.storedPath with
      | none => exact Moves.pure frame _
      | some path =>
        refine Moves.bind frame (Moves.read frame _) fun file => ?_
        cases file with
        | none => exact Moves.pure frame _
        | some file => exact beside (fun _ => rfl) fun _ _ isRow => isRow
    · refine Moves.bind frame (Moves.read frame _) fun existed => ?_
      exact Moves.bind frame (beside (fun _ => rfl) fun _ _ isRow => isRow) fun _ => Moves.pure frame _

end Drivers

end Bookrack.Ingest
