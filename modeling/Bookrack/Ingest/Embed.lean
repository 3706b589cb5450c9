/-
EMBED for books (`ingest/src/embed_run.rs`) and the chunk plans of a book (`ingest/src/lib.rs`).

* `batches_flatten`: the greedy batches are the plans, in order.
* `embedWithShrink_ok_iff`: halving returns vectors exactly when the embedder serves the batch, whole or
  by halves down to single chunks (`Serves`).
* **`embedBookChunks_ends`** — what an EMBED run leaves: everything it found, or the old rows of other
  books and a prefix of the new ones; and on success every plan's row, exactly when nothing is refused
  from the deletion on.
-/

import Bookrack.Library.Vectors

namespace Bookrack.Ingest

open Chunk (ChunkPlan ChunkLeaf ChunkParams planChunks)
open Corpus (Node)
open Prog

/-! ### Planning -/

/-- The leaves of a book in the order `plan_book_chunks` reads them. -/
def chunkLeaves (nodes : List Node) : List ChunkLeaf :=
  ((nodes.filter (·.nodeType.isProseLeaf)).insertionSort fun one other =>
      one.tocLo.getD one.nodeId.get ≤ other.tocLo.getD other.nodeId.get).filterMap fun node =>
    node.textContent.map fun text => ⟨node.nodeId, node.parentId, text⟩

/-- `plan_book_chunks`; `none` is a panic of the planner. -/
def planBookChunks (tools : Toolchain) (binary : Binary) (nodes : List Node) :
    Option (List ChunkPlan) :=
  planChunks (tools.fns binary.normalizeVersion) (tools.splitterFor binary.chunkVersion)
    (chunkLeaves nodes) .default

/-! ### Batches -/

/-- The loop of `greedy_batch_end`: how many chunks the batch takes. -/
def greedyBatch (config : EmbedConfig) (taken chars : Nat) : List ChunkPlan → Nat
  | [] => taken
  | plan :: rest =>
    let len := plan.text.length
    if 0 < taken ∧ (config.batchMaxChunks ≤ taken ∨ config.batchCharBudget < chars + len) then taken
    else greedyBatch config (taken + 1) (chars + len) rest

/-- The batches of the embedding loop, over at most `fuel` turns. -/
def batchesFrom (config : EmbedConfig) : Nat → List ChunkPlan → List (List ChunkPlan)
  | 0, _ => []
  | fuel + 1, plans =>
    if plans.isEmpty then []
    else
      let stop := greedyBatch config 0 0 plans
      plans.take stop :: batchesFrom config fuel (plans.drop stop)

/-- The batches of the embedding loop. -/
def batches (config : EmbedConfig) (plans : List ChunkPlan) : List (List ChunkPlan) :=
  batchesFrom config plans.length plans

/-! ### Embedding -/

/-- `embed_with_shrink` with the number of halvings left; a batch of one is never halved. -/
def embedWithShrink (embedder : Embedder) (place : Nat) (fuel : Nat) (path : List Bool)
    (batch : List ChunkPlan) : Except EmbedError (List Vector × Nat) :=
  match embedder.embedBatch place path (batch.map (·.text)) with
  | .ok vectors => .ok (vectors, 0)
  | .error reason =>
    if reason.isOverload ∧ 1 < batch.length then
      match fuel with
      | 0 => .error reason
      | fuel + 1 => do
        let mid := batch.length / 2
        let (left, leftShrinks) ← embedWithShrink embedder place fuel (path ++ [false]) (batch.take mid)
        let (right, rightShrinks) ← embedWithShrink embedder place fuel (path ++ [true]) (batch.drop mid)
        .ok (left ++ right, 1 + leftShrinks + rightShrinks)
    else .error reason

/-- `to_rows`. -/
def toRows (plans : List ChunkPlan) (vectors : List Vector) : List ChunkRow :=
  (plans.zip vectors).map fun (plan, vector) => ⟨plan, vector⟩

/-- `EmbedRunReport`. -/
structure EmbedRunReport where
  chunksWritten : Nat
  batches : Nat
  shrinkEvents : Nat
  totalChars : Nat
  deriving DecidableEq, Repr

/-- `EmbedRunReport::default`. -/
def EmbedRunReport.empty : EmbedRunReport := ⟨0, 0, 0, 0⟩

/-- What happens to the writes of one EMBED run, by batch for the appends. `finish` is the maintenance of
the index after the last batch. -/
structure EmbedFates where
  reconcile : Fate
  openStore : Fate
  countBefore : Fate
  delete : Fate
  countAfter : Fate
  append : Nat → Fate
  finish : Fate

/-- Every write goes through. -/
def EmbedFates.allDone : EmbedFates := ⟨.done, .done, .done, .done, .done, fun _ => .done, .done⟩

/-- One EMBED run: its configuration, and what the embedder and the stores do. -/
structure EmbedRun where
  config : EmbedConfig
  embedder : Embedder
  fates : EmbedFates

variable (tools : Toolchain) (binary : Binary)

/-- The loop over the batches. -/
def embedBatches (run : EmbedRun) (dim : Nat) :
    Nat → EmbedRunReport → List (List ChunkPlan) → Prog Library PipelineError EmbedRunReport
  | _, report, [] => pure report
  | place, report, batch :: rest =>
    match embedWithShrink run.embedder place batch.length [] batch with
    | .error reason => throw (.embed reason)
    | .ok (vectors, shrinks) => do
      let rows ← append tools (run.fates.append place) dim (toRows batch vectors)
      embedBatches run dim (place + 1)
        { chunksWritten := report.chunksWritten + rows
          batches := report.batches + 1
          shrinkEvents := report.shrinkEvents + shrinks
          totalChars := batch.foldl (fun chars plan => chars + plan.text.length) report.totalChars } rest

/-- The dimension the probe of the first chunk shows. -/
def EmbedRun.probe (run : EmbedRun) (first : ChunkPlan) : Except PipelineError Nat :=
  match run.embedder.probe [first.text] with
  | .error reason => .error (.embed reason)
  | .ok vectors =>
    match (vectors.head?.map List.length).filter (0 < ·) with
    | none => .error .emptyEmbedding
    | some dim => .ok dim

/-- The part of `embed_book_chunks_with_progress` after the stamps: the rows of the partition are deleted
and the plans' rows appended. -/
def replaceRows (plans : List ChunkPlan) (idx : PartitionIdx) (probed : Nat) (run : EmbedRun) :
    Prog Library PipelineError EmbedRunReport := do
  let dim ← openChunkStore run.fates.openStore probed
  write run.fates.countBefore .vectors id
  write run.fates.delete .vectors (Library.deleteRows idx)
  write run.fates.countAfter .vectors id
  let report ← embedBatches tools run dim 0 .empty (batches run.config plans)
  let _ ← quietly run.fates.finish id
  pure report

/-- `embed_book_chunks_with_progress`. -/
def embedBookChunks (plans : List ChunkPlan) (run : EmbedRun) : Prog Library PipelineError EmbedRunReport :=
  match plans with
  | [] => pure .empty
  | first :: _ =>
    match run.probe first with
    | .error reason => throw reason
    | .ok probed => do
      reconcileIndexStamps run.fates.reconcile (currentIndexStamps binary run.config.model probed)
      replaceRows tools plans first.startNodeId.partition probed run

/-! ### The batches are the plans -/

section Batches

variable {config : EmbedConfig}

theorem greedyBatch_le {taken chars : Nat} {plans : List ChunkPlan} :
    taken ≤ greedyBatch config taken chars plans := by
  induction plans generalizing taken chars with
  | nil => exact Nat.le_refl _
  | cons plan rest ih =>
    rw [greedyBatch]
    split_ifs
    · exact Nat.le_refl _
    · exact Nat.le_trans (Nat.le_succ _) ih

/-- A batch takes at least one chunk. -/
theorem greedyBatch_pos {plans : List ChunkPlan} (isCons : plans ≠ []) :
    0 < greedyBatch config 0 0 plans := by
  cases plans with
  | nil => exact absurd rfl isCons
  | cons plan rest =>
    rw [greedyBatch, if_neg fun both => absurd both.1 (Nat.lt_irrefl 0)]
    exact greedyBatch_le

theorem batchesFrom_flatten {fuel : Nat} : ∀ {plans : List ChunkPlan}, plans.length ≤ fuel →
    (batchesFrom config fuel plans).flatten = plans := by
  induction fuel with
  | zero =>
    intro plans short
    rw [List.length_eq_zero_iff.mp (Nat.le_zero.mp short)]
    rfl
  | succ fuel ih =>
    intro plans short
    cases plans with
    | nil => rfl
    | cons plan rest =>
      have isPos : 0 < greedyBatch config 0 0 (plan :: rest) := greedyBatch_pos (List.cons_ne_nil _ _)
      rw [batchesFrom, List.isEmpty_cons, if_neg Bool.false_ne_true, List.flatten_cons, ih]
      · exact List.take_append_drop _ _
      · rw [List.length_drop]
        rw [List.length_cons] at short ⊢
        omega

/-- **The batches are the plans, in order.** -/
theorem batches_flatten (plans : List ChunkPlan) : (batches config plans).flatten = plans :=
  batchesFrom_flatten (Nat.le_refl _)

theorem batchesFrom_ne_nil {fuel : Nat} : ∀ {plans : List ChunkPlan},
    ∀ batch ∈ batchesFrom config fuel plans, batch ≠ [] := by
  induction fuel with
  | zero => exact fun _ member => absurd member List.not_mem_nil
  | succ fuel ih =>
    intro plans batch member
    rw [batchesFrom] at member
    cases plans with
    | nil => exact absurd member List.not_mem_nil
    | cons plan rest =>
      rw [List.isEmpty_cons, if_neg Bool.false_ne_true] at member
      rcases List.mem_cons.mp member with rfl | later
      · have isPos : 0 < greedyBatch config 0 0 (plan :: rest) := greedyBatch_pos (List.cons_ne_nil _ _)
        rw [Ne, List.take_eq_nil_iff]
        rintro (isZero | isNil)
        · exact absurd isZero (Nat.pos_iff_ne_zero.mp isPos)
        · exact List.cons_ne_nil _ _ isNil
      · exact ih batch later

end Batches

/-! ### Halving -/

section Halving

variable {embedder : Embedder} {place : Nat}

/-- The embedder serves a batch of texts with these vectors: whole, or by halves after an overload. -/
inductive Serves (embedder : Embedder) (place : Nat) : List Bool → List String → List Vector → Prop
  | whole {path : List Bool} {texts : List String} {vectors : List Vector} :
    embedder.embedBatch place path texts = .ok vectors → Serves embedder place path texts vectors
  | halves {path : List Bool} {texts : List String} {left right : List Vector} :
    embedder.embedBatch place path texts = .error .overloaded → 1 < texts.length →
    Serves embedder place (path ++ [false]) (texts.take (texts.length / 2)) left →
    Serves embedder place (path ++ [true]) (texts.drop (texts.length / 2)) right →
    Serves embedder place path texts (left ++ right)

theorem Serves.length {path : List Bool} {texts : List String} {vectors : List Vector}
    (serves : Serves embedder place path texts vectors) : vectors.length = texts.length := by
  induction serves with
  | whole answered => exact embedder.onePerText answered
  | halves _ _ _ _ ihLeft ihRight =>
    rw [List.length_append, ihLeft, ihRight, List.length_take, List.length_drop]
    omega

theorem Serves.vectors_length {batch : List ChunkPlan} {path : List Bool} {vectors : List Vector}
    (serves : Serves embedder place path (batch.map (·.text)) vectors) : vectors.length = batch.length := by
  rw [serves.length, List.length_map]

/-- Every text's vector is the embedder's answer for it, in some request of the batch. -/
theorem Serves.answered {path : List Bool} {texts : List String} {vectors : List Vector}
    (serves : Serves embedder place path texts vectors) : ∀ entry ∈ texts.zip vectors,
    ∃ path texts vectors, embedder.embedBatch place path texts = .ok vectors ∧
      entry ∈ texts.zip vectors := by
  induction serves with
  | whole answered => exact fun entry member => ⟨_, _, _, answered, member⟩
  | @halves path texts left right _ _ servesLeft _ ihLeft ihRight =>
    intro entry member
    rw [← List.take_append_drop (texts.length / 2) texts,
      List.zip_append servesLeft.length.symm] at member
    rcases List.mem_append.mp member with isLeft | isRight
    · exact ihLeft entry isLeft
    · exact ihRight entry isRight

theorem isOverload_iff {reason : EmbedError} : reason.isOverload = true ↔ reason = .overloaded := by
  cases reason <;> simp [EmbedError.isOverload]

/-- **Halving returns vectors exactly when the embedder serves the batch.** -/
theorem embedWithShrink_ok_iff {fuel : Nat} : ∀ {path : List Bool} {batch : List ChunkPlan}
    {vectors : List Vector}, batch.length ≤ fuel + 1 →
    ((∃ shrinks, embedWithShrink embedder place fuel path batch = .ok (vectors, shrinks)) ↔
      Serves embedder place path (batch.map (·.text)) vectors) := by
  induction fuel with
  | zero =>
    intro path batch vectors short
    rw [embedWithShrink]
    constructor
    · rintro ⟨shrinks, returns⟩
      split at returns
      · rename_i answered
        cases returns
        exact .whole answered
      · split_ifs at returns
    · intro serves
      cases serves with
      | whole answered =>
        rw [answered]
        exact ⟨0, rfl⟩
      | halves _ isLong =>
        rw [List.length_map] at isLong
        omega
  | succ fuel ih =>
    intro path batch vectors short
    have halfLeft : (batch.take (batch.length / 2)).length ≤ fuel + 1 := by
      rw [List.length_take]
      omega
    rw [embedWithShrink]
    constructor
    · rintro ⟨shrinks, returns⟩
      split at returns
      · rename_i answered
        cases returns
        exact .whole answered
      · rename_i reason overload
        split_ifs at returns with halves
        obtain ⟨isOverload, isLong⟩ := halves
        rw [isOverload_iff.mp isOverload] at overload
        have halfRight : (batch.drop (batch.length / 2)).length ≤ fuel + 1 := by
          rw [List.length_drop]
          omega
        dsimp only [bind, Except.bind] at returns
        split at returns
        · cases returns
        rename_i leftResult isLeft
        split at returns
        · cases returns
        rename_i rightResult isRight
        cases returns
        have servesLeft := (ih halfLeft).mp ⟨_, isLeft⟩
        have servesRight := (ih halfRight).mp ⟨_, isRight⟩
        rw [List.map_take] at servesLeft
        rw [List.map_drop] at servesRight
        have sameLength : (batch.map (·.text)).length = batch.length := List.length_map _
        rw [← sameLength] at servesLeft servesRight isLong
        exact .halves overload isLong servesLeft servesRight
    · intro serves
      cases serves with
      | whole answered =>
        rw [answered]
        exact ⟨0, rfl⟩
      | halves overload isLong servesLeft servesRight =>
        rw [List.length_map] at isLong servesLeft servesRight
        have halfRight : (batch.drop (batch.length / 2)).length ≤ fuel + 1 := by
          rw [List.length_drop]
          omega
        rw [← List.map_take] at servesLeft
        rw [← List.map_drop] at servesRight
        obtain ⟨leftShrinks, isLeft⟩ := (ih halfLeft).mpr servesLeft
        obtain ⟨rightShrinks, isRight⟩ := (ih halfRight).mpr servesRight
        rw [overload]
        dsimp only
        rw [if_pos ⟨rfl, isLong⟩, isLeft]
        dsimp only [bind, Except.bind]
        rw [isRight]
        exact ⟨_, rfl⟩

end Halving

/-! ### What a run leaves -/

section Runs

variable {tools : Toolchain} {binary : Binary} {run : EmbedRun}

/-- The run gets as far as deleting the book's rows, with the stamps it found. -/
structure EmbedRun.Deletes (binary : Binary) (run : EmbedRun) (stamps : Option IndexStamps)
    (first : ChunkPlan) (probed : Nat) : Prop where
  probe : run.probe first = .ok probed
  reconcile : stamps = none ∧ run.fates.reconcile = .done ∨
    stamps = some (currentIndexStamps binary run.config.model probed)
  openStore : run.fates.openStore = .done
  countBefore : run.fates.countBefore = .done
  delete : run.fates.delete = .done

/-- No batch is refused, from the one at `place` on: the embedder serves it, its vectors fit the table
and the append goes through. -/
inductive Writes (tools : Toolchain) (run : EmbedRun) (dim : Nat) :
    Nat → List (List ChunkPlan) → List ChunkRow → Prop
  | nil {place : Nat} : Writes tools run dim place [] []
  | cons {place : Nat} {batch : List ChunkPlan} {rest : List (List ChunkPlan)} {vectors : List Vector}
    {written : List ChunkRow} : Serves run.embedder place [] (batch.map (·.text)) vectors →
    tools.Takes dim (toRows batch vectors) → run.fates.append place = .done →
    Writes tools run dim (place + 1) rest written →
    Writes tools run dim place (batch :: rest) (toRows batch vectors ++ written)

theorem toRows_plans {batch : List ChunkPlan} {vectors : List Vector}
    (same : vectors.length = batch.length) : (toRows batch vectors).map (·.plan) = batch := by
  rw [toRows, List.map_map]
  show (batch.zip vectors).map Prod.fst = batch
  rw [List.map_fst_zip (by omega)]

/-- The rows written carry the plans, in order. -/
theorem Writes.plans {dim place : Nat} {pieces : List (List ChunkPlan)} {written : List ChunkRow}
    (writes : Writes tools run dim place pieces written) :
    written.map (·.plan) = pieces.flatten := by
  induction writes with
  | nil => rfl
  | cons serves _ _ _ ih =>
    have same := serves.length
    rw [List.length_map] at same
    rw [List.map_append, List.flatten_cons, toRows_plans same, ih]

/-- Each vector of a served batch is the embedder's answer for its row's text. -/
theorem Serves.rows_answered {place : Nat} {batch : List ChunkPlan} {vectors : List Vector}
    (serves : Serves run.embedder place [] (batch.map (·.text)) vectors) :
    ∀ row ∈ toRows batch vectors, run.embedder.Answered row := by
  intro row member
  obtain ⟨⟨plan, vector⟩, isPair, rfl⟩ := List.mem_map.mp member
  refine ⟨place, serves.answered (plan.text, vector) ?_⟩
  rw [List.zip_map_left]
  exact List.mem_map.mpr ⟨(plan, vector), isPair, rfl⟩

/-- Where the rows of a run come from: each vector is the embedder's answer for the row's text. -/
theorem Writes.answered {dim place : Nat} {pieces : List (List ChunkPlan)} {written : List ChunkRow}
    (writes : Writes tools run dim place pieces written) : ∀ row ∈ written, run.embedder.Answered row := by
  induction writes with
  | nil => exact fun _ member => absurd member List.not_mem_nil
  | cons serves _ _ _ ih =>
    intro row member
    rcases List.mem_append.mp member with isHere | later
    · exact serves.rows_answered row isHere
    · exact ih row later

/-- What the loop has appended when it ends early: rows of the first plans, answered for, and a batch was
refused. -/
structure CutShort (tools : Toolchain) (run : EmbedRun) (dim place : Nat) (pieces : List (List ChunkPlan))
    (written : List ChunkRow) : Prop where
  refused : ∀ all, ¬ Writes tools run dim place pieces all
  isPrefix : written.map (·.plan) <+: pieces.flatten
  isShort : written.length < pieces.flatten.length
  answered : ∀ row ∈ written, run.embedder.Answered row

/-- A refusal in the first batch. -/
theorem CutShort.here {dim place : Nat} {batch : List ChunkPlan} {rest : List (List ChunkPlan)}
    (isBatch : batch ≠ []) (refused : ∀ all, ¬ Writes tools run dim place (batch :: rest) all) :
    CutShort tools run dim place (batch :: rest) [] where
  refused := refused
  isPrefix := List.nil_prefix
  isShort := by
    have := List.length_pos_iff.mpr isBatch
    rw [List.flatten_cons, List.length_append, List.length_nil]
    omega
  answered := fun _ member => absurd member List.not_mem_nil

/-- A refusal in a later one. -/
theorem CutShort.later {dim place : Nat} {batch : List ChunkPlan} {rest : List (List ChunkPlan)}
    {vectors : List Vector} {written : List ChunkRow}
    (serves : Serves run.embedder place [] (batch.map (·.text)) vectors)
    (short : CutShort tools run dim (place + 1) rest written) :
    CutShort tools run dim place (batch :: rest) (toRows batch vectors ++ written) where
  refused := by
    intro all writes
    cases writes with
    | cons _ _ _ laterWrites => exact short.refused _ laterWrites
  isPrefix := by
    rw [List.map_append, toRows_plans serves.vectors_length, List.flatten_cons]
    exact (List.prefix_append_right_inj batch).mpr short.isPrefix
  isShort := by
    have isRows := congrArg List.length (toRows_plans serves.vectors_length)
    have := short.isShort
    rw [List.length_map] at isRows
    rw [List.length_append, isRows, List.flatten_cons, List.length_append]
    omega
  answered := by
    intro row member
    rcases List.mem_append.mp member with isHere | isLater
    · exact serves.rows_answered row isHere
    · exact short.answered row isLater

theorem embedBatches_ends {dim : Nat} {pieces : List (List ChunkPlan)} :
    ∀ {place : Nat} {report : EmbedRunReport} {library : Library} {rows : List ChunkRow},
    library.table = some ⟨dim, rows⟩ → (∀ batch ∈ pieces, batch ≠ []) →
    Ends (embedBatches tools run dim place report pieces) library
      (fun report' after => ∃ written, Writes tools run dim place pieces written ∧
        after = { library with table := some ⟨dim, rows ++ written⟩ } ∧
        report'.chunksWritten = report.chunksWritten + pieces.flatten.length)
      (fun _ after => ∃ written, CutShort tools run dim place pieces written ∧
        after = { library with table := some ⟨dim, rows ++ written⟩ })
      (fun after => ∃ written, CutShort tools run dim place pieces written ∧
        after = { library with table := some ⟨dim, rows ++ written⟩ }) := by
  induction pieces with
  | nil =>
    intro place report library rows isTable _
    refine ⟨[], .nil, ?_, rfl⟩
    rw [List.append_nil, ← isTable]
  | cons batch rest ih =>
    intro place report library rows isTable isCons
    have here : library = { library with table := some ⟨dim, rows ++ []⟩ } := by
      rw [List.append_nil, ← isTable]
    have isBatch := isCons batch List.mem_cons_self
    rw [embedBatches]
    split
    · rename_i reason refused
      refine ⟨[], .here isBatch fun written writes => ?_, here⟩
      cases writes with
      | cons serves _ _ _ =>
        obtain ⟨shrinks, returns⟩ := (embedWithShrink_ok_iff (Nat.le_succ _)).mpr serves
        rw [returns] at refused
        cases refused
    · rename_i vectors shrinks returns
      have serves := (embedWithShrink_ok_iff (Nat.le_succ _)).mp ⟨shrinks, returns⟩
      have isRows := congrArg List.length (toRows_plans serves.vectors_length)
      rw [List.length_map] at isRows
      -- the batch is served, so only the append can refuse it
      have stopped : ¬ (tools.Takes dim (toRows batch vectors) ∧ run.fates.append place = .done) →
          ∀ written, ¬ Writes tools run dim place (batch :: rest) written := by
        intro refused written writes
        cases writes with
        | cons serves' takes isDone _ =>
          obtain ⟨shrinks', returns'⟩ := (embedWithShrink_ok_iff (Nat.le_succ _)).mpr serves'
          rw [returns] at returns'
          cases returns'
          exact refused ⟨takes, isDone⟩
      rw [ends_bind]
      refine append_ends ?_ ?_ ?_ ?_
      · rw [← List.length_pos_iff, isRows]
        exact List.length_pos_iff.mpr isBatch
      · intro takes isDone
        have appended : library.appendRows (toRows batch vectors) =
            { library with table := some ⟨dim, rows ++ toRows batch vectors⟩ } := by
          unfold Library.appendRows
          rw [isTable]
          rfl
        have regroup : ∀ {written : List ChunkRow} {after : Library},
            after = { library.appendRows (toRows batch vectors) with
              table := some ⟨dim, rows ++ toRows batch vectors ++ written⟩ } →
            after = { library with table := some ⟨dim, rows ++ (toRows batch vectors ++ written)⟩ } := by
          intro written after isAfter
          rw [isAfter, List.append_assoc]
          rfl
        refine (ih (congrArg Library.table appended)
          fun later member => isCons later (List.mem_cons_of_mem _ member)).mono ?_ ?_ ?_
        · rintro report' after ⟨written, writes, isAfter, counted⟩
          refine ⟨toRows batch vectors ++ written, .cons serves takes isDone writes, regroup isAfter, ?_⟩
          rw [counted, List.flatten_cons, List.length_append]
          dsimp only
          omega
        · rintro _ after ⟨written, short, isAfter⟩
          exact ⟨toRows batch vectors ++ written, short.later serves, regroup isAfter⟩
        · rintro after ⟨written, short, isAfter⟩
          exact ⟨toRows batch vectors ++ written, short.later serves, regroup isAfter⟩
      · exact fun refused => ⟨[], .here isBatch (stopped refused), here⟩
      · intro _ isCut
        refine ⟨[], .here isBatch (stopped fun both => ?_), here⟩
        exact Fate.noConfusion (isCut.symm.trans both.2)

variable (tools) in
/-- Something was refused after the deletion: the count or a batch. -/
def EmbedRun.Refused (run : EmbedRun) (dim : Nat) (plans : List ChunkPlan) : Prop :=
  run.fates.countAfter = .done → ∀ all, ¬ Writes tools run dim 0 (batches run.config plans) all

/-- The rows a run appended: those of the first plans, answered for. -/
structure EmbedRun.Appended (run : EmbedRun) (plans : List ChunkPlan) (written : List ChunkRow) : Prop where
  isPrefix : written.map (·.plan) <+: plans
  answered : ∀ row ∈ written, run.embedder.Answered row

/-- A run that deleted the partition's rows and appended these. -/
structure EmbedRun.Rewrote (binary : Binary) (run : EmbedRun) (first : ChunkPlan) (others : List ChunkPlan)
    (probed : Nat) (written : List ChunkRow) (before after : Library) : Prop where
  deletes : run.Deletes binary before.stamps first probed
  rows : after = before.withVectors (currentIndexStamps binary run.config.model probed)
    (before.tableDim probed) (before.rowsOutside first.startNodeId.partition ++ written)
  appended : run.Appended (first :: others) written

variable (tools) in
/-- Every plan has its row, and nothing was refused from the deletion on. -/
def EmbedRun.Wrote (binary : Binary) (run : EmbedRun) (first : ChunkPlan) (others : List ChunkPlan)
    (before after : Library) : Prop :=
  ∃ probed written, run.Rewrote binary first others probed written before after ∧
    run.fates.countAfter = .done ∧
    Writes tools run (before.tableDim probed) 0 (batches run.config (first :: others)) written

variable (tools) in
/-- The rows were deleted, something was refused, and some plan has no row. -/
def EmbedRun.Lost (binary : Binary) (run : EmbedRun) (first : ChunkPlan) (others : List ChunkPlan)
    (before after : Library) : Prop :=
  ∃ probed written, run.Rewrote binary first others probed written before after ∧
    run.Refused tools (before.tableDim probed) (first :: others) ∧
    written.length < (first :: others).length

variable (tools) in
/-- The rows were deleted, and all plans have their rows or something stood in the way. -/
def EmbedRun.Partway (binary : Binary) (run : EmbedRun) (first : ChunkPlan) (others : List ChunkPlan)
    (before after : Library) : Prop :=
  ∃ probed written, run.Rewrote binary first others probed written before after ∧
    (written.map (·.plan) = first :: others ∨ run.Refused tools (before.tableDim probed) (first :: others))

theorem Writes.appended {dim : Nat} {plans : List ChunkPlan} {written : List ChunkRow}
    (writes : Writes tools run dim 0 (batches run.config plans) written) : run.Appended plans written where
  isPrefix := ⟨[], by rw [List.append_nil, writes.plans, batches_flatten]⟩
  answered := writes.answered

theorem CutShort.appended {dim : Nat} {plans : List ChunkPlan} {written : List ChunkRow}
    (short : CutShort tools run dim 0 (batches run.config plans) written) : run.Appended plans written where
  isPrefix := by
    have isPrefix := short.isPrefix
    rwa [batches_flatten] at isPrefix
  answered := short.answered

theorem appended_nil (plans : List ChunkPlan) : run.Appended plans [] where
  isPrefix := List.nil_prefix
  answered := fun _ member => absurd member List.not_mem_nil

/-- The writes up to the deletion go through. -/
def EmbedRun.Opens (run : EmbedRun) : Prop :=
  run.fates.openStore = .done ∧ run.fates.countBefore = .done ∧ run.fates.delete = .done

theorem replaceRows_ends (plans : List ChunkPlan) (idx : PartitionIdx) (probed : Nat) (library : Library) :
    Ends (replaceRows tools plans idx probed run) library
      (fun report after => ∃ written, run.Opens ∧ run.fates.countAfter = .done ∧
        Writes tools run (library.tableDim probed) 0 (batches run.config plans) written ∧
        after = { library with
          table := some ⟨library.tableDim probed, library.rowsOutside idx ++ written⟩ } ∧
        report.chunksWritten = plans.length)
      (fun _ after =>
        ¬ run.Opens ∧ (∃ table, after = { library with table } ∧ after.rows = library.rows) ∨
        ∃ written, run.Opens ∧ run.Refused tools (library.tableDim probed) plans ∧
          after = { library with
            table := some ⟨library.tableDim probed, library.rowsOutside idx ++ written⟩ } ∧
          run.Appended plans written ∧ (plans ≠ [] → written.length < plans.length))
      (fun after => (∃ table, after = { library with table } ∧ after.rows = library.rows) ∨
        ∃ written, run.Opens ∧
          (written.map (·.plan) = plans ∨ run.Refused tools (library.tableDim probed) plans) ∧
          after = { library with
            table := some ⟨library.tableDim probed, library.rowsOutside idx ++ written⟩ } ∧
          run.Appended plans written) := by
  have nothing : ∃ table, library = { library with table } ∧ library.rows = library.rows :=
    ⟨_, rfl, rfl⟩
  let opened : Library := { library with table := some ⟨library.tableDim probed, library.rows⟩ }
  have openedOnly : ∃ table, opened = { library with table } ∧ opened.rows = library.rows :=
    ⟨_, rfl, rfl⟩
  let bare : Library :=
    { library with table := some ⟨library.tableDim probed, library.rowsOutside idx⟩ }
  have isBare : bare =
      { library with table := some ⟨library.tableDim probed, library.rowsOutside idx ++ []⟩ } := by
    rw [List.append_nil]
  unfold replaceRows
  rw [ends_bind]
  refine openChunkStore_ends (fun isOpen => ?_) ?_ fun _ => .inl nothing
  swap
  · exact fun failed => .inl ⟨fun all => Fate.noConfusion (failed.symm.trans all.1), nothing⟩
  rw [ends_bind]
  refine Ends.write (fun isCounted => ?_) ?_ fun _ => .inl openedOnly
  swap
  · exact fun failed => .inl ⟨fun all => Fate.noConfusion (failed.symm.trans all.2.1), openedOnly⟩
  rw [ends_bind]
  refine Ends.write (fun isDeleted => ?_) ?_ fun _ => .inl openedOnly
  swap
  · exact fun failed => .inl ⟨fun all => Fate.noConfusion (failed.symm.trans all.2.2), openedOnly⟩
  have opens : run.Opens := ⟨isOpen, isCounted, isDeleted⟩
  have stopped : run.fates.countAfter ≠ .done → run.Refused tools (library.tableDim probed) plans :=
    fun notDone isDone => absurd isDone notDone
  show Ends _ bare _ _ _
  rw [ends_bind]
  refine Ends.write (fun isCounted' => ?_) ?_ ?_
  rotate_left
  · intro failed
    exact .inr ⟨[], opens, stopped (by simp [failed]), isBare, appended_nil plans, List.length_pos_iff.mpr⟩
  · exact fun isCut => .inr ⟨[], opens, .inr (stopped (by simp [isCut])), isBare, appended_nil plans⟩
  show Ends _ bare _ _ _
  have loop : Ends (embedBatches tools run (library.tableDim probed) 0 .empty (batches run.config plans))
      bare _ _ _ := embedBatches_ends rfl batchesFrom_ne_nil
  rw [ends_bind]
  refine loop.mono ?_ ?_ ?_
  · rintro report after ⟨written, writes, rfl, counted⟩
    rw [batches_flatten] at counted
    have isPlans : written.map (·.plan) = plans := writes.plans.trans (batches_flatten plans)
    rw [ends_bind]
    refine Ends.quietly ?_ ?_ ?_
    · exact fun _ => ⟨written, opens, isCounted', writes, rfl, counted.trans (Nat.zero_add _)⟩
    · exact fun _ => ⟨written, opens, isCounted', writes, rfl, counted.trans (Nat.zero_add _)⟩
    · exact fun _ => .inr ⟨written, opens, .inl isPlans, rfl, writes.appended⟩
  · rintro _ after ⟨written, short, rfl⟩
    have isShort := short.isShort
    rw [batches_flatten] at isShort
    exact .inr ⟨written, opens, fun _ => short.refused, rfl, short.appended, fun _ => isShort⟩
  · rintro after ⟨written, short, rfl⟩
    exact .inr ⟨written, opens, .inr fun _ => short.refused, rfl, short.appended⟩

/-- **What an EMBED run leaves.** On success every plan has its row, and nothing was refused from the
deletion on. On failure the run ended before the deletion, or it had deleted and something was refused:
then some plan has no row. -/
theorem embedBookChunks_ends (first : ChunkPlan) (others : List ChunkPlan) (library : Library) :
    Ends (embedBookChunks tools binary (first :: others) run) library
      (fun report after => run.Wrote tools binary first others library after ∧
        report.chunksWritten = (first :: others).length)
      (fun _ after => (∀ probed, ¬ run.Deletes binary library.stamps first probed) ∧
        Untouched library after ∨ run.Lost tools binary first others library after)
      (fun after => Untouched library after ∨ run.Partway tools binary first others library after) := by
  have nothing : Untouched library library := ⟨_, _, rfl, rfl, .inl rfl⟩
  unfold embedBookChunks
  dsimp only
  cases isProbe : run.probe first with
  | error reason =>
    refine .inl ⟨fun probed deletes => ?_, nothing⟩
    rw [deletes.probe] at isProbe
    cases isProbe
  | ok probed =>
    dsimp only
    have only : ∀ {other}, run.probe first = .ok other → other = probed := fun same =>
      (Except.ok.inj (isProbe.symm.trans same)).symm
    -- once the stamps are on
    have replaced : ∀ stamped : Library,
        stamped = { library with stamps := some (currentIndexStamps binary run.config.model probed) } →
        (library.stamps = none ∧ run.fates.reconcile = .done ∨
          library.stamps = some (currentIndexStamps binary run.config.model probed)) →
        Ends (replaceRows tools (first :: others) first.startNodeId.partition probed run) stamped
          (fun report after => run.Wrote tools binary first others library after ∧
            report.chunksWritten = (first :: others).length)
          (fun _ after => (∀ probed, ¬ run.Deletes binary library.stamps first probed) ∧
            Untouched library after ∨ run.Lost tools binary first others library after)
          (fun after => Untouched library after ∨ run.Partway tools binary first others library after) := by
      rintro stamped rfl reconciled
      have before : ∀ {table after}, after = { library with
          stamps := some (currentIndexStamps binary run.config.model probed), table } →
          after.rows = library.rows → Untouched library after := by
        intro table after isAfter sameRows
        refine ⟨_, _, isAfter, sameRows, ?_⟩
        rcases reconciled with ⟨isNone, _⟩ | isSome
        · exact .inr isNone
        · exact .inl isSome.symm
      have rewrote : ∀ {written after}, run.Opens → run.Appended (first :: others) written →
          after = { library with
            stamps := some (currentIndexStamps binary run.config.model probed)
            table := some ⟨library.tableDim probed,
              library.rowsOutside first.startNodeId.partition ++ written⟩ } →
          run.Rewrote binary first others probed written library after :=
        fun opens appended isAfter => ⟨⟨isProbe, reconciled, opens.1, opens.2.1, opens.2.2⟩, isAfter, appended⟩
      refine (replaceRows_ends (first :: others) first.startNodeId.partition probed _).mono ?_ ?_ ?_
      · rintro report after ⟨written, opens, isCounted', writes, isAfter, counted⟩
        exact ⟨⟨probed, written, rewrote opens writes.appended isAfter, isCounted', writes⟩, counted⟩
      · rintro _ after (⟨refused, table, isAfter, sameRows⟩ |
          ⟨written, opens, refused, isAfter, appended, isShort⟩)
        · exact .inl ⟨fun other deletes => refused ⟨deletes.openStore, deletes.countBefore, deletes.delete⟩,
            before isAfter sameRows⟩
        · exact .inr ⟨probed, written, rewrote opens appended isAfter, refused,
            isShort (List.cons_ne_nil _ _)⟩
      · rintro after (⟨table, isAfter, sameRows⟩ | ⟨written, opens, refused, isAfter, appended⟩)
        · exact .inl (before isAfter sameRows)
        · exact .inr ⟨probed, written, rewrote opens appended isAfter, refused⟩
    rw [ends_bind]
    refine reconcileIndexStamps_ends ?_ ?_ ?_ fun _ => .inl nothing
    · exact fun isNone isDone => replaced _ rfl (.inl ⟨isNone, isDone⟩)
    · intro isSome
      refine replaced _ ?_ (.inr isSome)
      rw [← isSome]
    · exact fun refused _ => .inl ⟨fun other deletes => refused (only deletes.probe ▸ deletes.reconcile),
        nothing⟩

end Runs

end Bookrack.Ingest
