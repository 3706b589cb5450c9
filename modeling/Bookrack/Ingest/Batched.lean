/-
Batched embedding against one-by-one embedding (`ingest/src/embed_run.rs`).

The run is told: every request to the embedder and every call of `on_batch` goes on a trail.

* `embedBookChunksTold_echoes`: with the trail forgotten, the told run is `embedBookChunks`.
* `greedyBatch_chars`: a batch keeps to the character budget, or it is one chunk.
* `embedWithShrinkTold_ends`: halving asks for parts of the batch, fewer than twice its chunks.
* **`embed_batched`** — for an embedder with one vector for each text, the rows appended are those of
  one-by-one embedding, whatever it refuses as overloaded; every request fits the configuration, there
  are at most two for each plan and the probe, and the calls of `on_batch` count up to the total.
-/

import Bookrack.Base.Told
import Bookrack.Ingest.Embed

namespace Bookrack.Ingest

open Chunk (ChunkPlan)
open Prog

/-! ### The told run -/

/-- What an EMBED run does to the world outside the stores: a request to the embedder, or a call of
`on_batch`. -/
inductive EmbedEvent
  | request (texts : List String)
  | onBatch (consumed total : Nat)
  deriving DecidableEq, Repr

/-- The requests, in order. -/
def requests (events : List EmbedEvent) : List (List String) :=
  events.filterMap fun event => match event with
    | .request texts => some texts
    | .onBatch _ _ => none

/-- The calls of `on_batch`, in order. -/
def calls (events : List EmbedEvent) : List (Nat × Nat) :=
  events.filterMap fun event => match event with
    | .request _ => none
    | .onBatch consumed total => some (consumed, total)

/-- `embed_with_shrink`. -/
def embedWithShrinkTold {σ : Type} (embedder : Embedder) (place : Nat) (path : List Bool)
    (batch : List ChunkPlan) : Prog (σ × List EmbedEvent) PipelineError (List Vector × Nat) := do
  let texts := batch.map (·.text)
  heard (.request texts)
  match embedder.embedBatch place path texts with
  | .ok vectors => pure (vectors, 0)
  | .error reason =>
    if _ : reason.isOverload ∧ 1 < batch.length then do
      let mid := batch.length / 2
      let (left, leftShrinks) ← embedWithShrinkTold embedder place (path ++ [false]) (batch.take mid)
      let (right, rightShrinks) ← embedWithShrinkTold embedder place (path ++ [true]) (batch.drop mid)
      pure (left ++ right, 1 + leftShrinks + rightShrinks)
    else throw (.embed reason)
termination_by batch.length
decreasing_by
  · rw [List.length_take]
    omega
  · rw [List.length_drop]
    omega

/-- `greedy_batch_end`. -/
def greedyBatchEnd (plans : List ChunkPlan) (start : Nat) (config : EmbedConfig) : Nat :=
  start + greedyBatch config 0 0 (plans.drop start)

theorem lt_greedyBatchEnd {plans : List ChunkPlan} {start : Nat} {config : EmbedConfig}
    (more : start < plans.length) : start < greedyBatchEnd plans start config := by
  have isCons : plans.drop start ≠ [] := by
    rw [Ne, List.drop_eq_nil_iff]
    omega
  exact Nat.lt_add_of_pos_right (greedyBatch_pos isCons)

variable (tools : Toolchain) (binary : Binary)

/-- The `while` loop of `embed_book_chunks_with_progress`; `place` counts its turns. -/
def embedFrom (run : EmbedRun) (dim : Nat) (plans : List ChunkPlan) (place start : Nat)
    (report : EmbedRunReport) : Prog (Library × List EmbedEvent) PipelineError EmbedRunReport :=
  if _ : start < plans.length then do
    let stop := greedyBatchEnd plans start run.config
    let batch := (plans.drop start).take (stop - start)
    let (vectors, shrinks) ← embedWithShrinkTold run.embedder place [] batch
    let rows ← silent (append tools (run.fates.append place) dim (toRows batch vectors))
    heard (.onBatch stop plans.length)
    embedFrom run dim plans (place + 1) stop
      { chunksWritten := report.chunksWritten + rows
        batches := report.batches + 1
        shrinkEvents := report.shrinkEvents + shrinks
        totalChars := batch.foldl (fun chars plan => chars + plan.text.length) report.totalChars }
  else pure report
termination_by plans.length - start
decreasing_by
  have : start < greedyBatchEnd plans start run.config := lt_greedyBatchEnd ‹_›
  omega

/-- The part after the stamps. -/
def replaceRowsTold (plans : List ChunkPlan) (idx : PartitionIdx) (probed : Nat) (run : EmbedRun) :
    Prog (Library × List EmbedEvent) PipelineError EmbedRunReport := do
  let dim ← silent (openChunkStore run.fates.openStore probed)
  silent (write run.fates.countBefore .vectors id)
  silent (write run.fates.delete .vectors (Library.deleteRows idx))
  silent (write run.fates.countAfter .vectors id)
  let report ← embedFrom tools run dim plans 0 0 .empty
  let _ ← silent (quietly run.fates.finish id)
  pure report

/-- `embed_book_chunks_with_progress`. -/
def embedBookChunksTold (plans : List ChunkPlan) (run : EmbedRun) :
    Prog (Library × List EmbedEvent) PipelineError EmbedRunReport :=
  match plans with
  | [] => pure .empty
  | first :: _ => do
    heard (.request [first.text])
    match run.probe first with
    | .error reason => throw reason
    | .ok probed => do
      silent (reconcileIndexStamps run.fates.reconcile (currentIndexStamps binary run.config.model probed))
      replaceRowsTold tools plans first.startNodeId.partition probed run

/-! ### What is asked -/

section Requests

variable {config : EmbedConfig}

/-- The characters of a request. -/
def charsOf : List String → Nat
  | [] => 0
  | text :: rest => text.length + charsOf rest

theorem charsOf_sublist {part texts : List String} (isPart : part.Sublist texts) :
    charsOf part ≤ charsOf texts := by
  induction isPart with
  | slnil => exact Nat.le_refl _
  | cons text _ ih => exact Nat.le_trans ih (Nat.le_add_left _ _)
  | cons_cons text _ ih => exact Nat.add_le_add_left ih _

/-- A request that fits the configuration: at least one text, at most as many as a batch may hold, and
within the character budget unless it is a single text. -/
structure Fits (config : EmbedConfig) (texts : List String) : Prop where
  isCons : texts ≠ []
  count : texts.length ≤ max 1 config.batchMaxChunks
  chars : charsOf texts ≤ config.batchCharBudget ∨ texts.length = 1

/-- A part of a request that fits does. -/
theorem Fits.part {texts part : List String} (fits : Fits config texts) (isPart : part.Sublist texts)
    (isCons : part ≠ []) : Fits config part where
  isCons := isCons
  count := Nat.le_trans isPart.length_le fits.count
  chars := by
    rcases fits.chars with within | single
    · exact .inl (Nat.le_trans (charsOf_sublist isPart) within)
    · have := isPart.length_le
      have := List.length_pos_iff.mpr isCons
      exact .inr (by omega)

theorem Fits.single (text : String) : Fits config [text] where
  isCons := List.cons_ne_nil _ _
  count := Nat.le_max_left _ _
  chars := .inr rfl

theorem greedyBatch_count {taken chars : Nat} {plans : List ChunkPlan}
    (sofar : taken ≤ max 1 config.batchMaxChunks) :
    greedyBatch config taken chars plans ≤ max 1 config.batchMaxChunks := by
  induction plans generalizing taken chars with
  | nil => exact sofar
  | cons plan rest ih =>
    rw [greedyBatch]
    split_ifs with full
    · exact sofar
    · refine ih ?_
      omega

/-- **A batch keeps to the character budget, or it is one chunk.** -/
theorem greedyBatch_chars {plans : List ChunkPlan} : ∀ {taken chars : Nat},
    chars ≤ config.batchCharBudget ∨ taken ≤ 1 →
    chars + charsOf ((plans.take (greedyBatch config taken chars plans - taken)).map (·.text)) ≤
        config.batchCharBudget ∨
      greedyBatch config taken chars plans ≤ 1 := by
  induction plans with
  | nil =>
    intro taken chars sofar
    simpa [greedyBatch, charsOf] using sofar
  | cons plan rest ih =>
    intro taken chars sofar
    rw [greedyBatch]
    split_ifs with full
    · simpa [charsOf] using sofar
    · have taking : taken + 1 ≤ greedyBatch config (taken + 1) (chars + plan.text.length) rest :=
        greedyBatch_le
      have here : greedyBatch config (taken + 1) (chars + plan.text.length) rest - taken =
          greedyBatch config (taken + 1) (chars + plan.text.length) rest - (taken + 1) + 1 := by omega
      rw [here, List.take_succ_cons, List.map_cons, charsOf, ← Nat.add_assoc]
      refine ih ?_
      omega

theorem greedyBatch_le_length {taken chars : Nat} {plans : List ChunkPlan} :
    greedyBatch config taken chars plans ≤ taken + plans.length := by
  induction plans generalizing taken chars with
  | nil => exact Nat.le_refl _
  | cons plan rest ih =>
    rw [greedyBatch, List.length_cons]
    split_ifs
    · exact Nat.le_add_right _ _
    · refine Nat.le_trans ih ?_
      omega

theorem greedyBatchEnd_le {plans : List ChunkPlan} {start : Nat} (within : start ≤ plans.length) :
    greedyBatchEnd plans start config ≤ plans.length := by
  have taken : greedyBatch config 0 0 (plans.drop start) ≤ 0 + (plans.drop start).length :=
    greedyBatch_le_length
  rw [List.length_drop] at taken
  unfold greedyBatchEnd
  omega

/-- The batch at `start`. -/
theorem batch_fits {plans : List ChunkPlan} {start : Nat} (more : start < plans.length) :
    Fits config (((plans.drop start).take (greedyBatchEnd plans start config - start)).map (·.text)) := by
  have isCons : plans.drop start ≠ [] := by
    rw [Ne, List.drop_eq_nil_iff]
    omega
  have isPos : 0 < greedyBatch config 0 0 (plans.drop start) := greedyBatch_pos isCons
  have taken : greedyBatchEnd plans start config - start = greedyBatch config 0 0 (plans.drop start) :=
    Nat.add_sub_cancel_left _ _
  have atMost : ((plans.drop start).take (greedyBatch config 0 0 (plans.drop start))).length ≤
      greedyBatch config 0 0 (plans.drop start) := List.length_take_le _ _
  rw [taken]
  refine ⟨?_, ?_, ?_⟩
  · rw [Ne, List.map_eq_nil_iff, List.take_eq_nil_iff]
    intro either
    rcases either with isZero | isNil
    · omega
    · exact isCons isNil
  · rw [List.length_map]
    exact Nat.le_trans atMost (greedyBatch_count (Nat.zero_le _))
  · have sized : 0 + charsOf (((plans.drop start).take (greedyBatch config 0 0 (plans.drop start) - 0)).map
        (·.text)) ≤ config.batchCharBudget ∨ greedyBatch config 0 0 (plans.drop start) ≤ 1 :=
      greedyBatch_chars (.inl (Nat.zero_le _))
    rcases sized with within | single
    · rw [Nat.zero_add, Nat.sub_zero] at within
      exact .inl within
    · right
      rw [List.length_map, List.length_take]
      have := List.length_pos_iff.mpr isCons
      omega

end Requests

/-! ### Halving, told -/

section Halving

variable {config : EmbedConfig} {embedder : Embedder} {place : Nat}

/-- The trail grew by requests that fit, fewer than twice the chunks of the batch. -/
def Asked (config : EmbedConfig) (chunks : Nat) (before after : List EmbedEvent) : Prop :=
  ∃ asked : List (List String), after = before ++ asked.map .request ∧ asked.length < 2 * chunks ∧
    ∀ texts ∈ asked, Fits config texts

theorem Asked.one {texts : List String} {chunks : Nat} (fits : Fits config texts) (isPos : 0 < chunks)
    (trail : List EmbedEvent) : Asked config chunks trail (trail ++ [.request texts]) := by
  refine ⟨[texts], rfl, ?_, ?_⟩
  · rw [List.length_singleton]
    omega
  · intro asked member
    rwa [List.mem_singleton.mp member]

/-- A request, and then those of a half. -/
theorem Asked.half {texts : List String} {chunks half : Nat} {trail after : List EmbedEvent}
    (fits : Fits config texts) (smaller : half < chunks)
    (asked : Asked config half (trail ++ [.request texts]) after) : Asked config chunks trail after := by
  obtain ⟨later, rfl, few, allFit⟩ := asked
  refine ⟨texts :: later, ?_, ?_, ?_⟩
  · rw [List.map_cons, List.append_assoc, List.singleton_append]
  · rw [List.length_cons]
    omega
  · intro asked member
    rcases List.mem_cons.mp member with rfl | isLater
    · exact fits
    · exact allFit asked isLater

/-- A request, and then those of both halves. -/
theorem Asked.halves {texts : List String} {left right : Nat} {trail midway after : List EmbedEvent}
    (fits : Fits config texts) (first : Asked config left (trail ++ [.request texts]) midway)
    (second : Asked config right midway after) : Asked config (left + right) trail after := by
  obtain ⟨one, rfl, fewOne, oneFits⟩ := first
  obtain ⟨other, rfl, fewOther, otherFits⟩ := second
  refine ⟨texts :: (one ++ other), ?_, ?_, ?_⟩
  · simp only [List.map_cons, List.map_append, List.append_assoc, List.cons_append, List.nil_append]
  · rw [List.length_cons, List.length_append]
    omega
  · intro asked member
    rcases List.mem_cons.mp member with rfl | isLater
    · exact fits
    · rcases List.mem_append.mp isLater with isOne | isOther
      · exact oneFits asked isOne
      · exact otherFits asked isOther

/-- **Halving asks for parts of the batch**, fewer than twice its chunks, however it ends. -/
theorem embedWithShrinkTold_ends {σ : Type} {most : Nat} : ∀ {path : List Bool} {batch : List ChunkPlan}
    {store : σ} {trail : List EmbedEvent}, batch.length ≤ most → Fits config (batch.map (·.text)) →
    Ends (embedWithShrinkTold embedder place path batch) (store, trail)
      (fun _ after => after.1 = store ∧ Asked config batch.length trail after.2)
      (fun _ after => after.1 = store ∧ Asked config batch.length trail after.2)
      (fun after => after.1 = store ∧ Asked config batch.length trail after.2) := by
  induction most with
  | zero =>
    intro path batch store trail short fits
    exact absurd (List.map_eq_nil_iff.mpr (List.length_eq_zero_iff.mp (Nat.le_zero.mp short))) fits.isCons
  | succ most ih =>
    intro path batch store trail short fits
    have isPos : 0 < batch.length := by
      have := List.length_pos_iff.mpr fits.isCons
      rwa [List.length_map] at this
    rw [embedWithShrinkTold]
    dsimp only
    rw [ends_bind]
    refine Ends.heard ?_
    split
    · exact ⟨rfl, .one fits isPos trail⟩
    · rename_i reason refused
      split_ifs with halves
      swap
      · exact ⟨rfl, .one fits isPos trail⟩
      have isLeft : (batch.take (batch.length / 2)).length = batch.length / 2 := by
        rw [List.length_take]
        omega
      have isRight : (batch.drop (batch.length / 2)).length = batch.length - batch.length / 2 :=
        List.length_drop ..
      have leftFits : Fits config ((batch.take (batch.length / 2)).map (·.text)) := by
        refine fits.part ((List.take_sublist _ _).map _) ?_
        rw [← List.length_pos_iff, List.length_map, isLeft]
        omega
      have rightFits : Fits config ((batch.drop (batch.length / 2)).map (·.text)) := by
        refine fits.part ((List.drop_sublist _ _).map _) ?_
        rw [← List.length_pos_iff, List.length_map, isRight]
        omega
      have smaller : batch.length / 2 < batch.length := by omega
      have whole : batch.length / 2 + (batch.length - batch.length / 2) = batch.length := by omega
      rw [ends_bind]
      refine (ih (by omega) leftFits).mono ?_ ?_ ?_
      · intro found midway ⟨sameStore, askedLeft⟩
        rw [isLeft] at askedLeft
        obtain ⟨left, leftShrinks⟩ := found
        obtain ⟨midStore, midTrail⟩ := midway
        obtain rfl : midStore = store := sameStore
        have both : ∀ after : σ × List EmbedEvent, after.1 = midStore ∧
            Asked config (batch.drop (batch.length / 2)).length midTrail after.2 →
            after.1 = midStore ∧ Asked config batch.length trail after.2 := by
          intro after ⟨sameAfter, askedRight⟩
          rw [isRight] at askedRight
          exact ⟨sameAfter, whole ▸ Asked.halves fits askedLeft askedRight⟩
        dsimp only
        rw [ends_bind]
        refine (ih (by omega) rightFits).mono ?_ ?_ ?_
        · exact fun _ after => both after
        · exact fun _ after => both after
        · exact both
      · intro _ after ⟨sameStore, askedLeft⟩
        rw [isLeft] at askedLeft
        exact ⟨sameStore, Asked.half fits smaller askedLeft⟩
      · intro after ⟨sameStore, askedLeft⟩
        rw [isLeft] at askedLeft
        exact ⟨sameStore, Asked.half fits smaller askedLeft⟩

/-- What the embedding came to, as a program. -/
def ofEmbedder {σ α : Type} : Except EmbedError α → Prog σ PipelineError α
  | .ok result => pure result
  | .error reason => throw (.embed reason)

theorem ofEmbedder_bind {σ α β : Type} (first : Except EmbedError α) (next : α → Except EmbedError β) :
    (ofEmbedder (first >>= next) : Prog σ PipelineError β) =
      ofEmbedder first >>= fun result => ofEmbedder (next result) := by
  cases first <;> rfl

/-- With the trail forgotten, the told halving is `embedWithShrink`; its fuel never runs out. -/
theorem embedWithShrinkTold_echoes {σ : Type} {fuel : Nat} : ∀ {path : List Bool} {batch : List ChunkPlan},
    batch.length ≤ fuel + 1 → Echoes
      (embedWithShrinkTold embedder place path batch :
        Prog (σ × List EmbedEvent) PipelineError (List Vector × Nat))
      (ofEmbedder (embedWithShrink embedder place fuel path batch)) := by
  induction fuel with
  | zero =>
    intro path batch short
    rw [embedWithShrinkTold, embedWithShrink]
    refine Echoes.heard ?_
    dsimp only
    cases embedder.embedBatch place path (batch.map (·.text)) with
    | ok vectors => exact .pure _
    | error reason =>
      dsimp only
      rw [dif_neg fun halves => absurd halves.2 (Nat.not_lt.mpr short)]
      split_ifs <;> exact .throw _
  | succ fuel ih =>
    intro path batch short
    rw [embedWithShrinkTold, embedWithShrink]
    refine Echoes.heard ?_
    dsimp only
    cases embedder.embedBatch place path (batch.map (·.text)) with
    | ok vectors => exact .pure _
    | error reason =>
      dsimp only
      by_cases halves : reason.isOverload ∧ 1 < batch.length
      swap
      · rw [dif_neg halves, if_neg halves]
        exact .throw _
      rw [dif_pos halves, if_pos halves]
      have leftShort : (batch.take (batch.length / 2)).length ≤ fuel + 1 := by
        rw [List.length_take]
        omega
      have rightShort : (batch.drop (batch.length / 2)).length ≤ fuel + 1 := by
        rw [List.length_drop]
        omega
      rw [ofEmbedder_bind]
      refine (ih leftShort).bind fun found => ?_
      rw [ofEmbedder_bind]
      exact (ih rightShort).bind fun _ => .pure _

end Halving

/-! ### The run, told -/

section Echo

variable {tools : Toolchain} {binary : Binary} {run : EmbedRun}

/-- One turn of `embedBatches`. -/
theorem embedBatches_cons (dim place : Nat) (report : EmbedRunReport) (batch : List ChunkPlan)
    (rest : List (List ChunkPlan)) :
    embedBatches tools run dim place report (batch :: rest) =
      ofEmbedder (embedWithShrink run.embedder place batch.length [] batch) >>= fun found =>
        append tools (run.fates.append place) dim (toRows batch found.1) >>= fun rows =>
          embedBatches tools run dim (place + 1)
            { chunksWritten := report.chunksWritten + rows
              batches := report.batches + 1
              shrinkEvents := report.shrinkEvents + found.2
              totalChars := batch.foldl (fun chars plan => chars + plan.text.length) report.totalChars }
            rest := by
  rw [embedBatches]
  cases embedWithShrink run.embedder place batch.length [] batch <;> rfl

/-- With the trail forgotten, the `while` loop is the loop over the batches. -/
theorem embedFrom_echoes {dim : Nat} {plans : List ChunkPlan} {fuel : Nat} : ∀ {place start : Nat}
    {report : EmbedRunReport}, plans.length - start ≤ fuel →
    Echoes (embedFrom tools run dim plans place start report)
      (embedBatches tools run dim place report (batchesFrom run.config fuel (plans.drop start))) := by
  induction fuel with
  | zero =>
    intro place start report short
    rw [embedFrom, dif_neg (by omega)]
    exact .pure _
  | succ fuel ih =>
    intro place start report short
    rw [embedFrom, batchesFrom]
    by_cases more : start < plans.length
    swap
    · rw [dif_neg more, List.drop_eq_nil_of_le (Nat.not_lt.mp more), List.isEmpty_nil, if_pos rfl]
      exact .pure _
    have isCons : (plans.drop start).isEmpty = false := by
      rw [List.isEmpty_eq_false_iff, Ne, List.drop_eq_nil_iff]
      omega
    have goesOn : start < greedyBatchEnd plans start run.config := lt_greedyBatchEnd more
    have taken : greedyBatchEnd plans start run.config - start =
        greedyBatch run.config 0 0 (plans.drop start) := Nat.add_sub_cancel_left _ _
    have rest : (plans.drop start).drop (greedyBatch run.config 0 0 (plans.drop start)) =
        plans.drop (greedyBatchEnd plans start run.config) := List.drop_drop
    rw [dif_pos more, isCons, if_neg Bool.false_ne_true]
    dsimp only
    rw [taken, rest, embedBatches_cons]
    refine (embedWithShrinkTold_echoes (Nat.le_succ _)).bind fun found => ?_
    refine (Echoes.silent _).bind fun rows => ?_
    refine Echoes.heard ?_
    exact ih (by omega)

theorem replaceRowsTold_echoes (plans : List ChunkPlan) (idx : PartitionIdx) (probed : Nat) :
    Echoes (replaceRowsTold tools plans idx probed run) (replaceRows tools plans idx probed run) := by
  unfold replaceRowsTold replaceRows
  refine (Echoes.silent _).bind fun dim => ?_
  refine (Echoes.silent _).bind fun _ => ?_
  refine (Echoes.silent _).bind fun _ => ?_
  refine (Echoes.silent _).bind fun _ => ?_
  refine Echoes.bind (embedFrom_echoes (Nat.le_refl _)) fun report => ?_
  exact (Echoes.silent _).bind fun _ => .pure report

/-- **With the trail forgotten, the told run is the run.** -/
theorem embedBookChunksTold_echoes (plans : List ChunkPlan) :
    Echoes (embedBookChunksTold tools binary plans run) (embedBookChunks tools binary plans run) := by
  unfold embedBookChunksTold embedBookChunks
  cases plans with
  | nil => exact .pure _
  | cons first others =>
    refine Echoes.heard ?_
    dsimp only
    cases run.probe first with
    | error reason => exact .throw reason
    | ok probed => exact (Echoes.silent _).bind fun _ => replaceRowsTold_echoes _ _ probed

end Echo

section Order

variable {config : EmbedConfig} {total : Nat}

theorem requests_append (one other : List EmbedEvent) :
    requests (one ++ other) = requests one ++ requests other := List.filterMap_append

theorem calls_append (one other : List EmbedEvent) : calls (one ++ other) = calls one ++ calls other :=
  List.filterMap_append

@[simp] theorem requests_map_request (asked : List (List String)) :
    requests (asked.map .request) = asked := by
  induction asked with
  | nil => rfl
  | cons texts rest ih => exact congrArg (texts :: ·) ih

@[simp] theorem calls_map_request (asked : List (List String)) : calls (asked.map .request) = [] := by
  induction asked with
  | nil => rfl
  | cons texts rest ih => exact ih

/-- The trail of a run that has consumed this many of its plans: every request fits, there are at most
two for each plan and the probe, and the calls of `on_batch` count up. -/
structure Orderly (config : EmbedConfig) (total consumed : Nat) (events : List EmbedEvent) : Prop where
  fits : ∀ texts ∈ requests events, Fits config texts
  few : (requests events).length ≤ 2 * consumed + 1
  increasing : ((calls events).map (·.1)).Pairwise (· < ·)
  bounded : ∀ call ∈ calls events, call.1 ≤ consumed ∧ call.2 = total

/-- The last call of `on_batch` says how many plans are consumed. -/
def Reached (consumed : Nat) (events : List EmbedEvent) : Prop :=
  (calls events).getLast?.map (·.1) = if consumed = 0 then none else some consumed

theorem Orderly.mono {consumed later : Nat} {events : List EmbedEvent}
    (orderly : Orderly config total consumed events) (more : consumed ≤ later) :
    Orderly config total later events where
  fits := orderly.fits
  few := Nat.le_trans orderly.few (by omega)
  increasing := orderly.increasing
  bounded := fun call member => ⟨Nat.le_trans (orderly.bounded call member).1 more,
    (orderly.bounded call member).2⟩

/-- The trail after the probe. -/
theorem Orderly.probed (text : String) : Orderly config total 0 [.request [text]] where
  fits := by
    intro texts member
    obtain rfl := List.mem_singleton.mp member
    exact .single text
  few := Nat.le_refl 1
  increasing := .nil
  bounded := fun _ member => absurd member List.not_mem_nil

/-- The requests of a batch. -/
theorem Orderly.asked {consumed chunks : Nat} {events after : List EmbedEvent}
    (orderly : Orderly config total consumed events) (asked : Asked config chunks events after) :
    Orderly config total (consumed + chunks) after := by
  obtain ⟨texts, rfl, few, allFit⟩ := asked
  have sofar := orderly.few
  refine ⟨?_, ?_, ?_, ?_⟩
  · rw [requests_append, requests_map_request]
    intro request member
    rcases List.mem_append.mp member with earlier | isHere
    · exact orderly.fits request earlier
    · exact allFit request isHere
  · rw [requests_append, requests_map_request, List.length_append]
    omega
  · rw [calls_append, calls_map_request, List.append_nil]
    exact orderly.increasing
  · rw [calls_append, calls_map_request, List.append_nil]
    intro call member
    exact ⟨Nat.le_trans (orderly.bounded call member).1 (Nat.le_add_right _ _), (orderly.bounded call member).2⟩

/-- **One turn**: the requests of a batch, and the call of `on_batch`. -/
theorem Orderly.turn {start stop : Nat} {events after : List EmbedEvent}
    (orderly : Orderly config total start events) (goesOn : start < stop)
    (asked : Asked config (stop - start) events after) :
    Orderly config total stop (after ++ [.onBatch stop total]) := by
  have requested := orderly.asked asked
  rw [Nat.add_sub_cancel' (Nat.le_of_lt goesOn)] at requested
  obtain ⟨texts, rfl, -, -⟩ := asked
  have sameCalls : calls (events ++ texts.map .request ++ [.onBatch stop total]) =
      calls events ++ [(stop, total)] := by
    rw [calls_append, calls_append, calls_map_request, List.append_nil]
    rfl
  have sameRequests : requests (events ++ texts.map .request ++ [.onBatch stop total]) =
      requests (events ++ texts.map .request) := by
    rw [requests_append]
    exact List.append_nil _
  refine ⟨sameRequests ▸ requested.fits, sameRequests ▸ requested.few, ?_, ?_⟩
  · rw [sameCalls, List.map_append, List.pairwise_append]
    refine ⟨orderly.increasing, List.pairwise_singleton _ _, ?_⟩
    intro earlier member last isLast
    obtain ⟨call, isCall, rfl⟩ := List.mem_map.mp member
    obtain rfl := List.mem_singleton.mp isLast
    exact Nat.lt_of_le_of_lt (orderly.bounded call isCall).1 goesOn
  · rw [sameCalls]
    intro call member
    rcases List.mem_append.mp member with earlier | isLast
    · exact ⟨Nat.le_trans (orderly.bounded call earlier).1 (Nat.le_of_lt goesOn),
        (orderly.bounded call earlier).2⟩
    · obtain rfl := List.mem_singleton.mp isLast
      exact ⟨Nat.le_refl _, rfl⟩

theorem Reached.turn {stop : Nat} (events : List EmbedEvent) (isPos : 0 < stop) :
    Reached stop (events ++ [.onBatch stop total]) := by
  unfold Reached
  rw [calls_append, if_neg (Nat.pos_iff_ne_zero.mp isPos)]
  show ((calls events ++ [(stop, total)]).getLast?).map (·.1) = some stop
  rw [List.getLast?_concat]
  rfl

variable {tools : Toolchain} {binary : Binary} {run : EmbedRun}

/-- The `while` loop: the trail stays orderly, and a loop that returns has reached the total. -/
theorem embedFrom_ends {dim : Nat} {plans : List ChunkPlan} {most : Nat} : ∀ {place start : Nat}
    {report : EmbedRunReport} {library : Library} {trail : List EmbedEvent}, plans.length - start ≤ most →
    start ≤ plans.length → Orderly run.config plans.length start trail → Reached start trail →
    Ends (embedFrom tools run dim plans place start report) (library, trail)
      (fun _ after => Orderly run.config plans.length plans.length after.2 ∧ Reached plans.length after.2)
      (fun _ after => Orderly run.config plans.length plans.length after.2)
      (fun after => Orderly run.config plans.length plans.length after.2) := by
  induction most with
  | zero =>
    intro place start report library trail short within orderly reached
    obtain rfl : start = plans.length := by omega
    rw [embedFrom, dif_neg (Nat.lt_irrefl _)]
    exact ⟨orderly, reached⟩
  | succ most ih =>
    intro place start report library trail short within orderly reached
    rw [embedFrom]
    by_cases more : start < plans.length
    swap
    · obtain rfl : start = plans.length := by omega
      rw [dif_neg more]
      exact ⟨orderly, reached⟩
    have goesOn : start < greedyBatchEnd plans start run.config := lt_greedyBatchEnd more
    have stopWithin : greedyBatchEnd plans start run.config ≤ plans.length := greedyBatchEnd_le within
    have size : ((plans.drop start).take (greedyBatchEnd plans start run.config - start)).length =
        greedyBatchEnd plans start run.config - start := by
      rw [List.length_take, List.length_drop]
      omega
    have halved : ∀ after : Library × List EmbedEvent, Asked run.config
        ((plans.drop start).take (greedyBatchEnd plans start run.config - start)).length trail after.2 →
        Orderly run.config plans.length plans.length after.2 := by
      intro after asked
      refine (orderly.asked asked).mono ?_
      omega
    rw [dif_pos more]
    dsimp only
    rw [ends_bind]
    refine (embedWithShrinkTold_ends (Nat.le_refl _) (batch_fits more)).mono ?_ ?_ ?_
    · intro found ⟨midway, midTrail⟩ ⟨_, asked⟩
      have early := halved _ asked
      rw [size] at asked
      refine Ends.silent_bind early fun rows left => ?_
      rw [ends_bind]
      refine Ends.heard ?_
      refine ih (by omega) stopWithin (orderly.turn goesOn asked) ?_
      exact .turn _ (Nat.zero_lt_of_lt goesOn)
    · exact fun _ after asked => halved after asked.2
    · exact fun after asked => halved after asked.2

/-- The trail of a whole run. -/
theorem embedBookChunksTold_ends (plans : List ChunkPlan) (library : Library) :
    Ends (embedBookChunksTold tools binary plans run) (library, [])
      (fun _ after => Orderly run.config plans.length plans.length after.2 ∧ Reached plans.length after.2)
      (fun _ after => Orderly run.config plans.length plans.length after.2)
      (fun after => Orderly run.config plans.length plans.length after.2) := by
  unfold embedBookChunksTold
  cases plans with
  | nil =>
    have untold : Orderly run.config 0 0 [] :=
      ⟨fun _ member => absurd member List.not_mem_nil, Nat.zero_le 1, .nil,
        fun _ member => absurd member List.not_mem_nil⟩
    exact ⟨untold, rfl⟩
  | cons first others =>
    have probed : Orderly run.config (first :: others).length 0 [.request [first.text]] := .probed first.text
    have early : Orderly run.config (first :: others).length (first :: others).length
        [.request [first.text]] := probed.mono (Nat.zero_le _)
    rw [ends_bind]
    refine Ends.heard ?_
    cases run.probe first with
    | error reason => exact early
    | ok dim =>
      refine Ends.silent_bind early fun _ _ => ?_
      unfold replaceRowsTold
      refine Ends.silent_bind early fun dim _ => ?_
      refine Ends.silent_bind early fun _ _ => ?_
      refine Ends.silent_bind early fun _ _ => ?_
      refine Ends.silent_bind early fun _ _ => ?_
      refine (embedFrom_ends (Nat.le_refl _) (Nat.zero_le _) probed rfl).bind ?_
      intro report ⟨left, trail⟩ ⟨orderly, reached⟩
      exact Ends.silent_bind orderly fun _ _ => ⟨orderly, reached⟩

end Order

/-! ### Batched against one by one -/

section OneByOne

variable {tools : Toolchain} {binary : Binary} {run : EmbedRun} {embedder : Embedder}
  {vectorOf : String → Vector}

/-- An embedder with one vector for each text, which may refuse as overloaded what has more than one. -/
structure Maps (embedder : Embedder) (vectorOf : String → Vector) : Prop where
  probe : ∀ text, embedder.probe [text] = .ok [vectorOf text]
  batch : ∀ place path texts, embedder.embedBatch place path texts = .ok (texts.map vectorOf) ∨
    1 < texts.length ∧ embedder.embedBatch place path texts = .error .overloaded

/-- One-by-one embedding: each plan with the vector of its own text. -/
def oneByOne (vectorOf : String → Vector) (plans : List ChunkPlan) : List ChunkRow :=
  plans.map fun plan => ⟨plan, vectorOf plan.text⟩

/-- The rows a run on these plans leaves alone. -/
def rowsKept (library : Library) : List ChunkPlan → List ChunkRow
  | [] => library.rows
  | first :: _ => library.rowsOutside first.startNodeId.partition

/-- A served batch has its texts' vectors, whole or by halves. -/
theorem Maps.serves (maps : Maps embedder vectorOf) {place : Nat} {path : List Bool} {texts : List String}
    {vectors : List Vector} (serves : Serves embedder place path texts vectors) :
    vectors = texts.map vectorOf := by
  induction serves with
  | @whole path texts vectors answered =>
    rcases maps.batch place path texts with isAnswer | ⟨_, isRefused⟩
    · exact Except.ok.inj (answered.symm.trans isAnswer)
    · cases answered.symm.trans isRefused
  | halves _ _ _ _ ihLeft ihRight =>
    rw [ihLeft, ihRight, ← List.map_append, List.take_append_drop]

theorem toRows_map (batch : List ChunkPlan) :
    toRows batch ((batch.map (·.text)).map vectorOf) = oneByOne vectorOf batch := by
  unfold toRows oneByOne
  induction batch with
  | nil => rfl
  | cons plan rest ih => exact congrArg (_ :: ·) ih

/-- What the batches write is what one by one would. -/
theorem Maps.writes (maps : Maps run.embedder vectorOf) {dim place : Nat} {pieces : List (List ChunkPlan)}
    {written : List ChunkRow} (writes : Writes tools run dim place pieces written) :
    written = oneByOne vectorOf pieces.flatten := by
  induction writes with
  | nil => rfl
  | cons serves _ _ _ ih =>
    rw [maps.serves serves, toRows_map, ih]
    exact List.map_append.symm

/-- **Batched embedding is one-by-one embedding.** For every list of plans and every configuration, a run
that returns has appended exactly one row for each plan, in order, with the vector of the plan's own text.
However the run ends, its requests fit the configuration, and they are at most two for each plan and the
probe; the calls of `on_batch` count up, to the total in a run that returns. -/
theorem embed_batched (plans : List ChunkPlan) (library : Library) (maps : Maps run.embedder vectorOf) :
    Ends (embedBookChunksTold tools binary plans run) (library, [])
      (fun _ after => after.1.rows = rowsKept library plans ++ oneByOne vectorOf plans ∧
        Orderly run.config plans.length plans.length after.2 ∧ Reached plans.length after.2)
      (fun _ after => Orderly run.config plans.length plans.length after.2)
      (fun after => Orderly run.config plans.length plans.length after.2) := by
  have rows : Ends (embedBookChunks tools binary plans run) library
      (fun _ after => after.rows = rowsKept library plans ++ oneByOne vectorOf plans)
      (fun _ _ => True) (fun _ => True) := by
    cases plans with
    | nil => exact (List.append_nil _).symm
    | cons first others =>
      refine (embedBookChunks_ends first others library).mono ?_ (fun _ _ _ => trivial) fun _ _ => trivial
      intro report after ⟨⟨probed, written, rewrote, _, writes⟩, _⟩
      have isRows := maps.writes writes
      rw [batches_flatten] at isRows
      rw [rewrote.rows, isRows]
      rfl
  refine (((embedBookChunksTold_echoes plans).ends rows).and (embedBookChunksTold_ends plans library)).mono
    ?_ ?_ ?_
  · exact fun _ _ both => both
  · exact fun _ _ both => both.2
  · exact fun _ both => both.2

/-- An embedder that refuses every request of more than one text. -/
def oneAtATime (vectorOf : String → Vector) : Embedder where
  probe texts := .ok (texts.map vectorOf)
  embedBatch _ _ texts := if 1 < texts.length then .error .overloaded else .ok (texts.map vectorOf)
  onePerText := by
    intro _ _ texts vectors answered
    split_ifs at answered
    cases answered
    exact List.length_map _

theorem oneAtATime_maps (vectorOf : String → Vector) : Maps (oneAtATime vectorOf) vectorOf where
  probe := fun _ => rfl
  batch := by
    intro place path texts
    show (if 1 < texts.length then Except.error EmbedError.overloaded else .ok (texts.map vectorOf)) = _ ∨ _
    by_cases isLong : 1 < texts.length
    · right
      exact ⟨isLong, if_pos isLong⟩
    · left
      exact if_neg isLong

/-- The plans of a book with two short chunks. -/
def twoPlans : List ChunkPlan :=
  [⟨⟨100000002⟩, 0, ⟨100000002⟩, 1, "a", ""⟩, ⟨⟨100000002⟩, 1, ⟨100000002⟩, 2, "b", ""⟩]

/-- A vector for each of the two texts. -/
def vectorFor (text : String) : Vector := if text = "a" then [1] else [2]

/-- The run of those plans over that embedder. -/
def shrinkingRun : EmbedRun := ⟨⟨"model", 64, 1000⟩, oneAtATime vectorFor, .allDone⟩

/-- The batch of two is refused and halved, and the run returns. -/
theorem embed_batched_oneAtATime :
    let tools : Toolchain := ⟨fun _ => ⟨fun text => text, fun _ => []⟩, fun _ _ => none, fun _ => true⟩
    let told := embedBookChunksTold tools ⟨1, 1, 1⟩ twoPlans shrinkingRun
    told.ending (Library.empty, []) = .value ⟨2, 1, 1, 2⟩ ∧
      (told.left (Library.empty, [])).1.rows =
        rowsKept Library.empty twoPlans ++ oneByOne vectorFor twoPlans ∧
      Orderly shrinkingRun.config 2 2 (told.left (Library.empty, [])).2 ∧
      Reached 2 (told.left (Library.empty, [])).2 := by
  intro tools told
  have returns : told.ending (Library.empty, []) = .value ⟨2, 1, 1, 2⟩ := by decide +kernel
  exact ⟨returns, (embed_batched twoPlans Library.empty (oneAtATime_maps vectorFor)).of_value returns⟩

end OneByOne

end Bookrack.Ingest
