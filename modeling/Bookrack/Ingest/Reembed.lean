/-
Reembedding books (`ingest/src/reembed.rs`): the chunks of a book, read back from its rows, are embedded
and written again.

`reembedBook_governs`: what that does to a book's rows, by the law of its EMBED run.
-/

import Bookrack.Ingest.Embed
import Bookrack.Library.Reembed

namespace Bookrack.Ingest

open Chunk (ChunkPlan)
open Prog

/-- The reading of a book's rows, and the EMBED run over them. -/
structure ReembedRun where
  openScan : Fate
  scan : Fate
  embed : EmbedRun

/-- The rows are read. -/
def ReembedRun.Scans (run : ReembedRun) : Prop := run.openScan = .done ∧ run.scan = .done

variable (tools : Toolchain) (binary : Binary)

/-- `reembed_book`. -/
def reembedBook (intakeId : Int) (run : ReembedRun) : Prog Library PipelineError EmbedRunReport := do
  let plans ← readChunkPlans run.openScan run.scan intakeId
  if plans.isEmpty then pure .empty
  else embedBookChunks tools binary plans run.embed

/-- One turn of the loop of `reembed_all`. -/
def reembedOne (runs : Nat → ReembedRun) (position : Nat) (intakeId : Int) :
    Prog Library PipelineError Nat := do
  let report ← reembedBook tools binary intakeId (runs position)
  pure report.chunksWritten

/-- `reembed_all`. -/
def reembedAllBooks (params : TargetParams) (collect : Fate) (runs : Nat → ReembedRun) :
    Prog Library PipelineError ReembedReport :=
  reembedAll (reembedTargets .intakeNotEmbedded binary params) collect (reembedOne tools binary runs)

/-- The law of an EMBED run: it deletes the rows once the probe, the stamps and the table are good, and
writes them all unless a batch is refused. -/
def EmbedRun.law (run : EmbedRun) : TargetLaw where
  deletes plans stamps expected := ∃ first others probed, plans = first :: others ∧
    run.Deletes binary stamps first probed ∧ expected = currentIndexStamps binary run.config.model probed
  writes plans dim := run.fates.countAfter = .done ∧
    ∃ written, Writes tools run dim 0 (batches run.config plans) written
  unique := by
    rintro _ _ _ _ ⟨first, others, probed, rfl, deletes, rfl⟩ ⟨_, _, probed', isSame, deletes', rfl⟩
    cases isSame
    rw [Except.ok.inj (deletes.probe.symm.trans deletes'.probe)]

variable {tools binary}

/-- **Reembedding a book follows the law of its EMBED run.** -/
theorem reembedBook_governs {intakeId : Int} (fits : PartitionIdx.Fits ⟨intakeId⟩) (run : ReembedRun) :
    (run.embed.law tools binary).Governs run.Scans run.embed.embedder.Answered intakeId
      (do let report ← reembedBook tools binary intakeId run; pure report.chunksWritten) := by
  intro library
  have firstIn : ∀ {first others}, library.plansOf intakeId = first :: others →
      first.startNodeId.partition = ⟨intakeId⟩ := by
    intro first others isCons
    have member : first ∈ library.plansOf intakeId := by
      rw [isCons]
      exact List.mem_cons_self
    obtain ⟨row, isRow, rfl⟩ := List.mem_map.mp member
    exact partition_of_inBounds fits (List.mem_filter.mp isRow).2
  unfold reembedBook
  rw [ends_bind, ends_bind]
  refine readChunkPlans_ends (fun scans => ?_) (fun noScan _ after sameRows => ?_) fun _ => trivial
  swap
  · exact .inl ⟨.inl noScan, sameRows⟩
  cases isPlans : library.plansOf intakeId with
  | nil => exact ⟨scans, .inl ⟨isPlans, rfl, rfl, fun isCons => rfl⟩⟩
  | cons first others =>
    have isFirst := firstIn isPlans
    have isCons : library.plansOf intakeId ≠ [] := isPlans ▸ List.cons_ne_nil _ _
    rw [List.isEmpty_cons, if_neg Bool.false_ne_true]
    refine (embedBookChunks_ends first others _).mono ?_ ?_ fun _ _ => trivial
    · rintro report after ⟨⟨probed, written, ⟨deletes, isAfter, _⟩, isCounted, writes⟩, _⟩
      rw [isFirst] at isAfter
      refine ⟨scans, .inr ⟨_, isCons, ?_, ⟨isCounted, written, ?_⟩, written, isAfter, ?_, writes.answered⟩⟩
      · rw [isPlans]
        exact ⟨first, others, probed, rfl, deletes, rfl⟩
      · rw [isPlans]
        exact writes
      · rw [writes.plans, batches_flatten, isPlans]
    · rintro _ after (⟨refused, _, _, rfl, sameRows, _⟩ |
        ⟨probed, written, ⟨deletes, isAfter, _⟩, refused, isShort⟩)
      · refine .inl ⟨.inr ⟨isCons, ?_⟩, sameRows⟩
        rintro _ ⟨_, _, probed, isSame, deletes, rfl⟩
        cases isPlans.symm.trans isSame
        exact refused probed deletes
      · refine .inr ⟨scans, isCons, ⟨_, first, others, probed, isPlans, deletes, rfl⟩, ?_, ?_⟩
        · rintro ⟨isCounted, all, writes⟩
          rw [isPlans] at writes
          exact refused isCounted all writes
        · rw [isAfter, isFirst, Library.rows_withVectors, List.length_append, library.length_rows intakeId,
            isPlans]
          exact Nat.add_lt_add_left isShort _

end Bookrack.Ingest
