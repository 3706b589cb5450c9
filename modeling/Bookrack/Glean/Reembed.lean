/-
Reembedding papers (`glean/src/reembed.rs`), and what the four entry points of both pipelines keep.

* `reembedPaper_governs`: what reembedding does to a paper's rows, by the law of its one request.
* **`reembed_keeps_chunks_iff`** — a call that returns has lost no chunk, and on success has put every
  target's vectors there, exactly when no target is refused after its rows were deleted.
-/

import Bookrack.Glean.Embed
import Bookrack.Ingest.Reembed

namespace Bookrack.Glean

open Chunk (ChunkPlan)
open Ingest (toRows toRows_plans)
open Prog

/-! ### Reembedding a paper -/

/-- The reading of a paper's rows, and the embedding of its chunks. -/
structure ReembedRun where
  openScan : Fate
  scan : Fate
  embed : EmbedRun

/-- The rows are read. -/
def ReembedRun.Scans (run : ReembedRun) : Prop := run.openScan = .done ∧ run.scan = .done

section Papers

variable (tools : Toolchain) (binary : Binary)

/-- `reembed_paper`. -/
def reembedPaper (intakeId : Int) (run : ReembedRun) : Prog Library PipelineError Nat := do
  let plans ← readChunkPlans run.openScan run.scan intakeId
  if plans.isEmpty then pure 0
  else embedAndWriteChunks tools binary intakeId plans run.embed

/-- `reembed_all`. -/
def reembedAllPapers (params : TargetParams) (collect : Fate) (runs : Nat → ReembedRun) :
    Prog Library PipelineError ReembedReport :=
  reembedAll (reembedTargets .intakeNotRebuildable binary params) collect fun position intakeId =>
    reembedPaper tools binary intakeId (runs position)

/-- The law of embedding a paper: it deletes the rows once the probe, the stamps and the table are good,
and writes them all unless its one request or its one append is refused. -/
def EmbedRun.law (run : EmbedRun) : TargetLaw where
  deletes _ stamps expected := ∃ probed,
    run.Deletes binary stamps probed ∧ expected = currentIndexStamps binary run.model probed
  writes plans dim := ∃ vectors, run.Writes tools dim plans vectors
  unique := by
    rintro _ _ _ _ ⟨probed, deletes, rfl⟩ ⟨probed', deletes', rfl⟩
    rw [Except.ok.inj (deletes.probe.symm.trans deletes'.probe)]

end Papers

variable {tools : Toolchain} {binary : Binary}

/-- **Reembedding a paper follows the law of its request.** -/
theorem reembedPaper_governs (intakeId : Int) (run : ReembedRun) :
    (run.embed.law tools binary).Governs run.Scans run.embed.embedder.Answered intakeId
      (reembedPaper tools binary intakeId run) := by
  intro library
  unfold reembedPaper
  rw [ends_bind]
  refine readChunkPlans_ends (fun scans => ?_) (fun noScan _ after sameRows => ?_) fun _ => trivial
  swap
  · exact .inl ⟨.inl noScan, sameRows⟩
  by_cases isNil : library.plansOf intakeId = []
  · rw [isNil]
    exact ⟨scans, .inl ⟨isNil, rfl, rfl, fun _ => rfl⟩⟩
  · rw [if_neg (by simpa using isNil)]
    refine (embedAndWriteChunks_ends isNil intakeId _).mono ?_ ?_ fun _ _ => trivial
    · rintro count after ⟨⟨probed, vectors, ⟨deletes, isAfter⟩, writes⟩, _⟩
      have same := run.embed.embedder.onePerText writes.served
      rw [List.length_map] at same
      refine ⟨scans, .inr ⟨_, isNil, ⟨probed, deletes, rfl⟩, ⟨vectors, writes⟩, toRows _ vectors, isAfter,
        toRows_plans same, fun row member => ?_⟩⟩
      obtain ⟨⟨plan, vector⟩, isPair, rfl⟩ := List.mem_map.mp member
      refine ⟨0, [], _, vectors, writes.served, ?_⟩
      rw [List.zip_map_left]
      exact List.mem_map.mpr ⟨(plan, vector), isPair, rfl⟩
    · rintro _ after (⟨refused, _, _, rfl, sameRows, _⟩ | ⟨probed, ⟨deletes, isAfter⟩, refused⟩)
      · refine .inl ⟨.inr ⟨isNil, ?_⟩, sameRows⟩
        rintro _ ⟨probed, deletes, rfl⟩
        exact refused probed deletes
      · refine .inr ⟨scans, isNil, ⟨_, probed, deletes, rfl⟩, ?_, ?_⟩
        · rintro ⟨vectors, writes⟩
          exact refused vectors writes
        · rw [isAfter, Library.rows_withVectors, List.append_nil, library.length_rows intakeId]
          exact Nat.lt_add_of_pos_right (List.length_pos_iff.mpr isNil)

/-! ### The four entry points -/

/-- One call of `reembed_all` or `reembed_book` on the book library, or of `reembed_all` or `reembed_paper`
on the paper library. -/
inductive ReembedCall
  | allBooks (params : TargetParams) (collect : Fate) (runs : Nat → Ingest.ReembedRun)
  | book (intakeId : Int) (run : Ingest.ReembedRun)
  | allPapers (params : TargetParams) (collect : Fate) (runs : Nat → ReembedRun)
  | paper (intakeId : Int) (run : ReembedRun)

namespace ReembedCall

section Calls

variable (tools : Toolchain) (binary : Binary)

/-- The call, its report dropped. -/
def prog : ReembedCall → Prog Library PipelineError Unit
  | allBooks params collect runs => do let _ ← Ingest.reembedAllBooks tools binary params collect runs
  | book intakeId run => do let _ ← Ingest.reembedBook tools binary intakeId run
  | allPapers params collect runs => do let _ ← reembedAllPapers tools binary params collect runs
  | paper intakeId run => do let _ ← reembedPaper tools binary intakeId run

/-- The intakes whose rows the call is to embed again. -/
def targets (library : Library) : ReembedCall → List Int
  | allBooks params _ _ => targetIds (reembedTargets .intakeNotEmbedded binary params) library
  | allPapers params _ _ => targetIds (reembedTargets .intakeNotRebuildable binary params) library
  | book intakeId _ | paper intakeId _ => [intakeId]

/-- The embedder of the call, asked for some target, returned the row's vector for its text. -/
def Answered (row : ChunkRow) : ReembedCall → Prop
  | allBooks _ _ runs => ∃ position, (runs position).embed.embedder.Answered row
  | book _ run => run.embed.embedder.Answered row
  | allPapers _ _ runs => ∃ position, (runs position).embed.embedder.Answered row
  | paper _ run => run.embed.embedder.Answered row

/-- No target is refused after its rows were deleted. -/
def NothingRefused (library : Library) (call : ReembedCall) : Prop :=
  match call with
  | allBooks _ collect runs => collect = .done →
    Keeps (fun position => (runs position).embed.law tools binary) (fun position => (runs position).Scans)
      library library.stamps 0 (call.targets binary library)
  | book _ run =>
    Keeps (fun _ => run.embed.law tools binary) (fun _ => run.Scans) library library.stamps 0
      (call.targets binary library)
  | allPapers _ collect runs => collect = .done →
    Keeps (fun position => (runs position).embed.law tools binary) (fun position => (runs position).Scans)
      library library.stamps 0 (call.targets binary library)
  | paper _ run =>
    Keeps (fun _ => run.embed.law tools binary) (fun _ => run.Scans) library library.stamps 0
      (call.targets binary library)

/-- No chunk is lost or doubled; and on success every chunk of a target has its answer, and the rows of
other books are as they were. -/
structure LosesNothing (library : Library) (call : ReembedCall) : Prop where
  chunks : SameChunks library ((call.prog tools binary).left library)
  reembedded : (call.prog tools binary).ending library = .value () →
    Reembedded (call.Answered ·) (call.targets binary library) library
      ((call.prog tools binary).left library)

end Calls

/-- What a call leaves. -/
theorem prog_ends {call : ReembedCall} {library : Library}
    (fits : ∀ id ∈ call.targets binary library, PartitionIdx.Fits ⟨id⟩) :
    Ends (call.prog tools binary) library
      (fun _ after => call.NothingRefused tools binary library ∧ SameChunks library after ∧
        Reembedded (call.Answered ·) (call.targets binary library) library after)
      (fun _ after => SameChunks library after ↔ call.NothingRefused tools binary library)
      (fun _ => True) := by
  cases call with
  | allBooks params collect runs =>
    exact ends_bind.mpr (reembedAll_ends fits fun position id member =>
      (Ingest.reembedBook_governs (fits id member) (runs position)).answers_mono
        fun _ answered => ⟨position, answered⟩)
  | book intakeId run =>
    have isFit := fits intakeId (List.mem_singleton.mpr rfl)
    have governs : (run.embed.law tools binary).Governs run.Scans run.embed.embedder.Answered intakeId
        (do let report ← Ingest.reembedBook tools binary intakeId run; pure report.chunksWritten) :=
      Ingest.reembedBook_governs isFit run
    have ends := reembedOne_ends isFit governs library
    rw [ends_bind] at ends
    exact ends_bind.mpr ends
  | allPapers params collect runs =>
    exact ends_bind.mpr (reembedAll_ends fits fun position id _ =>
      (reembedPaper_governs id (runs position)).answers_mono fun _ answered => ⟨position, answered⟩)
  | paper intakeId run =>
    have isFit := fits intakeId (List.mem_singleton.mpr rfl)
    exact ends_bind.mpr (reembedOne_ends isFit (reembedPaper_governs intakeId run) library)

/-- **A reembed call that returns, `Ok` or `Err`, has lost no chunk, and on success has replaced the
targets' vectors and nothing else, exactly when no target is refused after its rows were deleted.** -/
theorem reembed_keeps_chunks_iff (tools : Toolchain) (binary : Binary) (call : ReembedCall)
    (library : Library) (fits : ∀ id ∈ call.targets binary library, PartitionIdx.Fits ⟨id⟩)
    (returned : (call.prog tools binary).ending library ≠ .cut) :
    call.LosesNothing tools binary library ↔ call.NothingRefused tools binary library := by
  have ends : Ends (call.prog tools binary) library
      (fun _ after => call.NothingRefused tools binary library ∧ SameChunks library after ∧
        Reembedded (call.Answered ·) (call.targets binary library) library after)
      (fun _ after => SameChunks library after ↔ call.NothingRefused tools binary library)
      (fun _ => True) := prog_ends fits
  unfold Ends at ends
  unfold Prog.ending at returned
  split at ends
  · rename_i result after isValue
    have isLeft : (call.prog tools binary).left library = after := congrArg Prod.snd isValue
    refine iff_of_true ⟨?_, fun _ => ?_⟩ ends.1
    · exact isLeft ▸ ends.2.1
    · exact isLeft ▸ ends.2.2
  · rename_i reason after isError
    have isLeft : (call.prog tools binary).left library = after := congrArg Prod.snd isError
    rw [← ends]
    refine ⟨fun keeps => isLeft ▸ keeps.chunks, fun same => ⟨isLeft ▸ same, fun isValue => ?_⟩⟩
    rw [Prog.ending, isError] at isValue
    cases isValue
  · rename_i after isCut
    exact absurd (congrArg Prod.fst isCut) returned

/-- A table with the one chunk of book 1. -/
def oneChunk : Library :=
  { Library.empty with
    table := some ⟨1, [⟨⟨⟨100000002⟩, 0, ⟨100000002⟩, 1, "a", "h"⟩, [0]⟩]⟩ }

/-- `reembed_book` of book 1, every write going through, with this answer to its one batch. -/
def bookOne (answer : Except EmbedError Vector) : ReembedCall :=
  .book 1 ⟨.done, .done, ⟨⟨"model", 64, 1000⟩, .always answer, .allDone⟩⟩

/-- A toolchain that hashes nothing and splits nothing. -/
def noTools : Toolchain := ⟨fun _ => ⟨fun text => text, fun _ => []⟩, fun _ _ => none, fun _ => true⟩

/-- A table with three chunks of book 1 and one of book 2. -/
def fourChunks : Library :=
  { Library.empty with
    table := some ⟨1, [⟨⟨⟨100000002⟩, 0, ⟨100000002⟩, 1, "a", "h"⟩, [0]⟩,
      ⟨⟨⟨200000002⟩, 0, ⟨200000002⟩, 1, "b", "i"⟩, [0]⟩, ⟨⟨⟨100000003⟩, 0, ⟨100000003⟩, 1, "c", "j"⟩, [0]⟩,
      ⟨⟨⟨100000004⟩, 0, ⟨100000004⟩, 1, "d", "k"⟩, [0]⟩]⟩ }

/-- `reembed_book` of book 1 in batches of two. -/
def bookInTwos : ReembedCall :=
  .book 1 ⟨.done, .done, ⟨⟨"model", 2, 1000⟩, .always (.ok [1]), .allDone⟩⟩

/-- Both batches go through, and the call loses nothing. -/
theorem reembed_keeps_chunks_iff_bookInTwos :
    (bookInTwos.prog noTools ⟨1, 1, 1⟩).ending fourChunks = .value () ∧
      bookInTwos.LosesNothing noTools ⟨1, 1, 1⟩ fourChunks := by
  refine ⟨by decide, ?_⟩
  refine (reembed_keeps_chunks_iff noTools ⟨1, 1, 1⟩ bookInTwos fourChunks (by decide) (by decide)).mpr ?_
  intro _
  refine ⟨fun isNil => absurd isNil (by decide), fun _ _ _ => ⟨⟨rfl, ?_⟩, trivial⟩⟩
  have twoBatches : Ingest.batches ⟨"model", 2, 1000⟩ (fourChunks.plansOf 1) =
      [[⟨⟨100000002⟩, 0, ⟨100000002⟩, 1, "a", "h"⟩, ⟨⟨100000003⟩, 0, ⟨100000003⟩, 1, "c", "j"⟩],
        [⟨⟨100000004⟩, 0, ⟨100000004⟩, 1, "d", "k"⟩]] := by
    decide
  show ∃ written, Ingest.Writes noTools _ _ 0 (Ingest.batches ⟨"model", 2, 1000⟩ (fourChunks.plansOf 1)) written
  rw [twoBatches]
  exact ⟨_, .cons (.whole rfl) (by decide) rfl (.cons (.whole rfl) (by decide) rfl .nil)⟩

/-- A book whose embedder refuses has lost its chunk when the call returns. -/
theorem chunk_lost_on_refusal :
    ((bookOne (.error (.refused "quota"))).prog noTools ⟨1, 1, 1⟩).ending oneChunk ≠ .cut ∧
      ¬ (bookOne (.error (.refused "quota"))).LosesNothing noTools ⟨1, 1, 1⟩ oneChunk := by
  refine ⟨by decide, fun keeps => ?_⟩
  have isShort : (((bookOne (.error (.refused "quota"))).prog noTools ⟨1, 1, 1⟩).left oneChunk).rows = [] := by
    decide
  have same := keeps.chunks.length
  rw [isShort] at same
  exact absurd same (by decide)

end ReembedCall

end Bookrack.Glean
