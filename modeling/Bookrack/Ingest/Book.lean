/-
Ingesting a book (`ingest/src/lib.rs`), as programs over a `Library`.

* `ingestStructure`, `resumeFromChunk`, `ingestBook`: the stages and their order of writes.
* `onFile`, `checkEnvelope`: what decides between a no-op, a restamp and a full run.
* `ingestStructure_ends`, `storeEnvelope_ends`, `resumeFromChunk_ends`: what each stage leaves.
-/

import Bookrack.Ingest.Embed
import Bookrack.Library.Reembed
import Bookrack.Library.Tree
import Bookrack.Structure.Bind

namespace Bookrack.Ingest

open Chunk (ChunkPlan)
open Corpus (Node NewNode)
open Structure (StructureParams planTree)
open Prog

/-! ### STRUCTURE -/

/-- `StructureParams::default`. -/
def defaultStructure : StructureParams := ⟨16⟩

/-- The nodes of an extraction, ready to be bound to ids; `none` for an extraction with no prose leaf. -/
def bookBatch (tools : Toolchain) (binary : Binary) (content : Structure.Extraction) : Option TreeBatch :=
  match planTree (tools.fns binary.normalizeVersion) .work content defaultStructure with
  | .error _ => none
  | .ok plan => some ⟨UInt32.ofNat plan.childCount, plan.intoNewNodes⟩

/-- `StructureReport`, without the statistics of the table of contents. -/
structure StructureReport where
  bookRootId : NodeId
  nodesWritten : Nat
  proseLeaves : Nat
  deriving DecidableEq, Repr

section Stages

variable (tools : Toolchain) (binary : Binary)

/-- `ingest_structure`, for a book root of type `Work`. -/
def ingestStructure (intakeId : Int) (content : Structure.Extraction) (now : String) (fates : TreeFates) :
    Prog Library PipelineError StructureReport :=
  match planTree (tools.fns binary.normalizeVersion) .work content defaultStructure with
  | .error _ => throw .emptyExtraction
  | .ok plan => do
    let nodesWritten ← writeTree ⟨intakeId⟩ now ⟨UInt32.ofNat plan.childCount, plan.intoNewNodes⟩ fates
    pure ⟨PartitionIdx.root ⟨intakeId⟩, nodesWritten, plan.proseLeaves⟩

/-! ### CHUNK and EMBED -/

/-- What happens to the reads and writes of `resume_from_chunk` around the EMBED run. -/
structure ResumeFates where
  readTree : Fate
  stateChunk : Fate
  stateFailed : Fate
  promote : Fate
  embeddedAt : Fate
  stateEmbedded : Fate

/-- Every write goes through. -/
def ResumeFates.allDone : ResumeFates := ⟨.done, .done, .done, .done, .done, .done⟩

/-- `resume_from_chunk`. -/
def resumeFromChunk (intakeId : Int) (run : EmbedRun) (fates : ResumeFates) :
    Prog Library PipelineError EmbedRunReport := do
  match ← attempt (write fates.readTree .corpus fun library => library) with
  | .error reason =>
    let _ ← quietly fates.stateChunk (Library.setState intakeId ⟨"chunk", none⟩)
    throw reason
  | .ok () =>
    let nodes ← read (·.tree intakeId)
    let plans ← unwrap (planBookChunks tools binary nodes)
    match ← attempt (embedBookChunks tools binary plans run) with
    | .error reason =>
      let _ ← quietly fates.stateFailed (Library.setState intakeId ⟨"embed", some run.config.model⟩)
      throw reason
    | .ok report =>
      write fates.promote .catalog (Library.setIntakeStatus intakeId .embedded)
      write fates.embeddedAt .catalog fun library => library
      let _ ← quietly fates.stateEmbedded (Library.setState intakeId ⟨"embed", some run.config.model⟩)
      pure report

end Stages

/-! ### Envelopes -/

/-- What happens to the writes of `store_envelope`. -/
structure EnvelopeFates where
  write : Fate
  storedPath : Fate
  removeCanonical : Fate
  removeLegacy : Fate

/-- Every write goes through. -/
def EnvelopeFates.allDone : EnvelopeFates := ⟨.done, .done, .done, .done⟩

/-- `store_envelope`: whether the envelope was written. -/
def storeEnvelope (intakeId : Int) (sourceSha : String) (extraction : Extracted) (fates : EnvelopeFates) :
    Prog Library PipelineError Bool := do
  let written ← quietly fates.write
    (Library.putFile (.envelope intakeId) (.envelope ⟨intakeId, sourceSha, extraction⟩))
  if written then
    let _ ← quietly fates.storedPath (Library.setStoredPath intakeId (.envelope intakeId))
    let _ ← quietly fates.removeLegacy (Library.removeFile (.legacyEnvelope intakeId))
    pure true
  else
    let _ ← quietly fates.removeCanonical (Library.removeFile (.envelope intakeId))
    let _ ← quietly fates.removeLegacy (Library.removeFile (.legacyEnvelope intakeId))
    pure false

/-- `EnvelopeCheck`. -/
inductive EnvelopeCheck
  | missing
  | unreadable
  | mismatched
  | outdated
  | changed
  | unwritable
  | unchanged
  deriving DecidableEq, Repr

/-- What happens to the reads and writes of `restamp_if_unchanged`. -/
structure RestampFates where
  readEnvelope : Fate
  store : EnvelopeFates
  stamp : Fate
  auditOutcome : Fate

/-- Every write goes through. -/
def RestampFates.allDone : RestampFates := ⟨.done, .allDone, .done, .done⟩

/-- The comparison of `check_envelope`, short of storing the envelope anew. -/
def compareEnvelope (intake : Intake) (extraction : Extracted) : Option StoreFile → EnvelopeCheck
  | none => .missing
  | some .other => .unreadable
  | some (.envelope onFile) =>
    if onFile.sourceSha256 ≠ intake.sourceSha256 ∨ onFile.intakeId ≠ intake.intakeId then .mismatched
    else
      let current := extraction.extractorVersion
      let stamped := onFile.extraction.extractorVersion
      if stamped ≠ intake.extractorVersion ∧ stamped ≠ current then .outdated
      else if { onFile.extraction with extractorVersion := current } ≠ extraction then .changed
      else .unchanged

/-- `check_envelope`. -/
def checkEnvelope (intake : Intake) (extraction : Extracted) (sourceSha : String) (fates : RestampFates) :
    Prog Library PipelineError EnvelopeCheck := do
  match ← attempt (write fates.readEnvelope .io fun library => library) with
  | .error _ => pure .unreadable
  | .ok () =>
    match compareEnvelope intake extraction (← read (·.readEnvelope intake.intakeId)) with
    | .unchanged =>
      if ← storeEnvelope intake.intakeId sourceSha extraction fates.store then pure .unchanged
      else pure .unwritable
    | check => pure check

/-! ### INGEST -/

/-- `IngestReport`, without the metadata audit's verdict. -/
structure IngestReport where
  intakeId : Int
  bookRootId : NodeId
  nodesWritten : Nat
  proseLeaves : Nat
  chunksWritten : Nat
  alreadyRegistered : Bool
  noOp : Bool
  forced : Bool
  restamped : Bool
  deriving DecidableEq, Repr

/-- The report of a run that wrote no stage. -/
def IngestReport.untouched (intakeId : Int) (noOp restamped : Bool) : IngestReport :=
  ⟨intakeId, PartitionIdx.root ⟨intakeId⟩, 0, 0, 0, true, noOp, false, restamped⟩

/-- `restamp_if_unchanged`. -/
def restampIfUnchanged (intake : Intake) (extraction : Extracted) (sourceSha : String)
    (fates : RestampFates) : Prog Library PipelineError (Option IngestReport) := do
  match ← checkEnvelope intake extraction sourceSha fates with
  | .unchanged =>
    write fates.stamp .catalog
      (Library.setExtraction intake.intakeId extraction.adapter extraction.extractorVersion)
    write fates.auditOutcome .catalog fun library => library
    pure (some (.untouched intake.intakeId false true))
  | _ => pure none

/-- `OnFile`. -/
inductive OnFile
  | rerun
  | current (intakeId : Int)
  | extractorBehind (intake : Intake)
  deriving DecidableEq, Repr

/-- `on_file`. -/
def onFile (binary : Binary) (library : Library) (sourceSha embedModel : String) : OnFile :=
  match library.intakeBySha sourceSha with
  | none => .rerun
  | some intake =>
    if intake.status ≠ .embedded then .rerun
    else
      match library.states intake.intakeId with
      | none => .rerun
      | some state =>
        if state.embedModel ≠ some embedModel then .rerun
        else if library.stamps.map (·.chunkVersion) ≠ some binary.chunkVersion then .rerun
        else if library.stamps.map (·.normalizeVersion) ≠ some binary.normalizeVersion then .rerun
        else if intake.extractorVersion ≠ binary.extractorVersion then
          if intake.adapter = some ocrAdapter then .rerun else .extractorBehind intake
        else .current intake.intakeId

/-- What the extractor returns. -/
inductive ExtractOutcome
  | extracted (extraction : Extracted)
  | needsOcr (reason : String)
  | failed
  deriving DecidableEq, Repr

/-- What happens to the reads and writes of one ingest around those of its stages. -/
structure IngestFates where
  onFile : Fate
  restamp : RestampFates
  register : Fate
  setNeedsOcr : Fate
  setPageCount : Fate
  storeSource : Fate
  sourcePath : Fate
  demote : Fate
  tree : TreeFates
  parsedAt : Fate
  stateStructure : Fate
  stamp : Fate
  envelope : EnvelopeFates
  stateHeld : Fate
  resume : ResumeFates

/-- Every write goes through. -/
def IngestFates.allDone : IngestFates :=
  ⟨.done, .allDone, .done, .done, .done, .done, .done, .done, .allDone, .done, .done, .done, .allDone, .done,
    .allDone⟩

/-- One call of `ingest_book`: the file, by its hash and what the extractor makes of it; `--force`; whether
the run holds for metadata and the audit asks for it; the id and the timestamp SQLite hands out. -/
structure IngestCall where
  sourceSha : String
  extract : ExtractOutcome
  force : Bool
  held : Bool
  newId : Int
  now : String
  run : EmbedRun
  fates : IngestFates

/-- `register_intake`: the intake's id, and whether it is new. -/
def registerIntake (sourceSha : String) (newId : Int) (fate : Fate) :
    Prog Library PipelineError (Int × Bool) := do
  match ← read (·.intakeBySha sourceSha) with
  | some intake =>
    write fate .catalog fun library => library
    pure (intake.intakeId, false)
  | none =>
    write fate .catalog (Library.insertIntake newId sourceSha)
    pure (newId, true)

/-- The branch of a scan: its intake is registered, and a new one gets its status and its source. -/
def anchorScan (call : IngestCall) (reason : String) : Prog Library PipelineError IngestReport := do
  let (intakeId, isNew) ← registerIntake call.sourceSha call.newId call.fates.register
  if isNew then
    write call.fates.setNeedsOcr .catalog (Library.setIntakeStatus intakeId .needsOcr)
    write call.fates.setPageCount .catalog fun library => library
    write call.fates.storeSource .io (Library.putFile (.source intakeId) .other)
    write call.fates.sourcePath .catalog (Library.setStoredPath intakeId (.source intakeId))
  throw (.needsOcr reason (some intakeId))

section Ingest

variable (tools : Toolchain) (binary : Binary)

/-- The stages from the registration on, with an extraction in hand. -/
def runStages (call : IngestCall) (extraction : Extracted) : Prog Library PipelineError IngestReport := do
  let (intakeId, isNew) ← registerIntake call.sourceSha call.newId call.fates.register
  write call.fates.demote .catalog (Library.setIntakeStatus intakeId .extracted)
  let structured ← ingestStructure tools binary intakeId extraction.content call.now call.fates.tree
  write call.fates.parsedAt .catalog fun library => library
  let _ ← quietly call.fates.stateStructure (Library.setState intakeId ⟨"structure", none⟩)
  write call.fates.stamp .catalog
    (Library.setExtraction intakeId extraction.adapter extraction.extractorVersion)
  let _ ← storeEnvelope intakeId call.sourceSha extraction call.fates.envelope
  let report := fun chunksWritten : Nat => ({
    intakeId
    bookRootId := structured.bookRootId
    nodesWritten := structured.nodesWritten
    proseLeaves := structured.proseLeaves
    chunksWritten
    alreadyRegistered := !isNew
    noOp := false
    forced := call.force
    restamped := false } : IngestReport)
  if call.held then
    let _ ← quietly call.fates.stateHeld (Library.setState intakeId ⟨"metadata", none⟩)
    pure (report 0)
  else
    let embedded ← resumeFromChunk tools binary intakeId call.run call.fates.resume
    pure (report embedded.chunksWritten)

/-- The run from EXTRACT on; `behind` is the intake whose extractor stamp alone is behind. -/
def extractAndRun (call : IngestCall) (behind : Option Intake) : Prog Library PipelineError IngestReport :=
  match call.extract with
  | .failed => throw .extract
  | .needsOcr reason => anchorScan call reason
  | .extracted extraction =>
    match behind with
    | none => runStages tools binary call extraction
    | some intake => do
      match ← restampIfUnchanged intake extraction call.sourceSha call.fates.restamp with
      | some report => pure report
      | none => runStages tools binary call extraction

/-- `ingest_book`. -/
def ingestBook (call : IngestCall) : Prog Library PipelineError IngestReport := do
  if call.force then extractAndRun tools binary call none
  else
    write call.fates.onFile .catalog fun library => library
    match ← read (onFile binary · call.sourceSha call.run.config.model) with
    | .current intakeId => pure (.untouched intakeId true false)
    | .extractorBehind intake => extractAndRun tools binary call (some intake)
    | .rerun => extractAndRun tools binary call none

end Ingest

end Bookrack.Ingest
