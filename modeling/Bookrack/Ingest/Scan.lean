/-
Scans: what `ingest_book` leaves when it fails with `NeedsOcr`.

The error names an intake, the anchor of the work to be done. A new anchor gets its status in a second
write; the row of a known source is left as it is.

* `runStages_raises` — no other part of a run fails with that error.
* `ingestBook_anchors_iff` — one run anchors its scan exactly when the row it finds, if any, is an anchor.
* **`scan_anchored_iff`** — and so along every history of runs.
-/

import Bookrack.Ingest.Searchable

namespace Bookrack.Ingest

open Chunk (ChunkPlan)
open Prog Run

/-! ### Who fails with `NeedsOcr` -/

/-- An error that names no anchor. -/
def NamesNoAnchor (reason : PipelineError) : Prop := ∀ text id, reason ≠ .needsOcr text id

section Raises

variable (tools : Toolchain) (binary : Binary)

theorem corpusCall_raises {ε α : Type} (fate : Fate)
    (call : Corpus.CorpusDb → Except ε α × Corpus.CorpusDb) :
    Raises NamesNoAnchor (corpusCall fate call) := by
  intro store
  cases fate with
  | done => exact trivial
  | failed => exact fun _ _ => PipelineError.noConfusion
  | cut => exact trivial

theorem writeTree_raises (idx : PartitionIdx) (now : String) (batch : TreeBatch) (fates : TreeFates) :
    Raises NamesNoAnchor (writeTree idx now batch fates) := by
  refine Raises.bind (Raises.write fun _ _ => PipelineError.noConfusion) fun _ => ?_
  refine Raises.bind (corpusCall_raises _ _) fun allocated => ?_
  cases allocated with
  | error _ => exact Raises.throw fun _ _ => PipelineError.noConfusion
  | ok partition =>
    refine Raises.bind (corpusCall_raises _ _) fun ids => ?_
    cases ids with
    | error reason =>
      cases reason with
      | offsetOutOfRange => exact fun _ => trivial
      | _ => exact Raises.throw fun _ _ => PipelineError.noConfusion
    | ok ids =>
      refine Raises.bind (Raises.unwrap _) fun nodes => ?_
      refine Raises.bind (corpusCall_raises _ _) fun inserted => ?_
      cases inserted with
      | error _ => exact Raises.throw fun _ _ => PipelineError.noConfusion
      | ok _ => exact Raises.pure _

theorem ingestStructure_raises (id : Int) (content : Structure.Extraction) (now : String)
    (fates : TreeFates) : Raises NamesNoAnchor (ingestStructure tools binary id content now fates) := by
  unfold ingestStructure
  cases Structure.planTree (tools.fns binary.normalizeVersion) .work content defaultStructure with
  | error _ => exact Raises.throw fun _ _ => PipelineError.noConfusion
  | ok plan => exact Raises.bind (writeTree_raises _ _ _ _) fun _ => Raises.pure _

theorem append_raises (fate : Fate) (dim : Nat) (rows : List ChunkRow) :
    Raises NamesNoAnchor (append tools fate dim rows) := by
  unfold append
  split_ifs
  · exact Raises.pure _
  · exact Raises.throw fun _ _ => PipelineError.noConfusion
  · exact Raises.bind (Raises.write fun _ _ => PipelineError.noConfusion) fun _ => Raises.pure _

theorem embedBatches_raises (run : EmbedRun) (dim : Nat) (batches : List (List ChunkPlan)) :
    ∀ place report, Raises NamesNoAnchor (embedBatches tools run dim place report batches) := by
  induction batches with
  | nil => exact fun _ _ => Raises.pure _
  | cons batch rest ih =>
    intro place report
    unfold embedBatches
    cases embedWithShrink run.embedder place batch.length [] batch with
    | error reason => exact Raises.throw fun _ _ => PipelineError.noConfusion
    | ok served => exact Raises.bind (append_raises tools _ _ _) fun _ => ih _ _

theorem probe_raises (run : EmbedRun) (first : ChunkPlan) {reason : PipelineError}
    (refused : run.probe first = .error reason) : NamesNoAnchor reason := by
  unfold EmbedRun.probe at refused
  split at refused
  · cases refused
    exact fun _ _ => PipelineError.noConfusion
  · split at refused
    · cases refused
      exact fun _ _ => PipelineError.noConfusion
    · cases refused

theorem embedBookChunks_raises (plans : List ChunkPlan) (run : EmbedRun) :
    Raises NamesNoAnchor (embedBookChunks tools binary plans run) := by
  unfold embedBookChunks
  cases plans with
  | nil => exact Raises.pure _
  | cons first rest =>
    dsimp only
    cases isProbe : run.probe first with
    | error reason => exact Raises.throw (probe_raises run first isProbe)
    | ok probed =>
      have writes : ∀ {fate : Fate} {change : Library → Library},
          Raises NamesNoAnchor (write fate PipelineError.vectors change) :=
        Raises.write fun _ _ => PipelineError.noConfusion
      refine Raises.bind (Raises.bind (Raises.read _) fun stamps => ?_) fun _ => ?_
      · cases stamps with
        | none => exact Raises.write fun _ _ => PipelineError.noConfusion
        | some found =>
          dsimp only
          cases found.mismatch (currentIndexStamps binary run.config.model probed) with
          | some key => exact Raises.throw fun _ _ => PipelineError.noConfusion
          | none => exact Raises.pure _
      refine Raises.bind (Raises.bind writes fun _ => Raises.read _) fun dim => ?_
      refine Raises.bind writes fun _ => Raises.bind writes fun _ => Raises.bind writes fun _ => ?_
      refine Raises.bind (embedBatches_raises tools run dim _ _ _) fun report => ?_
      exact Raises.bind Raises.quietly fun _ => Raises.pure _

theorem resumeFromChunk_raises (id : Int) (run : EmbedRun) (fates : ResumeFates) :
    Raises NamesNoAnchor (resumeFromChunk tools binary id run fates) := by
  refine Raises.attempt (Raises.write fun _ _ => PipelineError.noConfusion) ?_ ?_
  · exact fun reason other => Raises.bind Raises.quietly fun _ => Raises.throw other
  · refine fun _ => Raises.bind (Raises.read _) fun nodes => Raises.bind (Raises.unwrap _) fun plans => ?_
    refine Raises.attempt (embedBookChunks_raises tools binary plans run) ?_ ?_
    · exact fun reason other => Raises.bind Raises.quietly fun _ => Raises.throw other
    · refine fun report => Raises.bind (Raises.write fun _ _ => PipelineError.noConfusion) fun _ => ?_
      refine Raises.bind (Raises.write fun _ _ => PipelineError.noConfusion) fun _ => ?_
      exact Raises.bind Raises.quietly fun _ => Raises.pure _

theorem storeEnvelope_raises (id : Int) (sourceSha : String) (extraction : Extracted)
    (fates : EnvelopeFates) : Raises NamesNoAnchor (storeEnvelope id sourceSha extraction fates) := by
  refine Raises.bind Raises.quietly fun written => ?_
  cases written with
  | true => exact Raises.bind Raises.quietly fun _ => Raises.bind Raises.quietly fun _ => Raises.pure _
  | false => exact Raises.bind Raises.quietly fun _ => Raises.bind Raises.quietly fun _ => Raises.pure _

theorem registerIntake_raises (sourceSha : String) (newId : Int) (fate : Fate) :
    Raises NamesNoAnchor (registerIntake sourceSha newId fate) := by
  refine Raises.bind (Raises.read _) fun known => ?_
  cases known with
  | none =>
    exact Raises.bind (Raises.write fun _ _ => PipelineError.noConfusion) fun _ => Raises.pure _
  | some intake =>
    exact Raises.bind (Raises.write fun _ _ => PipelineError.noConfusion) fun _ => Raises.pure _

/-- **The stages name no anchor.** -/
theorem runStages_raises (call : IngestCall) (extraction : Extracted) :
    Raises NamesNoAnchor (runStages tools binary call extraction) := by
  have writes : ∀ {fate : Fate} {change : Library → Library},
      Raises NamesNoAnchor (write fate PipelineError.catalog change) :=
    Raises.write fun _ _ => PipelineError.noConfusion
  refine Raises.bind (registerIntake_raises _ _ _) fun registered => ?_
  refine Raises.bind writes fun _ => ?_
  refine Raises.bind (ingestStructure_raises tools binary _ _ _ _) fun structured => ?_
  refine Raises.bind writes fun _ => Raises.bind Raises.quietly fun _ => Raises.bind writes fun _ => ?_
  refine Raises.bind (storeEnvelope_raises _ _ _ _) fun _ => ?_
  dsimp only
  split_ifs
  · exact Raises.bind Raises.quietly fun _ => Raises.pure _
  · exact Raises.bind (resumeFromChunk_raises tools binary _ _ _) fun _ => Raises.pure _

theorem restampIfUnchanged_raises (intake : Intake) (extraction : Extracted) (sourceSha : String)
    (fates : RestampFates) :
    Raises NamesNoAnchor (restampIfUnchanged intake extraction sourceSha fates) := by
  have checked : Raises NamesNoAnchor (checkEnvelope intake extraction sourceSha fates) := by
    refine Raises.attempt (Raises.write fun _ _ => PipelineError.noConfusion) (fun _ _ => Raises.pure _) ?_
    refine fun _ => Raises.bind (Raises.read _) fun file => ?_
    cases compareEnvelope intake extraction file with
    | unchanged =>
      refine Raises.bind (storeEnvelope_raises _ _ _ _) fun written => ?_
      cases written with
      | true => exact Raises.pure _
      | false => exact Raises.pure _
    | _ => exact Raises.pure _
  refine Raises.bind checked fun check => ?_
  cases check with
  | unchanged =>
    refine Raises.bind (Raises.write fun _ _ => PipelineError.noConfusion) fun _ => ?_
    exact Raises.bind (Raises.write fun _ _ => PipelineError.noConfusion) fun _ => Raises.pure _
  | _ => exact Raises.pure _

end Raises

/-! ### The anchor -/

/-- The intake is listed as OCR work. -/
def IsAnchor (library : Library) (id : Int) : Prop :=
  ∃ intake ∈ library.intakesWithStatus .needsOcr, intake.intakeId = id

/-- The extractor asks for OCR, and the run gets as far as the anchor. -/
def IngestCall.ReachesAnchor (binary : Binary) (library : Library) (call : IngestCall) : Prop :=
  (∃ reason, call.extract = .needsOcr reason) ∧ call.fates.register = .done ∧
    (call.force = true ∨ call.fates.onFile = .done ∧
      ∀ id, onFile binary library call.sourceSha call.run.config.model ≠ .current id)

/-- A run that gets to the anchor finds no row of the source, or an anchor. -/
def IngestCall.FindsAnchor (binary : Binary) (library : Library) (call : IngestCall) : Prop :=
  call.ReachesAnchor binary library →
    ∀ intake, library.intakeBySha call.sourceSha = some intake → intake.status = .needsOcr

/-- The intake a run names in a `NeedsOcr` error is an anchor. -/
def Anchors (ending : Ending PipelineError IngestReport) (after : Library) : Prop :=
  ∀ reason id, ending = .error (.needsOcr reason (some id)) → IsAnchor after id

theorem isAnchor_iff {library : Library} {id : Int} :
    IsAnchor library id ↔ ∃ intake ∈ library.intakes, intake.intakeId = id ∧ intake.status = .needsOcr := by
  unfold IsAnchor Library.intakesWithStatus
  simp only [List.mem_insertionSort, List.mem_filter, decide_eq_true_eq]
  constructor
  · rintro ⟨intake, ⟨member, status⟩, isId⟩
    exact ⟨intake, member, isId, status⟩
  · rintro ⟨intake, member, isId, status⟩
    exact ⟨intake, ⟨member, status⟩, isId⟩

/-- An update that leaves ids and statuses alone. -/
theorem IsAnchor.updateIntake {library : Library} {id other : Int} {change : Intake → Intake}
    (keeps : ∀ intake : Intake, (change intake).intakeId = intake.intakeId ∧
      (change intake).status = intake.status)
    (isAnchor : IsAnchor library id) : IsAnchor (library.updateIntake other change) id := by
  obtain ⟨intake, member, isId, status⟩ := isAnchor_iff.mp isAnchor
  refine isAnchor_iff.mpr ⟨_, (mem_updateIntake library).mpr ⟨intake, member, rfl⟩, ?_⟩
  split_ifs
  · exact ⟨(keeps intake).1.trans isId, (keeps intake).2.trans status⟩
  · exact ⟨isId, status⟩

/-- A new row with its status. -/
theorem isAnchor_inserted (library : Library) (id : Int) (sha : String) :
    IsAnchor ((library.insertIntake id sha).setIntakeStatus id .needsOcr) id := by
  refine isAnchor_iff.mpr ⟨_, (mem_updateIntake _).mpr
    ⟨⟨id, sha, .pending, none, 1, none, none⟩, List.mem_append_right _ (List.mem_singleton_self _), rfl⟩, ?_⟩
  simp

section Runs

variable (tools : Toolchain) {binary : Binary} {library : Library} {call : IngestCall}

/-- **The branch of a scan**: how it fails, and what it leaves. -/
theorem anchorScan_cases (call : IngestCall) (library : Library) (reason : String) :
    Ends (anchorScan call reason) library (fun _ _ => False)
      (fun error after => NamesNoAnchor error ∨
        error = .needsOcr reason (some (call.target library)) ∧ call.fates.register = .done ∧
          ((∃ intake, library.intakeBySha call.sourceSha = some intake ∧ after = library) ∨
            IsAnchor after (call.target library)))
      (fun _ => True) := by
  have other : ∀ {error : PipelineError} {rest : Prop}, error = .catalog ∨ error = .io →
      NamesNoAnchor error ∨ rest := by
    rintro error rest (rfl | rfl)
    · exact Or.inl fun _ _ => PipelineError.noConfusion
    · exact Or.inl fun _ _ => PipelineError.noConfusion
  unfold anchorScan
  rw [ends_bind]
  unfold registerIntake
  rw [ends_bind, ends_read]
  cases known : library.intakeBySha call.sourceSha with
  | some intake =>
    dsimp only
    rw [ends_bind]
    refine Ends.write (fun isDone => ?_) (fun _ => other (Or.inl rfl)) fun _ => trivial
    rw [target_of_known known]
    exact Or.inr ⟨rfl, isDone, Or.inl ⟨intake, rfl, rfl⟩⟩
  | none =>
    dsimp only
    rw [ends_bind]
    refine Ends.write (fun isDone => ?_) (fun _ => other (Or.inl rfl)) fun _ => trivial
    rw [target_of_new known, ends_pure]
    dsimp only
    rw [if_pos rfl, ends_bind]
    refine Ends.write (fun _ => ?_) (fun _ => other (Or.inl rfl)) fun _ => trivial
    rw [ends_bind]
    refine Ends.write (fun _ => ?_) (fun _ => other (Or.inl rfl)) fun _ => trivial
    rw [ends_bind]
    refine Ends.write (fun _ => ?_) (fun _ => other (Or.inr rfl)) fun _ => trivial
    rw [ends_bind]
    refine Ends.write (fun _ => ?_) (fun _ => other (Or.inl rfl)) fun _ => trivial
    exact Or.inr ⟨rfl, isDone, Or.inr ((isAnchor_inserted library call.newId call.sourceSha).updateIntake
      fun _ => ⟨rfl, rfl⟩)⟩

/-- **One run** that names an anchor has reached it. -/
theorem ingestBook_cases (binary : Binary) (call : IngestCall) (library : Library) :
    Ends (ingestBook tools binary call) library (fun _ _ => True)
      (fun error after => NamesNoAnchor error ∨
        (∃ reason, error = .needsOcr reason (some (call.target library))) ∧
          call.ReachesAnchor binary library ∧
          ((∃ intake, library.intakeBySha call.sourceSha = some intake ∧ after = library) ∨
            IsAnchor after (call.target library)))
      (fun _ => True) := by
  have staged : ∀ {rest : PipelineError → Library → Prop} (store : Library) (extraction : Extracted),
      Ends (runStages tools binary call extraction) store (fun _ _ => True)
        (fun error after => NamesNoAnchor error ∨ rest error after) (fun _ => True) :=
    fun store extraction => (runStages_raises tools binary call extraction store).mono
      (fun _ _ _ => trivial) (fun _ _ => Or.inl) fun _ _ => trivial
  have whole : (call.force = true ∨ call.fates.onFile = .done ∧
      ∀ id, onFile binary library call.sourceSha call.run.config.model ≠ .current id) →
      ∀ behind, Ends (extractAndRun tools binary call behind) library (fun _ _ => True)
        (fun error after => NamesNoAnchor error ∨
          (∃ reason, error = .needsOcr reason (some (call.target library))) ∧
            call.ReachesAnchor binary library ∧
            ((∃ intake, library.intakeBySha call.sourceSha = some intake ∧ after = library) ∨
              IsAnchor after (call.target library)))
        (fun _ => True) := by
    intro gets behind
    unfold extractAndRun
    cases isExtract : call.extract with
    | failed => exact Or.inl fun _ _ => PipelineError.noConfusion
    | needsOcr reason =>
      refine (anchorScan_cases call library reason).mono (fun _ _ => False.elim) ?_ fun _ _ => trivial
      intro error after raised
      refine raised.imp_right fun named => ?_
      exact ⟨⟨reason, named.1⟩, ⟨⟨reason, isExtract⟩, named.2.1, gets⟩, named.2.2⟩
    | extracted extraction =>
      cases behind with
      | none => exact staged library extraction
      | some intake =>
        dsimp only
        refine Ends.bind ((restampIfUnchanged_raises intake extraction call.sourceSha
          call.fates.restamp library).mono (fun _ _ _ => trivial) (fun _ _ => Or.inl) fun _ _ => trivial) ?_
        intro restamped after _
        cases restamped with
        | some report => exact trivial
        | none => exact staged after extraction
  unfold ingestBook
  split_ifs with isForced
  · exact whole (Or.inl isForced) none
  rw [ends_bind]
  refine Ends.write (fun isDone => ?_) (fun _ => Or.inl fun _ _ => PipelineError.noConfusion) fun _ => trivial
  rw [ends_bind, ends_read]
  cases isOnFile : onFile binary library call.sourceSha call.run.config.model with
  | current id => exact trivial
  | rerun => exact whole (Or.inr ⟨isDone, fun id isCurrent => by cases isOnFile.symm.trans isCurrent⟩) none
  | extractorBehind intake =>
    exact whole (Or.inr ⟨isDone, fun id isCurrent => by cases isOnFile.symm.trans isCurrent⟩) (some intake)

/-- A run that reaches the anchor of a known source names its row, and leaves the library alone. -/
theorem ingestBook_known {intake : Intake} (reaches : call.ReachesAnchor binary library)
    (known : library.intakeBySha call.sourceSha = some intake) :
    ∃ reason, ingestBook tools binary call library =
      (.error (.needsOcr reason (some intake.intakeId)), library) := by
  obtain ⟨⟨reason, isExtract⟩, isRegistered, gets⟩ := reaches
  refine ⟨reason, ?_⟩
  have registers : registerIntake call.sourceSha call.newId call.fates.register library =
      (.value (intake.intakeId, false), library) := by
    unfold registerIntake
    rw [bind_read, known]
    dsimp only
    rw [isRegistered, bind_write]
    rfl
  have scans : ∀ behind, extractAndRun tools binary call behind library =
      (.error (.needsOcr reason (some intake.intakeId)), library) := by
    intro behind
    unfold extractAndRun
    rw [isExtract]
    dsimp only
    unfold anchorScan
    rw [bind_value registers]
    rfl
  unfold ingestBook
  split_ifs with isForced
  · exact scans none
  · obtain ⟨isDone, notCurrent⟩ := gets.resolve_left isForced
    rw [isDone, bind_write, bind_read]
    cases isOnFile : onFile binary library call.sourceSha call.run.config.model with
    | current id => exact absurd isOnFile (notCurrent id)
    | rerun => exact scans none
    | extractorBehind behind => exact scans (some behind)

/-- **One run** anchors its scan exactly when the row it finds, if any, is an anchor. -/
theorem ingestBook_anchors_iff (sound : library.Sound) {ending : Ending PipelineError IngestReport}
    {after : Library} (ran : ingestBook tools binary call library = (ending, after)) :
    Anchors ending after ↔ call.FindsAnchor binary library := by
  constructor
  · intro anchors reaches intake known
    obtain ⟨reason, names⟩ := ingestBook_known tools reaches known
    rw [ran] at names
    obtain ⟨rfl, rfl⟩ := Prod.mk.inj names
    obtain ⟨anchor, member, isId, status⟩ := isAnchor_iff.mp (anchors reason intake.intakeId rfl)
    have same := List.inj_on_of_nodup_map sound.distinct member (mem_of_intakeBySha known).1 isId
    rw [← same]
    exact status
  · intro finds reason id names
    have cases := ingestBook_cases tools binary call library
    unfold Ends at cases
    rw [ran, names] at cases
    rcases cases with other | ⟨⟨_, same⟩, reaches, found⟩
    · exact absurd rfl (other reason (some id))
    · obtain ⟨-, isTarget⟩ := PipelineError.needsOcr.inj same
      obtain rfl := Option.some.inj isTarget
      rcases found with ⟨intake, known, rfl⟩ | isAnchor
      · rw [target_of_known known]
        exact isAnchor_iff.mpr ⟨intake, (mem_of_intakeBySha known).1, rfl, finds reaches intake known⟩
      · exact isAnchor

/-- A run concerns its own book. -/
theorem ingestBook_local (binary : Binary) (sound : library.Sound) (admissible : call.Admissible library) :
    Local (call.target library) library ((ingestBook tools binary call).left library) := by
  have rules : IngestRules tools binary call library (fun _ _ _ => True) (fun _ _ => True) fun _ => True :=
    { stay := trivial
      current := fun _ _ _ => trivial
      anchored := fun _ _ _ => trivial
      filed := fun _ _ _ _ _ => trivial
      restamped := fun _ _ _ _ _ _ => ⟨trivial, trivial⟩
      stages := fun extraction _ => .any call extraction
      registered := fun _ _ => trivial
      refiled := fun _ _ _ _ _ _ => trivial
      staged := fun _ _ _ _ => trivial }
  exact (ingestBook_ends sound admissible rules).left.1

end Runs

/-! ### Histories of runs -/

/-- One run of `ingest_book`, by the binary that makes it, and how it ends. -/
structure ScanRun where
  binary : Binary
  call : IngestCall
  ending : Ending PipelineError IngestReport

namespace ScanRun

/-- One step of a history. -/
def Step (tools : Toolchain) (before : Library) (run : ScanRun) (after : Library) : Prop :=
  run.call.Admissible before ∧ ingestBook tools run.binary run.call before = (run.ending, after)

/-- What is claimed of a step. -/
def Anchors (_ : Library) (run : ScanRun) (after : Library) : Prop := Ingest.Anchors run.ending after

/-- When it holds. -/
def FindsAnchor (before : Library) (run : ScanRun) (_ : Library) : Prop :=
  run.call.FindsAnchor run.binary before

end ScanRun

/-- **One step** keeps the library sound, and anchors its scan exactly when it finds an anchor. -/
theorem scan_step (tools : Toolchain) (before : Library) (run : ScanRun) (after : Library)
    (sound : before.Sound) (step : ScanRun.Step tools before run after) :
    after.Sound ∧ (ScanRun.Anchors before run after ↔ ScanRun.FindsAnchor before run after) := by
  obtain ⟨admissible, ran⟩ := step
  refine ⟨?_, ingestBook_anchors_iff tools sound ran⟩
  have left := (ingestBook_local tools run.binary sound admissible sound).1
  rw [Prog.left, ran] at left
  exact left

/-- **Along every history of runs**, each `NeedsOcr` error names an anchor exactly when each run that
gets to the anchor finds no row of its source, or an anchor. -/
theorem scan_anchored_iff {tools : Toolchain} {start : Library} (sound : start.Sound)
    {trace : List (ScanRun × Library)} (run : Along (ScanRun.Step tools) start trace) :
    Along ScanRun.Anchors start trace ↔ Along ScanRun.FindsAnchor start trace := by
  have steps := run.invariant Library.Sound (scan_step tools) sound
  constructor
  · intro anchors
    exact (steps.and anchors).mono fun _ _ _ both => both.1.2.2.mp both.2
  · intro finds
    exact (steps.and finds).mono fun _ _ _ both => both.1.2.2.mpr both.2

/-- A call on one scan, with the id SQLite would hand out and the fates of its writes. -/
def scanCall (newId : Int) (fates : IngestFates) : IngestCall :=
  ⟨"sha", .needsOcr "no text layer", false, false, newId, "now", smoothRun "model", fates⟩

/-- The run of that call, from the library it finds. -/
def scanRun (newId : Int) (fates : IngestFates) (before : Library) : ScanRun × Library :=
  let ran := ingestBook wholeTools ⟨1, 1, 1⟩ (scanCall newId fates) before
  (⟨⟨1, 1, 1⟩, scanCall newId fates, ran.1⟩, ran.2)

/-- Two runs on the scan, the first with these fates and the second with every write going through. -/
def scanTwice (fates : IngestFates) : List (ScanRun × Library) :=
  [scanRun 1 fates .empty, scanRun 2 .allDone (scanRun 1 fates .empty).2]

theorem scanTwice_steps (fates : IngestFates)
    (fresh : ∀ intake ∈ (scanRun 1 fates .empty).2.intakes, intake.intakeId ≠ 2) :
    Along (ScanRun.Step wholeTools) .empty (scanTwice fates) := by
  have first : PartitionIdx.Fits ⟨1⟩ := by decide
  have second : PartitionIdx.Fits ⟨2⟩ := by decide
  exact ⟨⟨⟨first, fun _ member => absurd member List.not_mem_nil⟩, rfl⟩, ⟨⟨second, fresh⟩, rfl⟩, trivial⟩

/-- Both runs name the row the first one registers, and it is an anchor. -/
theorem scan_anchored_iff_twice :
    Along ScanRun.Anchors .empty (scanTwice .allDone) ∧
      (scanTwice .allDone).map (fun step => step.1.ending) =
        [.error (.needsOcr "no text layer" (some 1)), .error (.needsOcr "no text layer" (some 1))] := by
  have anchored := scan_anchored_iff Library.empty_sound (scanTwice_steps .allDone (by decide))
  refine ⟨anchored.mpr ⟨?_, ?_, trivial⟩, by decide⟩
  · intro _ intake known
    cases known
  · -- the second run finds the row of the first
    intro _ intake known
    have anchor : ∀ other ∈ (scanRun 1 .allDone .empty).2.intakes, other.status = .needsOcr := by decide
    exact anchor intake (mem_of_intakeBySha known).1

/-- The process stops between the row of the scan and its status. -/
def cutBeforeStatus : IngestFates := { IngestFates.allDone with setNeedsOcr := .cut }

/-- **The scan is dropped**: the run that registers it stops before the status, and the next one, with
every write going through, names a row that is not listed as OCR work. -/
theorem scan_dropped : ¬ ∀ (tools : Toolchain) (trace : List (ScanRun × Library)),
    Along (ScanRun.Step tools) .empty trace → Along ScanRun.Anchors .empty trace := by
  intro always
  have anchors := (always wholeTools (scanTwice cutBeforeStatus)
    (scanTwice_steps cutBeforeStatus (by decide))).2.1
  obtain ⟨intake, member, -, status⟩ := isAnchor_iff.mp (anchors "no text layer" 1 rfl)
  have isPending : ∀ other ∈ (scanRun 2 .allDone (scanRun 1 cutBeforeStatus .empty).2).2.intakes,
      other.status = .pending := by decide
  rw [isPending intake member] at status
  cases status

end Bookrack.Ingest
