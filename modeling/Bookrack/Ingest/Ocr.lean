/-
OCR intakes (`ingest/src/ocr.rs`): a text that an external program read off a scan is ingested next to the
scan, if its sheets cover the pages the scan has.

The coverage is checked where the text is extracted. A text that is embedded already is not extracted again:
its report is rebuilt from the envelope an earlier call wrote, whatever that call expected.

* `checkCoverage_ok`, `Covers` — what a passed check says of the sheets.
* `ingestOcrIntake_cases`, `ingestOcrIntake_fast` — a call that returns has checked its extraction, or took
  the fast path; and when it takes it.
* **`no_silent_partial_iff`** — along every history of calls, each report tells the truth about its sheets
  exactly when each fast path finds an envelope that the check would have passed.
-/

import Bookrack.Ingest.Hold
import Mathlib.Data.List.Dedup

namespace Bookrack.Ingest

open Chunk (ChunkPlan)
open Prog Run

/-! ### Coverage -/

/-- `present_sheets`: ascending, each once. -/
def presentSheets (extraction : Extracted) : List Nat :=
  ((extraction.content.blocks.map (·.sourceUnit + 1)).dedup).insertionSort (· ≤ ·)

/-- `CoverageOutcome`. -/
inductive CoverageOutcome
  | complete
  | incomplete (present : List Nat)
  deriving DecidableEq, Repr

/-- `check_coverage`. -/
def checkCoverage (extraction : Extracted) (expectedPages : Nat) (allowPartial : Bool) :
    Except PipelineError CoverageOutcome :=
  let present := presentSheets extraction
  let expected := List.range' 1 expectedPages
  let missing := expected.filter fun sheet => sheet ∉ present
  let excess := present.filter fun sheet => sheet ∉ expected
  if excess ≠ [] then .error (.ocrPagesExcess excess)
  else if missing = [] then .ok .complete
  else if allowPartial = false then .error (.ocrPagesMissing missing)
  else .ok (.incomplete present)

/-- The sheets a partial outcome puts on record. -/
def CoverageOutcome.record : CoverageOutcome → Option (List Nat)
  | .complete => none
  | .incomplete present => some present

/-! ### Calls -/

/-- What happens to the reads and writes of one OCR ingest around those of its stages. -/
structure OcrFates where
  registerPdf : Fate
  setNeedsOcr : Fate
  setPageCountPdf : Fate
  storeSource : Fate
  sourcePath : Fate
  registerOcr : Fate
  readDerived : Fate
  setDerived : Fate
  upToDate : Fate
  envelopeReadable : Bool
  readAttrs : Fate
  setAborted : Fate
  setPageCountOcr : Fate
  writeEnvelope : Fate
  envelopePath : Fate
  stamp : Fate
  setExtracted : Fate
  tree : TreeFates
  parsedAt : Fate
  stateStructure : Fate
  resume : ResumeFates

/-- Every read and write goes through. -/
def OcrFates.allDone : OcrFates :=
  ⟨.done, .done, .done, .done, .done, .done, .done, .done, .done, true, .done, .done, .done, .done, .done,
    .done, .done, .allDone, .done, .done, .allDone⟩

/-- A build, with the version of its OCR adapter. -/
structure OcrBinary where
  binary : Binary
  ocrIntakeVersion : Nat
  deriving DecidableEq, Repr

/-- What `extract_from_text` makes of a text: its blocks and what it lifts from the scan; `none` where it
fails. -/
structure OcrProduct where
  content : Structure.Extraction
  rest : String
  deriving DecidableEq, Repr

/-- The extraction `extract_from_text` returns; no sheet is on record as missing. -/
def OcrProduct.extraction (product : OcrProduct) (version : Nat) : Extracted where
  content := product.content
  abstractText := none
  adapter := ocrAdapter
  extractorVersion := version
  partialPages := none
  rest := product.rest

/-- One call of `ingest_ocr_intake`: the two files by their hashes, what PDFium counts and what the adapter
makes of the text; the ids and the timestamp SQLite hands out. -/
structure OcrCall where
  shaPdf : String
  shaOcr : String
  expectedOverride : Option Nat
  counted : Option Nat
  allowPartial : Bool
  force : Bool
  product : Option OcrProduct
  newPdfId : Int
  newOcrId : Int
  now : String
  run : EmbedRun
  fates : OcrFates

/-- The expected page count: an explicit override, or what PDFium reads. -/
def OcrCall.expectedPages (call : OcrCall) : Option Nat := call.expectedOverride.or call.counted

/-- `OcrIngestReport`, without the metadata audit's verdict. -/
structure OcrIngestReport where
  noOp : Bool
  forced : Bool
  pdfIntakeId : Int
  ocrIntakeId : Int
  bookRootId : NodeId
  expectedPages : Nat
  ocrPageCount : Nat
  envelopePath : Option StoreName
  nodesWritten : Nat
  proseLeaves : Nat
  chunksWritten : Nat
  extraction : Extracted
  deriving DecidableEq, Repr

/-! ### The two intakes -/

/-- The intake of the scan: registered with its status, or found with it. -/
def registerScan (call : OcrCall) : Prog Library PipelineError Int := do
  let known ← read (·.intakeBySha call.shaPdf)
  let (pdfIntakeId, _) ← registerIntake call.shaPdf call.newPdfId call.fates.registerPdf
  match known with
  | none =>
    write call.fates.setNeedsOcr .catalog (Library.setIntakeStatus pdfIntakeId .needsOcr)
    write call.fates.setPageCountPdf .catalog fun library => library
    write call.fates.storeSource .io (Library.putFile (.source pdfIntakeId) .other)
    write call.fates.sourcePath .catalog (Library.setStoredPath pdfIntakeId (.source pdfIntakeId))
    pure pdfIntakeId
  | some intake =>
    if intake.status = .needsOcr then pure pdfIntakeId
    else throw (.ocrSourceStatusMismatch pdfIntakeId intake.status)

/-- `set_derived_from`: written once, and refused where it would be pointed elsewhere. -/
def setDerivedFrom (id : Int) (sha : String) (fates : OcrFates) : Prog Library PipelineError Unit := do
  write fates.readDerived .catalog fun library => library
  match ← read (·.intakeById id) with
  | none => pure ()
  | some intake =>
    match intake.derivedFrom with
    | none => write fates.setDerived .catalog (Library.setDerivedFrom id sha)
    | some current =>
      if current = sha then write fates.setDerived .catalog (Library.setDerivedFrom id sha)
      else throw .catalog

/-! ### The fast path -/

/-- The comparisons of `ocr_noop_if_up_to_date`: the envelope of an embedded OCR intake whose stamps are
current. -/
def ocrUpToDate (build : OcrBinary) (library : Library) (ocrIntakeId : Int) (shaOcr embedModel : String) :
    Option (StoreName × Extracted) :=
  match library.intakeBySha shaOcr with
  | none => none
  | some intake =>
    if intake.status ≠ .embedded then none
    else if intake.extractorVersion ≠ build.ocrIntakeVersion then none
    else
      match library.states ocrIntakeId with
      | none => none
      | some state =>
        if state.embedModel ≠ some embedModel then none
        else if library.stamps.map (·.chunkVersion) ≠ some build.binary.chunkVersion then none
        else if library.stamps.map (·.normalizeVersion) ≠ some build.binary.normalizeVersion then none
        else
          match intake.storedPath with
          | none => none
          | some path =>
            match library.readWithFallback path with
            | some (.envelope envelope) => some (path, envelope.extraction)
            | _ => none

/-- `ocr_noop_if_up_to_date`. -/
def ocrNoopIfUpToDate (build : OcrBinary) (call : OcrCall) (pdfIntakeId ocrIntakeId : Int)
    (expectedPages : Nat) : Prog Library PipelineError (Option OcrIngestReport) := do
  write call.fates.upToDate .catalog fun library => library
  match ← read (ocrUpToDate build · ocrIntakeId call.shaOcr call.run.config.model) with
  | none => pure none
  | some (path, extraction) =>
    if call.fates.envelopeReadable then do
      write call.fates.readAttrs .catalog fun library => library
      pure (some {
        noOp := true
        forced := false
        pdfIntakeId
        ocrIntakeId
        bookRootId := PartitionIdx.root ⟨ocrIntakeId⟩
        expectedPages
        ocrPageCount := (presentSheets extraction).getLastD 0
        envelopePath := some path
        nodesWritten := 0
        proseLeaves := 0
        chunksWritten := 0
        extraction })
    else pure none

/-! ### The full path -/

section Programs

variable (tools : Toolchain) (build : OcrBinary)

/-- The envelope of an OCR intake: where it was written, if it was. -/
def storeOcrEnvelope (call : OcrCall) (ocrIntakeId : Int) (extraction : Extracted) :
    Prog Library PipelineError (Option StoreName) := do
  let written ← quietly call.fates.writeEnvelope
    (Library.putFile (.envelope ocrIntakeId) (.envelope ⟨ocrIntakeId, call.shaOcr, extraction⟩))
  if written then do
    write call.fates.envelopePath .catalog (Library.setStoredPath ocrIntakeId (.envelope ocrIntakeId))
    pure (some (.envelope ocrIntakeId))
  else pure none

/-- From the checked extraction on. -/
def ocrStages (call : OcrCall) (pdfIntakeId ocrIntakeId : Int) (expectedPages : Nat) (extraction : Extracted) :
    Prog Library PipelineError OcrIngestReport := do
  write call.fates.setPageCountOcr .catalog fun library => library
  let envelopePath ← storeOcrEnvelope call ocrIntakeId extraction
  write call.fates.stamp .catalog (Library.setExtraction ocrIntakeId ocrAdapter build.ocrIntakeVersion)
  write call.fates.setExtracted .catalog (Library.setIntakeStatus ocrIntakeId .extracted)
  let structured ←
    ingestStructure tools build.binary ocrIntakeId extraction.content call.now call.fates.tree
  write call.fates.parsedAt .catalog fun library => library
  let _ ← quietly call.fates.stateStructure (Library.setState ocrIntakeId ⟨"structure", none⟩)
  let embedded ← resumeFromChunk tools build.binary ocrIntakeId call.run call.fates.resume
  pure {
    noOp := false
    forced := call.force
    pdfIntakeId
    ocrIntakeId
    bookRootId := structured.bookRootId
    expectedPages
    ocrPageCount := (presentSheets extraction).getLastD 0
    envelopePath
    nodesWritten := structured.nodesWritten
    proseLeaves := structured.proseLeaves
    chunksWritten := embedded.chunksWritten
    extraction }

/-- The extraction and its check. -/
def extractOcr (call : OcrCall) (pdfIntakeId ocrIntakeId : Int) (expectedPages : Nat) :
    Prog Library PipelineError OcrIngestReport :=
  match call.product with
  | none => throw .extract
  | some product =>
    let extraction := product.extraction build.ocrIntakeVersion
    match checkCoverage extraction expectedPages call.allowPartial with
    | .error reason => do
      write call.fates.setAborted .catalog (Library.setIntakeStatus ocrIntakeId .aborted)
      throw reason
    | .ok outcome =>
      ocrStages tools build call pdfIntakeId ocrIntakeId expectedPages
        { extraction with partialPages := outcome.record.or extraction.partialPages }

/-- What follows the registrations: the fast path, if it is open, or the full one. -/
def ocrFastOrFull (call : OcrCall) (expectedPages : Nat) (pdfIntakeId ocrIntakeId : Int) :
    Prog Library PipelineError OcrIngestReport :=
  if call.force then extractOcr tools build call pdfIntakeId ocrIntakeId expectedPages
  else do
    match ← ocrNoopIfUpToDate build call pdfIntakeId ocrIntakeId expectedPages with
    | some report => pure report
    | none => extractOcr tools build call pdfIntakeId ocrIntakeId expectedPages

/-- `ingest_ocr_intake`. -/
def ingestOcrIntake (call : OcrCall) : Prog Library PipelineError OcrIngestReport :=
  match call.expectedPages with
  | none => throw .extract
  | some expectedPages => do
    let pdfIntakeId ← registerScan call
    let (ocrIntakeId, _) ← registerIntake call.shaOcr call.newOcrId call.fates.registerOcr
    setDerivedFrom ocrIntakeId call.shaPdf call.fates
    ocrFastOrFull tools build call expectedPages pdfIntakeId ocrIntakeId

end Programs

/-! ### What a passed check says -/

/-- A block of the extraction is from this sheet. -/
def HasSheet (extraction : Extracted) (sheet : Nat) : Prop :=
  ∃ block ∈ extraction.content.blocks, block.sourceUnit + 1 = sheet

/-- The sheets on record are those there are, and there is a record exactly when one is missing. -/
structure Recorded (expectedPages : Nat) (extraction : Extracted) : Prop where
  inRange : ∀ sheet, HasSheet extraction sheet → 1 ≤ sheet ∧ sheet ≤ expectedPages
  present : extraction.partialPages.isSome = true ↔
    ∃ sheet, 1 ≤ sheet ∧ sheet ≤ expectedPages ∧ ¬ HasSheet extraction sheet
  listed : ∀ pages ∈ extraction.partialPages, pages.Pairwise (· < ·) ∧
    ∀ sheet, sheet ∈ pages ↔ HasSheet extraction sheet

/-- **What is claimed of the extraction a call reports.** -/
def Covers (expectedPages : Nat) (allowPartial : Bool) (extraction : Extracted) : Prop :=
  (allowPartial = false → ∀ sheet, HasSheet extraction sheet ↔ 1 ≤ sheet ∧ sheet ≤ expectedPages) ∧
    (allowPartial = true → Recorded expectedPages extraction)

/-- The check passes, and what it would put on record is on record. -/
def PassesCheck (expectedPages : Nat) (allowPartial : Bool) (extraction : Extracted) : Prop :=
  ∃ outcome, checkCoverage extraction expectedPages allowPartial = .ok outcome ∧
    (allowPartial = true → extraction.partialPages = outcome.record)

section Coverage

variable {extraction : Extracted} {expectedPages : Nat} {allowPartial : Bool} {outcome : CoverageOutcome}

@[simp] theorem mem_presentSheets {sheet : Nat} : sheet ∈ presentSheets extraction ↔
    HasSheet extraction sheet := by
  unfold presentSheets HasSheet
  rw [List.mem_insertionSort, List.mem_dedup, List.mem_map]

theorem presentSheets_ascending : (presentSheets extraction).Pairwise (· < ·) := by
  have sorted : (presentSheets extraction).Pairwise (· ≤ ·) := List.pairwise_insertionSort _ _
  have distinct : (presentSheets extraction).Nodup :=
    (List.perm_insertionSort _ _).nodup_iff.mpr (List.nodup_dedup _)
  exact (sorted.and distinct).imp fun both => lt_of_le_of_ne both.1 both.2

theorem mem_expected {sheet : Nat} : sheet ∈ List.range' 1 expectedPages ↔ 1 ≤ sheet ∧
    sheet ≤ expectedPages := by
  rw [List.mem_range'_1]
  omega

/-- **When the check passes**, and with which outcome. -/
theorem checkCoverage_ok : checkCoverage extraction expectedPages allowPartial = .ok outcome ↔
    (∀ sheet, HasSheet extraction sheet → 1 ≤ sheet ∧ sheet ≤ expectedPages) ∧
    ((∀ sheet, 1 ≤ sheet ∧ sheet ≤ expectedPages → HasSheet extraction sheet) ∧ outcome = .complete ∨
      (∃ sheet, 1 ≤ sheet ∧ sheet ≤ expectedPages ∧ ¬ HasSheet extraction sheet) ∧ allowPartial = true ∧
        outcome = .incomplete (presentSheets extraction)) := by
  have noExcess : (presentSheets extraction).filter (fun sheet => sheet ∉ List.range' 1 expectedPages) = [] ↔
      ∀ sheet, HasSheet extraction sheet → 1 ≤ sheet ∧ sheet ≤ expectedPages := by
    simp only [List.filter_eq_nil_iff, mem_presentSheets, mem_expected, decide_not, Bool.not_eq_true',
      decide_eq_false_iff_not, not_not]
  have noneMissing : (List.range' 1 expectedPages).filter (fun sheet => sheet ∉ presentSheets extraction) = [] ↔
      ∀ sheet, 1 ≤ sheet ∧ sheet ≤ expectedPages → HasSheet extraction sheet := by
    simp only [List.filter_eq_nil_iff, mem_presentSheets, mem_expected, decide_not, Bool.not_eq_true',
      decide_eq_false_iff_not, not_not]
  have someMissing : (¬ ∀ sheet, 1 ≤ sheet ∧ sheet ≤ expectedPages → HasSheet extraction sheet) ↔
      ∃ sheet, 1 ≤ sheet ∧ sheet ≤ expectedPages ∧ ¬ HasSheet extraction sheet := by
    simp only [not_forall, exists_prop, and_assoc]
  unfold checkCoverage
  dsimp only
  by_cases inRange : ∀ sheet, HasSheet extraction sheet → 1 ≤ sheet ∧ sheet ≤ expectedPages
  swap
  · rw [if_pos (mt noExcess.mp inRange)]
    exact ⟨fun isOk => (by cases isOk), fun both => absurd both.1 inRange⟩
  rw [if_neg (not_not.mpr (noExcess.mpr inRange))]
  by_cases whole : ∀ sheet, 1 ≤ sheet ∧ sheet ≤ expectedPages → HasSheet extraction sheet
  · rw [if_pos (noneMissing.mpr whole)]
    constructor
    · intro isOk
      exact ⟨inRange, Or.inl ⟨whole, (Except.ok.inj isOk).symm⟩⟩
    · rintro ⟨-, ⟨-, rfl⟩ | ⟨missing, -⟩⟩
      · rfl
      · exact absurd whole (someMissing.mpr missing)
  rw [if_neg (mt noneMissing.mp whole)]
  cases allowPartial with
  | false =>
    rw [if_pos rfl]
    refine ⟨fun isOk => (by cases isOk), ?_⟩
    rintro ⟨-, ⟨covered, -⟩ | ⟨-, isAllowed, -⟩⟩
    · exact absurd covered whole
    · cases isAllowed
  | true =>
    rw [if_neg Bool.true_eq_false.mp]
    constructor
    · intro isOk
      exact ⟨inRange, Or.inr ⟨someMissing.mp whole, rfl, (Except.ok.inj isOk).symm⟩⟩
    · rintro ⟨-, ⟨covered, -⟩ | ⟨-, -, rfl⟩⟩
      · exact absurd covered whole
      · rfl

/-- **The check says of an extraction what is claimed of a report.** -/
theorem covers_iff : Covers expectedPages allowPartial extraction ↔
    PassesCheck expectedPages allowPartial extraction := by
  unfold PassesCheck Covers
  simp only [checkCoverage_ok]
  cases allowPartial with
  | false =>
    constructor
    · intro covers
      have same := covers.1 rfl
      exact ⟨.complete, ⟨fun sheet => (same sheet).mp, Or.inl ⟨fun sheet => (same sheet).mpr, rfl⟩⟩,
        fun isAllowed => (by cases isAllowed)⟩
    · rintro ⟨outcome, ⟨inRange, ⟨covered, -⟩ | ⟨-, isAllowed, -⟩⟩, -⟩
      · exact ⟨fun _ sheet => ⟨inRange sheet, covered sheet⟩, fun isAllowed => (by cases isAllowed)⟩
      · cases isAllowed
  | true =>
    constructor
    · intro covers
      obtain ⟨inRange, present, listed⟩ := covers.2 rfl
      cases onRecord : extraction.partialPages with
      | none =>
        rw [onRecord] at present
        have covered : ∀ sheet, 1 ≤ sheet ∧ sheet ≤ expectedPages → HasSheet extraction sheet := by
          intro sheet inside
          by_contra missing
          exact Bool.noConfusion (present.mpr ⟨sheet, inside.1, inside.2, missing⟩)
        exact ⟨.complete, ⟨inRange, Or.inl ⟨covered, rfl⟩⟩, fun _ => rfl⟩
      | some pages =>
        rw [onRecord] at present
        obtain ⟨ascending, exact⟩ := listed pages onRecord
        have same : pages = presentSheets extraction := by
          refine List.Perm.eq_of_pairwise (fun _ _ _ _ one other => absurd (lt_trans one other) (lt_irrefl _))
            ascending presentSheets_ascending ?_
          refine (List.perm_ext_iff_of_nodup ascending.nodup presentSheets_ascending.nodup).mpr fun sheet => ?_
          rw [exact, mem_presentSheets]
        exact ⟨.incomplete (presentSheets extraction), ⟨inRange, Or.inr ⟨present.mp rfl, rfl, rfl⟩⟩,
          fun _ => by rw [same]; rfl⟩
    · rintro ⟨outcome, ⟨inRange, ⟨covered, rfl⟩ | ⟨missing, -, rfl⟩⟩, onRecord⟩
      · refine ⟨fun isStrict => (by cases isStrict), fun _ => ⟨inRange, ?_, ?_⟩⟩
        · rw [onRecord rfl]
          refine ⟨fun isSome => (by cases isSome), ?_⟩
          rintro ⟨sheet, low, high, isMissing⟩
          exact absurd (covered sheet ⟨low, high⟩) isMissing
        · intro pages isPages
          rw [onRecord rfl] at isPages
          cases isPages
      · refine ⟨fun isStrict => (by cases isStrict), fun _ => ⟨inRange, ?_, ?_⟩⟩
        · rw [onRecord rfl]
          exact ⟨fun _ => missing, fun _ => rfl⟩
        · intro pages isPages
          rw [onRecord rfl] at isPages
          obtain rfl := Option.some.inj isPages
          exact ⟨presentSheets_ascending, fun sheet => mem_presentSheets⟩

end Coverage

/-! ### The two intakes -/

/-- What SQLite promises of the ids it would hand out. -/
structure OcrCall.Admissible (call : OcrCall) (library : Library) : Prop where
  freshPdf : ∀ intake ∈ library.intakes, intake.intakeId ≠ call.newPdfId
  freshOcr : ∀ intake ∈ library.intakes, intake.intakeId ≠ call.newOcrId
  differ : call.newPdfId ≠ call.newOcrId

/-- A row's path is a name of its own. -/
def OwnPaths (library : Library) : Prop :=
  ∀ intake ∈ library.intakes, ∀ path, intake.storedPath = some path → path.intakeId = intake.intakeId

/-- The registration of the scan goes through. -/
def OcrCall.ScanGoes (call : OcrCall) (library : Library) : Prop :=
  call.fates.registerPdf = .done ∧
    ((∃ intake, library.intakeBySha call.shaPdf = some intake ∧ intake.status = .needsOcr) ∨
      library.intakeBySha call.shaPdf = none ∧ call.fates.setNeedsOcr = .done ∧
        call.fates.setPageCountPdf = .done ∧ call.fates.storeSource = .done ∧ call.fates.sourcePath = .done)

/-- What the registration of the scan leaves: the rows there were, and none that is `Embedded` besides. -/
structure Scanned (call : OcrCall) (before after : Library) : Prop where
  known : ∀ sha intake, before.intakeBySha sha = some intake → after.intakeBySha sha = some intake
  new : ∀ sha intake, before.intakeBySha sha = none → after.intakeBySha sha = some intake →
    intake.status ≠ .embedded
  byId : ∀ intake ∈ before.intakes, after.intakeById intake.intakeId = before.intakeById intake.intakeId
  ids : ∀ intake ∈ after.intakes, intake.intakeId ≠ call.newOcrId
  states : after.states = before.states
  stamps : after.stamps = before.stamps
  files : ∀ name, name ≠ .source call.newPdfId → after.files name = before.files name

section Registration

variable {library : Library} {call : OcrCall}

theorem intakeBySha_updateIntake {id : Int} {change : Intake → Intake} {sha : String}
    (keepsSha : ∀ intake : Intake, (change intake).sourceSha256 = intake.sourceSha256) :
    (library.updateIntake id change).intakeBySha sha =
      (library.intakeBySha sha).map fun intake => if intake.intakeId = id then change intake else intake := by
  unfold Library.intakeBySha Library.updateIntake
  rw [List.find?_map]
  congr 2
  funext intake
  simp only [Function.comp_apply]
  split_ifs
  · rw [keepsSha]
  · rfl

theorem intakeById_updateIntake {id other : Int} {change : Intake → Intake}
    (keepsId : ∀ intake : Intake, (change intake).intakeId = intake.intakeId) :
    (library.updateIntake id change).intakeById other =
      (library.intakeById other).map fun intake => if intake.intakeId = id then change intake else intake := by
  unfold Library.intakeById Library.updateIntake
  rw [List.find?_map]
  congr 2
  funext intake
  simp only [Function.comp_apply]
  split_ifs
  · rw [keepsId]
  · rfl

theorem Scanned.refl (fresh : ∀ intake ∈ library.intakes, intake.intakeId ≠ call.newOcrId) :
    Scanned call library library where
  known := fun _ _ known => known
  new := fun _ _ isNew known => by cases isNew.symm.trans known
  byId := fun _ _ => rfl
  ids := fresh
  states := rfl
  stamps := rfl
  files := fun _ _ => rfl

theorem Scanned.insert (admissible : call.Admissible library) :
    Scanned call library (library.insertIntake call.newPdfId call.shaPdf) where
  known := by
    intro sha intake known
    unfold Library.intakeBySha Library.insertIntake at *
    rw [List.find?_append, known, Option.some_or]
  new := by
    intro sha intake isNew known
    unfold Library.intakeBySha Library.insertIntake at *
    rw [List.find?_append, isNew, Option.none_or] at known
    rw [List.mem_singleton.mp (List.mem_of_find?_eq_some known)]
    exact IntakeStatus.noConfusion
  byId := by
    intro intake member
    unfold Library.intakeById Library.insertIntake
    have isFound : (library.intakes.find? fun other => decide (other.intakeId = intake.intakeId)).isSome := by
      rw [List.find?_isSome]
      exact ⟨intake, member, by simp⟩
    obtain ⟨found, isFound⟩ := Option.isSome_iff_exists.mp isFound
    rw [List.find?_append, isFound, Option.some_or]
  ids := by
    intro intake member
    rcases List.mem_append.mp member with isOld | isNew
    · exact admissible.freshOcr intake isOld
    · rw [List.mem_singleton.mp isNew]
      exact admissible.differ
  states := rfl
  stamps := rfl
  files := fun _ _ => rfl

/-- An update of the scan's own row. -/
theorem Scanned.update {after : Library} {change : Intake → Intake} (admissible : call.Admissible library)
    (keepsId : ∀ intake : Intake, (change intake).intakeId = intake.intakeId)
    (keepsSha : ∀ intake : Intake, (change intake).sourceSha256 = intake.sourceSha256)
    (keepsStatus : ∀ intake : Intake, (change intake).status = .embedded → intake.status = .embedded)
    (scanned : Scanned call library after) : Scanned call library (after.updateIntake call.newPdfId change) where
  known := by
    intro sha intake known
    rw [intakeBySha_updateIntake keepsSha, scanned.known sha intake known, Option.map_some,
      if_neg (admissible.freshPdf intake (mem_of_intakeBySha known).1)]
  new := by
    intro sha intake isNew known
    rw [intakeBySha_updateIntake keepsSha] at known
    obtain ⟨old, isOld, rfl⟩ := Option.map_eq_some_iff.mp known
    have notEmbedded := scanned.new sha old isNew isOld
    split_ifs
    · exact fun isEmbedded => notEmbedded (keepsStatus old isEmbedded)
    · exact notEmbedded
  byId := by
    intro intake member
    rw [intakeById_updateIntake keepsId, scanned.byId intake member]
    cases found : library.intakeById intake.intakeId with
    | none => rfl
    | some other =>
      rw [Option.map_some, if_neg (admissible.freshPdf other (List.mem_of_find?_eq_some found))]
  ids := by
    intro intake member
    obtain ⟨old, isOld, rfl⟩ := (mem_updateIntake after).mp member
    split_ifs
    · rw [keepsId]
      exact scanned.ids old isOld
    · exact scanned.ids old isOld
  states := scanned.states
  stamps := scanned.stamps
  files := scanned.files

theorem Scanned.putSource {after : Library} (scanned : Scanned call library after) :
    Scanned call library (after.putFile (.source call.newPdfId) .other) where
  known := scanned.known
  new := scanned.new
  byId := scanned.byId
  ids := scanned.ids
  states := scanned.states
  stamps := scanned.stamps
  files := fun name isOther => (Library.files_putFile_ne _ _ isOther).trans (scanned.files name isOther)

/-- **The registration of the scan.** -/
theorem registerScan_ends (admissible : call.Admissible library) :
    Ends (registerScan call) library (fun _ after => call.ScanGoes library ∧ Scanned call library after)
      (fun _ _ => ¬ call.ScanGoes library) (fun _ => ¬ call.ScanGoes library) := by
  unfold registerScan
  rw [ends_bind, ends_read, ends_bind]
  have early : call.fates.registerPdf ≠ .done → ¬ call.ScanGoes library := fun notDone goes => notDone goes.1
  unfold registerIntake
  rw [ends_bind, ends_read]
  cases known : library.intakeBySha call.shaPdf with
  | some intake =>
    dsimp only
    rw [ends_bind]
    refine Ends.write (fun isRegistered => ?_) (fun isFailed => early (by simp [isFailed]))
      fun isCut => early (by simp [isCut])
    rw [ends_pure]
    dsimp only
    split_ifs with isScan
    · exact ⟨⟨isRegistered, Or.inl ⟨intake, known, isScan⟩⟩, Scanned.refl admissible.freshOcr⟩
    · rintro ⟨-, ⟨other, isOther, isScan'⟩ | ⟨isNone, -⟩⟩
      · obtain rfl := Option.some.inj (known.symm.trans isOther)
        exact isScan isScan'
      · cases known.symm.trans isNone
  | none =>
    have late : ¬ (call.fates.setNeedsOcr = .done ∧ call.fates.setPageCountPdf = .done ∧
        call.fates.storeSource = .done ∧ call.fates.sourcePath = .done) → ¬ call.ScanGoes library := by
      rintro notDone ⟨-, ⟨intake, isKnown, -⟩ | ⟨-, done⟩⟩
      · cases known.symm.trans isKnown
      · exact notDone done
    have inserted := Scanned.insert admissible
    have marked : Scanned call library
        ((library.insertIntake call.newPdfId call.shaPdf).setIntakeStatus call.newPdfId .needsOcr) :=
      inserted.update admissible (fun _ => rfl) (fun _ => rfl) fun _ => IntakeStatus.noConfusion
    dsimp only
    rw [ends_bind]
    refine Ends.write (fun isRegistered => ?_) (fun isFailed => early (by simp [isFailed]))
      fun isCut => early (by simp [isCut])
    rw [ends_pure]
    dsimp only
    rw [ends_bind]
    refine Ends.write (fun isMarked => ?_) (fun isFailed => late (by simp [isFailed]))
      fun isCut => late (by simp [isCut])
    rw [ends_bind]
    refine Ends.write (fun isCounted => ?_) (fun isFailed => late (by simp [isFailed]))
      fun isCut => late (by simp [isCut])
    rw [ends_bind]
    refine Ends.write (fun isStored => ?_) (fun isFailed => late (by simp [isFailed]))
      fun isCut => late (by simp [isCut])
    rw [ends_bind]
    refine Ends.write (fun isNamed => ?_) (fun isFailed => late (by simp [isFailed]))
      fun isCut => late (by simp [isCut])
    exact ⟨⟨isRegistered, Or.inr ⟨known, isMarked, isCounted, isStored, isNamed⟩⟩,
      marked.putSource.update admissible (fun _ => rfl) (fun _ => rfl) fun _ isEmbedded => isEmbedded⟩

/-! ### The fast path -/

/-- The intake of the text: the one on file, or the new one. -/
def OcrCall.ocrTarget (call : OcrCall) (library : Library) : Int :=
  library.targetId call.shaOcr call.newOcrId

/-- The derivation edge of this row may be written. -/
def DerivedGoes (id : Int) (sha : String) (fates : OcrFates) (library : Library) : Prop :=
  fates.readDerived = .done ∧ ∀ intake, library.intakeById id = some intake →
    fates.setDerived = .done ∧ (intake.derivedFrom = none ∨ intake.derivedFrom = some sha)

/-- **The fast path of a call**: what it takes for the call to return a cached extraction. -/
structure OcrCall.FastPath (build : OcrBinary) (library : Library) (call : OcrCall) (cached : Extracted) :
    Prop where
  counted : call.expectedPages ≠ none
  unforced : call.force = false
  scan : call.ScanGoes library
  registered : call.fates.registerOcr = .done
  derived : DerivedGoes (call.ocrTarget library) call.shaPdf call.fates library
  reads : call.fates.upToDate = .done ∧ call.fates.envelopeReadable = true ∧ call.fates.readAttrs = .done
  found : ∃ path, ocrUpToDate build library (call.ocrTarget library) call.shaOcr call.run.config.model =
    some (path, cached)

theorem setDerivedFrom_ends {id : Int} {sha : String} {fates : OcrFates} :
    Ends (setDerivedFrom id sha fates) library
      (fun _ after => DerivedGoes id sha fates library ∧
        (after = library ∨ after = library.setDerivedFrom id sha))
      (fun _ _ => ¬ DerivedGoes id sha fates library) (fun _ => ¬ DerivedGoes id sha fates library) := by
  unfold setDerivedFrom
  rw [ends_bind]
  refine Ends.write (fun isRead => ?_) (fun isFailed goes => Fate.noConfusion (isFailed.symm.trans goes.1))
    fun isCut goes => Fate.noConfusion (isCut.symm.trans goes.1)
  rw [ends_bind, ends_read]
  cases found : library.intakeById id with
  | none => exact ⟨⟨isRead, fun _ isSome => by cases found.symm.trans isSome⟩, Or.inl rfl⟩
  | some intake =>
    have edge : (intake.derivedFrom = none ∨ intake.derivedFrom = some sha) →
        Ends (write fates.setDerived PipelineError.catalog (Library.setDerivedFrom id sha)) library
          (fun _ after => DerivedGoes id sha fates library ∧
            (after = library ∨ after = library.setDerivedFrom id sha))
          (fun _ _ => ¬ DerivedGoes id sha fates library) (fun _ => ¬ DerivedGoes id sha fates library) := by
      refine fun isFree => Ends.write (fun isWritten => ⟨⟨isRead, fun other isOther => ?_⟩, Or.inr rfl⟩)
        (fun isFailed goes => Fate.noConfusion (isFailed.symm.trans (goes.2 intake found).1))
        fun isCut goes => Fate.noConfusion (isCut.symm.trans (goes.2 intake found).1)
      obtain rfl := Option.some.inj (found.symm.trans isOther)
      exact ⟨isWritten, isFree⟩
    dsimp only
    cases isDerived : intake.derivedFrom with
    | none => exact edge (Or.inl isDerived)
    | some current =>
      dsimp only
      split_ifs with isSame
      · exact edge (Or.inr (by rw [isDerived, isSame]))
      · intro goes
        rcases (goes.2 intake found).2 with isNone | isSha
        · cases isDerived.symm.trans isNone
        · exact isSame (Option.some.inj (isDerived.symm.trans isSha))

section UpToDate

variable {build : OcrBinary} {model : String} {before after : Library}

/-- A row with the same status, version and path, in a store with the same states, stamps and files. -/
theorem ocrUpToDate_congr {sha : String} {id : Int} {row row' : Intake}
    (found : before.intakeBySha sha = some row) (found' : after.intakeBySha sha = some row')
    (status : row'.status = row.status) (version : row'.extractorVersion = row.extractorVersion)
    (path : row'.storedPath = row.storedPath) (states : after.states = before.states)
    (stamps : after.stamps = before.stamps)
    (files : ∀ name, row.storedPath = some name → after.readWithFallback name = before.readWithFallback name) :
    ocrUpToDate build after id sha model = ocrUpToDate build before id sha model := by
  unfold ocrUpToDate
  simp only [found, found', status, version, path, states, stamps]
  cases stored : row.storedPath with
  | none => rfl
  | some name => simp only [files name stored]

theorem ocrUpToDate_none {sha : String} {id : Int}
    (notEmbedded : ∀ row, after.intakeBySha sha = some row → row.status ≠ .embedded) :
    ocrUpToDate build after id sha model = none := by
  unfold ocrUpToDate
  cases found : after.intakeBySha sha with
  | none => rfl
  | some row => exact if_pos (notEmbedded row found)

/-- **Registering the two intakes does not change what the fast path finds.** -/
theorem ocrUpToDate_registered {mid : Library} (admissible : call.Admissible library) (own : OwnPaths library)
    (scanned : Scanned call library mid) (isAfter : after = mid.registered call.shaOcr call.newOcrId ∨
      after = (mid.registered call.shaOcr call.newOcrId).setDerivedFrom (call.ocrTarget mid) call.shaPdf) :
    ocrUpToDate build after (call.ocrTarget mid) call.shaOcr model =
      ocrUpToDate build library (call.ocrTarget library) call.shaOcr model := by
  -- the row of the text, whether its edge was written or not
  have row : ∀ {intake}, (mid.registered call.shaOcr call.newOcrId).intakeBySha call.shaOcr = some intake →
      ∃ row, after.intakeBySha call.shaOcr = some row ∧ row.status = intake.status ∧
        row.extractorVersion = intake.extractorVersion ∧ row.storedPath = intake.storedPath := by
    intro intake found
    rcases isAfter with rfl | rfl
    · exact ⟨intake, found, rfl, rfl, rfl⟩
    · have updated : ((mid.registered call.shaOcr call.newOcrId).setDerivedFrom (call.ocrTarget mid)
          call.shaPdf).intakeBySha call.shaOcr = Option.map _ _ := intakeBySha_updateIntake fun _ => rfl
      rw [found, Option.map_some] at updated
      refine ⟨_, updated, ?_⟩
      split_ifs
      · exact ⟨rfl, rfl, rfl⟩
      · exact ⟨rfl, rfl, rfl⟩
  have rest : after.states = mid.states ∧ after.stamps = mid.stamps ∧ after.files = mid.files := by
    have registered : (mid.registered call.shaOcr call.newOcrId).states = mid.states ∧
        (mid.registered call.shaOcr call.newOcrId).stamps = mid.stamps ∧
        (mid.registered call.shaOcr call.newOcrId).files = mid.files := by
      rw [registered_eq]
      exact ⟨rfl, rfl, rfl⟩
    rcases isAfter with rfl | rfl
    · exact registered
    · exact registered
  cases known : library.intakeBySha call.shaOcr with
  | some intake =>
    have isKnown := scanned.known call.shaOcr intake known
    have sameRegistered : mid.registered call.shaOcr call.newOcrId = mid := by
      rw [Library.registered, isKnown]
    have sameTarget : call.ocrTarget mid = call.ocrTarget library := by
      rw [OcrCall.ocrTarget, OcrCall.ocrTarget, Library.targetId, Library.targetId, isKnown, known]
    obtain ⟨found, isFound, status, version, path⟩ := row (sameRegistered.symm ▸ isKnown)
    rw [sameTarget]
    refine ocrUpToDate_congr known isFound status version path (rest.1.trans scanned.states)
      (rest.2.1.trans scanned.stamps) fun name stored => ?_
    have isOwn := own intake (mem_of_intakeBySha known).1 name stored
    have isOther := admissible.freshPdf intake (mem_of_intakeBySha known).1
    have files : ∀ name, name ≠ .source call.newPdfId → after.files name = library.files name :=
      fun name differs => (congrFun rest.2.2 name).trans (scanned.files name differs)
    cases name with
    | envelope id =>
      show (after.files _).or _ = (library.files _).or _
      rw [files _ StoreName.noConfusion, files _ StoreName.noConfusion]
    | legacyEnvelope id =>
      show (after.files _).or _ = (library.files _).or _
      rw [files _ StoreName.noConfusion, files _ StoreName.noConfusion]
    | source id =>
      refine files _ fun same => isOther ?_
      rw [← isOwn, same]
      rfl
  | none =>
    have nothing : ocrUpToDate build library (call.ocrTarget library) call.shaOcr model = none :=
      ocrUpToDate_none fun _ isSome => by cases known.symm.trans isSome
    rw [nothing]
    have isRegistered : ∃ intake, (mid.registered call.shaOcr call.newOcrId).intakeBySha call.shaOcr = some
      intake ∧
        intake.status ≠ .embedded := by
      cases found : mid.intakeBySha call.shaOcr with
      | some intake =>
        rw [Library.registered, found]
        exact ⟨intake, found, scanned.new call.shaOcr intake known found⟩
      | none =>
        refine ⟨⟨call.newOcrId, call.shaOcr, .pending, none, 1, none, none⟩, ?_, IntakeStatus.noConfusion⟩
        rw [Library.registered, found]
        unfold Library.intakeBySha Library.insertIntake at *
        rw [List.find?_append, found, Option.none_or]
        simp
    obtain ⟨intake, isIntake, notEmbedded⟩ := isRegistered
    obtain ⟨found, isFound, status, -⟩ := row isIntake
    refine ocrUpToDate_none fun other isOther => ?_
    rw [← Option.some.inj (isFound.symm.trans isOther), status]
    exact notEmbedded

end UpToDate

/-! ### One call -/

section Call

variable {tools : Toolchain} {build : OcrBinary}

/-- Nothing is asked of how a program ends. -/
theorem ends_any {α : Type} (prog : Prog Library PipelineError α) (store : Library) :
    Ends prog store (fun _ _ => True) (fun _ _ => True) fun _ => True := ends_of_left trivial

/-- **The full path** reports an extraction that has passed the check. -/
theorem extractOcr_ends (call : OcrCall) (pdfIntakeId ocrIntakeId : Int) (expectedPages : Nat)
    (store : Library) :
    Ends (extractOcr tools build call pdfIntakeId ocrIntakeId expectedPages) store
      (fun report _ => PassesCheck expectedPages call.allowPartial report.extraction)
      (fun _ _ => True) (fun _ => True) := by
  unfold extractOcr
  cases call.product with
  | none => exact trivial
  | some product =>
    dsimp only
    cases isChecked : checkCoverage (product.extraction build.ocrIntakeVersion) expectedPages
        call.allowPartial with
    | error reason => exact (ends_any _ _).bind fun _ _ _ => trivial
    | ok outcome =>
      have passes : PassesCheck expectedPages call.allowPartial
          { product.extraction build.ocrIntakeVersion with
            partialPages := outcome.record.or (product.extraction build.ocrIntakeVersion).partialPages } := by
        refine ⟨outcome, isChecked, fun _ => ?_⟩
        exact Option.or_none
      unfold ocrStages
      refine (ends_any _ _).bind fun _ _ _ => (ends_any _ _).bind fun envelopePath _ _ => ?_
      refine (ends_any _ _).bind fun _ _ _ => (ends_any _ _).bind fun _ _ _ => ?_
      refine (ends_any _ _).bind fun structured _ _ => (ends_any _ _).bind fun _ _ _ => ?_
      refine (ends_any _ _).bind fun _ _ _ => (ends_any _ _).bind fun embedded _ _ => ?_
      exact passes

/-- What the fast path returns. -/
theorem ocrNoopIfUpToDate_ends (build : OcrBinary) (call : OcrCall) (pdfIntakeId ocrIntakeId : Int)
    (expectedPages : Nat) (store : Library) :
    Ends (ocrNoopIfUpToDate build call pdfIntakeId ocrIntakeId expectedPages) store
      (fun answer _ => ∀ report, answer = some report → ∃ path,
        ocrUpToDate build store ocrIntakeId call.shaOcr call.run.config.model = some (path, report.extraction) ∧
          call.fates.upToDate = .done ∧ call.fates.envelopeReadable = true ∧ call.fates.readAttrs = .done)
      (fun _ _ => True) (fun _ => True) := by
  unfold ocrNoopIfUpToDate
  rw [ends_bind]
  refine Ends.write (fun isRead => ?_) (fun _ => trivial) fun _ => trivial
  rw [ends_bind, ends_read]
  cases found : ocrUpToDate build store ocrIntakeId call.shaOcr call.run.config.model with
  | none => exact fun _ isSome => by cases isSome
  | some entry =>
    obtain ⟨path, extraction⟩ := entry
    dsimp only
    split_ifs with isReadable
    · rw [ends_bind]
      refine Ends.write (fun isAttrs => ?_) (fun _ => trivial) fun _ => trivial
      rintro report isReport
      obtain rfl := Option.some.inj isReport
      exact ⟨path, rfl, isRead, isReadable, isAttrs⟩
    · exact fun _ isSome => by cases isSome

/-- The two registrations, and the derivation edge of a text on file, go through. -/
def OcrCall.Registers (library : Library) (call : OcrCall) : Prop :=
  call.ScanGoes library ∧ call.fates.registerOcr = .done ∧
    ∀ intake, library.intakeBySha call.shaOcr = some intake →
      DerivedGoes intake.intakeId call.shaPdf call.fates library

theorem registerIntake_done {sourceSha : String} {newId : Int} {store : Library} :
    Ends (registerIntake sourceSha newId .done) store
      (fun result after => result.1 = store.targetId sourceSha newId ∧ after = store.registered sourceSha newId)
      (fun _ _ => False) (fun _ => False) := by
  unfold registerIntake Library.targetId Library.registered
  rw [ends_bind, ends_read]
  cases store.intakeBySha sourceSha with
  | none => exact ⟨rfl, rfl⟩
  | some intake => exact ⟨rfl, rfl⟩

theorem registerText_ends (call : OcrCall) (store : Library) :
    Ends (registerIntake call.shaOcr call.newOcrId call.fates.registerOcr) store
      (fun result after => call.fates.registerOcr = .done ∧ result.1 = call.ocrTarget store ∧
        after = store.registered call.shaOcr call.newOcrId)
      (fun _ _ => call.fates.registerOcr ≠ .done) (fun _ => call.fates.registerOcr ≠ .done) := by
  cases call.fates.registerOcr with
  | done =>
    exact registerIntake_done.mono (fun _ _ holds => ⟨rfl, holds⟩) (fun _ _ => False.elim) fun _ => False.elim
  | failed =>
    exact registerIntake_ends (fun isDone => by cases isDone) (fun _ isDone => by cases isDone)
      fun isDone => by cases isDone
  | cut =>
    exact registerIntake_ends (fun isDone => by cases isDone) (fun _ isDone => by cases isDone)
      fun isDone => by cases isDone

/-- **The registrations of a call**, before whatever follows them. -/
theorem registrations_end {next : Int → Int → Prog Library PipelineError OcrIngestReport}
    {post : OcrIngestReport → Library → Prop} {fail : PipelineError → Library → Prop} {cut : Library → Prop}
    (admissible : call.Admissible library) (own : OwnPaths library)
    (goes : ∀ pdfIntakeId ocrIntakeId store, call.Registers library →
      (∀ build model, ocrUpToDate build store ocrIntakeId call.shaOcr model =
        ocrUpToDate build library (call.ocrTarget library) call.shaOcr model) →
      Ends (next pdfIntakeId ocrIntakeId) store post fail cut)
    (stops : ∀ reason store, ¬ (call.Registers library ∧ library.intakeBySha call.shaOcr ≠ none) →
      fail reason store ∧ cut store) :
    Ends (do
      let pdfIntakeId ← registerScan call
      let (ocrIntakeId, _) ← registerIntake call.shaOcr call.newOcrId call.fates.registerOcr
      setDerivedFrom ocrIntakeId call.shaPdf call.fates
      next pdfIntakeId ocrIntakeId) library post fail cut := by
  rw [ends_bind]
  refine (registerScan_ends admissible).mono ?_ (fun reason store noScan => (stops reason store ?_).1)
    fun store noScan => (stops .catalog store ?_).2
  rotate_left
  · exact fun ready => noScan ready.1.1
  · exact fun ready => noScan ready.1.1
  rintro pdfIntakeId mid ⟨scanGoes, scanned⟩
  rw [ends_bind]
  have unregistered : call.fates.registerOcr ≠ .done → ∀ reason store, fail reason store ∧ cut store :=
    fun notDone reason store => stops reason store fun ready => notDone ready.1.2.1
  refine (registerText_ends call mid).mono ?_ (fun reason store notDone => (unregistered notDone reason store).1)
    fun store notDone => (unregistered notDone .catalog store).2
  rintro ⟨ocrIntakeId, isNew⟩ registered ⟨isDone, isTarget, rfl⟩
  dsimp only at isTarget ⊢
  rw [ends_bind, isTarget]
  -- the edge of a text on file, seen from the library as it was found
  have derived : ∀ intake, library.intakeBySha call.shaOcr = some intake →
      (DerivedGoes (call.ocrTarget mid) call.shaPdf call.fates (mid.registered call.shaOcr call.newOcrId) ↔
        DerivedGoes intake.intakeId call.shaPdf call.fates library) := by
    intro intake known
    have isKnown := scanned.known call.shaOcr intake known
    have sameRegistered : mid.registered call.shaOcr call.newOcrId = mid := by
      rw [Library.registered, isKnown]
    have isId : call.ocrTarget mid = intake.intakeId := by
      rw [OcrCall.ocrTarget, Library.targetId, isKnown]
      rfl
    rw [sameRegistered, isId, DerivedGoes, DerivedGoes,
      scanned.byId intake (mem_of_intakeBySha known).1]
  have undone : ¬ DerivedGoes (call.ocrTarget mid) call.shaPdf call.fates
      (mid.registered call.shaOcr call.newOcrId) → ∀ reason store, fail reason store ∧ cut store := by
    refine fun notDerived reason store => stops reason store fun ready => ?_
    obtain ⟨intake, known⟩ := Option.ne_none_iff_exists'.mp ready.2
    exact notDerived ((derived intake known).mpr (ready.1.2.2 intake known))
  refine setDerivedFrom_ends.mono ?_ (fun reason store notDerived => (undone notDerived reason store).1)
    fun store notDerived => (undone notDerived .catalog store).2
  rintro _ store ⟨isDerived, isStore⟩
  refine goes pdfIntakeId _ store ⟨scanGoes, isDone, fun intake known => (derived intake known).mp isDerived⟩ ?_
  exact fun build model => ocrUpToDate_registered admissible own scanned isStore

/-- The fast path is one of a text on file. -/
theorem OcrCall.FastPath.known {cached : Extracted} (fast : call.FastPath build library cached) :
    ∃ intake, library.intakeBySha call.shaOcr = some intake ∧ call.ocrTarget library = intake.intakeId := by
  obtain ⟨path, found⟩ := fast.found
  cases known : library.intakeBySha call.shaOcr with
  | some intake =>
    refine ⟨intake, rfl, ?_⟩
    rw [OcrCall.ocrTarget, Library.targetId, known]
    rfl
  | none =>
    unfold ocrUpToDate at found
    rw [known] at found
    cases found

/-- **One call**: a report is of an extraction that has passed the check, or of the one the fast path
finds. -/
theorem ingestOcrIntake_cases (tools : Toolchain) (build : OcrBinary) (admissible : call.Admissible library)
    (own : OwnPaths library)
    {expectedPages : Nat} (expected : call.expectedPages = some expectedPages) :
    Ends (ingestOcrIntake tools build call) library
      (fun report _ => PassesCheck expectedPages call.allowPartial report.extraction ∨
        call.FastPath build library report.extraction)
      (fun _ _ => True) (fun _ => True) := by
  have extracted : ∀ pdfIntakeId ocrIntakeId store,
      Ends (extractOcr tools build call pdfIntakeId ocrIntakeId expectedPages) store
        (fun report _ => PassesCheck expectedPages call.allowPartial report.extraction ∨
          call.FastPath build library report.extraction) (fun _ _ => True) (fun _ => True) :=
    fun pdfIntakeId ocrIntakeId store => (extractOcr_ends call pdfIntakeId ocrIntakeId expectedPages store).mono
      (fun _ _ => Or.inl) (fun _ _ _ => trivial) fun _ _ => trivial
  unfold ingestOcrIntake
  rw [expected]
  refine registrations_end admissible own ?_ fun _ _ _ => ⟨trivial, trivial⟩
  intro pdfIntakeId ocrIntakeId store registers sameFound
  unfold ocrFastOrFull
  split_ifs with isForced
  · exact extracted _ _ _
  refine (ocrNoopIfUpToDate_ends build call pdfIntakeId ocrIntakeId expectedPages store).bind ?_
  intro answer after isAnswer
  cases answer with
  | none => exact extracted _ _ _
  | some report =>
    obtain ⟨path, found, reads⟩ := isAnswer report rfl
    rw [sameFound build] at found
    refine Or.inr ⟨by rw [expected]; exact Option.some_ne_none _, by simpa using isForced, registers.1,
      registers.2.1, ?_, reads, ⟨path, found⟩⟩
    cases known : library.intakeBySha call.shaOcr with
    | none =>
      unfold ocrUpToDate at found
      rw [known] at found
      cases found
    | some intake =>
      have isId : call.ocrTarget library = intake.intakeId := by
        rw [OcrCall.ocrTarget, Library.targetId, known]
        rfl
      rw [isId]
      exact registers.2.2 intake known

/-- **And the fast path is taken** where it is open. -/
theorem ingestOcrIntake_fast (tools : Toolchain) (admissible : call.Admissible library) (own : OwnPaths library)
    {cached : Extracted} (fast : call.FastPath build library cached) :
    Ends (ingestOcrIntake tools build call) library (fun report _ => report.extraction = cached)
      (fun _ _ => False) (fun _ => False) := by
  obtain ⟨expectedPages, expected⟩ := Option.ne_none_iff_exists'.mp fast.counted
  obtain ⟨row, known, isId⟩ := fast.known
  obtain ⟨path, found⟩ := fast.found
  have registers : call.Registers library := by
    refine ⟨fast.scan, fast.registered, fun intake isIntake => ?_⟩
    obtain rfl := Option.some.inj (known.symm.trans isIntake)
    rw [← isId]
    exact fast.derived
  unfold ingestOcrIntake
  rw [expected]
  refine registrations_end admissible own ?_ fun _ _ notReady =>
    absurd ⟨registers, by rw [known]; exact Option.some_ne_none _⟩ notReady
  intro pdfIntakeId ocrIntakeId store _ sameFound
  have isUnforced : ¬ call.force = true := by simp [fast.unforced]
  unfold ocrFastOrFull
  rw [if_neg isUnforced, ends_bind]
  unfold ocrNoopIfUpToDate
  rw [fast.reads.1, ends_bind]
  refine Ends.write (fun _ => ?_) (fun isFailed => by cases isFailed) fun isCut => by cases isCut
  rw [ends_bind, ends_read, sameFound build, found]
  dsimp only
  rw [if_pos fast.reads.2.1, fast.reads.2.2, ends_bind]
  refine Ends.write (fun _ => ?_) (fun isFailed => by cases isFailed) fun isCut => by cases isCut
  rfl

/-! ### What is claimed of a call -/

/-- A call that returns reports an extraction with the sheets it should have. -/
def ReportCovers (call : OcrCall) (ending : Ending PipelineError OcrIngestReport) : Prop :=
  ∀ expectedPages report, call.expectedPages = some expectedPages → ending = .value report →
    Covers expectedPages call.allowPartial report.extraction

/-- **The condition**: what the fast path finds would pass the check of this call, with the record it
has. -/
def OcrCall.FindsChecked (build : OcrBinary) (library : Library) (call : OcrCall) : Prop :=
  ∀ expectedPages cached, call.expectedPages = some expectedPages → call.FastPath build library cached →
    PassesCheck expectedPages call.allowPartial cached

/-- **One call tells the truth exactly under the condition.** -/
theorem reportCovers_iff (admissible : call.Admissible library) (own : OwnPaths library)
    {ending : Ending PipelineError OcrIngestReport} {after : Library}
    (ran : ingestOcrIntake tools build call library = (ending, after)) :
    ReportCovers call ending ↔ call.FindsChecked build library := by
  constructor
  · intro covers expectedPages cached expected fast
    have returns := ingestOcrIntake_fast tools admissible own fast
    unfold Ends at returns
    rw [ran] at returns
    cases ending with
    | value report =>
      rw [← show report.extraction = cached from returns]
      exact covers_iff.mp (covers expectedPages report expected rfl)
    | error reason => exact returns.elim
    | cut => exact returns.elim
  · intro finds expectedPages report expected returned
    have cases := ingestOcrIntake_cases tools build admissible own expected
    unfold Ends at cases
    rw [ran, returned] at cases
    rcases cases with passes | fast
    · exact covers_iff.mpr passes
    · exact covers_iff.mpr (finds expectedPages report.extraction expected fast)

/-! ### Paths -/

/-- A step that keeps every path a name of its own row. -/
def KeepsPaths (before after : Library) : Prop := OwnPaths before → OwnPaths after

theorem KeepsPaths.frame : Frame KeepsPaths where
  refl := fun _ own => own
  trans := fun one two => two ∘ one

theorem KeepsPaths.of_same {before after : Library} (same : after.intakes = before.intakes) :
    KeepsPaths before after := by
  intro own intake member
  rw [same] at member
  exact own intake member

theorem KeepsPaths.update {id : Int} {change : Intake → Intake} (library : Library)
    (keepsId : ∀ intake : Intake, (change intake).intakeId = intake.intakeId)
    (keepsPath : ∀ intake : Intake, ∀ path, (change intake).storedPath = some path →
      intake.storedPath = some path ∨ path.intakeId = id) :
    KeepsPaths library (library.updateIntake id change) := by
  intro own intake member path isPath
  obtain ⟨old, isOld, rfl⟩ := (mem_updateIntake library).mp member
  split_ifs at isPath ⊢ with isHere
  · rw [keepsId]
    rcases keepsPath old path isPath with isOldPath | isOwn
    · exact own old isOld path isOldPath
    · rw [isOwn, isHere]
  · exact own old isOld path isPath

theorem KeepsPaths.insert (library : Library) (id : Int) (sha : String) :
    KeepsPaths library (library.insertIntake id sha) := by
  intro own intake member path isPath
  rcases List.mem_append.mp member with isOld | isNew
  · exact own intake isOld path isPath
  · rw [List.mem_singleton.mp isNew] at isPath
    cases isPath

theorem keepsPaths_setIntakeStatus (library : Library) (id : Int) (status : IntakeStatus) :
    KeepsPaths library (library.setIntakeStatus id status) :=
  KeepsPaths.update library (fun _ => rfl) fun _ _ => Or.inl

theorem keepsPaths_setStoredPath (library : Library) {id : Int} {path : StoreName} (isOwn : path.intakeId = id) :
    KeepsPaths library (library.setStoredPath id path) :=
  KeepsPaths.update library (fun _ => rfl) fun _ _ isPath => Or.inr (by rw [← Option.some.inj isPath, isOwn])

theorem writes_keepPaths {fate : Fate} {reason : PipelineError} {change : Library → Library}
    (kept : ∀ library, KeepsPaths library (change library)) : Moves KeepsPaths (write fate reason change) :=
  Moves.write KeepsPaths.frame kept

theorem registerIntake_keepsPaths (sourceSha : String) (newId : Int) (fate : Fate) :
    Moves KeepsPaths (registerIntake sourceSha newId fate) := by
  have frame := KeepsPaths.frame
  refine Moves.bind frame (Moves.read frame _) fun known => ?_
  cases known with
  | none =>
    exact Moves.bind frame (writes_keepPaths fun library => KeepsPaths.insert library _ _)
      fun _ => Moves.pure frame _
  | some intake => exact Moves.bind frame (writes_keepPaths frame.refl) fun _ => Moves.pure frame _

theorem registerScan_keepsPaths (call : OcrCall) : Moves KeepsPaths (registerScan call) := by
  have frame := KeepsPaths.frame
  refine Moves.bind frame (Moves.read frame _) fun known => ?_
  refine Moves.bind frame (registerIntake_keepsPaths _ _ _) fun registered => ?_
  obtain ⟨id, isNew⟩ := registered
  cases known with
  | none =>
    refine Moves.bind frame (writes_keepPaths fun library => keepsPaths_setIntakeStatus library _ _) fun _ => ?_
    refine Moves.bind frame (writes_keepPaths frame.refl) fun _ => ?_
    refine Moves.bind frame (writes_keepPaths fun _ => KeepsPaths.of_same rfl) fun _ => ?_
    exact Moves.bind frame (writes_keepPaths fun library => keepsPaths_setStoredPath library rfl)
      fun _ => Moves.pure frame _
  | some intake =>
    dsimp only
    split_ifs
    · exact Moves.pure frame _
    · exact Moves.throw frame _

theorem setDerivedFrom_keepsPaths (id : Int) (sha : String) (fates : OcrFates) :
    Moves KeepsPaths (setDerivedFrom id sha fates) := by
  have frame := KeepsPaths.frame
  have edge : Moves KeepsPaths (write fates.setDerived PipelineError.catalog (Library.setDerivedFrom id sha)) :=
    writes_keepPaths fun library => KeepsPaths.update library (fun _ => rfl) fun _ _ => Or.inl
  refine Moves.bind frame (writes_keepPaths frame.refl) fun _ =>
    Moves.bind frame (Moves.read frame _) fun row => ?_
  cases row with
  | none => exact Moves.pure frame _
  | some intake =>
    dsimp only
    cases intake.derivedFrom with
    | none => exact edge
    | some current =>
      dsimp only
      split_ifs
      · exact edge
      · exact Moves.throw frame _

theorem resumeFromChunk_keepsPaths (id : Int) (run : EmbedRun) (fates : ResumeFates) :
    Moves KeepsPaths (resumeFromChunk tools build.binary id run fates) := by
  have frame := KeepsPaths.frame
  have states : ∀ {fate : Fate} {state : ItemState},
      Moves KeepsPaths (quietly fate (Library.setState id state) : Prog Library PipelineError Bool) :=
    Moves.quietly frame fun _ => KeepsPaths.of_same rfl
  refine Moves.bind frame (Moves.attempt (writes_keepPaths frame.refl)) fun readTree => ?_
  cases readTree with
  | error reason => exact Moves.bind frame states fun _ => Moves.throw frame _
  | ok _ =>
    refine Moves.bind frame (Moves.read frame _) fun nodes =>
      Moves.bind frame (Moves.unwrap frame _) fun plans => ?_
    have embeds : Moves KeepsPaths (embedBookChunks tools build.binary plans run) := by
      intro library
      refine KeepsPaths.of_same ?_
      rw [show (embedBookChunks tools build.binary plans run).left library = _ from
        embedBookChunks_moves tools build.binary plans run library]
    refine Moves.bind frame (Moves.attempt embeds) fun embedded => ?_
    cases embedded with
    | error reason => exact Moves.bind frame states fun _ => Moves.throw frame _
    | ok report =>
      refine Moves.bind frame (writes_keepPaths fun library => keepsPaths_setIntakeStatus library _ _) fun _ =>
        ?_
      exact Moves.bind frame (writes_keepPaths frame.refl) fun _ => Moves.bind frame states
        fun _ => Moves.pure frame _

theorem ocrStages_keepsPaths (call : OcrCall) (pdfIntakeId ocrIntakeId : Int) (expectedPages : Nat)
    (extraction : Extracted) :
    Moves KeepsPaths (ocrStages tools build call pdfIntakeId ocrIntakeId expectedPages extraction) := by
  have frame := KeepsPaths.frame
  have envelope : Moves KeepsPaths (storeOcrEnvelope call ocrIntakeId extraction) := by
    refine Moves.bind frame (Moves.quietly frame fun _ => KeepsPaths.of_same rfl) fun written => ?_
    cases written with
    | true =>
      exact Moves.bind frame (writes_keepPaths fun library => keepsPaths_setStoredPath library rfl)
        fun _ => Moves.pure frame _
    | false => exact Moves.pure frame _
  refine Moves.bind frame (writes_keepPaths frame.refl) fun _ => Moves.bind frame envelope fun path => ?_
  refine Moves.bind frame (writes_keepPaths fun library =>
    KeepsPaths.update library (fun _ => rfl) fun _ _ => Or.inl) fun _ => ?_
  refine Moves.bind frame (writes_keepPaths fun library => keepsPaths_setIntakeStatus library _ _) fun _ => ?_
  refine Moves.bind frame (ingestStructure_moves tools build.binary frame (fun _ _ => KeepsPaths.of_same rfl)
    _ _ _ _) fun structured => ?_
  refine Moves.bind frame (writes_keepPaths frame.refl) fun _ => ?_
  refine Moves.bind frame (Moves.quietly frame fun _ => KeepsPaths.of_same rfl) fun _ => ?_
  exact Moves.bind frame (resumeFromChunk_keepsPaths _ _ _) fun _ => Moves.pure frame _

/-- **A call keeps the paths in order.** -/
theorem ingestOcrIntake_keepsPaths (tools : Toolchain) (build : OcrBinary) (call : OcrCall) :
    Moves KeepsPaths (ingestOcrIntake tools build call) := by
  have frame := KeepsPaths.frame
  have extracts : ∀ pdfIntakeId ocrIntakeId expectedPages,
      Moves KeepsPaths (extractOcr tools build call pdfIntakeId ocrIntakeId expectedPages) := by
    intro pdfIntakeId ocrIntakeId expectedPages
    unfold extractOcr
    cases call.product with
    | none => exact Moves.throw frame _
    | some product =>
      dsimp only
      cases checkCoverage (product.extraction build.ocrIntakeVersion) expectedPages call.allowPartial with
      | error reason =>
        exact Moves.bind frame (writes_keepPaths fun library => keepsPaths_setIntakeStatus library _ _)
          fun _ => Moves.throw frame _
      | ok outcome => exact ocrStages_keepsPaths call _ _ _ _
  unfold ingestOcrIntake
  cases call.expectedPages with
  | none => exact Moves.throw frame _
  | some expectedPages =>
    refine Moves.bind frame (registerScan_keepsPaths call) fun pdfIntakeId => ?_
    refine Moves.bind frame (registerIntake_keepsPaths _ _ _) fun registered => ?_
    obtain ⟨ocrIntakeId, isNew⟩ := registered
    refine Moves.bind frame (setDerivedFrom_keepsPaths _ _ _) fun _ => ?_
    unfold ocrFastOrFull
    split_ifs
    · exact extracts _ _ _
    have fast : Moves KeepsPaths (ocrNoopIfUpToDate build call pdfIntakeId ocrIntakeId expectedPages) := by
      refine Moves.bind frame (writes_keepPaths frame.refl) fun _ =>
        Moves.bind frame (Moves.read frame _) fun found => ?_
      cases found with
      | none => exact Moves.pure frame _
      | some entry =>
        obtain ⟨path, extraction⟩ := entry
        dsimp only
        split_ifs
        · exact Moves.bind frame (writes_keepPaths frame.refl) fun _ => Moves.pure frame _
        · exact Moves.pure frame _
    refine Moves.bind frame fast fun answer => ?_
    cases answer with
    | some report => exact Moves.pure frame _
    | none => exact extracts _ _ _

end Call

end Registration

/-! ### Histories -/

/-- One call by a build, and how it ends. -/
structure OcrRun where
  build : OcrBinary
  call : OcrCall
  ending : Ending PipelineError OcrIngestReport

namespace OcrRun

/-- One step of a history. -/
def Step (tools : Toolchain) (before : Library) (run : OcrRun) (after : Library) : Prop :=
  run.call.Admissible before ∧ ingestOcrIntake tools run.build run.call before = (run.ending, after)

/-- What is claimed of a step. -/
def Covers (_ : Library) (run : OcrRun) (_ : Library) : Prop := ReportCovers run.call run.ending

/-- When it holds. -/
def FindsChecked (before : Library) (run : OcrRun) (_ : Library) : Prop :=
  run.call.FindsChecked run.build before

end OcrRun

/-- **One step** keeps the paths in order, and tells the truth exactly under the condition. -/
theorem ocr_step (tools : Toolchain) (before : Library) (run : OcrRun) (after : Library) (own : OwnPaths before)
    (step : OcrRun.Step tools before run after) :
    OwnPaths after ∧ (OcrRun.Covers before run after ↔ OcrRun.FindsChecked before run after) := by
  obtain ⟨admissible, ran⟩ := step
  refine ⟨?_, reportCovers_iff admissible own ran⟩
  have kept := ingestOcrIntake_keepsPaths tools run.build run.call before own
  rw [Prog.left, ran] at kept
  exact kept

/-- **Along every history of calls**, each report has the sheets it should have exactly when each call that
takes the fast path finds an extraction that its own check would have passed. -/
theorem no_silent_partial_iff {tools : Toolchain} {start : Library} (own : OwnPaths start)
    {trace : List (OcrRun × Library)} (run : Along (OcrRun.Step tools) start trace) :
    Along OcrRun.Covers start trace ↔ Along OcrRun.FindsChecked start trace := by
  have steps := run.invariant OwnPaths (ocr_step tools) own
  constructor
  · intro covers
    exact (steps.and covers).mono fun _ _ _ both => both.1.2.2.mp both.2
  · intro finds
    exact (steps.and finds).mono fun _ _ _ both => both.1.2.2.mpr both.2

/-! ### A text of two sheets for a scan of three -/

/-- A call on that text. -/
def twoOfThree (allowPartial : Bool) (newPdfId newOcrId : Int) : OcrCall where
  shaPdf := "pdf"
  shaOcr := "ocr"
  expectedOverride := some 3
  counted := none
  allowPartial := allowPartial
  force := false
  product := some ⟨⟨[⟨.body, "a", 0⟩, ⟨.body, "b", 1⟩], [], none⟩, ""⟩
  newPdfId := newPdfId
  newOcrId := newOcrId
  now := "now"
  run := smoothRun "model"
  fates := .allDone

/-- A call as a step, from the library it finds. -/
def ocrRun (call : OcrCall) (before : Library) : OcrRun × Library :=
  let ran := ingestOcrIntake wholeTools ⟨⟨1, 1, 1⟩, 1⟩ call before
  (⟨⟨⟨1, 1, 1⟩, 1⟩, call, ran.1⟩, ran.2)

/-- Two calls on that text, the first with partial coverage allowed. -/
def partialThen (allowPartial : Bool) : List (OcrRun × Library) :=
  [ocrRun (twoOfThree true 1 2) .empty,
    ocrRun (twoOfThree allowPartial 3 4) (ocrRun (twoOfThree true 1 2) .empty).2]

theorem ocrRun_step {call : OcrCall} {before : Library} (admissible : call.Admissible before) :
    OcrRun.Step wholeTools before (ocrRun call before).1 (ocrRun call before).2 := ⟨admissible, rfl⟩

theorem partialThen_steps (allowPartial : Bool) :
    Along (OcrRun.Step wholeTools) .empty (partialThen allowPartial) := by
  have fresh : ∀ intake ∈ (ocrRun (twoOfThree true 1 2) .empty).2.intakes,
      intake.intakeId ≠ 3 ∧ intake.intakeId ≠ 4 := by decide
  have first : (twoOfThree true 1 2).Admissible .empty :=
    ⟨fun _ member => absurd member List.not_mem_nil, fun _ member => absurd member List.not_mem_nil,
      show (1 : Int) ≠ 2 by decide⟩
  have second : (twoOfThree allowPartial 3 4).Admissible (ocrRun (twoOfThree true 1 2) .empty).2 :=
    ⟨fun intake member => (fresh intake member).1, fun intake member => (fresh intake member).2,
      show (3 : Int) ≠ 4 by decide⟩
  exact ⟨ocrRun_step first, ocrRun_step second, trivial⟩

/-- The sheets a call reports, if it returns. -/
def reportedSheets : Ending PipelineError OcrIngestReport → Option (List Nat)
  | .value report => some (presentSheets report.extraction)
  | .error _ | .cut => none

/-- Partial coverage allowed both times: the second call reports what the first one put on record. -/
theorem no_silent_partial_iff_twice :
    Along OcrRun.Covers .empty (partialThen true) ∧
      (partialThen true).map (fun step => reportedSheets step.1.ending) = [some [1, 2], some [1, 2]] := by
  have covers := no_silent_partial_iff (fun _ member => absurd member List.not_mem_nil)
    (partialThen_steps true)
  refine ⟨covers.mpr ⟨?_, ?_, trivial⟩, by decide⟩
  · intro _ cached _ fast
    obtain ⟨intake, known, -⟩ := fast.known
    cases known
  · -- the cached extraction is that of the first call, with its record
    intro expectedPages cached expected fast
    obtain ⟨path, found⟩ := fast.found
    obtain rfl : 3 = expectedPages := Option.some.inj expected
    obtain ⟨-, rfl⟩ := Prod.mk.inj (Option.some.inj found)
    exact ⟨.incomplete [1, 2], by decide, fun _ => by decide⟩

/-- **A partial text is accepted silently**: the second call does not allow partial coverage, and returns the
two sheets of the envelope the first one wrote. -/
theorem partial_text_accepted : ¬ ∀ (tools : Toolchain) (trace : List (OcrRun × Library)),
    Along (OcrRun.Step tools) .empty trace → Along OcrRun.Covers .empty trace := by
  intro always
  have covers := (always wholeTools (partialThen false) (partialThen_steps false)).2.1
  have sheets : reportedSheets (ocrRun (twoOfThree false 3 4) (ocrRun (twoOfThree true 1 2) .empty).2).1.ending =
      some [1, 2] := by decide
  cases returned : (ocrRun (twoOfThree false 3 4) (ocrRun (twoOfThree true 1 2) .empty).2).1.ending with
  | value report =>
    rw [returned] at sheets
    have isThird : HasSheet report.extraction 3 :=
      ((covers 3 report rfl returned).1 rfl 3).mpr ⟨by decide, le_rfl⟩
    rw [← mem_presentSheets, Option.some.inj sheets] at isThird
    exact absurd isThird (by decide)
  | error reason =>
    rw [returned] at sheets
    cases sheets
  | cut =>
    rw [returned] at sheets
    cases sheets

end Bookrack.Ingest
