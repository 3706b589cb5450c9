/-
Removal over runs of the book drivers: which books a removal takes away whole.

* `Addressed` — every row names the book's own envelope or source, and no file has a legacy name; every
  driver keeps it.
* **`removal_complete_iff`** — in every state of every run, removal is complete and resumable for an intake
  exactly when the chunks it has are announced by the index stamps and its row names its envelope.
-/

import Bookrack.Glean.Reembed
import Bookrack.Ingest.Restamp
import Bookrack.Library.Removal

namespace Bookrack.Ingest

open Prog

variable {tools : Toolchain} {binary : Binary} {id : Int} {library before after : Library}

/-! ### Names -/

/-- The invariant. -/
structure Addressed (library : Library) : Prop where
  sound : library.Sound
  named : ∀ id, PartitionIdx.Fits ⟨id⟩ → Named id library

/-- **A step at one book** keeps the invariant when it keeps it of that book. -/
theorem Addressed.of_local (addressed : Addressed before) (isLocal : Local id before after)
    (own : Named id after) : Addressed after := by
  obtain ⟨sound, within⟩ := isLocal addressed.sound
  refine ⟨sound, fun other fits => ?_⟩
  by_cases same : other = id
  · rw [same]
    exact own
  · exact (addressed.named other fits).of_within within same

/-- A step that leaves the rows, the nodes and the files alone. -/
theorem Addressed.of_vectors (addressed : Addressed before)
    (rest : after = { before with stamps := after.stamps, table := after.table }) : Addressed after := by
  rw [rest]
  exact ⟨⟨addressed.sound.placed, addressed.sound.distinct, addressed.sound.fits⟩,
    fun id fits => (addressed.named id fits).of_same rfl rfl⟩

theorem Named.retree {tree : List Corpus.Node} (named : Named id before)
    (retree : Retree ⟨id⟩ tree before after) : Named id after := by
  rw [retree.corpus]
  exact named.of_same rfl rfl

theorem empty_addressed : Addressed Library.empty where
  sound := Library.empty_sound
  named := fun _ _ => ⟨(fun _ member => by cases member), rfl, fun _ isEnvelope => by cases isEnvelope⟩

/-! ### The book drivers -/

theorem resume_named {run : EmbedRun} {fates : ResumeFates} (named : Named id before) :
    ResumeRules tools binary id run fates before (Named id) := by
  have vectors : ∀ {after : Library}, after = { before with stamps := after.stamps, table := after.table } →
      Named id after := by
    intro after rest
    rw [rest]
    exact named.of_same rfl rfl
  exact
    { stop := named
      unread := fun _ => named.of_same rfl rfl
      broken := fun _ broken => vectors broken.rest
      brokenNoted := fun _ broken _ => (vectors broken.rest).of_same rfl rfl
      full := fun _ full => vectors full.rest
      promoted := fun _ full _ _ => (vectors full.rest).setIntakeStatus _
      finished := fun _ full _ _ => ((vectors full.rest).setIntakeStatus _).of_same rfl rfl }

theorem stages_named {call : IngestCall} {extraction : Extracted} :
    StageRules tools binary id call extraction (fun _ => Named id) (Named id) where
  demote := fun _ named _ => named.setIntakeStatus _
  emptied := fun _ _ named emptied => named.retree emptied.retree
  built := fun _ _ _ named _ _ retree => named.retree retree
  noted := fun _ named _ _ => named.of_same rfl rfl
  unnoted := fun _ named _ _ => named
  stamped := fun _ named _ => named.setExtraction _ _
  filed := fun _ _ named filed => named.filed filed
  held := fun _ named _ => named.of_same rfl rfl
  resume := fun _ named _ => resume_named named
  stopBuilt := fun _ named _ => named
  stopNoted := fun _ named _ => named
  stop := by
    rintro before (named | named | named)
    · exact named
    · exact named
    · exact named

theorem ingest_addressed {call : IngestCall} (addressed : Addressed before)
    (admissible : call.Admissible before) : Addressed ((ingestBook tools binary call).left before) := by
  have own := addressed.named (call.target before) (admissible.target_fits addressed.sound)
  have filed : ∀ {intake : Intake} {extraction after}, Compared binary call before intake extraction →
      Filed intake.intakeId call.sourceSha extraction call.fates.restamp.store before after →
      Named (call.target before) after := by
    intro intake extraction after compared isFiled
    rw [target_of_known (known_of_behind compared.onFile)] at own ⊢
    exact own.filed isFiled
  have rules : IngestRules tools binary call before (fun _ _ => Named (call.target before))
      (fun _ => Named (call.target before)) (Named (call.target before)) :=
    { stay := own
      current := fun _ _ _ => own
      anchored := by
        intro after new anchored
        rw [target_of_new new] at own ⊢
        exact own.anchored anchored
      filed := fun _ _ _ compared isFiled => filed compared isFiled
      restamped := by
        intro intake extraction after compared isFiled _
        have named := filed compared isFiled
        rw [target_of_known (known_of_behind compared.onFile)] at named ⊢
        exact ⟨named.setExtraction _ _, named.setExtraction _ _⟩
      stages := fun _ _ => stages_named
      registered := fun _ _ => own.registered _ _
      refiled := fun _ _ _ compared isFiled _ => filed compared isFiled
      staged := fun _ _ _ named => named }
  obtain ⟨isLocal, named⟩ := (ingestBook_ends addressed.sound admissible rules).left
  exact addressed.of_local isLocal named

theorem rechunk_addressed {run : ResetRun} (addressed : Addressed before) :
    Ends (do
        write run.listExtracted .catalog fun library => library
        let targets ← read (·.intakesWithStatus .extracted)
        loop targets ⟨0, 0, []⟩ (rechunkOne tools binary run)) before
      (fun _ => Addressed) (fun _ => Addressed) Addressed := by
  rw [ends_bind]
  refine Ends.write (fun _ => ?_) (fun _ => addressed) fun _ => addressed
  rw [ends_bind, ends_read]
  refine Ends.loop (fun _ => Addressed) addressed ?_
  intro position intake report library isIntake soFar
  have fits := addressed.sound.fits intake (mem_intakesWithStatus.mp (List.mem_of_getElem? isIntake)).1
  have own := soFar.named intake.intakeId fits
  have vectors : ∀ {after : Library}, after = { library with stamps := after.stamps, table := after.table } →
      Named intake.intakeId after := by
    intro after rest
    rw [rest]
    exact own.of_same rfl rfl
  refine (rechunkOne_ends fits soFar.sound (P := Named intake.intakeId) (Q := Named intake.intakeId) own
    (fun _ => own) (fun _ broken => vectors broken.rest) ?_).mono ?_ ?_ ?_
  · exact fun _ _ _ _ refilled _ => ⟨vectors refilled.rest, fun _ => (vectors refilled.rest).setIntakeStatus _⟩
  · exact fun _ _ holds => soFar.of_local holds.1 holds.2
  · exact fun _ _ holds => soFar.of_local holds.1 holds.2
  · exact fun _ holds => soFar.of_local holds.1 holds.2

theorem Addressed.demoted {ids : List Intake} : ∀ {library : Library}, Addressed library →
    (∀ intake ∈ ids, PartitionIdx.Fits ⟨intake.intakeId⟩) → Addressed (demoted ids library) := by
  induction ids with
  | nil => exact fun addressed _ => addressed
  | cons intake rest ih =>
    intro library addressed fits
    obtain ⟨here, later⟩ := List.forall_mem_cons.mp fits
    exact ih (addressed.of_local (local_setIntakeStatus library .extracted)
      ((addressed.named _ here).setIntakeStatus _)) later

theorem reset_addressed {run : ResetRun} (isResume : Bool) (addressed : Addressed before) :
    Addressed ((resetAndRechunk tools binary isResume run).left before) := by
  have ends : Ends (resetAndRechunk tools binary isResume run) before
      (fun _ => Addressed) (fun _ => Addressed) Addressed := by
    unfold resetAndRechunk
    cases isResume with
    | true => exact rechunk_addressed addressed
    | false =>
      have fits : ∀ intake ∈ before.intakesWithStatus .embedded, PartitionIdx.Fits ⟨intake.intakeId⟩ :=
        fun intake member => addressed.sound.fits intake (mem_intakesWithStatus.mp member).1
      have bare : Addressed (bareLibrary before) := addressed.of_vectors rfl
      rw [if_neg Bool.false_ne_true]
      refine (dropVectors_ends addressed ?_ ?_).bind ?_
      · exact fun _ _ => addressed.of_vectors rfl
      · exact fun count _ _ _ => bare.demoted fun intake member => fits intake (List.mem_of_mem_take member)
      · rintro _ after ⟨_, _, rfl⟩
        exact rechunk_addressed (bare.demoted fits)
  exact ends.left

theorem rebuild_addressed {run : RebuildRun} (addressed : Addressed before) :
    Addressed ((rebuildFromIntakes tools binary run).left before) := by
  have ends : Ends (rebuildFromIntakes tools binary run) before
      (fun _ => Addressed) (fun _ => Addressed) Addressed := by
    unfold rebuildFromIntakes
    rw [ends_bind]
    refine Ends.write (fun _ => ?_) (fun _ => addressed) fun _ => addressed
    rw [ends_bind, ends_read]
    cases isTargets : rebuildTargets binary run.params before with
    | error reason => exact addressed
    | ok targets =>
      refine Ends.loop (fun _ => Addressed) addressed ?_
      intro position intake report library isIntake soFar
      have fits := addressed.sound.fits intake
        (mem_of_rebuildTargets isTargets intake (List.mem_of_getElem? isIntake))
      have own := soFar.named intake.intakeId fits
      refine (rebuildOne_ends fits soFar.sound own (fun _ _ _ _ _ _ retree => own.retree retree)
        fun _ _ _ emptied => own.retree emptied.retree).mono ?_ ?_ ?_
      · exact fun _ _ holds => soFar.of_local holds.1 holds.2
      · exact fun _ _ holds => soFar.of_local holds.1 holds.2
      · exact fun _ holds => soFar.of_local holds.1 holds.2
  exact ends.left

theorem BookCall.addressed {call : BookCall} (addressed : Addressed before)
    (admissible : call.Admissible before) : Addressed (call.left tools binary before) := by
  cases call with
  | ingest call => exact ingest_addressed addressed admissible
  | resume intakeId run fates =>
    obtain ⟨isLocal, named⟩ := (resumeFromChunk_ends (Q := Named intakeId) admissible addressed.sound
      (resume_named (addressed.named intakeId admissible))).left
    exact addressed.of_local isLocal named
  | reset isResume run => exact reset_addressed isResume addressed
  | rebuild run => exact rebuild_addressed addressed

/-! ### Reembedding -/

/-- Only the stamps and the chunks table may differ. -/
def VectorsOnly (before after : Library) : Prop :=
  after = { before with stamps := after.stamps, table := after.table }

theorem VectorsOnly.frame : Frame VectorsOnly where
  refl := fun _ => rfl
  trans := by
    intro first second third one two
    rw [VectorsOnly, two, one]

section Vectors

variable (tools : Toolchain) (binary : Binary)

theorem reconcileIndexStamps_moves (fate : Fate) (expected : IndexStamps) :
    Moves VectorsOnly (reconcileIndexStamps fate expected) := by
  refine Moves.bind VectorsOnly.frame (Moves.read VectorsOnly.frame _) fun stamps => ?_
  cases stamps with
  | none => exact Moves.write VectorsOnly.frame fun _ => rfl
  | some found =>
    dsimp only
    cases found.mismatch expected with
    | some key => exact Moves.throw VectorsOnly.frame _
    | none => exact Moves.pure VectorsOnly.frame _

theorem openChunkStore_moves (fate : Fate) (dim : Nat) : Moves VectorsOnly (openChunkStore fate dim) :=
  Moves.bind VectorsOnly.frame (Moves.write VectorsOnly.frame fun _ => rfl)
    fun _ => Moves.read VectorsOnly.frame _

theorem append_moves (fate : Fate) (dim : Nat) (rows : List ChunkRow) :
    Moves VectorsOnly (append tools fate dim rows) := by
  unfold append
  split_ifs
  · exact Moves.pure VectorsOnly.frame _
  · exact Moves.throw VectorsOnly.frame _
  · exact Moves.bind VectorsOnly.frame (Moves.write VectorsOnly.frame fun _ => rfl)
      fun _ => Moves.pure VectorsOnly.frame _

theorem embedBatches_moves (run : EmbedRun) (dim : Nat) (batches : List (List Chunk.ChunkPlan)) :
    ∀ place report, Moves VectorsOnly (embedBatches tools run dim place report batches) := by
  induction batches with
  | nil => exact fun _ _ => Moves.pure VectorsOnly.frame _
  | cons batch rest ih =>
    intro place report
    unfold embedBatches
    cases embedWithShrink run.embedder place batch.length [] batch with
    | error reason => exact Moves.throw VectorsOnly.frame _
    | ok served => exact Moves.bind VectorsOnly.frame (append_moves tools _ _ _) fun _ => ih _ _

theorem embedBookChunks_moves (plans : List Chunk.ChunkPlan) (run : EmbedRun) :
    Moves VectorsOnly (embedBookChunks tools binary plans run) := by
  unfold embedBookChunks
  cases plans with
  | nil => exact Moves.pure VectorsOnly.frame _
  | cons first rest =>
    dsimp only
    cases run.probe first with
    | error reason => exact Moves.throw VectorsOnly.frame _
    | ok probed =>
      have writes : ∀ {fate : Fate} {step : Library → Library},
          (∀ library, VectorsOnly library (step library)) →
          Moves VectorsOnly (write fate PipelineError.vectors step) := Moves.write VectorsOnly.frame
      refine Moves.bind VectorsOnly.frame (reconcileIndexStamps_moves _ _) fun _ => ?_
      refine Moves.bind VectorsOnly.frame (openChunkStore_moves _ _) fun dim => ?_
      refine Moves.bind VectorsOnly.frame (writes fun _ => rfl) fun _ => ?_
      refine Moves.bind VectorsOnly.frame (writes fun _ => rfl) fun _ => ?_
      refine Moves.bind VectorsOnly.frame (writes fun _ => rfl) fun _ => ?_
      refine Moves.bind VectorsOnly.frame (embedBatches_moves tools run dim _ _ _) fun report => ?_
      exact Moves.bind VectorsOnly.frame (Moves.quietly VectorsOnly.frame fun _ => rfl)
        fun _ => Moves.pure VectorsOnly.frame _

theorem embedAndWriteChunks_moves (intakeId : Int) (plans : List Chunk.ChunkPlan) (run : Glean.EmbedRun) :
    Moves VectorsOnly (Glean.embedAndWriteChunks tools binary intakeId plans run) := by
  unfold Glean.embedAndWriteChunks
  split_ifs
  · exact Moves.pure VectorsOnly.frame _
  cases run.probe with
  | error reason => exact Moves.throw VectorsOnly.frame _
  | ok probed =>
    refine Moves.bind VectorsOnly.frame (reconcileIndexStamps_moves _ _) fun _ => ?_
    refine Moves.bind VectorsOnly.frame (openChunkStore_moves _ _) fun dim => ?_
    refine Moves.bind VectorsOnly.frame (Moves.write VectorsOnly.frame fun _ => rfl) fun _ => ?_
    cases run.embedder.embedBatch 0 [] (plans.map (·.text)) with
    | error reason => exact Moves.throw VectorsOnly.frame _
    | ok vectors => exact append_moves tools _ _ _

theorem readChunkPlans_moves (openStore scan : Fate) (id : Int) :
    Moves VectorsOnly (readChunkPlans openStore scan id) :=
  Moves.bind VectorsOnly.frame (openChunkStore_moves _ _) fun _ =>
    Moves.bind VectorsOnly.frame (Moves.write VectorsOnly.frame fun _ => rfl)
      fun _ => Moves.read VectorsOnly.frame _

theorem reembedEach_moves {one : Nat → Int → Prog Library PipelineError Nat}
    (each : ∀ position id, Moves VectorsOnly (one position id)) (targets : List Int) :
    ∀ position report, Moves VectorsOnly (reembedEach one position report targets) := by
  induction targets with
  | nil => exact fun _ _ => Moves.pure VectorsOnly.frame _
  | cons id rest ih =>
    intro position report
    refine Moves.bind VectorsOnly.frame (each position id) fun written => ?_
    split_ifs
    · exact ih _ _
    · exact ih _ _

theorem reembedAll_moves {targets : Library → Except PipelineError (List Intake)} {collect : Fate}
    {one : Nat → Int → Prog Library PipelineError Nat}
      (each : ∀ position id, Moves VectorsOnly (one position id)) :
    Moves VectorsOnly (reembedAll targets collect one) := by
  refine Moves.bind VectorsOnly.frame (Moves.write VectorsOnly.frame fun _ => rfl) fun _ => ?_
  refine Moves.bind VectorsOnly.frame (Moves.read VectorsOnly.frame _) fun resolved => ?_
  cases resolved with
  | error reason => exact Moves.throw VectorsOnly.frame _
  | ok intakes => exact reembedEach_moves each _ _ _

/-- **A reembed call touches the vectors only.** -/
theorem reembed_moves (call : Glean.ReembedCall) : Moves VectorsOnly (call.prog tools binary) := by
  have book : ∀ intakeId run, Moves VectorsOnly (reembedBook tools binary intakeId run) := by
    intro intakeId run
    refine Moves.bind VectorsOnly.frame (readChunkPlans_moves _ _ _) fun plans => ?_
    split_ifs
    · exact Moves.pure VectorsOnly.frame _
    · exact embedBookChunks_moves tools binary _ _
  have paper : ∀ intakeId run, Moves VectorsOnly (Glean.reembedPaper tools binary intakeId run) := by
    intro intakeId run
    refine Moves.bind VectorsOnly.frame (readChunkPlans_moves _ _ _) fun plans => ?_
    split_ifs
    · exact Moves.pure VectorsOnly.frame _
    · exact embedAndWriteChunks_moves tools binary _ _ _
  cases call with
  | allBooks params collect runs =>
    refine Moves.bind VectorsOnly.frame (reembedAll_moves fun position id => ?_) fun _ =>
      Moves.pure VectorsOnly.frame _
    exact Moves.bind VectorsOnly.frame (book id _) fun _ => Moves.pure VectorsOnly.frame _
  | book intakeId run =>
    exact Moves.bind VectorsOnly.frame (book intakeId run) fun _ => Moves.pure VectorsOnly.frame _
  | allPapers params collect runs =>
    exact Moves.bind VectorsOnly.frame (reembedAll_moves fun position id => paper id _)
      fun _ => Moves.pure VectorsOnly.frame _
  | paper intakeId run =>
    exact Moves.bind VectorsOnly.frame (paper intakeId run) fun _ => Moves.pure VectorsOnly.frame _

end Vectors

/-! ### Removing -/

/-- A book whose row is gone or as it was, and whose files are gone or as they were. -/
theorem Named.of_fewer (named : Named id before) (intakes : ∀ intake ∈ after.intakes, intake.intakeId = id →
      intake ∈ before.intakes)
    (files : ∀ name, after.files name = before.files name ∨ after.files name = none) : Named id after where
  path := fun intake member isId => named.path intake (intakes intake member isId) isId
  legacy := by
    rcases files (.legacyEnvelope id) with same | isNone
    · rw [same]
      exact named.legacy
    · exact isNone
  source := by
    rcases files (.source id) with same | isNone
    · rw [same]
      exact named.source
    · rw [isNone]
      exact fun _ isEnvelope => by cases isEnvelope

/-- The row of a book names the book's own file. -/
theorem Addressed.own {library : Library} (addressed : Addressed library) : ∀ intake ∈ library.intakes,
    intake.intakeId = id → ∀ name, intake.storedPath = some name → name.intakeId = id := by
  rintro intake member rfl name isPath
  rcases (addressed.named _ (addressed.sound.fits intake member)).path intake member rfl name isPath with rfl
    | rfl
  · rfl
  · rfl

theorem remove_addressed {fingerprint : RemovePlan → String} {expected : Option String} {fates : RemoveFates}
    {shelf : Shelf} (addressed : Addressed shelf.library) :
    Addressed ((executeRemoveFromPlan fingerprint id expected fates).left shelf).library := by
  have fewer : ∀ {after : Shelf}, Others id shelf after → after.library.Sound →
      (∀ intake ∈ after.library.intakes, intake.intakeId = id → intake ∈ shelf.library.intakes) →
      (∀ name, after.library.files name = shelf.library.files name ∨ after.library.files name = none) →
      Addressed after.library := by
    intro after others sound intakes files
    refine ⟨sound, fun other fits => ?_⟩
    by_cases same : other = id
    · rw [same] at fits ⊢
      exact (addressed.named id fits).of_fewer intakes files
    · exact (addressed.named other fits).of_within others.library same
  have stopped : ∀ {after : Shelf}, Partly id shelf after → Addressed after.library := by
    intro after isPartly
    refine fewer isPartly.others isPartly.sound (fun intake member _ => ?_) isPartly.files
    rw [← isPartly.intakes]
    exact member
  have ends : Ends (executeRemoveFromPlan fingerprint id expected fates) shelf
      (fun _ after => Addressed after.library) (fun _ after => Addressed after.library)
      (fun after => Addressed after.library) := by
    refine (executeRemoveFromPlan_ends fingerprint expected fates addressed.sound addressed.own).mono ?_
      (fun _ _ => stopped) fun _ => stopped
    intro outcome after removed
    refine fewer removed.others removed.sound
      (fun intake member isId => absurd isId (removed.row intake member)) ?_
    obtain ⟨intake, member, isId⟩ := removed.wasHere
    intro name
    rw [removed.files intake member isId]
    split_ifs
    · exact .inr rfl
    · exact .inl rfl
  exact ends.left

/-! ### Runs -/

/-- One call on a shelf. A curation may write any derived rows. -/
inductive ShelfCall
  | book (call : BookCall)
  | reembed (call : Glean.ReembedCall)
  | curate (derived : DerivedTable → List DerivedRow)
  | remove (id : Int) (expected : Option String) (fates : RemoveFates)

namespace ShelfCall

section Definitions

variable (tools : Toolchain) (binary : Binary) (fingerprint : RemovePlan → String)

/-- The shelf a call leaves. -/
def left : ShelfCall → Shelf → Shelf
  | book call, shelf => shelf.change (call.left tools binary)
  | reembed call, shelf => shelf.change (call.prog tools binary).left
  | curate derived, shelf => { shelf with derived }
  | remove id expected fates, shelf => (executeRemoveFromPlan fingerprint id expected fates).left shelf

/-- SQLite hands out fresh ids, and ids fit. -/
def Admissible (shelf : Shelf) : ShelfCall → Prop
  | book call => call.Admissible shelf.library
  | reembed _ | curate _ | remove _ _ _ => True

/-- One call, from the shelf it finds to the one it leaves. -/
def Step (before : Shelf) (call : ShelfCall) (after : Shelf) : Prop :=
  call.Admissible before ∧ after = call.left tools binary fingerprint before

end Definitions

variable {fingerprint : RemovePlan → String}

theorem addressed {call : ShelfCall} {before after : Shelf} (addressed : Addressed before.library)
    (step : call.Step tools binary fingerprint before after) : Addressed after.library := by
  obtain ⟨admissible, rfl⟩ := step
  cases call with
  | book call => exact BookCall.addressed addressed admissible
  | reembed call => exact addressed.of_vectors (reembed_moves tools binary call before.library)
  | curate derived => exact addressed
  | remove id expected fates => exact remove_addressed addressed

end ShelfCall

/-- **Removal of an intake is complete and resumable, in every state of every run, exactly when an index
stamp announces the chunks it has and its row names the envelope it has.** -/
theorem removal_complete_iff (tools : Toolchain) (binary : Binary) (fingerprint : RemovePlan → String)
    {trace : List (ShelfCall × Shelf)}
    (along : Run.Along (fun before call after => call.Step tools binary fingerprint before after) Shelf.empty
      trace) :
    Run.Along (fun _ _ after => ∀ intake ∈ after.library.intakes,
      (RemovesWell fingerprint intake.intakeId after ↔ Removable intake.intakeId after.library)) Shelf.empty
      trace := by
  have kept : Run.Along (fun before _ after => Addressed before.library ∧ Addressed after.library ∧ True)
      Shelf.empty trace :=
    Run.Along.invariant (fun shelf : Shelf => Addressed shelf.library)
      (fun _ _ _ addressed step => ⟨ShelfCall.addressed addressed step, trivial⟩) empty_addressed along
  refine kept.mono ?_
  rintro _ _ after ⟨_, addressed, _⟩ intake member
  exact removesWell_iff fingerprint ⟨intake, member, rfl⟩ addressed.sound addressed.own
    (addressed.named _ (addressed.sound.fits intake member)).legacy

/-! ### What is left behind -/

/-- A reset cut off once it has cleared the stamps. -/
def cutAfterClear : ResetRun :=
  ⟨.done, .cut, .done, .done, fun _ => .done, .done, fun _ => .done, fun _ => smoothRun "model", fun _ => .done⟩

/-- The shelf after a first ingest, and after a reset cut off on it. -/
def ingestedShelf : Shelf := (ShelfCall.book (.ingest ingestOne)).left wholeTools ⟨1, 1, 1⟩ (fun _ => "") .empty

def unstampedShelf : Shelf :=
  (ShelfCall.book (.reset false cutAfterClear)).left wholeTools ⟨1, 1, 1⟩ (fun _ => "") ingestedShelf

/-- The ingest of a second file. -/
def ingestNext : IngestCall :=
  ⟨"sha-2", .extracted (oneParagraph "b" 1), false, false, 2, "now", smoothRun "model", .allDone⟩

/-- The shelf with both books, and that with the first one removed again. -/
def twoBooks : Shelf :=
  (ShelfCall.book (.ingest ingestNext)).left wholeTools ⟨1, 1, 1⟩ (fun _ => "") ingestedShelf

def oneRemoved : Shelf := (ShelfCall.remove 1 none .allDone).left wholeTools ⟨1, 1, 1⟩ (fun _ => "") twoBooks

/-- Either book's removal is complete, the second one's also after that of the first. -/
theorem removal_complete_iff_twoBooks :
    RemovesWell (fun _ => "") 1 twoBooks ∧ RemovesWell (fun _ => "") 2 twoBooks ∧
      RemovesWell (fun _ => "") 2 oneRemoved := by
  have fresh : (ShelfCall.book (.ingest ingestNext)).Admissible ingestedShelf := ⟨by decide, by decide⟩
  have along : Run.Along (fun before call after =>
      call.Step wholeTools ⟨1, 1, 1⟩ (fun _ => "") before after) Shelf.empty
      [(ShelfCall.book (.ingest ingestOne), ingestedShelf), (.book (.ingest ingestNext), twoBooks),
        (.remove 1 none .allDone, oneRemoved)] :=
    ⟨⟨ingestOne_step.1, rfl⟩, ⟨fresh, rfl⟩, ⟨trivial, rfl⟩, trivial⟩
  obtain ⟨-, two, one, -⟩ := removal_complete_iff wholeTools ⟨1, 1, 1⟩ (fun _ => "") along
  have first : ⟨1, "sha", .embedded, some "epub", 1, some (.envelope 1), none⟩ ∈
      twoBooks.library.intakes := by
    decide
  have second : ⟨2, "sha-2", .embedded, some "epub", 1, some (.envelope 2), none⟩ ∈
      twoBooks.library.intakes := by
    decide
  have left : ⟨2, "sha-2", .embedded, some "epub", 1, some (.envelope 2), none⟩ ∈
      oneRemoved.library.intakes := by
    decide
  refine ⟨(two _ first).mpr ?_, (two _ second).mpr ?_, (one _ left).mpr ?_⟩
  · exact ⟨fun isNone => absurd isNone (by decide), fun _ => by decide⟩
  · exact ⟨fun isNone => absurd isNone (by decide), fun _ => by decide⟩
  · exact ⟨fun isNone => absurd isNone (by decide), fun _ => by decide⟩

/-- **Not every removal is complete**: after a reset that was cut off once it had cleared the stamps, the
chunks of a removed book stay. -/
theorem chunks_left_behind : ¬ ∀ (tools : Toolchain) (binary : Binary) (fingerprint : RemovePlan → String)
    (trace : List (ShelfCall × Shelf)),
    Run.Along (fun before call after => call.Step tools binary fingerprint before after) Shelf.empty trace →
    Run.Along (fun _ _ after => ∀ intake ∈ after.library.intakes,
      RemovesWell fingerprint intake.intakeId after) Shelf.empty trace := by
  intro always
  have removes := (always wholeTools ⟨1, 1, 1⟩ (fun _ => "")
    [(.book (.ingest ingestOne), ingestedShelf), (.book (.reset false cutAfterClear), unstampedShelf)]
    ⟨⟨ingestOne_step.1, rfl⟩, ⟨trivial, rfl⟩, trivial⟩).2.1
  have isHere : ⟨1, "sha", .embedded, some "epub", 1, some (.envelope 1),
    none⟩ ∈ unstampedShelf.library.intakes := by
    decide
  obtain ⟨outcome, isValue⟩ := executeRemoveFromPlan_returns (fun _ => "") ⟨_, isHere, rfl⟩
  have gone := (removes _ isHere).complete _ _ _ isValue
  have isCons : ((executeRemoveFromPlan (fun _ => "") 1 none .allDone).left unstampedShelf).library.rowsOf 1 ≠
    [] := by
    decide
  exact isCons gone.rows

end Bookrack.Ingest
