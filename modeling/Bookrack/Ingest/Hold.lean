/-
The metadata gate: what the library's drivers do to a book that `ingest_book` has parked.

A parked book is `Extracted`, like a book whose build was interrupted, and only its state row tells the two
apart. The reset drivers select by the status.

* `GainsNothing` — no row and no `Embedded` book is new; so a held ingest and a rebuild (`held_moves`,
  `rebuild_moves`).
* `Desk`, `HeldBack` — the library with the parked books, and what is claimed of a call.
* **`parked_stays_held`** — along every run in which no reset gets to embed a parked book.
-/

import Bookrack.Ingest.Scan
import Bookrack.Ingest.Removal

namespace Bookrack.Ingest

open Chunk (ChunkPlan)
open Prog Run

/-! ### Programs that gain nothing -/

/-- No row of the table and no `Embedded` book is new. -/
def GainsNothing (before after : Library) : Prop :=
  after.table = before.table ∧ ∀ id, after.IsEmbedded id → before.IsEmbedded id

theorem GainsNothing.frame : Frame GainsNothing where
  refl := fun _ => ⟨rfl, fun _ => id⟩
  trans := fun one two => ⟨two.1.trans one.1, fun id => one.2 id ∘ two.2 id⟩

/-- A step that leaves the table and the intakes alone. -/
theorem GainsNothing.of_same {before after : Library} (sameTable : after.table = before.table)
    (sameIntakes : after.intakes = before.intakes) : GainsNothing before after := by
  refine ⟨sameTable, ?_⟩
  rintro id ⟨intake, member, isEmbedded⟩
  exact ⟨intake, sameIntakes ▸ member, isEmbedded⟩

section Writes

variable {library : Library} {id : Int}

theorem gains_setIntakeStatus {status : IntakeStatus} (notEmbedded : status ≠ .embedded) :
    GainsNothing library (library.setIntakeStatus id status) :=
  ⟨rfl, fun _ isEmbedded => ((isEmbedded_setIntakeStatus notEmbedded).mp isEmbedded).2⟩

theorem gains_setExtraction (adapter : String) (version : Nat) :
    GainsNothing library (library.setExtraction id adapter version) :=
  ⟨rfl, fun _ => (isEmbedded_setExtraction adapter version).mp⟩

theorem gains_setStoredPath (path : StoreName) : GainsNothing library (library.setStoredPath id path) :=
  ⟨rfl, fun _ => (isEmbedded_setStoredPath path).mp⟩

theorem gains_insertIntake (sha : String) : GainsNothing library (library.insertIntake id sha) :=
  ⟨rfl, fun _ => (isEmbedded_insertIntake sha).mp⟩

end Writes

section Programs

variable (tools : Toolchain) (binary : Binary)

/-- A write that leaves the table and the intakes alone. -/
theorem write_gains {fate : Fate} {reason : PipelineError} {change : Library → Library}
    (allowed : ∀ library, GainsNothing library (change library)) :
    Moves GainsNothing (write fate reason change) := Moves.write GainsNothing.frame allowed

theorem quietly_gains {fate : Fate} {change : Library → Library}
    (allowed : ∀ library, GainsNothing library (change library)) :
    Moves GainsNothing (quietly fate change : Prog Library PipelineError Bool) :=
  Moves.quietly GainsNothing.frame allowed

theorem writeNothing_gains {fate : Fate} {reason : PipelineError} :
    Moves GainsNothing (write fate reason fun library => library) :=
  write_gains fun library => GainsNothing.frame.refl library

section Trees

variable {R : Library → Library → Prop} (frame : Frame R)
  (retree : ∀ library corpus, R library (Library.setCorpus corpus library))
include frame retree

theorem corpusCall_moves {ε α : Type} (fate : Fate)
    (call : Corpus.CorpusDb → Except ε α × Corpus.CorpusDb) : Moves R (corpusCall fate call) := by
  intro store
  cases fate with
  | done => exact retree store _
  | failed => exact frame.refl store
  | cut => exact frame.refl store

theorem writeTree_moves (idx : PartitionIdx) (now : String) (batch : TreeBatch) (fates : TreeFates) :
    Moves R (writeTree idx now batch fates) := by
  refine Moves.bind frame (Moves.write frame fun _ => retree _ _) fun _ => ?_
  refine Moves.bind frame (corpusCall_moves frame retree _ _) fun allocated => ?_
  cases allocated with
  | error _ => exact Moves.throw frame _
  | ok partition =>
    refine Moves.bind frame (corpusCall_moves frame retree _ _) fun ids => ?_
    cases ids with
    | error reason =>
      cases reason with
      | offsetOutOfRange => exact Moves.halt frame
      | _ => exact Moves.throw frame _
    | ok ids =>
      refine Moves.bind frame (Moves.unwrap frame _) fun nodes => ?_
      refine Moves.bind frame (corpusCall_moves frame retree _ _) fun inserted => ?_
      cases inserted with
      | error _ => exact Moves.throw frame _
      | ok _ => exact Moves.pure frame _

/-- The writes of the STRUCTURE stage are to the tree. -/
theorem ingestStructure_moves (id : Int) (content : Structure.Extraction) (now : String)
    (fates : TreeFates) : Moves R (ingestStructure tools binary id content now fates) := by
  unfold ingestStructure
  cases Structure.planTree (tools.fns binary.normalizeVersion) .work content defaultStructure with
  | error _ => exact Moves.throw frame _
  | ok plan => exact Moves.bind frame (writeTree_moves frame retree _ _ _ _) fun _ => Moves.pure frame _

end Trees

theorem ingestStructure_gains (id : Int) (content : Structure.Extraction) (now : String)
    (fates : TreeFates) : Moves GainsNothing (ingestStructure tools binary id content now fates) :=
  ingestStructure_moves tools binary GainsNothing.frame (fun _ _ => GainsNothing.of_same rfl rfl) _ _ _ _

theorem storeEnvelope_gains (id : Int) (sourceSha : String) (extraction : Extracted)
    (fates : EnvelopeFates) : Moves GainsNothing (storeEnvelope id sourceSha extraction fates) := by
  have frame := GainsNothing.frame
  refine Moves.bind frame (quietly_gains fun _ => GainsNothing.of_same rfl rfl) fun written => ?_
  cases written with
  | true =>
    refine Moves.bind frame (quietly_gains fun _ => gains_setStoredPath _) fun _ => ?_
    exact Moves.bind frame (quietly_gains fun _ => GainsNothing.of_same rfl rfl) fun _ => Moves.pure frame _
  | false =>
    refine Moves.bind frame (quietly_gains fun _ => GainsNothing.of_same rfl rfl) fun _ => ?_
    exact Moves.bind frame (quietly_gains fun _ => GainsNothing.of_same rfl rfl) fun _ => Moves.pure frame _

theorem registerIntake_gains (sourceSha : String) (newId : Int) (fate : Fate) :
    Moves GainsNothing (registerIntake sourceSha newId fate) := by
  have frame := GainsNothing.frame
  refine Moves.bind frame (Moves.read frame _) fun known => ?_
  cases known with
  | none => exact Moves.bind frame (write_gains fun _ => gains_insertIntake _) fun _ => Moves.pure frame _
  | some intake => exact Moves.bind frame writeNothing_gains fun _ => Moves.pure frame _

theorem anchorScan_gains (call : IngestCall) (reason : String) :
    Moves GainsNothing (anchorScan call reason) := by
  have frame := GainsNothing.frame
  refine Moves.bind frame (registerIntake_gains _ _ _) fun registered => ?_
  obtain ⟨id, isNew⟩ := registered
  dsimp only
  split_ifs
  · refine Moves.bind frame (write_gains fun _ => gains_setIntakeStatus IntakeStatus.noConfusion) fun _ => ?_
    refine Moves.bind frame writeNothing_gains fun _ => ?_
    refine Moves.bind frame (write_gains fun _ => GainsNothing.of_same rfl rfl) fun _ => ?_
    exact Moves.bind frame (write_gains fun _ => gains_setStoredPath _) fun _ => Moves.throw frame _
  · exact Moves.throw frame _

theorem restampIfUnchanged_gains (intake : Intake) (extraction : Extracted) (sourceSha : String)
    (fates : RestampFates) :
    Moves GainsNothing (restampIfUnchanged intake extraction sourceSha fates) := by
  have frame := GainsNothing.frame
  have checked : Moves GainsNothing (checkEnvelope intake extraction sourceSha fates) := by
    refine Moves.bind frame (Moves.attempt writeNothing_gains) fun read => ?_
    cases read with
    | error _ => exact Moves.pure frame _
    | ok _ =>
      refine Moves.bind frame (Moves.read frame _) fun file => ?_
      cases compareEnvelope intake extraction file with
      | unchanged =>
        refine Moves.bind frame (storeEnvelope_gains _ _ _ _) fun written => ?_
        cases written with
        | true => exact Moves.pure frame _
        | false => exact Moves.pure frame _
      | _ => exact Moves.pure frame _
  refine Moves.bind frame checked fun check => ?_
  cases check with
  | unchanged =>
    refine Moves.bind frame (write_gains fun _ => gains_setExtraction _ _) fun _ => ?_
    exact Moves.bind frame writeNothing_gains fun _ => Moves.pure frame _
  | _ => exact Moves.pure frame _

/-- **The stages of a held run** gain nothing, and the book it returns is not `Embedded`. -/
theorem runStages_parks {call : IngestCall} (isHeld : call.held = true) (extraction : Extracted)
    (library : Library) :
    Ends (runStages tools binary call extraction) library
      (fun report after => GainsNothing library after ∧ report.intakeId = call.target library ∧
        ¬ after.IsEmbedded (call.target library))
      (fun _ => GainsNothing library) (GainsNothing library) := by
  have frame := GainsNothing.frame
  have registered : GainsNothing library (library.registered call.sourceSha call.newId) :=
    ⟨by rw [registered_eq], fun _ => (isEmbedded_registered _ _).mp⟩
  unfold runStages
  rw [ends_bind]
  refine registerIntake_ends (fun _ => ?_) (fun _ => frame.refl library) (frame.refl library)
  rw [show library.targetId call.sourceSha call.newId = call.target library from rfl]
  generalize call.target library = id
  dsimp only
  rw [ends_bind]
  refine Ends.write (fun _ => ?_) (fun _ => registered) fun _ => registered
  -- from the demotion on the book is not `Embedded`, and nothing makes it so
  let demoted := (library.registered call.sourceSha call.newId).setIntakeStatus id .extracted
  have isDemoted : GainsNothing library demoted :=
    frame.trans registered (gains_setIntakeStatus IntakeStatus.noConfusion)
  have notEmbedded : ¬ demoted.IsEmbedded id := fun isEmbedded =>
    ((isEmbedded_setIntakeStatus IntakeStatus.noConfusion).mp isEmbedded).1 rfl
  refine Ends.mono (?_ : Ends _ demoted (fun report after => GainsNothing demoted after ∧ report.intakeId = id)
    (fun _ => GainsNothing demoted) (GainsNothing demoted)) ?_ ?_ ?_
  · refine Moves.andThen frame (ingestStructure_gains tools binary _ _ _ _) (frame.refl demoted) ?_
    intro structured _ gains
    refine Moves.andThen frame writeNothing_gains gains fun _ _ gains => ?_
    refine Moves.andThen frame (quietly_gains fun _ => GainsNothing.of_same rfl rfl) gains fun _ _ gains => ?_
    refine Moves.andThen frame (write_gains fun _ => gains_setExtraction _ _) gains fun _ _ gains => ?_
    refine Moves.andThen frame (storeEnvelope_gains _ _ _ _) gains fun _ _ gains => ?_
    rw [if_pos isHeld]
    refine Moves.andThen frame (quietly_gains fun _ => GainsNothing.of_same rfl rfl) gains fun _ _ gains => ?_
    exact ⟨gains, rfl⟩
  · rintro report after ⟨gains, isId⟩
    exact ⟨frame.trans isDemoted gains, isId, fun isEmbedded => notEmbedded (gains.2 _ isEmbedded)⟩
  · exact fun _ _ => frame.trans isDemoted
  · exact fun _ => frame.trans isDemoted

/-- A restamp gives way to the stages with the intakes as they were, or returns a report of its own. -/
theorem restampIfUnchanged_cases (intake : Intake) (extraction : Extracted) (sourceSha : String)
    (fates : RestampFates) (library : Library) :
    Ends (restampIfUnchanged intake extraction sourceSha fates) library
      (fun restamped after => (restamped = none → after.intakes = library.intakes) ∧
        ∀ report, restamped = some report → ¬ report.Staged)
      (fun _ _ => True) (fun _ => True) := by
  have stays : ∀ {after : Library}, after.intakes = library.intakes →
      ((none : Option IngestReport) = none → after.intakes = library.intakes) ∧
        ∀ report : IngestReport, none = some report → ¬ report.Staged :=
    fun same => ⟨fun _ => same, fun _ isSome => by cases isSome⟩
  unfold restampIfUnchanged checkEnvelope
  rw [ends_bind, ends_bind]
  refine Ends.attempt (Ends.write (fun _ => ?_) (fun _ => stays rfl) fun _ => trivial)
  dsimp only
  rw [ends_bind, ends_read]
  cases compareEnvelope intake extraction (library.readEnvelope intake.intakeId) with
  | unchanged =>
    dsimp only
    rw [ends_bind]
    refine (storeEnvelope_ends sourceSha extraction fates.store).mono ?_ (fun _ _ _ => trivial) fun _ _ =>
      trivial
    rintro written after ⟨-, -, isFailed⟩
    cases written with
    | false => exact stays (isFailed rfl).2
    | true =>
      rw [if_pos rfl, ends_pure]
      dsimp only
      rw [ends_bind]
      refine Ends.write (fun _ => ?_) (fun _ => trivial) fun _ => trivial
      rw [ends_bind]
      refine Ends.write (fun _ => ⟨fun isNone => (by cases isNone), ?_⟩) (fun _ => trivial) fun _ => trivial
      intro report isReport isStaged
      obtain rfl := Option.some.inj isReport
      exact Bool.noConfusion isStaged.2
  | _ => exact stays rfl

/-- **A held run** gains nothing, and the book it returns from its stages is not `Embedded`. -/
theorem ingestBook_parks {call : IngestCall} (isHeld : call.held = true) (library : Library) :
    Ends (ingestBook tools binary call) library
      (fun report after => GainsNothing library after ∧ (report.Staged →
        report.intakeId = call.target library ∧ ¬ after.IsEmbedded (call.target library)))
      (fun _ => GainsNothing library) (GainsNothing library) := by
  have frame := GainsNothing.frame
  have staged : ∀ (extraction : Extracted) {midway : Library}, GainsNothing library midway →
      midway.intakes = library.intakes → Ends (runStages tools binary call extraction) midway
        (fun report after => GainsNothing library after ∧ (report.Staged →
          report.intakeId = call.target library ∧ ¬ after.IsEmbedded (call.target library)))
        (fun _ => GainsNothing library) (GainsNothing library) := by
    intro extraction midway gains sameIntakes
    have sameTarget : call.target midway = call.target library := by
      rw [IngestCall.target, IngestCall.target, Library.targetId, Library.targetId, Library.intakeBySha,
        Library.intakeBySha, sameIntakes]
    refine (runStages_parks tools binary isHeld extraction midway).mono ?_ ?_ ?_
    · intro report after parks
      rw [sameTarget] at parks
      exact ⟨frame.trans gains parks.1, fun _ => parks.2⟩
    · exact fun _ _ => frame.trans gains
    · exact fun _ => frame.trans gains
  have whole : ∀ behind, Ends (extractAndRun tools binary call behind) library
      (fun report after => GainsNothing library after ∧ (report.Staged →
        report.intakeId = call.target library ∧ ¬ after.IsEmbedded (call.target library)))
      (fun _ => GainsNothing library) (GainsNothing library) := by
    intro behind
    unfold extractAndRun
    cases call.extract with
    | failed => exact frame.refl library
    | needsOcr reason =>
      refine ((anchorScan_gains call reason).ends library).and (anchorScan_cases call library reason) |>.mono
        ?_ (fun _ _ => And.left) fun _ => And.left
      exact fun _ _ holds => holds.2.elim
    | extracted extraction =>
      cases behind with
      | none => exact staged extraction (frame.refl library) rfl
      | some intake =>
        dsimp only
        rw [ends_bind]
        refine ((restampIfUnchanged_gains intake extraction call.sourceSha call.fates.restamp).ends library).and
          (restampIfUnchanged_cases intake extraction call.sourceSha call.fates.restamp library) |>.mono
          ?_ (fun _ _ => And.left) fun _ => And.left
        rintro restamped after ⟨gains, same, unstaged⟩
        cases restamped with
        | none => exact staged extraction gains (same rfl)
        | some report => exact ⟨gains, fun isStaged => absurd isStaged (unstaged report rfl)⟩
  unfold ingestBook
  split_ifs with isForced
  · exact whole none
  rw [ends_bind]
  refine Ends.write (fun _ => ?_) (fun _ => frame.refl library) fun _ => frame.refl library
  rw [ends_bind, ends_read]
  cases onFile binary library call.sourceSha call.run.config.model with
  | current id => exact ⟨frame.refl library, fun isStaged => Bool.noConfusion isStaged.1⟩
  | rerun => exact whole none
  | extractorBehind intake => exact whole (some intake)

theorem rebuildFromIntakes_gains (run : RebuildRun) :
    Moves GainsNothing (rebuildFromIntakes tools binary run) := by
  have frame := GainsNothing.frame
  refine Moves.bind frame writeNothing_gains fun _ => Moves.bind frame (Moves.read frame _) fun targets => ?_
  cases targets with
  | error reason => exact Moves.throw frame _
  | ok targets =>
    refine Moves.loop frame (fun position intake report => ?_) targets _
    unfold rebuildOne
    dsimp only
    cases intake.storedPath with
    | none => exact Moves.pure frame _
    | some path =>
      refine Moves.bind frame (Moves.attempt writeNothing_gains) fun read => ?_
      cases read with
      | error _ => exact Moves.pure frame _
      | ok _ =>
        refine Moves.bind frame (Moves.read frame _) fun file => ?_
        cases file with
        | none => exact Moves.pure frame _
        | some file =>
          cases file with
          | other => exact Moves.pure frame _
          | envelope envelope =>
            dsimp only
            split_ifs
            · exact Moves.pure frame _
            · exact Moves.pure frame _
            refine Moves.bind frame (Moves.attempt (ingestStructure_gains tools binary _ _ _ _)) fun built => ?_
            cases built with
            | error _ => exact Moves.pure frame _
            | ok _ => exact Moves.pure frame _

end Programs

/-! ### One book -/

/-- The book has no new row, and is not newly `Embedded`. -/
def NoGain (id : Int) (before after : Library) : Prop :=
  (after.rowsOf id).Sublist (before.rowsOf id) ∧ (after.IsEmbedded id → before.IsEmbedded id)

section NoGain

variable {tools : Toolchain} {binary : Binary} {id other : Int} {before midway after : Library}

theorem NoGain.frame (id : Int) : Frame (NoGain id) where
  refl := fun _ => ⟨List.Sublist.refl _, fun isEmbedded => isEmbedded⟩
  trans := fun one two => ⟨two.1.trans one.1, one.2 ∘ two.2⟩

theorem GainsNothing.noGain (gains : GainsNothing before after) (id : Int) : NoGain id before after := by
  refine ⟨?_, gains.2 id⟩
  rw [Library.rowsOf, Library.rows, gains.1]
  exact List.Sublist.refl _

/-- A step at another book. -/
theorem noGain_of_within (fits : PartitionIdx.Fits ⟨id⟩) (isOther : id ≠ other)
    (within : Within other before after) : NoGain id before after := by
  refine ⟨?_, (within.isEmbedded isOther).mp⟩
  rw [within.rowsOf id fits isOther]

/-! ### Reset -/

/-- The destructive steps of a reset, if it is a fresh one. -/
def ResetRun.clears (isResume : Bool) (run : ResetRun) : Prog Library PipelineError Unit :=
  if isResume then pure () else dropVectors run

/-- The build loop of a reset. -/
def ResetRun.builds (tools : Toolchain) (binary : Binary) (run : ResetRun) :
    Prog Library PipelineError ResetReport := do
  write run.listExtracted .catalog fun library => library
  let targets ← read (·.intakesWithStatus .extracted)
  loop targets ⟨0, 0, []⟩ (rechunkOne tools binary run)

theorem resetAndRechunk_eq (tools : Toolchain) (binary : Binary) (isResume : Bool) (run : ResetRun) :
    resetAndRechunk tools binary isResume run = run.clears isResume >>= fun _ => run.builds tools binary := by
  cases isResume with
  | true => rfl
  | false => rfl

/-- **The reset gets to embed the book**: the turns before it go through, and its tree has chunks. -/
def ResetRun.Embeds (tools : Toolchain) (binary : Binary) (before : Library) (isResume : Bool)
    (run : ResetRun) (id : Int) : Prop :=
  ∃ start first intake rest report midway plans,
    run.clears isResume before = (.value (), start) ∧ run.listExtracted = .done ∧
    start.intakesWithStatus .extracted = first ++ intake :: rest ∧ intake.intakeId = id ∧
    loop first ⟨0, 0, []⟩ (rechunkOne tools binary run) start = (.value report, midway) ∧
    run.readTree first.length = .done ∧
    planBookChunks tools binary (before.tree id) = some plans ∧ plans ≠ []

/-- What the destructive steps keep. -/
def Drops (before after : Library) : Prop :=
  (before.Sound → after.Sound) ∧ after.corpus = before.corpus ∧ ∀ id, NoGain id before after

theorem Drops.frame : Frame Drops where
  refl := fun _ => ⟨fun sound => sound, rfl, fun id => (NoGain.frame id).refl _⟩
  trans := fun one two =>
    ⟨two.1 ∘ one.1, two.2.1.trans one.2.1, fun id => (NoGain.frame id).trans (one.2.2 id) (two.2.2 id)⟩

theorem clears_drops (isResume : Bool) (run : ResetRun) : Moves Drops (run.clears isResume) := by
  have frame := Drops.frame
  have nothing : ∀ {fate : Fate} {reason : PipelineError},
      Moves Drops (write fate reason fun library => library) := Moves.write frame frame.refl
  unfold ResetRun.clears
  split_ifs
  · exact Moves.pure frame _
  refine Moves.bind frame (Moves.write frame fun library => ?_) fun _ => ?_
  · exact ⟨fun sound => ⟨sound.placed, sound.distinct, sound.fits⟩, rfl, fun id => (NoGain.frame id).refl _⟩
  refine Moves.bind frame (Moves.write frame fun library => ?_) fun _ => ?_
  · exact ⟨fun sound => ⟨sound.placed, sound.distinct, sound.fits⟩, rfl,
      fun id => ⟨List.nil_sublist _, fun isEmbedded => isEmbedded⟩⟩
  refine Moves.bind frame nothing fun _ => Moves.bind frame nothing fun _ => ?_
  refine Moves.bind frame (Moves.read frame _) fun embedded => Moves.loop frame (fun position intake _ => ?_) _ _
  refine Moves.write frame fun library => ?_
  exact ⟨fun sound => (local_setIntakeStatus library .extracted sound).1, rfl,
    (gains_setIntakeStatus IntakeStatus.noConfusion).noGain⟩

/-- A turn at a book whose tree is not read, or without a chunk. -/
theorem rechunkOne_spared {run : ResetRun} {position : Nat} {intake : Intake} {report : ResetReport}
    {library : Library} (spared : run.readTree position = .done →
      ∀ plans, planBookChunks tools binary (library.tree intake.intakeId) = some plans → plans = []) :
    Ends (rechunkOne tools binary run position intake report) library
      (fun _ after => after = library) (fun _ after => after = library) (fun after => after = library) := by
  unfold rechunkOne
  rw [ends_bind]
  refine Ends.write (fun isDone => ?_) (fun _ => rfl) fun _ => rfl
  rw [ends_bind, ends_read, ends_bind]
  refine Ends.unwrap (fun plans planned => ?_) fun _ => rfl
  rw [spared isDone plans planned]
  rfl

/-- **A reset gains a book nothing** unless it gets to embed it. -/
theorem reset_noGain {run : ResetRun} {isResume : Bool} (sound : before.Sound)
    (fits : PartitionIdx.Fits ⟨id⟩) (spared : ¬ run.Embeds tools binary before isResume id) :
    NoGain id before ((resetAndRechunk tools binary isResume run).left before) := by
  have frame := NoGain.frame id
  have ends : Ends (resetAndRechunk tools binary isResume run) before
      (fun _ => NoGain id before) (fun _ => NoGain id before) (NoGain id before) := by
    rw [resetAndRechunk_eq, ends_bind]
    refine ((clears_drops isResume run).ends before).exact.mono ?_ (fun _ _ drops => drops.2.2 id)
      fun _ drops => drops.2.2 id
    rintro _ start ⟨⟨keepsSound, sameCorpus, noGain⟩, cleared⟩
    have isSound := keepsSound sound
    have sameTree : start.tree id = before.tree id := by rw [Library.tree, sameCorpus, ← Library.tree]
    unfold ResetRun.builds
    rw [ends_bind]
    refine Ends.write (fun isListed => ?_) (fun _ => noGain id) fun _ => noGain id
    rw [ends_bind, ends_read]
    refine (Ends.loopReached (fun library => library.Sound ∧ library.tree id = before.tree id ∧
      NoGain id before library) ⟨isSound, sameTree, noGain id⟩ ?_).mono (fun _ _ holds => holds.2.2)
      (fun _ _ holds => holds) fun _ holds => holds
    rintro first intake rest report midway isSplit reached ⟨soundNow, treeNow, noGainNow⟩
    by_cases isHere : intake.intakeId = id
    · refine (rechunkOne_spared ?_).mono ?_ ?_ ?_
      · intro isRead plans planned
        by_contra isCons
        rw [isHere, treeNow] at planned
        exact spared ⟨start, first, intake, rest, report, midway, plans, cleared, isListed, isSplit, isHere,
          reached, isRead, planned, isCons⟩
      · rintro _ after rfl
        exact ⟨soundNow, treeNow, noGainNow⟩
      · rintro _ after rfl
        exact noGainNow
      · rintro after rfl
        exact noGainNow
    · have isTarget : intake ∈ start.intakesWithStatus .extracted := by
        rw [isSplit]
        exact List.mem_append_right _ List.mem_cons_self
      have fitsTarget := isSound.fits intake (mem_intakesWithStatus.mp isTarget).1
      have turn : Ends (rechunkOne tools binary run first.length intake report) midway
          (fun _ after => Local intake.intakeId midway after ∧ True)
          (fun _ after => Local intake.intakeId midway after ∧ True)
          (fun after => Local intake.intakeId midway after ∧ True) :=
        rechunkOne_ends fitsTarget soundNow trivial (fun _ => trivial) (fun _ _ => trivial)
          fun _ _ _ _ _ _ => ⟨trivial, fun _ => trivial⟩
      have kept : ∀ {after}, Local intake.intakeId midway after ∧ True →
          after.Sound ∧ after.tree id = before.tree id ∧ NoGain id before after := by
        rintro after ⟨isLocal, -⟩
        obtain ⟨soundAfter, within⟩ := isLocal soundNow
        refine ⟨soundAfter, (within.tree id fits (Ne.symm isHere)).trans treeNow, ?_⟩
        exact frame.trans noGainNow (noGain_of_within fits (Ne.symm isHere) within)
      exact turn.mono (fun _ _ => kept) (fun _ _ holds => (kept holds).2.2) fun _ holds => (kept holds).2.2
  exact ends.left

/-! ### Reembedding -/

/-- One turn of `reembed_all` concerns its target. -/
theorem reembedOne_local {runs : Nat → ReembedRun} {position : Nat} (fits : PartitionIdx.Fits ⟨id⟩)
    (library : Library) :
    Ends (reembedOne tools binary runs position id) library (fun _ => Local id library)
      (fun _ => Local id library) (Local id library) := by
  have frame := Local.frame id
  have opened : Local id library (library.openTable 0) := by
    rw [Library.openTable_eq]
    exact local_untouched ⟨_, _, rfl, rfl, Or.inl rfl⟩
  unfold reembedOne reembedBook readChunkPlans openChunkStore
  rw [ends_bind, ends_bind, ends_bind, ends_bind]
  refine Ends.write (fun _ => ?_) (fun _ => frame.refl library) fun _ => frame.refl library
  rw [ends_read, ends_bind]
  refine Ends.write (fun _ => ?_) (fun _ => opened) fun _ => opened
  rw [ends_read]
  split_ifs
  · exact opened
  have inside : ∀ plan ∈ (library.openTable 0).plansOf id, inBounds ⟨id⟩ plan = true := by
    intro plan member
    obtain ⟨row, isRow, rfl⟩ := List.mem_map.mp member
    exact (List.mem_filter.mp isRow).2
  have written : ∀ {plans : List ChunkPlan} {rest : List ChunkRow → Prop} {after},
    (Untouched (library.openTable 0) after ∨ ∃ rows,
      (runs position).embed.Refilled binary id plans rows (library.openTable 0) after ∧ rest rows) →
      Local id library after := by
    rintro plans rest after (untouched | ⟨rows, refilled, -⟩)
    · exact frame.trans opened (local_untouched untouched)
    · exact frame.trans opened (refilled.local fits)
  refine (embedBookChunks_refills fits inside).mono ?_ (fun _ _ => written) fun _ => written
  rintro report after (⟨-, rfl⟩ | refilled)
  · exact opened
  · exact written (Or.inr refilled)

/-- The loop of `reembed_all` over other books. -/
theorem reembedEach_noGain {runs : Nat → ReembedRun} (fits : PartitionIdx.Fits ⟨id⟩) {targets : List Int} :
    (∀ target ∈ targets, PartitionIdx.Fits ⟨target⟩ ∧ id ≠ target) →
    ∀ position report library, library.Sound →
      Ends (reembedEach (reembedOne tools binary runs) position report targets) library
        (fun _ after => after.Sound ∧ NoGain id library after)
          (fun _ after => after.Sound ∧ NoGain id library after)
        (fun after => after.Sound ∧ NoGain id library after) := by
  have frame := NoGain.frame id
  induction targets with
  | nil => exact fun _ _ _ library sound => ⟨sound, frame.refl library⟩
  | cons target rest ih =>
    intro others position report library sound
    obtain ⟨⟨fitsTarget, isOther⟩, others⟩ := List.forall_mem_cons.mp others
    have kept : ∀ {after}, Local target library after → after.Sound ∧ NoGain id library after :=
      fun isLocal => ⟨(isLocal sound).1, noGain_of_within fits isOther (isLocal sound).2⟩
    have later : ∀ {after} report, Local target library after →
        Ends (reembedEach (reembedOne tools binary runs) (position + 1) report rest) after
          (fun _ last => last.Sound ∧ NoGain id library last) (fun _ last => last.Sound ∧ NoGain id library last)
          (fun last => last.Sound ∧ NoGain id library last) := by
      intro after report isLocal
      exact (ih others (position + 1) report after (isLocal sound).1).mono
        (fun _ _ holds => ⟨holds.1, frame.trans (kept isLocal).2 holds.2⟩)
        (fun _ _ holds => ⟨holds.1, frame.trans (kept isLocal).2 holds.2⟩)
        fun _ holds => ⟨holds.1, frame.trans (kept isLocal).2 holds.2⟩
    unfold reembedEach
    rw [ends_bind]
    refine (reembedOne_local fitsTarget library).mono ?_ (fun _ _ => kept) fun _ => kept
    intro written after isLocal
    split_ifs
    · exact later _ isLocal
    · exact later _ isLocal

/-- **`reembed_all` gains a book nothing** unless it is `Embedded` already. -/
theorem reembedAllBooks_noGain {params : TargetParams} {collect : Fate} {runs : Nat → ReembedRun}
    (sound : before.Sound) (fits : PartitionIdx.Fits ⟨id⟩) (notEmbedded : ¬ before.IsEmbedded id) :
    ((reembedAllBooks tools binary params collect runs).left before).Sound ∧
      NoGain id before ((reembedAllBooks tools binary params collect runs).left before) := by
  have stays : before.Sound ∧ NoGain id before before := ⟨sound, (NoGain.frame id).refl before⟩
  have ends : Ends (reembedAllBooks tools binary params collect runs) before
      (fun _ after => after.Sound ∧ NoGain id before after) (fun _ after => after.Sound ∧ NoGain id before after)
      (fun after => after.Sound ∧ NoGain id before after) := by
    unfold reembedAllBooks reembedAll
    rw [ends_bind]
    refine Ends.write (fun _ => ?_) (fun _ => stays) fun _ => stays
    rw [ends_bind, ends_read]
    cases isTargets : reembedTargets .intakeNotEmbedded binary params before with
    | error reason => exact stays
    | ok targets =>
      refine reembedEach_noGain fits ?_ _ _ before sound
      intro target member
      obtain ⟨intake, isIntake, rfl⟩ := List.mem_map.mp member
      have everyEmbedded : ∀ intake ∈ before.intakesWithStatus .embedded,
          intake ∈ before.intakes ∧ decide (intake.status = .embedded) = true := by
        intro intake isEmbedded
        obtain ⟨isOnFile, isStatus⟩ := mem_intakesWithStatus.mp isEmbedded
        exact ⟨isOnFile, decide_eq_true isStatus⟩
      obtain ⟨isOnFile, isEmbedded⟩ := targetsOf_ok everyEmbedded isTargets intake isIntake
      refine ⟨sound.fits intake isOnFile, ?_⟩
      rintro rfl
      exact notEmbedded ⟨intake, isOnFile, rfl, of_decide_eq_true isEmbedded⟩
  exact ends.left

end NoGain

/-! ### The desk -/

/-- The library, and the books that are parked at the metadata gate. -/
structure Desk where
  library : Library
  parked : Int → Prop

/-- Nothing is on file. -/
def Desk.empty : Desk := ⟨Library.empty, fun _ => False⟩

/-- One call on the library of books. -/
inductive DeskCall
  | book (call : BookCall)
  | reembedAll (params : TargetParams) (collect : Fate) (runs : Nat → ReembedRun)

namespace DeskCall

section Definitions

variable (tools : Toolchain) (binary : Binary)

/-- The library a call leaves. -/
def left : DeskCall → Library → Library
  | book call => call.left tools binary
  | reembedAll params collect runs => (reembedAllBooks tools binary params collect runs).left

/-- SQLite hands out fresh ids, and ids fit. -/
def Admissible (library : Library) : DeskCall → Prop
  | book call => call.Admissible library
  | reembedAll _ _ _ => True

/-- The call parks the book: it is an ingest that holds for metadata, its audit asks for work, and it
returns from its stages. -/
def Parks (library : Library) (id : Int) : DeskCall → Prop
  | book (.ingest call) => call.held = true ∧ ∃ report,
      (ingestBook tools binary call).ending library = .value report ∧ report.Staged ∧ report.intakeId = id
  | _ => False

/-- The call is one that may release the book: it resumes it, or ingests its source without holding it. -/
def Releases (library : Library) (id : Int) : DeskCall → Prop
  | book (.resume intakeId _ _) => intakeId = id
  | book (.ingest call) => call.held = false ∧ call.target library = id
  | _ => False

/-- No reset gets to embed a parked book. -/
def Spares (desk : Desk) : DeskCall → Prop
  | book (.reset isResume run) =>
    ∀ id, desk.parked id → ¬ run.Embeds tools binary desk.library isResume id
  | _ => True

end Definitions

/-- One call by a binary. -/
def Step (tools : Toolchain) (before : Desk) (label : Binary × DeskCall) (after : Desk) : Prop :=
  label.2.Admissible before.library ∧ after.library = label.2.left tools label.1 before.library ∧
    ∀ id, after.parked id ↔ label.2.Parks tools label.1 before.library id ∨
      before.parked id ∧ ¬ label.2.Releases before.library id

end DeskCall

/-- **What is claimed of a call**: a parked book gains nothing, unless the call is one that may release
it. -/
def HeldBack (before : Desk) (label : Binary × DeskCall) (after : Desk) : Prop :=
  ∀ id, before.parked id → ¬ label.2.Releases before.library id → NoGain id before.library after.library

/-- The invariant: a parked book is not `Embedded`. -/
structure DeskInvariant (desk : Desk) : Prop where
  addressed : Addressed desk.library
  parked : ∀ id, desk.parked id → PartitionIdx.Fits ⟨id⟩ ∧ ¬ desk.library.IsEmbedded id

section Desk

variable {tools : Toolchain} {before after : Desk} {label : Binary × DeskCall}

/-- A call keeps the library's names in order. -/
theorem DeskCall.addressed {call : DeskCall} {binary : Binary} (addressed : Addressed before.library)
    (admissible : call.Admissible before.library) :
    Addressed (call.left tools binary before.library) := by
  cases call with
  | book call => exact BookCall.addressed addressed admissible
  | reembedAll params collect runs =>
    have moves : Moves VectorsOnly (reembedAllBooks tools binary params collect runs) := by
      refine reembedAll_moves fun position id => ?_
      refine Moves.bind VectorsOnly.frame (Moves.bind VectorsOnly.frame (readChunkPlans_moves _ _ _)
        fun plans => ?_) fun _ => Moves.pure VectorsOnly.frame _
      split_ifs
      · exact Moves.pure VectorsOnly.frame _
      · exact embedBookChunks_moves tools binary _ _
    exact addressed.of_vectors (moves before.library)

/-- **A call gains a parked book nothing**, unless it releases it or is a reset that gets to it. -/
theorem noGain_of_call {binary : Binary} {call : DeskCall} (holds : DeskInvariant before)
    (admissible : call.Admissible before.library) (spares : call.Spares tools binary before) {id : Int}
    (isParked : before.parked id) (unreleased : ¬ call.Releases before.library id) :
    NoGain id before.library (call.left tools binary before.library) := by
  have sound := holds.addressed.sound
  obtain ⟨fits, notEmbedded⟩ := holds.parked id isParked
  cases call with
  | reembedAll params collect runs => exact (reembedAllBooks_noGain sound fits notEmbedded).2
  | book call =>
    cases call with
    | ingest call =>
      cases isHeld : call.held with
      | true =>
        have ends := (ingestBook_parks tools binary isHeld before.library).mono
          (fun _ _ => And.left) (fun _ _ gains => gains) fun _ gains => gains
        exact ends.left.noGain id
      | false =>
        have isOther : id ≠ call.target before.library := fun same => unreleased ⟨isHeld, same.symm⟩
        exact noGain_of_within fits isOther (ingestBook_local tools binary sound admissible sound).2
    | resume intakeId run fates =>
      have isOther : id ≠ intakeId := fun same => unreleased same.symm
      exact noGain_of_within fits isOther (resumeFromChunk_local admissible sound run fates sound).2
    | reset isResume run => exact reset_noGain sound fits (spares id isParked)
    | rebuild run => exact (rebuildFromIntakes_gains tools binary run before.library).noGain id

/-- What a call parks is not `Embedded`. -/
theorem parks_notEmbedded {binary : Binary} {call : DeskCall} (sound : before.library.Sound)
    (admissible : call.Admissible before.library) {id : Int}
    (parks : call.Parks tools binary before.library id) :
    PartitionIdx.Fits ⟨id⟩ ∧ ¬ (call.left tools binary before.library).IsEmbedded id := by
  cases call with
  | reembedAll params collect runs => exact parks.elim
  | book call =>
    cases call with
    | ingest call =>
      obtain ⟨isHeld, report, returned, isStaged, rfl⟩ := parks
      obtain ⟨-, isTarget⟩ := (ingestBook_parks tools binary isHeld before.library).of_value returned
      obtain ⟨sameId, notEmbedded⟩ := isTarget isStaged
      rw [sameId]
      exact ⟨admissible.target_fits sound, notEmbedded⟩
    | resume intakeId run fates => exact parks.elim
    | reset isResume run => exact parks.elim
    | rebuild run => exact parks.elim

/-- **The step lemma.** -/
theorem desk_step (holds : DeskInvariant before) (step : DeskCall.Step tools before label after)
    (spares : label.2.Spares tools label.1 before) : DeskInvariant after ∧ HeldBack before label after := by
  obtain ⟨admissible, isLeft, isParked⟩ := step
  have heldBack : HeldBack before label after := by
    intro id wasParked unreleased
    rw [isLeft]
    exact noGain_of_call holds admissible spares wasParked unreleased
  refine ⟨⟨?_, fun id parkedNow => ?_⟩, heldBack⟩
  · rw [isLeft]
    exact DeskCall.addressed holds.addressed admissible
  · rcases (isParked id).mp parkedNow with parks | ⟨wasParked, unreleased⟩
    · rw [isLeft]
      exact parks_notEmbedded holds.addressed.sound admissible parks
    · obtain ⟨fits, notEmbedded⟩ := holds.parked id wasParked
      exact ⟨fits, notEmbedded ∘ (heldBack id wasParked unreleased).2⟩

/-- **Along every run in which no reset gets to embed a parked book**, a parked book gains neither rows nor
the status `Embedded` but by a call that may release it. -/
theorem parked_stays_held {trace : List ((Binary × DeskCall) × Desk)}
    (run : Along (DeskCall.Step tools) Desk.empty trace)
    (spares : Along (fun before label _ => label.2.Spares tools label.1 before) Desk.empty trace) :
    Along HeldBack Desk.empty trace := by
  have initial : DeskInvariant Desk.empty := ⟨empty_addressed, fun _ => False.elim⟩
  have steps := (run.and spares).invariant DeskInvariant
    (fun _ _ _ holds both => desk_step holds both.1 both.2) initial
  exact steps.mono fun _ _ _ holds => holds.2.2

end Desk

/-! ### A book that is parked -/

/-- The desk after a call. -/
def Desk.next (desk : Desk) (tools : Toolchain) (label : Binary × DeskCall) : Desk where
  library := label.2.left tools label.1 desk.library
  parked := fun id => label.2.Parks tools label.1 desk.library id ∨
    desk.parked id ∧ ¬ label.2.Releases desk.library id

/-- An ingest of one file whose audit asks for work, held for it. -/
def heldOne : Binary × DeskCall := (⟨1, 1, 1⟩, .book (.ingest { ingestOne with held := true }))

/-- The desk with that book parked. -/
def parkedOne : Desk := Desk.empty.next wholeTools heldOne

theorem heldOne_step : DeskCall.Step wholeTools Desk.empty heldOne parkedOne := by
  have fits : PartitionIdx.Fits ⟨1⟩ := by decide
  exact ⟨⟨fits, fun _ member => absurd member List.not_mem_nil⟩, rfl, fun _ => Iff.rfl⟩

theorem parkedOne_parked : parkedOne.parked 1 := by
  refine Or.inl ⟨rfl, ⟨1, PartitionIdx.root ⟨1⟩, 2, 1, 0, false, false, false, false⟩, ?_, ⟨rfl, rfl⟩, rfl⟩
  decide

/-- An ordinary ingest, and the ingest of a second file, held for work. -/
def freeOne : Binary × DeskCall := (⟨1, 1, 1⟩, .book (.ingest ingestOne))

def heldTwo : Binary × DeskCall := (⟨1, 1, 1⟩, .book (.ingest { ingestNext with held := true }))

/-- A fresh reset that embeds the first book it lists and fails to read the tree of the second. -/
def resetFirst : Binary × DeskCall :=
  (⟨1, 1, 1⟩, .book (.reset false { smoothReset with readTree := fun i => if i = 0 then .done else .failed }))

def freeDesk : Desk := Desk.empty.next wholeTools freeOne

def parkedTwo : Desk := freeDesk.next wholeTools heldTwo

def resetDesk : Desk := parkedTwo.next wholeTools resetFirst

/-- Only the second book is parked. -/
theorem parkedTwo_parked {id : Int} (isParked : parkedTwo.parked id) : id = 2 := by
  rcases isParked with ⟨_, report, returned, _, rfl⟩ | ⟨parks | ⟨none, _⟩, _⟩
  · have isReport : (ingestBook wholeTools ⟨1, 1, 1⟩ { ingestNext with held := true }).ending
        freeDesk.library = .value ⟨2, PartitionIdx.root ⟨2⟩, 2, 1, 0, false, false, false, false⟩ := by
      decide
    obtain rfl := Ending.value.inj (isReport.symm.trans returned)
    rfl
  · exact absurd parks.1 Bool.noConfusion
  · exact none.elim

/-- The reset lists the free book before the parked one, and stops between them. -/
theorem resetFirst_spares : resetFirst.2.Spares wholeTools resetFirst.1 parkedTwo := by
  rintro id isParked ⟨start, first, intake, rest, _, _, _, cleared, _, listed, isId, _, reads, _⟩
  obtain rfl := parkedTwo_parked isParked
  have isFirst : first = [] := by
    rw [← List.length_eq_zero_iff]
    by_contra later
    exact absurd ((if_neg later).symm.trans reads) (by decide)
  have head : (start.intakesWithStatus .extracted).head?.map (·.intakeId) = some 1 := by
    rw [show start = _ from (congrArg Prod.snd cleared).symm]
    decide
  rw [listed, isFirst] at head
  exact absurd (isId.symm.trans (Option.some.inj head)) (by decide)

theorem parked_stays_held_resetFirst :
    Along HeldBack Desk.empty [(freeOne, freeDesk), (heldTwo, parkedTwo), (resetFirst, resetDesk)] ∧
      resetDesk.parked 2 ∧ resetDesk.library.intakes.map (·.status) = [.embedded, .extracted] := by
  have first : PartitionIdx.Fits ⟨1⟩ := by decide
  have second : PartitionIdx.Fits ⟨2⟩ := by decide
  have fresh : ∀ intake ∈ freeDesk.library.intakes, intake.intakeId ≠ 2 := by decide
  have run : Along (DeskCall.Step wholeTools) Desk.empty
      [(freeOne, freeDesk), (heldTwo, parkedTwo), (resetFirst, resetDesk)] :=
    ⟨⟨⟨first, fun _ member => absurd member List.not_mem_nil⟩, rfl, fun _ => Iff.rfl⟩,
      ⟨⟨second, fresh⟩, rfl, fun _ => Iff.rfl⟩, ⟨trivial, rfl, fun _ => Iff.rfl⟩, trivial⟩
  have parked : parkedTwo.parked 2 := by
    refine Or.inl ⟨rfl, ⟨2, PartitionIdx.root ⟨2⟩, 2, 1, 0, false, false, false, false⟩, ?_, ⟨rfl, rfl⟩, rfl⟩
    decide
  refine ⟨parked_stays_held run ⟨trivial, trivial, resetFirst_spares, trivial⟩, ?_, by decide⟩
  exact Or.inr ⟨parked, fun releases => releases.elim⟩

/-- A fresh reset in which everything goes through. -/
def resetAll : Binary × DeskCall := (⟨1, 1, 1⟩, .book (.reset false smoothReset))

/-- **A reset releases the parked book**: it is `Extracted`, so the reset embeds it. -/
theorem parked_embedded_by_reset : ¬ ∀ (tools : Toolchain) (trace : List ((Binary × DeskCall) × Desk)),
    Along (DeskCall.Step tools) Desk.empty trace → Along HeldBack Desk.empty trace := by
  intro always
  have held := (always wholeTools
    [(heldOne, parkedOne), (resetAll, parkedOne.next wholeTools resetAll)]
    ⟨heldOne_step, ⟨trivial, rfl, fun _ => Iff.rfl⟩, trivial⟩).2.1
  have gains := (held 1 parkedOne_parked fun releases => releases.elim).2
  have isEmbedded : ⟨1, "sha", .embedded, some "epub", 1, some (.envelope 1), none⟩ ∈
      (parkedOne.next wholeTools resetAll).library.intakes := by decide
  obtain ⟨intake, member, -, wasEmbedded⟩ := gains ⟨_, isEmbedded, rfl, rfl⟩
  have isExtracted : ∀ intake ∈ parkedOne.library.intakes, intake.status = .extracted := by decide
  rw [isExtracted intake member] at wasEmbedded
  cases wasEmbedded

end Bookrack.Ingest
