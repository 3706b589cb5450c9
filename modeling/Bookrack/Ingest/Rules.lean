/-
Rules for the drivers of the book pipeline: what has to be shown of each write so that something holds of
the library however the driver ends.

* `ResumeRules`, **`resumeFromChunk_ends`** — for `resume_from_chunk`.
* `StageRules`, **`runStages_ends`** — for the stages of `ingest_book`, with an assertion for each stage.
* `IngestRules`, **`ingestBook_ends`** — for `ingest_book` around them.
-/

import Bookrack.Ingest.Stages

namespace Bookrack.Ingest

open Chunk (ChunkPlan)
open Corpus (Node)
open Prog

variable {tools : Toolchain} {binary : Binary} {id : Int} {library : Library}

/-! ### CHUNK and EMBED -/

/-- The EMBED run over the tree's plans did not return: the rows are as they were, or they were deleted and
those of the first plans written. -/
def Broken (tools : Toolchain) (binary : Binary) (id : Int) (run : EmbedRun) (before after : Library) : Prop :=
  Untouched before after ∨ ∃ plans written, planBookChunks tools binary (before.tree id) = some plans ∧
    run.Refilled binary id plans written before after ∧
    (run.Unbroken tools binary plans before → written.map (·.plan) = plans)

/-- It returned: there was no plan, or every plan has its row. -/
def Full (tools : Toolchain) (binary : Binary) (id : Int) (run : EmbedRun) (before after : Library) : Prop :=
  planBookChunks tools binary (before.tree id) = some [] ∧ after = before ∨
  ∃ plans written, planBookChunks tools binary (before.tree id) = some plans ∧
    run.Refilled binary id plans written before after ∧ written.map (·.plan) = plans

theorem Broken.local (fits : PartitionIdx.Fits ⟨id⟩) {run : EmbedRun} {after : Library}
    (broken : Broken tools binary id run library after) : Local id library after := by
  rcases broken with untouched | ⟨_, _, _, refilled, _⟩
  · exact local_untouched untouched
  · exact refilled.local fits

theorem Full.local (fits : PartitionIdx.Fits ⟨id⟩) {run : EmbedRun} {after : Library}
    (full : Full tools binary id run library after) : Local id library after := by
  rcases full with ⟨_, rfl⟩ | ⟨_, _, _, refilled, _⟩
  · exact (Local.frame id).refl after
  · exact refilled.local fits

theorem Broken.rest {run : EmbedRun} {after : Library} (broken : Broken tools binary id run library after) :
    after = { library with stamps := after.stamps, table := after.table } := by
  rcases broken with ⟨_, _, rfl, _⟩ | ⟨_, _, _, refilled, _⟩
  · rfl
  · exact refilled.rest

theorem Full.rest {run : EmbedRun} {after : Library} (full : Full tools binary id run library after) :
    after = { library with stamps := after.stamps, table := after.table } := by
  rcases full with ⟨_, rfl⟩ | ⟨_, _, _, refilled, _⟩
  · rfl
  · exact refilled.rest

/-- What to show of `resume_from_chunk`, started on a library. -/
structure ResumeRules (tools : Toolchain) (binary : Binary) (id : Int) (run : EmbedRun) (fates : ResumeFates)
    (start : Library) (Q : Library → Prop) : Prop where
  stop : Q start
  unread : fates.stateChunk = .done → Q (start.setState id ⟨"chunk", none⟩)
  broken : ∀ after, Broken tools binary id run start after → Q after
  brokenNoted : ∀ after, Broken tools binary id run start after → fates.stateFailed = .done →
    Q (after.setState id ⟨"embed", some run.config.model⟩)
  full : ∀ after, Full tools binary id run start after → Q after
  promoted : ∀ after, Full tools binary id run start after → fates.promote = .done →
    ¬ (fates.embeddedAt = .done ∧ fates.stateEmbedded = .done) → Q (after.setIntakeStatus id .embedded)
  finished : ∀ after, Full tools binary id run start after → fates.promote = .done →
    fates.stateEmbedded = .done →
    Q ((after.setIntakeStatus id .embedded).setState id ⟨"embed", some run.config.model⟩)

/-- **`resume_from_chunk` by its rules.** -/
theorem resumeFromChunk_ends (fits : PartitionIdx.Fits ⟨id⟩) (sound : library.Sound)
    {run : EmbedRun} {fates : ResumeFates} {Q : Library → Prop}
    (rules : ResumeRules tools binary id run fates library Q) :
    Ends (resumeFromChunk tools binary id run fates) library
      (fun _ after => Local id library after ∧ Q after) (fun _ after => Local id library after ∧ Q after)
      (fun after => Local id library after ∧ Q after) := by
  have frame := Local.frame id
  have stop : Local id library library ∧ Q library := ⟨frame.refl library, rules.stop⟩
  unfold resumeFromChunk
  rw [ends_bind]
  refine Ends.attempt (Ends.write (fun _ => ?_) (fun _ => ?_) fun _ => stop)
  swap
  · dsimp only
    rw [ends_bind]
    exact Ends.quietly (fun isDone => ⟨local_setState _ _, rules.unread isDone⟩) (fun _ => stop) fun _ => stop
  dsimp only
  rw [ends_bind, ends_read, ends_bind]
  refine Ends.unwrap (fun plans planned => ?_) fun _ => stop
  have isBroken : ∀ {after}, (Untouched library after ∨
      ∃ written, run.Refilled binary id plans written library after ∧
        (run.Unbroken tools binary plans library → written.map (·.plan) = plans)) →
      Broken tools binary id run library after := by
    refine Or.imp_right ?_
    rintro ⟨written, refilled⟩
    exact ⟨plans, written, planned, refilled⟩
  rw [ends_bind]
  refine Ends.attempt ((embedBookChunks_refills fits (planBookChunks_inBounds sound.placed fits planned)).mono
    ?_ ?_ ?_)
  · rintro report after returned
    have isFull : Full tools binary id run library after := by
      rcases returned with ⟨rfl, rfl⟩ | ⟨written, refilled⟩
      · exact .inl ⟨planned, rfl⟩
      · exact .inr ⟨plans, written, planned, refilled⟩
    have full : Local id library after ∧ Q after := ⟨isFull.local fits, rules.full after isFull⟩
    dsimp only
    rw [ends_bind]
    refine Ends.write (fun isPromoted => ?_) (fun _ => full) fun _ => full
    have promoted := frame.trans full.1 (local_setIntakeStatus after .embedded)
    have unfinished := rules.promoted after isFull isPromoted
    rw [ends_bind]
    refine Ends.write (fun _ => ?_)
      (fun isFailed => ⟨promoted, unfinished fun both => Fate.noConfusion (isFailed.symm.trans both.1)⟩)
      fun isCut => ⟨promoted, unfinished fun both => Fate.noConfusion (isCut.symm.trans both.1)⟩
    rw [ends_bind]
    refine Ends.quietly (fun isDone => ?_) (fun isFailed => ⟨promoted, unfinished fun both => ?_⟩)
      fun isCut => ⟨promoted, unfinished fun both => ?_⟩
    · exact ⟨frame.trans promoted (local_setState _ _), rules.finished after isFull isPromoted isDone⟩
    · exact Fate.noConfusion (isFailed.symm.trans both.2)
    · exact Fate.noConfusion (isCut.symm.trans both.2)
  · intro reason after early
    have broken : Local id library after ∧ Q after :=
      ⟨(isBroken early).local fits, rules.broken after (isBroken early)⟩
    dsimp only
    rw [ends_bind]
    refine Ends.quietly (fun isDone => ?_) (fun _ => broken) fun _ => broken
    exact ⟨frame.trans broken.1 (local_setState _ _), rules.brokenNoted after (isBroken early) isDone⟩
  · exact fun after early => ⟨(isBroken early).local fits, rules.broken after (isBroken early)⟩

/-- Nothing to show. -/
theorem ResumeRules.any (run : EmbedRun) (fates : ResumeFates) :
    ResumeRules tools binary id run fates library fun _ => True where
  stop := trivial
  unread := fun _ => trivial
  broken := fun _ _ => trivial
  brokenNoted := fun _ _ _ => trivial
  full := fun _ _ => trivial
  promoted := fun _ _ _ _ => trivial
  finished := fun _ _ _ _ => trivial

/-- **A resume concerns its own book.** -/
theorem resumeFromChunk_local (fits : PartitionIdx.Fits ⟨id⟩) (sound : library.Sound) (run : EmbedRun)
    (fates : ResumeFates) : Local id library ((resumeFromChunk tools binary id run fates).left library) :=
  (resumeFromChunk_ends fits sound (.any run fates)).left.1

/-! ### The stages of an ingest -/

/-- How far the stages have come. -/
inductive Stage
  | registered
  | demoted
  | built
  | noted
  | stamped
  | filed

/-- What to show of the stages of `ingest_book`: `P` is what is known at each stage. -/
structure StageRules (tools : Toolchain) (binary : Binary) (id : Int) (call : IngestCall)
    (extraction : Extracted) (P : Stage → Library → Prop) (Q : Library → Prop) : Prop where
  demote : ∀ before, P .registered before → call.fates.demote = .done →
    P .demoted (before.setIntakeStatus id .extracted)
  emptied : ∀ before after, P .demoted before →
    Emptied tools binary id extraction.content call.fates.tree before after → Q after
  built : ∀ before after tree, P .demoted before → call.fates.tree = .allDone →
    builtTree tools binary id extraction.content = some tree → Retree ⟨id⟩ tree before after → P .built after
  noted : ∀ before, P .built before → call.fates.parsedAt = .done → call.fates.stateStructure = .done →
    P .noted (before.setState id ⟨"structure", none⟩)
  unnoted : ∀ before, P .built before → call.fates.parsedAt = .done → call.fates.stateStructure = .failed →
    P .noted before
  stamped : ∀ before, P .noted before → call.fates.stamp = .done →
    P .stamped (before.setExtraction id extraction.adapter extraction.extractorVersion)
  filed : ∀ before after, P .stamped before →
    Filed id call.sourceSha extraction call.fates.envelope before after → P .filed after
  held : ∀ before, P .filed before → call.fates.stateHeld = .done → Q (before.setState id ⟨"metadata", none⟩)
  resume : ∀ before, P .filed before → call.held = false →
    ResumeRules tools binary id call.run call.fates.resume before Q
  stopBuilt : ∀ before, P .built before →
    ¬ (call.fates.parsedAt = .done ∧ call.fates.stateStructure ≠ .cut) → Q before
  stopNoted : ∀ before, P .noted before → call.fates.stamp ≠ .done → Q before
  stop : ∀ before, P .registered before ∨ P .demoted before ∨ P .filed before → Q before

/-- Nothing to show. -/
theorem StageRules.any (call : IngestCall) (extraction : Extracted) :
    StageRules tools binary id call extraction (fun _ _ => True) fun _ => True where
  demote := fun _ _ _ => trivial
  emptied := fun _ _ _ _ => trivial
  built := fun _ _ _ _ _ _ _ => trivial
  noted := fun _ _ _ _ => trivial
  unnoted := fun _ _ _ _ => trivial
  stamped := fun _ _ _ => trivial
  filed := fun _ _ _ _ => trivial
  held := fun _ _ _ => trivial
  resume := fun _ _ _ => .any call.run call.fates.resume
  stopBuilt := fun _ _ _ => trivial
  stopNoted := fun _ _ _ => trivial
  stop := fun _ _ => trivial

/-- The report of a run of the stages. -/
def IngestReport.Staged (report : IngestReport) : Prop := report.noOp = false ∧ report.restamped = false

variable {call : IngestCall} {extraction : Extracted}

theorem registerIntake_ends {sourceSha : String} {newId : Int} {fate : Fate}
    {post : Int × Bool → Library → Prop} {fail : PipelineError → Library → Prop} {cut : Library → Prop}
    (done : fate = .done → post (library.targetId sourceSha newId,
        (library.intakeBySha sourceSha).isNone) (library.registered sourceSha newId))
    (failed : ∀ reason, fail reason library) (isCut : cut library) :
    Ends (registerIntake sourceSha newId fate) library post fail cut := by
  unfold registerIntake
  rw [ends_bind, ends_read]
  unfold Library.targetId Library.registered at done
  cases isKnown : library.intakeBySha sourceSha with
  | none =>
    rw [isKnown] at done
    dsimp only
    rw [ends_bind]
    exact Ends.write done (fun _ => failed _) fun _ => isCut
  | some intake =>
    rw [isKnown] at done
    dsimp only
    rw [ends_bind]
    exact Ends.write done (fun _ => failed _) fun _ => isCut

/-- What SQLite promises of the id it hands out. -/
structure IngestCall.Admissible (call : IngestCall) (library : Library) : Prop where
  fits : PartitionIdx.Fits ⟨call.newId⟩
  fresh : ∀ intake ∈ library.intakes, intake.intakeId ≠ call.newId

/-- The book an ingest is about. -/
def IngestCall.target (call : IngestCall) (library : Library) : Int :=
  library.targetId call.sourceSha call.newId

theorem mem_of_intakeBySha {sha : String} {intake : Intake} (known : library.intakeBySha sha = some intake) :
    intake ∈ library.intakes ∧ intake.sourceSha256 = sha :=
  ⟨List.mem_of_find?_eq_some known, by simpa using List.find?_some known⟩

theorem target_of_known {intake : Intake} (known : library.intakeBySha call.sourceSha = some intake) :
    call.target library = intake.intakeId := by
  rw [IngestCall.target, Library.targetId, known]
  rfl

theorem target_of_new (new : library.intakeBySha call.sourceSha = none) : call.target library = call.newId := by
  rw [IngestCall.target, Library.targetId, new]
  rfl

theorem IngestCall.Admissible.target_fits (admissible : call.Admissible library) (sound : library.Sound) :
    PartitionIdx.Fits ⟨call.target library⟩ := by
  cases known : library.intakeBySha call.sourceSha with
  | none =>
    rw [target_of_new known]
    exact admissible.fits
  | some intake =>
    rw [target_of_known known]
    exact sound.fits intake (mem_of_intakeBySha known).1

theorem IngestCall.Admissible.local_registered (admissible : call.Admissible library) :
    Local (call.target library) library (library.registered call.sourceSha call.newId) := by
  unfold Library.registered
  cases known : library.intakeBySha call.sourceSha with
  | none =>
    rw [target_of_new known]
    exact local_insertIntake library call.sourceSha admissible.fits admissible.fresh
  | some intake => exact (Local.frame _).refl library

/-- **The stages of `ingest_book` by their rules.** -/
theorem runStages_ends {P : Stage → Library → Prop} {Q : Library → Prop} (sound : library.Sound)
    (admissible : call.Admissible library)
    (rules : StageRules tools binary (call.target library) call extraction P Q) (unregistered : Q library)
    (registered : P .registered (library.registered call.sourceSha call.newId)) :
    Ends (runStages tools binary call extraction) library
      (fun report after => report.Staged ∧ Local (call.target library) library after ∧ Q after)
      (fun _ after => Local (call.target library) library after ∧ Q after)
      (fun after => Local (call.target library) library after ∧ Q after) := by
  have fits := admissible.target_fits sound
  have isLocal := admissible.local_registered
  have stay : Local (call.target library) library library ∧ Q library := ⟨(Local.frame _).refl _, unregistered⟩
  unfold runStages
  rw [ends_bind]
  refine registerIntake_ends (fun _ => ?_) (fun _ => stay) stay
  rw [show library.targetId call.sourceSha call.newId = call.target library from rfl]
  generalize call.target library = id at *
  dsimp only
  have frame := Local.frame id
  -- a stop wherever it is allowed
  have stops : ∀ {before after}, Local id library before → Local id before after → Q after →
      Local id library after ∧ Q after := fun one two holds => ⟨frame.trans one two, holds⟩
  have stop : ∀ {before}, Local id library before → P .registered before ∨ P .demoted before ∨ P .filed before →
      Local id library before ∧ Q before := fun one known => ⟨one, rules.stop _ known⟩
  rw [ends_bind]
  refine Ends.write (fun isDemoted => ?_) (fun _ => stop isLocal (.inl registered))
    fun _ => stop isLocal (.inl registered)
  have demoted := rules.demote _ registered isDemoted
  have isLocal := frame.trans isLocal (local_setIntakeStatus _ .extracted)
  rw [ends_bind]
  refine (ingestStructure_ends fits (isLocal sound).1.placed extraction.content call.now call.fates.tree).mono
    ?_ ?_ ?_
  rotate_left
  · rintro _ after (rfl | emptied)
    · exact stop isLocal (.inr (.inl demoted))
    · exact stops isLocal emptied.retree.local (rules.emptied _ _ demoted emptied)
  · rintro after (rfl | emptied)
    · exact stop isLocal (.inr (.inl demoted))
    · exact stops isLocal emptied.retree.local (rules.emptied _ _ demoted emptied)
  rintro structured after ⟨all, tree, isTree, retree⟩
  have built := rules.built _ _ tree demoted all isTree retree
  have isLocal := frame.trans isLocal retree.local
  have stopBuilt := rules.stopBuilt _ built
  rw [ends_bind]
  refine Ends.write (fun isParsed => ?_)
    (fun isFailed => ⟨isLocal, stopBuilt fun both => Fate.noConfusion (isFailed.symm.trans both.1)⟩)
    fun isCut => ⟨isLocal, stopBuilt fun both => Fate.noConfusion (isCut.symm.trans both.1)⟩
  rw [ends_bind]
  -- from the stamp on
  have rest : ∀ before, Local id library before → P .noted before → Ends (do
      write call.fates.stamp .catalog
        (Library.setExtraction id extraction.adapter extraction.extractorVersion)
      let _ ← storeEnvelope id call.sourceSha extraction call.fates.envelope
      let report := fun chunksWritten : Nat => ({
        intakeId := id
        bookRootId := structured.bookRootId
        nodesWritten := structured.nodesWritten
        proseLeaves := structured.proseLeaves
        chunksWritten
        alreadyRegistered := !(library.intakeBySha call.sourceSha).isNone
        noOp := false
        forced := call.force
        restamped := false } : IngestReport)
      if call.held then
        let _ ← quietly call.fates.stateHeld (Library.setState id ⟨"metadata", none⟩)
        pure (report 0)
      else
        let embedded ← resumeFromChunk tools binary id call.run call.fates.resume
        pure (report embedded.chunksWritten)) before
      (fun report after => report.Staged ∧ Local id library after ∧ Q after)
      (fun _ after => Local id library after ∧ Q after) (fun after => Local id library after ∧ Q after) := by
    intro before isLocal noted
    have stopNoted := rules.stopNoted _ noted
    rw [ends_bind]
    refine Ends.write (fun isStamped => ?_) (fun isFailed => ⟨isLocal, stopNoted (by simp [isFailed])⟩)
      fun isCut => ⟨isLocal, stopNoted (by simp [isCut])⟩
    have stamped := rules.stamped _ noted isStamped
    have isLocal := frame.trans isLocal (local_setExtraction before extraction.adapter
      extraction.extractorVersion)
    rw [ends_bind]
    refine (storeEnvelope_ends call.sourceSha extraction call.fates.envelope).mono ?_ (fun _ _ => False.elim) ?_
    swap
    · exact fun after filed => stop (frame.trans isLocal filed.local)
        (.inr (.inr (rules.filed _ _ stamped filed)))
    rintro written after ⟨filed, _⟩
    have isFiled := rules.filed _ _ stamped filed
    have isLocal := frame.trans isLocal filed.local
    have stop := stop isLocal (.inr (.inr isFiled))
    dsimp only
    split_ifs with isHeld
    · rw [ends_bind]
      refine Ends.quietly (fun isDone => ⟨⟨rfl, rfl⟩, ?_⟩) (fun _ => ⟨⟨rfl, rfl⟩, stop⟩) fun _ => stop
      exact stops isLocal (local_setState _ _) (rules.held _ isFiled isDone)
    · rw [ends_bind]
      refine (resumeFromChunk_ends fits (isLocal sound).1
        (rules.resume _ isFiled (by simpa using isHeld))).mono ?_ ?_ ?_
      · exact fun _ after holds => ⟨⟨rfl, rfl⟩, stops isLocal holds.1 holds.2⟩
      · exact fun _ after holds => stops isLocal holds.1 holds.2
      · exact fun after holds => stops isLocal holds.1 holds.2
  refine Ends.quietly (fun isDone => ?_) (fun isFailed => ?_)
    fun isCut => ⟨isLocal, stopBuilt fun both => both.2 isCut⟩
  · exact rest _ (frame.trans isLocal (local_setState _ _)) (rules.noted _ built isParsed isDone)
  · exact rest _ isLocal (rules.unnoted _ built isParsed isFailed)

/-! ### Around the stages -/

/-- The scan of an unreadable file was registered: a new intake, not `Embedded`, and its source. -/
structure Anchored (newId : Int) (before after : Library) : Prop where
  rest : after = { before with intakes := after.intakes, files := after.files }
  status : ∀ intake ∈ after.intakes, intake.intakeId = newId → intake.status ≠ .embedded
  paths : ∀ intake ∈ after.intakes, intake.intakeId = newId → ∀ name, intake.storedPath = some name →
    name = .source newId
  files : ∀ name, name ≠ .source newId → after.files name = before.files name
  source : after.files (.source newId) = before.files (.source newId) ∨
    after.files (.source newId) = some .other
  isLocal : Local newId before after

section Anchoring

variable {newId : Int} {before after : Library}

theorem Anchored.update {change : Intake → Intake}
    (keepsId : ∀ intake : Intake, (change intake).intakeId = intake.intakeId)
    (keepsStatus : ∀ intake : Intake, (change intake).status = .embedded → intake.status = .embedded)
    (keepsPath : ∀ (intake : Intake) name, (change intake).storedPath = some name →
      intake.storedPath = some name ∨ name = .source newId)
    (anchored : Anchored newId before after) : Anchored newId before (after.updateIntake newId change) where
  rest := by
    rw [anchored.rest]
    rfl
  status := by
    intro intake member isNew isEmbedded
    obtain ⟨old, isOld, rfl⟩ := (mem_updateIntake after).mp member
    split_ifs at isNew isEmbedded with isId
    · exact anchored.status old isOld isId (keepsStatus old isEmbedded)
    · exact isId isNew
  paths := by
    intro intake member isNew name isPath
    obtain ⟨old, isOld, rfl⟩ := (mem_updateIntake after).mp member
    split_ifs at isNew isPath with isId
    · exact (keepsPath old name isPath).elim (anchored.paths old isOld isId name) fun isSource => isSource
    · exact absurd isNew isId
  files := anchored.files
  source := anchored.source
  isLocal := (Local.frame newId).trans anchored.isLocal (local_updateIntake after keepsId)

theorem Anchored.putSource (anchored : Anchored newId before after) :
    Anchored newId before (after.putFile (.source newId) .other) where
  rest := by
    rw [anchored.rest]
    rfl
  status := anchored.status
  paths := anchored.paths
  files := fun name isOther => (Library.files_putFile_ne _ _ isOther).trans (anchored.files name isOther)
  source := .inr (Library.files_putFile_self _ _ _)
  isLocal := (Local.frame newId).trans anchored.isLocal (local_putFile after rfl .other)

theorem Anchored.insert (sourceSha : String) (fits : PartitionIdx.Fits ⟨newId⟩)
    (fresh : ∀ intake ∈ before.intakes, intake.intakeId ≠ newId) :
    Anchored newId before (before.insertIntake newId sourceSha) where
  rest := rfl
  status := by
    intro intake member isNew
    rcases List.mem_append.mp member with isOld | isHere
    · exact absurd isNew (fresh intake isOld)
    · rw [List.mem_singleton.mp isHere]
      exact IntakeStatus.noConfusion
  paths := by
    intro intake member isNew name isPath
    rcases List.mem_append.mp member with isOld | isHere
    · exact absurd isNew (fresh intake isOld)
    · rw [List.mem_singleton.mp isHere] at isPath
      cases isPath
  files := fun _ _ => rfl
  source := .inl rfl
  isLocal := local_insertIntake before sourceSha fits fresh

end Anchoring

theorem anchorScan_ends (admissible : call.Admissible library) {reason : String} {Q : Library → Prop}
    (stay : Q library) (anchored : ∀ after, library.intakeBySha call.sourceSha = none →
      Anchored call.newId library after → Q after)
    {post : IngestReport → Library → Prop} :
    Ends (anchorScan call reason) library post
      (fun _ after => Local (call.target library) library after ∧ Q after)
      (fun after => Local (call.target library) library after ∧ Q after) := by
  have stays : Local (call.target library) library library ∧ Q library := ⟨(Local.frame _).refl _, stay⟩
  unfold anchorScan
  rw [ends_bind]
  refine registerIntake_ends (fun _ => ?_) (fun _ => stays) stays
  dsimp only
  unfold Library.targetId Library.registered
  cases known : library.intakeBySha call.sourceSha with
  | some intake => exact stays
  | none =>
    rw [target_of_new known]
    have isAnchored : ∀ {after}, Anchored call.newId library after →
        Local call.newId library after ∧ Q after := fun anchors => ⟨anchors.isLocal, anchored _ known anchors⟩
    have inserted := Anchored.insert call.sourceSha admissible.fits admissible.fresh
    have updated : Anchored call.newId library
        ((library.insertIntake call.newId call.sourceSha).setIntakeStatus call.newId .needsOcr) :=
      inserted.update (fun _ => rfl) (fun _ => IntakeStatus.noConfusion) fun _ _ => .inl
    have stored := updated.putSource
    rw [Option.isNone_none, if_pos rfl, ends_bind]
    refine Ends.write (fun _ => ?_) (fun _ => isAnchored inserted) fun _ => isAnchored inserted
    rw [ends_bind]
    refine Ends.write (fun _ => ?_) (fun _ => isAnchored updated) fun _ => isAnchored updated
    rw [ends_bind]
    refine Ends.write (fun _ => ?_) (fun _ => isAnchored updated) fun _ => isAnchored updated
    rw [ends_bind]
    refine Ends.write (fun _ => ?_) (fun _ => isAnchored stored) fun _ => isAnchored stored
    exact isAnchored (stored.update (fun _ => rfl) (fun _ isEmbedded => isEmbedded)
      fun _ _ isPath => .inr (Option.some.inj isPath).symm)

/-- The fresh extraction matches the envelope on file apart from its version, and the run with it is not
forced. -/
structure Compared (binary : Binary) (call : IngestCall) (library : Library) (intake : Intake)
    (extraction : Extracted) : Prop where
  unforced : call.force = false
  onFile : onFile binary library call.sourceSha call.run.config.model = .extractorBehind intake
  extract : call.extract = .extracted extraction
  unchanged : compareEnvelope intake extraction (library.readEnvelope intake.intakeId) = .unchanged

theorem known_of_behind {sourceSha model : String} {intake : Intake}
    (behind : onFile binary library sourceSha model = .extractorBehind intake) :
    library.intakeBySha sourceSha = some intake := by
  unfold onFile at behind
  cases known : library.intakeBySha sourceSha with
  | none =>
    rw [known] at behind
    cases behind
  | some found =>
    simp only [known] at behind
    repeat' split at behind
    all_goals cases behind
    rfl

/-- A book whose extractor alone is behind is `Embedded`, with a model on its state. -/
theorem behind_embedded {sourceSha model : String} {intake : Intake}
    (behind : onFile binary library sourceSha model = .extractorBehind intake) :
    library.IsEmbedded intake.intakeId ∧ library.modelOf intake.intakeId ≠ none := by
  have known := known_of_behind behind
  unfold onFile at behind
  simp only [known] at behind
  have isEmbedded : intake.status = .embedded := by
    by_contra notEmbedded
    rw [if_pos notEmbedded] at behind
    cases behind
  rw [if_neg (not_not.mpr isEmbedded)] at behind
  refine ⟨⟨intake, (mem_of_intakeBySha known).1, rfl, isEmbedded⟩, ?_⟩
  cases isState : library.states intake.intakeId with
  | none =>
    rw [isState] at behind
    cases behind
  | some state =>
    rw [isState] at behind
    dsimp only at behind
    split_ifs at behind with otherModel
    rw [Library.modelOf, isState, Option.bind_some, not_not.mp otherModel]
    exact Option.some_ne_none _

/-- What to show of `ingest_book` around its stages; `P` is what is known at each stage. -/
structure IngestRules (tools : Toolchain) (binary : Binary) (call : IngestCall) (library : Library)
    (P : Extracted → Stage → Library → Prop) (post : IngestReport → Library → Prop) (Q : Library → Prop) :
    Prop where
  stay : Q library
  current : ∀ id, call.force = false →
    onFile binary library call.sourceSha call.run.config.model = .current id →
    post (.untouched id true false) library
  anchored : ∀ after, library.intakeBySha call.sourceSha = none → Anchored call.newId library after → Q after
  filed : ∀ intake extraction after, Compared binary call library intake extraction →
    Filed intake.intakeId call.sourceSha extraction call.fates.restamp.store library after → Q after
  restamped : ∀ intake extraction after, Compared binary call library intake extraction →
    Filed intake.intakeId call.sourceSha extraction call.fates.restamp.store library after →
    after.files (.envelope intake.intakeId) =
      some (.envelope ⟨intake.intakeId, call.sourceSha, extraction⟩) →
    Q (after.setExtraction intake.intakeId extraction.adapter extraction.extractorVersion) ∧
      post (.untouched intake.intakeId false true)
        (after.setExtraction intake.intakeId extraction.adapter extraction.extractorVersion)
  stages : ∀ extraction, call.extract = .extracted extraction →
    StageRules tools binary (call.target library) call extraction (P extraction) Q
  registered : ∀ extraction, call.extract = .extracted extraction →
    P extraction .registered (library.registered call.sourceSha call.newId)
  refiled : ∀ intake extraction after, Compared binary call library intake extraction →
    Filed intake.intakeId call.sourceSha extraction call.fates.restamp.store library after →
    after.intakes = library.intakes → P extraction .registered after
  staged : ∀ report after, report.Staged → Q after → post report after

/-- **`ingest_book` by its rules.** -/
theorem ingestBook_ends (sound : library.Sound) (admissible : call.Admissible library)
    {P : Extracted → Stage → Library → Prop} {post : IngestReport → Library → Prop} {Q : Library → Prop}
    (rules : IngestRules tools binary call library P post Q) :
    Ends (ingestBook tools binary call) library
      (fun report after => Local (call.target library) library after ∧ post report after)
      (fun _ after => Local (call.target library) library after ∧ Q after)
      (fun after => Local (call.target library) library after ∧ Q after) := by
  have frame := Local.frame (call.target library)
  have stay : Local (call.target library) library library ∧ Q library := ⟨frame.refl _, rules.stay⟩
  -- the stages, from the library as it was found
  have staged : ∀ extraction, call.extract = .extracted extraction →
      Ends (runStages tools binary call extraction) library
        (fun report after => Local (call.target library) library after ∧ post report after)
        (fun _ after => Local (call.target library) library after ∧ Q after)
        (fun after => Local (call.target library) library after ∧ Q after) := by
    intro extraction isExtract
    refine (runStages_ends sound admissible (rules.stages extraction isExtract) rules.stay
      (rules.registered extraction isExtract)).mono ?_ (fun _ _ holds => holds) fun _ holds => holds
    exact fun report after holds => ⟨holds.2.1, rules.staged report after holds.1 holds.2.2⟩
  -- a run in which no envelope is compared
  have whole : Ends (extractAndRun tools binary call none) library
      (fun report after => Local (call.target library) library after ∧ post report after)
      (fun _ after => Local (call.target library) library after ∧ Q after)
      (fun after => Local (call.target library) library after ∧ Q after) := by
    unfold extractAndRun
    cases isExtract : call.extract with
    | failed => exact stay
    | needsOcr reason => exact anchorScan_ends admissible rules.stay rules.anchored
    | extracted extraction => exact staged extraction isExtract
  unfold ingestBook
  split_ifs with isForced
  · exact whole
  rw [Bool.not_eq_true] at isForced
  rw [ends_bind]
  refine Ends.write (fun _ => ?_) (fun _ => stay) fun _ => stay
  rw [ends_bind, ends_read]
  cases isOnFile : onFile binary library call.sourceSha call.run.config.model with
  | rerun => exact whole
  | current intakeId => exact ⟨frame.refl _, rules.current intakeId isForced isOnFile⟩
  | extractorBehind intake =>
    dsimp only
    unfold extractAndRun
    cases isExtract : call.extract with
    | failed => exact stay
    | needsOcr reason => exact anchorScan_ends admissible rules.stay rules.anchored
    | extracted extraction =>
      dsimp only
      have staged := staged extraction isExtract
      rw [ends_bind]
      unfold restampIfUnchanged checkEnvelope
      rw [ends_bind, ends_bind]
      refine Ends.attempt (Ends.write (fun _ => ?_) (fun _ => staged) fun _ => stay)
      dsimp only
      rw [ends_bind, ends_read]
      cases isCheck : compareEnvelope intake extraction (library.readEnvelope intake.intakeId) with
      | unchanged =>
        have compared : Compared binary call library intake extraction :=
          ⟨isForced, isOnFile, isExtract, isCheck⟩
        have isTarget := target_of_known (known_of_behind isOnFile)
        have filed : ∀ {after}, Filed intake.intakeId call.sourceSha extraction call.fates.restamp.store library
            after → Local (call.target library) library after ∧ Q after := by
          intro after isFiled
          refine ⟨?_, rules.filed intake extraction after compared isFiled⟩
          rw [isTarget]
          exact isFiled.local
        dsimp only
        rw [ends_bind]
        refine (storeEnvelope_ends call.sourceSha extraction call.fates.restamp.store).mono ?_
          (fun _ _ => False.elim) fun _ => filed
        rintro (_ | _) after ⟨isFiled, isWritten, isFailed⟩
        · -- the envelope could not be written: a full run follows
          obtain ⟨_, sameIntakes⟩ := isFailed rfl
          have sameTarget : call.target after = call.target library := by
            rw [IngestCall.target, IngestCall.target, Library.targetId, Library.targetId, Library.intakeBySha,
              Library.intakeBySha, sameIntakes]
          have isLocal := (filed isFiled).1
          have admissible' : call.Admissible after := ⟨admissible.fits, sameIntakes ▸ admissible.fresh⟩
          have isRegistered : after.registered call.sourceSha call.newId = after := by
            rw [Library.registered, Library.intakeBySha, sameIntakes, ← Library.intakeBySha,
              known_of_behind isOnFile]
          have rest := rules.stages extraction isExtract
          rw [← sameTarget] at rest
          refine (runStages_ends (isLocal sound).1 admissible' rest (filed isFiled).2 ?_).mono ?_ ?_ ?_
          · rw [isRegistered]
            exact rules.refiled intake extraction after compared isFiled sameIntakes
          · intro report last holds
            rw [sameTarget] at holds
            exact ⟨frame.trans isLocal holds.2.1, rules.staged report last holds.1 holds.2.2⟩
          · intro _ last holds
            rw [sameTarget] at holds
            exact ⟨frame.trans isLocal holds.1, holds.2⟩
          · intro last holds
            rw [sameTarget] at holds
            exact ⟨frame.trans isLocal holds.1, holds.2⟩
        · have stop := filed isFiled
          obtain ⟨stamped, returned⟩ := rules.restamped intake extraction after compared isFiled
            (isWritten rfl).2
          have isLocal : Local (call.target library) library
              (after.setExtraction intake.intakeId extraction.adapter extraction.extractorVersion) := by
            refine frame.trans stop.1 ?_
            rw [isTarget]
            exact local_setExtraction after extraction.adapter extraction.extractorVersion
          rw [if_pos rfl, ends_pure]
          dsimp only
          rw [ends_bind]
          refine Ends.write (fun _ => ?_) (fun _ => stop) fun _ => stop
          rw [ends_bind]
          exact Ends.write (fun _ => ⟨isLocal, returned⟩) (fun _ => ⟨isLocal, stamped⟩) fun _ =>
            ⟨isLocal, stamped⟩
      | missing => exact staged
      | unreadable => exact staged
      | mismatched => exact staged
      | outdated => exact staged
      | changed => exact staged
      | unwritable => exact staged

end Bookrack.Ingest
