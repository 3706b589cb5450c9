/-
The maintenance drivers of the book pipeline (`ingest/src/reset.rs`, `ingest/src/rebuild.rs`), as programs
over a `Library`, and their rules.

* `Demoted`, **`dropVectors_ends`** — the destructive steps of a fresh reset, and how far the demotions came.
* `rechunkOne_ends`, `rebuildOne_ends` — one turn of the loop of a reset, and of a rebuild.
-/

import Bookrack.Ingest.Rules

namespace Bookrack.Ingest

open Prog

/-! ### Reset -/

/-- What one reset meets: the fates of its own reads and writes, those of a loop by position, and the EMBED
run of each target. -/
structure ResetRun where
  clearStamps : Fate
  dropTable : Fate
  removeSidecar : Fate
  listEmbedded : Fate
  demote : Nat → Fate
  listExtracted : Fate
  readTree : Nat → Fate
  embed : Nat → EmbedRun
  promote : Nat → Fate

/-- `ResetReport`. -/
structure ResetReport where
  intakesReembedded : Nat
  chunksWritten : Nat
  skippedEmpty : List Int
  deriving DecidableEq, Repr

/-- The destructive steps of a fresh reset. -/
def dropVectors (run : ResetRun) : Prog Library PipelineError Unit := do
  write run.clearStamps .corpus (Library.setStamps none)
  write run.dropTable .vectors Library.dropTable
  write run.removeSidecar .vectors fun library => library
  write run.listEmbedded .catalog fun library => library
  let embedded ← read (·.intakesWithStatus .embedded)
  loop embedded () fun position intake _ =>
    write (run.demote position) .catalog (Library.setIntakeStatus intake.intakeId .extracted)

section Drivers

variable (tools : Toolchain) (binary : Binary)

/-- One turn of the build loop of `reset_and_rechunk`. -/
def rechunkOne (run : ResetRun) (position : Nat) (intake : Intake) (report : ResetReport) :
    Prog Library PipelineError ResetReport := do
  write (run.readTree position) .corpus fun library => library
  let nodes ← read (·.tree intake.intakeId)
  let plans ← unwrap (planBookChunks tools binary nodes)
  if plans.isEmpty then pure { report with skippedEmpty := report.skippedEmpty ++ [intake.intakeId] }
  else
    let embedded ← embedBookChunks tools binary plans (run.embed position)
    write (run.promote position) .catalog (Library.setIntakeStatus intake.intakeId .embedded)
    pure { report with
      intakesReembedded := report.intakesReembedded + 1
      chunksWritten := report.chunksWritten + embedded.chunksWritten }

/-- `reset_and_rechunk`. -/
def resetAndRechunk (resume : Bool) (run : ResetRun) : Prog Library PipelineError ResetReport := do
  if resume then pure () else dropVectors run
  write run.listExtracted .catalog fun library => library
  let targets ← read (·.intakesWithStatus .extracted)
  loop targets ⟨0, 0, []⟩ (rechunkOne tools binary run)

/-! ### Rebuild -/

/-- `is_rebuildable`. -/
def isRebuildable : IntakeStatus → Bool
  | .extracted | .dedupHold | .embedded => true
  | .pending | .aborted | .needsOcr => false

/-- The targets of a rebuild. -/
def rebuildTargets : Binary → TargetParams → Library → Except PipelineError (List Intake) :=
  targetsOf isRebuildable .intakeNotEmbedded fun library =>
    (library.intakesWithStatus .extracted ++ library.intakesWithStatus .dedupHold ++
      library.intakesWithStatus .embedded).insertionSort fun one other => one.intakeId ≤ other.intakeId

/-- `RebuildReport`. -/
structure RebuildReport where
  rebuilt : List Int
  missingEnvelope : List Int
  mismatched : List Int
  failed : List (Int × PipelineError)
  deriving DecidableEq, Repr

/-- One call of `rebuild_from_intakes`, with its fates by position. -/
structure RebuildRun where
  params : TargetParams
  dryRun : Bool
  collect : Fate
  readEnvelope : Nat → Fate
  now : Nat → String
  tree : Nat → TreeFates

/-- One turn of the loop of `rebuild_from_intakes`. -/
def rebuildOne (run : RebuildRun) (position : Nat) (intake : Intake) (report : RebuildReport) :
    Prog Library PipelineError RebuildReport := do
  let missing := { report with missingEnvelope := report.missingEnvelope ++ [intake.intakeId] }
  let rebuilt := { report with rebuilt := report.rebuilt ++ [intake.intakeId] }
  let failed := fun reason => { report with failed := report.failed ++ [(intake.intakeId, reason)] }
  match intake.storedPath with
  | none => pure missing
  | some path =>
    match ← attempt (write (run.readEnvelope position) .io fun library => library) with
    | .error _ => pure missing
    | .ok () =>
      match ← read (·.readWithFallback path) with
      | none => pure missing
      | some .other => pure (failed .envelope)
      | some (.envelope envelope) =>
        if envelope.sourceSha256 ≠ intake.sourceSha256 then
          pure { report with mismatched := report.mismatched ++ [intake.intakeId] }
        else if run.dryRun then pure rebuilt
        else
          match ← attempt (ingestStructure tools binary intake.intakeId envelope.extraction.content
            (run.now position) (run.tree position)) with
          | .ok _ => pure rebuilt
          | .error reason => pure (failed reason)

/-- `rebuild_from_intakes`. -/
def rebuildFromIntakes (run : RebuildRun) : Prog Library PipelineError RebuildReport := do
  write run.collect .catalog fun library => library
  match ← read (rebuildTargets binary run.params) with
  | .error reason => throw reason
  | .ok targets => loop targets ⟨[], [], [], []⟩ (rebuildOne tools binary run)

end Drivers

/-! ### Rules -/

variable {tools : Toolchain} {binary : Binary} {library : Library}

/-- The library after the table was dropped and these intakes were demoted. -/
def demoted (ids : List Intake) (library : Library) : Library :=
  ids.foldl (fun library intake => library.setIntakeStatus intake.intakeId .extracted) library

section Demotion

variable {ids : List Intake}

/-- Demotions change the catalog only. -/
theorem demoted_eq : ∀ {library : Library},
    demoted ids library = { library with intakes := (demoted ids library).intakes } := by
  induction ids with
  | nil => exact rfl
  | cons intake rest ih =>
    intro library
    exact ih

theorem demoted_sound : ∀ {library : Library}, library.Sound → (demoted ids library).Sound := by
  induction ids with
  | nil => exact fun sound => sound
  | cons intake rest ih =>
    exact fun sound => ih (local_setIntakeStatus _ .extracted sound).1

theorem isEmbedded_demoted {id : Int} : ∀ {library : Library},
    (demoted ids library).IsEmbedded id ↔ id ∉ ids.map (·.intakeId) ∧ library.IsEmbedded id := by
  induction ids with
  | nil => exact fun {_} => ⟨fun isEmbedded => ⟨List.not_mem_nil, isEmbedded⟩, And.right⟩
  | cons intake rest ih =>
    intro library
    refine ih.trans ?_
    rw [isEmbedded_setIntakeStatus IntakeStatus.noConfusion, List.map_cons, List.mem_cons, not_or]
    tauto

end Demotion

/-- The library once the stamps are cleared and the table is dropped. -/
def bareLibrary (library : Library) : Library := (library.setStamps none).dropTable

/-- The reset gets to demoting the intake at this position, and does. -/
def ResetRun.Demotes (run : ResetRun) (position : Nat) : Prop :=
  run.removeSidecar = .done ∧ run.listEmbedded = .done ∧ ∀ earlier ≤ position, run.demote earlier = .done

/-- **The destructive steps of a reset**, and where they may stop. -/
theorem dropVectors_ends {run : ResetRun} {Q : Library → Prop} (stay : Q library)
    (cleared : run.clearStamps = .done → run.dropTable ≠ .done → Q (library.setStamps none))
    (stopped : ∀ count, run.clearStamps = .done → run.dropTable = .done →
      (∀ position ≥ count, ¬ run.Demotes position) →
      Q (demoted ((library.intakesWithStatus .embedded).take count) (bareLibrary library))) :
    Ends (dropVectors run) library
      (fun _ after => run.clearStamps = .done ∧ run.dropTable = .done ∧
        after = demoted (library.intakesWithStatus .embedded) (bareLibrary library))
      (fun _ => Q) Q := by
  unfold dropVectors
  rw [ends_bind]
  refine Ends.write (fun isCleared => ?_) (fun _ => stay) fun _ => stay
  rw [ends_bind]
  refine Ends.write (fun isDropped => ?_) (fun isFailed => cleared isCleared (by simp [isFailed]))
    fun isCut => cleared isCleared (by simp [isCut])
  have none := stopped 0 isCleared isDropped
  rw [ends_bind]
  refine Ends.write (fun isRemoved => ?_)
    (fun isFailed => none fun _ _ demotes => Fate.noConfusion (isFailed.symm.trans demotes.1))
    fun isCut => none fun _ _ demotes => Fate.noConfusion (isCut.symm.trans demotes.1)
  rw [ends_bind]
  refine Ends.write (fun isListed => ?_)
    (fun isFailed => none fun _ _ demotes => Fate.noConfusion (isFailed.symm.trans demotes.2.1))
    fun isCut => none fun _ _ demotes => Fate.noConfusion (isCut.symm.trans demotes.2.1)
  rw [ends_bind, ends_read]
  have looped : Ends (loop (library.intakesWithStatus .embedded) () fun position intake _ =>
      write (run.demote position) PipelineError.catalog (Library.setIntakeStatus intake.intakeId .extracted))
      (bareLibrary library)
      (fun _ after => after = demoted
        ((library.intakesWithStatus .embedded).take (library.intakesWithStatus .embedded).length)
        (bareLibrary library)) (fun _ => Q) Q := by
    refine Ends.loop (fun count after => after =
      demoted ((library.intakesWithStatus .embedded).take count) (bareLibrary library)) rfl ?_
    rintro position intake _ _ isIntake rfl
    have stop := fun notDone : run.demote position ≠ .done => stopped position isCleared isDropped
      fun _ later demotes => notDone (demotes.2.2 position later)
    refine Ends.write (fun _ => ?_) (fun isFailed => stop (by simp [isFailed])) fun isCut =>
      stop (by simp [isCut])
    obtain ⟨inside, rfl⟩ := List.getElem?_eq_some_iff.mp isIntake
    rw [List.take_succ_eq_append_getElem inside, demoted, demoted, List.foldl_append]
    rfl
  refine looped.mono ?_ (fun _ _ holds => holds) fun _ holds => holds
  intro _ after isAfter
  rw [List.take_length] at isAfter
  exact ⟨isCleared, isDropped, isAfter⟩

/-- **One turn of the build loop.** -/
theorem rechunkOne_ends {run : ResetRun} {position : Nat} {intake : Intake} {report : ResetReport}
    (fits : PartitionIdx.Fits ⟨intake.intakeId⟩) (sound : library.Sound) {P Q : Library → Prop}
    (stop : Q library) (skip : planBookChunks tools binary (library.tree intake.intakeId) = some [] → P library)
    (broken : ∀ after, Broken tools binary intake.intakeId (run.embed position) library after → Q after)
    (full : ∀ plans written after,
      planBookChunks tools binary (library.tree intake.intakeId) = some plans →
      (run.embed position).Refilled binary intake.intakeId plans written library after →
      written.map (·.plan) = plans →
        Q after ∧ (run.promote position = .done → P (after.setIntakeStatus intake.intakeId .embedded))) :
    Ends (rechunkOne tools binary run position intake report) library
      (fun _ after => Local intake.intakeId library after ∧ P after)
      (fun _ after => Local intake.intakeId library after ∧ Q after)
      (fun after => Local intake.intakeId library after ∧ Q after) := by
  have frame := Local.frame intake.intakeId
  have stops : Local intake.intakeId library library ∧ Q library := ⟨frame.refl library, stop⟩
  unfold rechunkOne
  rw [ends_bind]
  refine Ends.write (fun _ => ?_) (fun _ => stops) fun _ => stops
  rw [ends_bind, ends_read, ends_bind]
  refine Ends.unwrap (fun plans planned => ?_) fun _ => stops
  split_ifs with isEmpty
  · rw [List.isEmpty_iff.mp isEmpty] at planned
    exact ⟨frame.refl library, skip planned⟩
  have isBroken : ∀ {after}, (Untouched library after ∨
      ∃ written, (run.embed position).Refilled binary intake.intakeId plans written library after ∧
        ((run.embed position).Unbroken tools binary plans library → written.map (·.plan) = plans)) →
      Local intake.intakeId library after ∧ Q after := by
    intro after early
    have isBroken : Broken tools binary intake.intakeId (run.embed position) library after := by
      rcases early with untouched | ⟨written, refilled⟩
      · exact .inl untouched
      · exact .inr ⟨plans, written, planned, refilled⟩
    exact ⟨isBroken.local fits, broken after isBroken⟩
  rw [ends_bind]
  refine (embedBookChunks_refills fits (planBookChunks_inBounds sound.placed fits planned)).mono ?_
    (fun _ _ => isBroken) fun _ => isBroken
  rintro embedded after (⟨isNil, -⟩ | ⟨written, refilled, isAll⟩)
  · exact absurd (List.isEmpty_iff.mpr isNil) isEmpty
  · obtain ⟨unpromoted, promoted⟩ := full plans written after planned refilled isAll
    have isLocal := refilled.local fits
    rw [ends_bind]
    refine Ends.write (fun isDone => ?_) (fun _ => ⟨isLocal, unpromoted⟩) fun _ => ⟨isLocal, unpromoted⟩
    exact ⟨frame.trans isLocal (local_setIntakeStatus after .embedded), promoted isDone⟩

/-- A target of a rebuild is an intake on file. -/
theorem mem_of_rebuildTargets {params : TargetParams} {targets : List Intake}
    (isTargets : rebuildTargets binary params library = .ok targets) :
    ∀ intake ∈ targets, intake ∈ library.intakes := by
  have accepted : ∀ {status intake}, isRebuildable status = true →
      intake ∈ library.intakesWithStatus status →
      intake ∈ library.intakes ∧ isRebuildable intake.status = true := by
    intro status intake isAccepted member
    obtain ⟨isOnFile, rfl⟩ := mem_intakesWithStatus.mp member
    exact ⟨isOnFile, isAccepted⟩
  refine fun intake member => (targetsOf_ok ?_ isTargets intake member).1
  intro intake member
  rw [(List.perm_insertionSort _ _).mem_iff, List.mem_append, List.mem_append] at member
  rcases member with (member | member) | member
  · exact accepted rfl member
  · exact accepted rfl member
  · exact accepted rfl member

/-- The envelope a rebuild reads for a target and takes. -/
structure RebuildRun.Takes (run : RebuildRun) (library : Library) (intake : Intake) (envelope : Envelope) :
    Prop where
  wet : run.dryRun = false
  path : ∃ path, intake.storedPath = some path ∧
    library.readWithFallback path = some (.envelope envelope)
  source : envelope.sourceSha256 = intake.sourceSha256

/-- **One turn of the loop of a rebuild.** -/
theorem rebuildOne_ends {run : RebuildRun} {position : Nat} {intake : Intake} {report : RebuildReport}
    (fits : PartitionIdx.Fits ⟨intake.intakeId⟩) (sound : library.Sound) {P : Library → Prop}
    (stay : P library)
    (rebuilt : ∀ envelope after tree, run.Takes library intake envelope → run.tree position = .allDone →
      builtTree tools binary intake.intakeId envelope.extraction.content = some tree →
      Retree ⟨intake.intakeId⟩ tree library after → P after)
    (emptied : ∀ envelope after, run.Takes library intake envelope →
      Emptied tools binary intake.intakeId envelope.extraction.content (run.tree position) library after →
      P after) :
    Ends (rebuildOne tools binary run position intake report) library
      (fun _ after => Local intake.intakeId library after ∧ P after)
      (fun _ after => Local intake.intakeId library after ∧ P after)
      (fun after => Local intake.intakeId library after ∧ P after) := by
  have stays : Local intake.intakeId library library ∧ P library := ⟨(Local.frame _).refl library, stay⟩
  unfold rebuildOne
  dsimp only
  cases isPath : intake.storedPath with
  | none => exact stays
  | some path =>
    dsimp only
    rw [ends_bind]
    refine Ends.attempt (Ends.write (fun _ => ?_) (fun _ => stays) fun _ => stays)
    dsimp only
    rw [ends_bind, ends_read]
    cases isFile : library.readWithFallback path with
    | none => exact stays
    | some file =>
      cases file with
      | other => exact stays
      | envelope envelope =>
        dsimp only
        split_ifs with isSource isDry
        · exact stays
        · exact stays
        have takes : run.Takes library intake envelope :=
          ⟨by simpa using isDry, ⟨path, isPath, isFile⟩, not_not.mp isSource⟩
        have isEarly : ∀ {after}, after = library ∨
            Emptied tools binary intake.intakeId envelope.extraction.content (run.tree position) library after →
            Local intake.intakeId library after ∧ P after := by
          rintro after (rfl | isEmptied)
          · exact stays
          · exact ⟨isEmptied.retree.local, emptied envelope after takes isEmptied⟩
        rw [ends_bind]
        refine Ends.attempt ((ingestStructure_ends fits sound.placed _ _ _).mono ?_ (fun _ _ => isEarly)
          fun _ => isEarly)
        rintro structured after ⟨all, tree, isTree, retree⟩
        exact ⟨retree.local, rebuilt envelope after tree takes all isTree retree⟩

end Bookrack.Ingest
