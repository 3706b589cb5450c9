/-
Embedded means searchable: what runs of the book drivers keep of it.

* `EmbeddedSearchable` — every `Embedded` book has one row for each plan of its tree, and no other.
* `BookCall.KeepsSearchable` — what a call must not meet: an emptied plan list, a rewrite of an `Embedded`
  book cut short, a reset stopped between the drop of the table and the demotions, or a tree rebuilt away
  from its chunks.
* **`embedded_searchable`** — along every run whose calls meet the condition.
-/

import Bookrack.Base.Run
import Bookrack.Ingest.Maintain

namespace Bookrack.Ingest

open Chunk (ChunkPlan)
open Corpus (Node)
open Prog

section Definitions

variable (tools : Toolchain) (binary : Binary)

/-- One row for each plan of the book's tree, and no other row in its partition. -/
def Searchable (library : Library) (id : Int) : Prop :=
  ∃ plans, planBookChunks tools binary (library.tree id) = some plans ∧ (library.plansOf id).Perm plans

def EmbeddedSearchable (library : Library) : Prop :=
  ∀ intake ∈ library.intakes, intake.status = .embedded → Searchable tools binary library intake.intakeId

/-! ### Calls -/

/-- One call of a driver of the book pipeline. -/
inductive BookCall
  | ingest (call : IngestCall)
  | resume (intakeId : Int) (run : EmbedRun) (fates : ResumeFates)
  | reset (isResume : Bool) (run : ResetRun)
  | rebuild (run : RebuildRun)

/-- The library a call leaves. -/
def BookCall.left : BookCall → Library → Library
  | .ingest call => (ingestBook tools binary call).left
  | .resume intakeId run fates => (resumeFromChunk tools binary intakeId run fates).left
  | .reset isResume run => (resetAndRechunk tools binary isResume run).left
  | .rebuild run => (rebuildFromIntakes tools binary run).left

/-- SQLite hands out fresh ids, and ids fit. -/
def BookCall.Admissible (library : Library) : BookCall → Prop
  | .ingest call => call.Admissible library
  | .resume intakeId _ _ => PartitionIdx.Fits ⟨intakeId⟩
  | .reset _ _ | .rebuild _ => True

/-- One call, from the library it finds to the one it leaves. -/
def BookCall.Step (before : Library) (call : BookCall) (after : Library) : Prop :=
  call.Admissible before ∧ after = call.left tools binary before

/-! ### Conditions -/

/-- A book about to be promoted without a chunk has no rows. -/
def NoStaleRows (plans : Option (List ChunkPlan)) (promote : Fate) (library : Library) (id : Int) : Prop :=
  plans = some [] → promote = .done → library.plansOf id = []

/-- An ingest whose tree has no chunk finds no rows of the book. -/
def IngestCall.KeepsSearchable (library : Library) (call : IngestCall) : Prop :=
  ∀ extraction tree, call.extract = .extracted extraction → call.held = false → call.fates.tree = .allDone →
    builtTree tools binary (call.target library) extraction.content = some tree →
    NoStaleRows (planBookChunks tools binary tree) call.fates.resume.promote library (call.target library)

/-- A reset that has dropped the table demotes every `Embedded` book with a chunk. -/
def ResetRun.KeepsSearchable (library : Library) (run : ResetRun) : Prop :=
  run.clearStamps = .done → run.dropTable = .done → ∀ position intake,
    (library.intakesWithStatus .embedded)[position]? = some intake →
    planBookChunks tools binary (library.tree intake.intakeId) ≠ some [] → run.Demotes position

/-- The tree a rebuild leaves of a target whose partition it has dropped. -/
def RebuildRun.leaves (run : RebuildRun) (position : Nat) (intake : Intake) (envelope : Envelope) : List Node :=
  if run.tree position = .allDone then
    (builtTree tools binary intake.intakeId envelope.extraction.content).getD []
  else []

/-- A rebuild that drops the tree of an `Embedded` book leaves one whose chunks are the book's rows. -/
def RebuildRun.KeepsSearchable (library : Library) (run : RebuildRun) : Prop :=
  ∀ targets, rebuildTargets binary run.params library = .ok targets →
    ∀ position intake, targets[position]? = some intake → intake.status = .embedded →
    ∀ envelope, run.Takes library intake envelope →
    (bookBatch tools binary envelope.extraction.content).isSome → (run.tree position).drop = .done →
    ∃ plans, planBookChunks tools binary (run.leaves tools binary position intake envelope) = some plans ∧
      (library.plansOf intake.intakeId).Perm plans

/-- What a call must meet for the `Embedded` books to stay searchable. -/
def BookCall.KeepsSearchable (library : Library) : BookCall → Prop
  | .ingest call => call.KeepsSearchable tools binary library
  | .resume intakeId run fates =>
    NoStaleRows (planBookChunks tools binary (library.tree intakeId)) fates.promote library intakeId ∧
      (library.IsEmbedded intakeId → ∀ plans,
        planBookChunks tools binary (library.tree intakeId) = some plans →
        run.Unbroken tools binary plans library)
  | .reset isResume run => isResume = false → run.KeepsSearchable tools binary library
  | .rebuild run => run.KeepsSearchable tools binary library

end Definitions

variable {tools : Toolchain} {binary : Binary} {id other : Int} {library before after : Library}

/-! ### One book -/

/-- The invariant of one book. -/
def IfEmbedded (tools : Toolchain) (binary : Binary) (id : Int) (library : Library) : Prop :=
  library.IsEmbedded id → Searchable tools binary library id

/-- The invariant. -/
structure Kept (tools : Toolchain) (binary : Binary) (library : Library) : Prop where
  sound : library.Sound
  searchable : ∀ id, IfEmbedded tools binary id library

/-- **A step at one book** keeps the invariant when it keeps it of that book. -/
theorem Kept.of_local (kept : Kept tools binary before) (isLocal : Local id before after)
    (own : IfEmbedded tools binary id after) : Kept tools binary after := by
  obtain ⟨sound, within⟩ := isLocal kept.sound
  refine ⟨sound, fun other isEmbedded => ?_⟩
  by_cases same : other = id
  · rw [same] at isEmbedded ⊢
    exact own isEmbedded
  · have fits := isEmbedded.fits sound
    obtain ⟨plans, planned, isPerm⟩ := kept.searchable other ((within.isEmbedded same).mp isEmbedded)
    refine ⟨plans, ?_, ?_⟩
    · rwa [within.tree other fits same]
    · rwa [Library.plansOf, within.rowsOf other fits same]

/-- New rows for every plan make a book searchable. -/
theorem searchable_of_refilled {run : EmbedRun} {plans : List ChunkPlan} {written : List ChunkRow}
    (planned : planBookChunks tools binary (before.tree id) = some plans)
    (refilled : run.Refilled binary id plans written before after) (isAll : written.map (·.plan) = plans) :
    Searchable tools binary after id := by
  refine ⟨plans, ?_, ?_⟩
  · rw [refilled.rest]
    exact planned
  · rw [Library.plansOf, refilled.rowsOf, isAll]

theorem searchable_of_full {run : EmbedRun} (full : Full tools binary id run before after)
    (noStale : planBookChunks tools binary (before.tree id) = some [] → before.plansOf id = []) :
    Searchable tools binary after id := by
  rcases full with ⟨planned, rfl⟩ | ⟨plans, written, planned, refilled, isAll⟩
  · refine ⟨[], planned, ?_⟩
    rw [noStale planned]
  · exact searchable_of_refilled planned refilled isAll

/-- **`resume_from_chunk` keeps its book searchable.** -/
theorem resume_searchable {run : EmbedRun} {fates : ResumeFates}
    (searchable : IfEmbedded tools binary id before)
    (noStale : NoStaleRows (planBookChunks tools binary (before.tree id)) fates.promote before id)
    (unbroken : before.IsEmbedded id → ∀ plans, planBookChunks tools binary (before.tree id) = some plans →
      run.Unbroken tools binary plans before) :
    ResumeRules tools binary id run fates before (IfEmbedded tools binary id) := by
  have broken : ∀ after, Broken tools binary id run before after → IfEmbedded tools binary id after := by
    intro after isBroken isEmbedded
    have wasEmbedded : before.IsEmbedded id := by
      rw [isBroken.rest] at isEmbedded
      exact isEmbedded
    rcases isBroken with ⟨stamps, table, rfl, sameRows, -⟩ | ⟨plans, written, planned, refilled, isAll⟩
    · obtain ⟨plans, planned, isPerm⟩ := searchable wasEmbedded
      refine ⟨plans, planned, ?_⟩
      rwa [Library.plansOf, Library.rowsOf, sameRows]
    · exact searchable_of_refilled planned refilled (isAll (unbroken wasEmbedded plans planned))
  have full : ∀ after, Full tools binary id run before after → IfEmbedded tools binary id after := by
    intro after isFull isEmbedded
    have wasEmbedded : before.IsEmbedded id := by
      rw [isFull.rest] at isEmbedded
      exact isEmbedded
    refine searchable_of_full isFull fun planned => ?_
    obtain ⟨plans, planned', isPerm⟩ := searchable wasEmbedded
    rw [planned] at planned'
    obtain rfl := Option.some.inj planned'
    exact isPerm.eq_nil
  have promoted : ∀ after, Full tools binary id run before after → fates.promote = .done →
      Searchable tools binary after id :=
    fun after isFull isPromoted => searchable_of_full isFull fun planned => noStale planned isPromoted
  exact
    { stop := searchable
      unread := fun _ => searchable
      broken
      brokenNoted := fun after isBroken _ => broken after isBroken
      full
      promoted := fun after isFull isPromoted _ _ => promoted after isFull isPromoted
      finished := fun after isFull isPromoted _ _ => promoted after isFull isPromoted }

/-! ### Ingest -/

/-- What is known of the ingested book at each stage; from the demotion on it is not `Embedded` and its rows
are those found. -/
def AtStage (tools : Toolchain) (binary : Binary) (call : IngestCall) (start : Library)
    (extraction : Extracted) : Stage → Library → Prop
  | .registered, library =>
    IfEmbedded tools binary (call.target start) library ∧
      library.plansOf (call.target start) = start.plansOf (call.target start)
  | .demoted, library =>
    ¬ library.IsEmbedded (call.target start) ∧
      library.plansOf (call.target start) = start.plansOf (call.target start)
  | .built, library | .noted, library | .stamped, library | .filed, library =>
    ¬ library.IsEmbedded (call.target start) ∧
      library.plansOf (call.target start) = start.plansOf (call.target start) ∧
      call.fates.tree = .allDone ∧
      builtTree tools binary (call.target start) extraction.content =
        some (library.tree (call.target start))

variable {call : IngestCall} {start : Library} {extraction : Extracted}

theorem stages_searchable (isExtract : call.extract = .extracted extraction)
    (keeps : call.KeepsSearchable tools binary start) :
    StageRules tools binary (call.target start) call extraction (AtStage tools binary call start extraction)
      (IfEmbedded tools binary (call.target start)) where
  demote := by
    rintro before ⟨_, sameRows⟩ _
    refine ⟨?_, sameRows⟩
    rw [isEmbedded_setIntakeStatus IntakeStatus.noConfusion]
    exact fun both => both.1 rfl
  emptied := by
    rintro before after ⟨notEmbedded, _⟩ emptied isEmbedded
    rw [emptied.retree.corpus] at isEmbedded
    exact absurd isEmbedded notEmbedded
  built := by
    rintro before after tree ⟨notEmbedded, sameRows⟩ all isTree retree
    refine ⟨?_, ?_, all, ?_⟩
    · rw [retree.corpus]
      exact notEmbedded
    · rw [retree.corpus]
      exact sameRows
    · rw [retree.self]
      exact isTree
  noted := fun _ built _ _ => built
  unnoted := fun _ built _ _ => built
  stamped := by
    rintro before ⟨notEmbedded, rest⟩ _
    refine ⟨?_, rest⟩
    rw [isEmbedded_setExtraction]
    exact notEmbedded
  filed := by
    rintro before after ⟨notEmbedded, sameRows, all, isTree⟩ filed
    have same := filed.rest
    refine ⟨?_, ?_, all, ?_⟩
    · exact fun isEmbedded => notEmbedded (filed.isEmbedded.mp isEmbedded)
    · rw [same]
      exact sameRows
    · rw [same]
      exact isTree
  held := fun _ filed _ isEmbedded => absurd isEmbedded filed.1
  resume := by
    rintro before ⟨notEmbedded, sameRows, all, isTree⟩ notHeld
    refine resume_searchable (fun isEmbedded => absurd isEmbedded notEmbedded) ?_
      fun isEmbedded => absurd isEmbedded notEmbedded
    intro planned isPromoted
    rw [sameRows]
    exact keeps extraction _ isExtract notHeld all isTree planned isPromoted
  stopBuilt := fun _ built _ isEmbedded => absurd isEmbedded built.1
  stopNoted := fun _ noted _ isEmbedded => absurd isEmbedded noted.1
  stop := by
    rintro before (registered | demoted | filed) isEmbedded
    · exact registered.1 isEmbedded
    · exact absurd isEmbedded demoted.1
    · exact absurd isEmbedded filed.1

/-- **An ingest keeps every book searchable.** -/
theorem ingest_kept (kept : Kept tools binary start) (admissible : call.Admissible start)
    (keeps : call.KeepsSearchable tools binary start) :
    Kept tools binary ((ingestBook tools binary call).left start) := by
  have own := kept.searchable (call.target start)
  have filed : ∀ {intake : Intake} {extraction after}, Compared binary call start intake extraction →
      Filed intake.intakeId call.sourceSha extraction call.fates.restamp.store start after →
      IfEmbedded tools binary (call.target start) after ∧
        after.plansOf (call.target start) = start.plansOf (call.target start) := by
    intro intake extraction after compared isFiled
    have same := isFiled.rest
    refine ⟨fun isEmbedded => ?_, ?_⟩
    · have searchable := own (isFiled.isEmbedded.mp isEmbedded)
      rw [same]
      exact searchable
    · rw [same]
      rfl
  have rules : IngestRules tools binary call start (AtStage tools binary call start)
      (fun _ => IfEmbedded tools binary (call.target start)) (IfEmbedded tools binary (call.target start)) :=
    { stay := own
      current := fun _ _ _ => own
      anchored := by
        rintro after new anchored ⟨intake, member, isId, isEmbedded⟩
        exact absurd isEmbedded (anchored.status intake member (isId.trans (target_of_new new)))
      filed := fun _ _ _ compared isFiled => (filed compared isFiled).1
      restamped := by
        intro intake extraction after compared isFiled _
        have holds := (filed compared isFiled).1
        rw [IfEmbedded, ← isEmbedded_setExtraction extraction.adapter extraction.extractorVersion] at holds
        exact ⟨holds, holds⟩
      stages := fun extraction isExtract => stages_searchable isExtract keeps
      registered := by
        refine fun _ _ => ⟨?_, ?_⟩
        · rw [IfEmbedded, isEmbedded_registered, registered_eq]
          exact own
        · rw [registered_eq]
          rfl
      refiled := fun _ _ _ compared isFiled _ => filed compared isFiled
      staged := fun _ _ _ holds => holds }
  obtain ⟨isLocal, own⟩ := (ingestBook_ends kept.sound admissible rules).left
  exact kept.of_local isLocal own

/-! ### Resume and reset -/

theorem resume_kept {run : EmbedRun} {fates : ResumeFates} (kept : Kept tools binary start)
    (fits : PartitionIdx.Fits ⟨id⟩) (keeps : (BookCall.resume id run fates).KeepsSearchable tools binary start) :
    Kept tools binary ((resumeFromChunk tools binary id run fates).left start) := by
  have rules := resume_searchable (kept.searchable id) keeps.1 keeps.2
  obtain ⟨isLocal, own⟩ := (resumeFromChunk_ends fits kept.sound rules).left
  exact kept.of_local isLocal own

section Reset

variable {run : ResetRun}

/-- One turn of the build loop, at a book that is not `Embedded`. -/
theorem rechunkOne_kept {position : Nat} {intake : Intake} {report : ResetReport}
    (kept : Kept tools binary before) (fits : PartitionIdx.Fits ⟨intake.intakeId⟩)
    (notEmbedded : ¬ before.IsEmbedded intake.intakeId) :
    Ends (rechunkOne tools binary run position intake report) before
      (fun _ after => Kept tools binary after ∧ Local intake.intakeId before after)
      (fun _ => Kept tools binary) (Kept tools binary) := by
  have unembedded : ∀ {after : Library}, after = { before with stamps := after.stamps, table := after.table } →
      IfEmbedded tools binary intake.intakeId after := by
    intro after same isEmbedded
    rw [same] at isEmbedded
    exact absurd isEmbedded notEmbedded
  have turn : Ends (rechunkOne tools binary run position intake report) before
      (fun _ after => Local intake.intakeId before after ∧ IfEmbedded tools binary intake.intakeId after)
      (fun _ after => Local intake.intakeId before after ∧ IfEmbedded tools binary intake.intakeId after)
      (fun after => Local intake.intakeId before after ∧ IfEmbedded tools binary intake.intakeId after) := by
    refine rechunkOne_ends fits kept.sound (unembedded rfl) (fun _ => unembedded rfl)
      (fun _ broken => unembedded broken.rest) ?_
    intro plans written after planned refilled isAll
    have searchable := searchable_of_refilled planned refilled isAll
    exact ⟨unembedded refilled.rest, fun _ _ => searchable⟩
  refine turn.mono ?_ ?_ ?_
  · exact fun _ after holds => ⟨kept.of_local holds.1 holds.2, holds.1⟩
  · exact fun _ after holds => kept.of_local holds.1 holds.2
  · exact fun after holds => kept.of_local holds.1 holds.2

/-- The build loop: the targets ahead are not `Embedded`. -/
theorem rechunk_kept (kept : Kept tools binary start) :
    Ends (do
        write run.listExtracted .catalog fun library => library
        let targets ← read (·.intakesWithStatus .extracted)
        loop targets ⟨0, 0, []⟩ (rechunkOne tools binary run)) start
      (fun _ => Kept tools binary) (fun _ => Kept tools binary) (Kept tools binary) := by
  rw [ends_bind]
  refine Ends.write (fun _ => ?_) (fun _ => kept) fun _ => kept
  rw [ends_bind, ends_read]
  have distinct := kept.sound.distinct_intakesWithStatus .extracted
  have isTarget : ∀ {intake}, intake ∈ start.intakesWithStatus .extracted →
      PartitionIdx.Fits ⟨intake.intakeId⟩ ∧ ¬ start.IsEmbedded intake.intakeId := by
    intro intake member
    obtain ⟨isIntake, isExtracted⟩ := mem_intakesWithStatus.mp member
    refine ⟨kept.sound.fits intake isIntake, ?_⟩
    rintro ⟨other, isOther, same, isEmbedded⟩
    obtain rfl := kept.sound.unique isOther isIntake same
    exact IntakeStatus.noConfusion (isExtracted.symm.trans isEmbedded)
  generalize start.intakesWithStatus .extracted = targets at distinct isTarget
  refine (Ends.loop (fun count library => Kept tools binary library ∧ ∀ position ≥ count, ∀ intake,
    targets[position]? = some intake → ¬ library.IsEmbedded intake.intakeId) ⟨kept, ?_⟩ ?_).mono
    (fun _ _ holds => holds.1) (fun _ _ holds => holds) fun _ holds => holds
  · exact fun position _ intake isIntake => (isTarget (List.mem_of_getElem? isIntake)).2
  · rintro position intake report library isIntake ⟨keptSoFar, ahead⟩
    refine (rechunkOne_kept keptSoFar (isTarget (List.mem_of_getElem? isIntake)).1
      (ahead position le_rfl intake isIntake)).mono ?_ (fun _ _ holds => holds) fun _ holds => holds
    rintro _ after ⟨keptAfter, isLocal⟩
    refine ⟨keptAfter, fun later isLater other isOther => ?_⟩
    have differs : other.intakeId ≠ intake.intakeId := by
      intro same
      have inside : later < (targets.map (·.intakeId)).length := by
        rw [List.length_map]
        exact (List.getElem?_eq_some_iff.mp isOther).1
      refine List.nodup_iff_getElem?_ne_getElem?.mp distinct position later (by omega) inside ?_
      rw [List.getElem?_map, List.getElem?_map, isIntake, isOther, Option.map_some, Option.map_some, same]
    rw [(isLocal keptSoFar.sound).2.isEmbedded differs]
    exact ahead later (by omega) other isOther

theorem bareLibrary_sound (sound : start.Sound) : (bareLibrary start).Sound :=
  ⟨sound.placed, sound.distinct, sound.fits⟩

theorem reset_kept (isResume : Bool) (kept : Kept tools binary start)
    (keeps : isResume = false → run.KeepsSearchable tools binary start) :
    Kept tools binary ((resetAndRechunk tools binary isResume run).left start) := by
  have ends : Ends (resetAndRechunk tools binary isResume run) start
      (fun _ => Kept tools binary) (fun _ => Kept tools binary) (Kept tools binary) := by
    unfold resetAndRechunk
    cases isResume with
    | true => exact rechunk_kept kept
    | false =>
      have noRows : ∀ ids id, (demoted ids (bareLibrary start)).plansOf id = [] := by
        intro ids id
        rw [demoted_eq]
        rfl
      rw [if_neg Bool.false_ne_true]
      refine (dropVectors_ends kept ?_ ?_).bind ?_
      · exact fun _ _ => ⟨⟨kept.sound.placed, kept.sound.distinct, kept.sound.fits⟩, kept.searchable⟩
      · intro count isCleared isDropped notDemoted
        refine ⟨demoted_sound (bareLibrary_sound kept.sound), fun id isEmbedded => ?_⟩
        obtain ⟨notTaken, intake, member, rfl, isStatus⟩ := isEmbedded_demoted.mp isEmbedded
        obtain ⟨position, isPosition⟩ := List.mem_iff_getElem?.mp (mem_intakesWithStatus.mpr ⟨member, isStatus⟩)
        have isAhead : position ≥ count := by
          by_contra isTaken
          refine notTaken (List.mem_map_of_mem (List.mem_iff_getElem?.mpr ⟨position, ?_⟩))
          rw [List.getElem?_take_of_lt (not_le.mp isTaken)]
          exact isPosition
        have noPlan : planBookChunks tools binary (start.tree intake.intakeId) = some [] := by
          by_contra planned
          exact notDemoted position isAhead (keeps rfl isCleared isDropped position intake isPosition planned)
        refine ⟨[], ?_, ?_⟩
        · rw [demoted_eq]
          exact noPlan
        · rw [noRows]
      · rintro _ after ⟨_, _, rfl⟩
        refine rechunk_kept ⟨demoted_sound (bareLibrary_sound kept.sound), fun id isEmbedded => ?_⟩
        obtain ⟨notDemoted, intake, member, rfl, isStatus⟩ := isEmbedded_demoted.mp isEmbedded
        exact absurd (List.mem_map_of_mem (mem_intakesWithStatus.mpr ⟨member, isStatus⟩)) notDemoted
  exact ends.left

end Reset

/-! ### Rebuild -/

section Rebuild

variable {run : RebuildRun}

/-- Only trees have changed. -/
def Retreed (before after : Library) : Prop := after = before.setCorpus after.corpus

theorem rebuild_leaves_built {position : Nat} {intake : Intake} {envelope : Envelope} {tree : List Node}
    (all : run.tree position = .allDone)
    (isTree : builtTree tools binary intake.intakeId envelope.extraction.content = some tree) :
    (bookBatch tools binary envelope.extraction.content).isSome ∧ (run.tree position).drop = .done ∧
      run.leaves tools binary position intake envelope = tree := by
  refine ⟨?_, ?_, ?_⟩
  · unfold builtTree at isTree
    cases isBatch : bookBatch tools binary envelope.extraction.content with
    | none =>
      rw [isBatch] at isTree
      cases isTree
    | some batch => rfl
  · rw [all]
    rfl
  · rw [RebuildRun.leaves, if_pos all, isTree, Option.getD_some]

theorem rebuild_leaves_emptied {position : Nat} {intake : Intake} {envelope : Envelope}
    (emptied : Emptied tools binary intake.intakeId envelope.extraction.content (run.tree position) before
      after) :
    run.leaves tools binary position intake envelope = [] := by
  unfold RebuildRun.leaves
  split_ifs with all
  · cases isTree : builtTree tools binary intake.intakeId envelope.extraction.content with
    | none => rfl
    | some tree => exact absurd ⟨all, by rw [isTree]; rfl⟩ emptied.unbuilt
  · rfl

theorem rebuild_kept (kept : Kept tools binary start) (keeps : run.KeepsSearchable tools binary start) :
    Kept tools binary ((rebuildFromIntakes tools binary run).left start) := by
  have ends : Ends (rebuildFromIntakes tools binary run) start
      (fun _ => Kept tools binary) (fun _ => Kept tools binary) (Kept tools binary) := by
    unfold rebuildFromIntakes
    rw [ends_bind]
    refine Ends.write (fun _ => ?_) (fun _ => kept) fun _ => kept
    rw [ends_bind, ends_read]
    cases isTargets : rebuildTargets binary run.params start with
    | error reason => exact kept
    | ok targets =>
      refine (Ends.loop (fun _ library => Kept tools binary library ∧ Retreed start library) ⟨kept, rfl⟩ ?_).mono
        (fun _ _ holds => holds.1) (fun _ _ holds => holds) fun _ holds => holds
      rintro position intake report library isIntake ⟨keptSoFar, retreed⟩
      have isOnFile := mem_of_rebuildTargets isTargets intake (List.mem_of_getElem? isIntake)
      -- a tree the turn leaves is the one the condition speaks of
      have left : ∀ {envelope after}, run.Takes library intake envelope →
          (bookBatch tools binary envelope.extraction.content).isSome → (run.tree position).drop = .done →
          Retree ⟨intake.intakeId⟩ (run.leaves tools binary position intake envelope) library after →
          IfEmbedded tools binary intake.intakeId after ∧ Retreed start after := by
        intro envelope after takes isBatch isDropped retree
        have isRetreed : Retreed start after := by
          rw [Retreed, retree.corpus, retreed]
          rfl
        refine ⟨?_, isRetreed⟩
        rintro ⟨other, isOther, same, isEmbedded⟩
        rw [isRetreed] at isOther
        obtain rfl := kept.sound.unique isOther isOnFile same
        have wasTaken : run.Takes start other envelope := by
          refine ⟨takes.wet, ?_, takes.source⟩
          obtain ⟨path, isPath, isFile⟩ := takes.path
          rw [retreed] at isFile
          exact ⟨path, isPath, isFile⟩
        obtain ⟨plans, planned, isPerm⟩ :=
          keeps targets isTargets position other isIntake isEmbedded envelope wasTaken isBatch isDropped
        refine ⟨plans, ?_, ?_⟩
        · rw [retree.self]
          exact planned
        · rw [isRetreed]
          exact isPerm
      have turn : Ends (rebuildOne tools binary run position intake report) library
          (fun _ after => Local intake.intakeId library after ∧
            IfEmbedded tools binary intake.intakeId after ∧ Retreed start after)
          (fun _ after => Local intake.intakeId library after ∧
            IfEmbedded tools binary intake.intakeId after ∧ Retreed start after)
          (fun after => Local intake.intakeId library after ∧
            IfEmbedded tools binary intake.intakeId after ∧ Retreed start after) := by
        refine rebuildOne_ends (kept.sound.fits intake isOnFile) keptSoFar.sound
          ⟨keptSoFar.searchable _, retreed⟩ ?_ ?_
        · intro envelope after tree takes all isTree retree
          obtain ⟨isBatch, isDropped, isLeft⟩ := rebuild_leaves_built all isTree
          rw [← isLeft] at retree
          exact left takes isBatch isDropped retree
        · intro envelope after takes emptied
          have retree := emptied.retree
          rw [← rebuild_leaves_emptied emptied] at retree
          exact left takes emptied.isBatch emptied.dropped retree
      refine turn.mono ?_ ?_ ?_
      · exact fun _ after holds => ⟨keptSoFar.of_local holds.1 holds.2.1, holds.2.2⟩
      · exact fun _ after holds => keptSoFar.of_local holds.1 holds.2.1
      · exact fun after holds => keptSoFar.of_local holds.1 holds.2.1
  exact ends.left

end Rebuild

/-! ### Runs -/

/-- **The step lemma.** -/
theorem BookCall.kept {call : BookCall} (kept : Kept tools binary before)
    (step : call.Step tools binary before after) (keeps : call.KeepsSearchable tools binary before) :
    Kept tools binary after := by
  obtain ⟨admissible, rfl⟩ := step
  cases call with
  | ingest call => exact ingest_kept kept admissible keeps
  | resume intakeId run fates => exact resume_kept kept admissible keeps
  | reset isResume run => exact reset_kept isResume kept keeps
  | rebuild run => exact rebuild_kept kept keeps

theorem empty_kept : Kept tools binary Library.empty := by
  refine ⟨Library.empty_sound, ?_⟩
  rintro _ ⟨_, member, _⟩
  cases member

/-- **Along a run of the book drivers whose calls meet the condition, every `Embedded` book is searchable
between any two calls.** -/
theorem embedded_searchable {trace : List (BookCall × Library)}
    (isRun : Run.Along (fun before call after => call.Step tools binary before after) Library.empty trace)
    (keeps : Run.Along (fun before call _ => call.KeepsSearchable tools binary before) Library.empty trace) :
    Run.Along (fun _ _ after => EmbeddedSearchable tools binary after) Library.empty trace := by
  have kept := (isRun.and keeps).held (Kept tools binary)
    (fun before call after kept holds => BookCall.kept kept holds.1 holds.2) empty_kept
  refine Run.Along.of_forall (fun entry member => ?_) Library.empty
  exact fun intake isIntake isEmbedded =>
    (kept entry member).searchable intake.intakeId ⟨intake, isIntake, rfl, isEmbedded⟩

/-! ### A run that breaks it -/

/-- A toolchain whose splitter leaves every group whole. -/
def wholeTools : Toolchain :=
  ⟨fun _ => ⟨fun text => text, fun _ => []⟩, fun _ _ => some ⟨fun text => [(0, text)]⟩, fun _ => true⟩

/-- The extraction of a file with one paragraph. -/
def oneParagraph (text : String) (extractorVersion : Nat) : Extracted :=
  ⟨⟨[⟨.body, text, 0⟩], [], none⟩, none, "epub", extractorVersion, none, ""⟩

/-- An EMBED run in which everything goes through. -/
def smoothRun (model : String) : EmbedRun := ⟨⟨model, 64, 1000⟩, .always (.ok [1]), .allDone⟩

/-- A first ingest of one file, every write going through. -/
def ingestOne : IngestCall :=
  ⟨"sha", .extracted (oneParagraph "a" 1), false, false, 1, "now", smoothRun "model", .allDone⟩

/-- A reset cut off once it has dropped the table. -/
def cutAfterDrop : ResetRun :=
  ⟨.done, .done, .cut, .done, fun _ => .done, .done, fun _ => .done, fun _ => smoothRun "model", fun _ => .done⟩

/-- The library with that book in it. -/
def oneBook : Library := (BookCall.ingest ingestOne).left wholeTools ⟨1, 1, 1⟩ Library.empty

theorem ingestOne_step : (BookCall.ingest ingestOne).Step wholeTools ⟨1, 1, 1⟩ Library.empty oneBook := by
  refine ⟨⟨by decide, ?_⟩, rfl⟩
  intro intake member
  cases member

/-- A reset cut off before the build. -/
def cutBeforeBuild : ResetRun :=
  ⟨.done, .done, .done, .done, fun _ => .done, .cut, fun _ => .done, fun _ => smoothRun "model", fun _ => .done⟩

/-- A reset in which everything goes through. -/
def smoothReset : ResetRun :=
  ⟨.done, .done, .done, .done, fun _ => .done, .done, fun _ => .done, fun _ => smoothRun "model", fun _ => .done⟩

/-- The book is demoted by the reset, and `Embedded` again once the reset is resumed. -/
def demotedBook : Library := (BookCall.reset false cutBeforeBuild).left wholeTools ⟨1, 1, 1⟩ oneBook

def resetBook : Library := (BookCall.reset true smoothReset).left wholeTools ⟨1, 1, 1⟩ demotedBook

theorem embedded_searchable_resetResumed :
    Run.Along (fun _ _ after => EmbeddedSearchable wholeTools ⟨1, 1, 1⟩ after) Library.empty
      [(BookCall.ingest ingestOne, oneBook), (.reset false cutBeforeBuild, demotedBook),
        (.reset true smoothReset, resetBook)] ∧
      oneBook.intakes.map (·.status) = [.embedded] ∧ demotedBook.intakes.map (·.status) = [.extracted] ∧
      resetBook.intakes.map (·.status) = [.embedded] := by
  refine ⟨embedded_searchable ⟨ingestOne_step, ⟨trivial, rfl⟩, ⟨trivial, rfl⟩, trivial⟩
    ⟨?_, ?_, ?_, trivial⟩, ?_, ?_, ?_⟩
  · exact fun _ _ _ _ _ _ _ _ => rfl
  · exact fun _ _ _ _ _ _ _ => ⟨rfl, rfl, fun _ _ => rfl⟩
  · exact fun isFirst => Bool.noConfusion isFirst
  · decide
  · decide
  · decide

/-- **Not every run keeps it**: a reset stopped before it demotes leaves a book `Embedded` without rows. -/
theorem dropped_while_embedded : ¬ ∀ (tools : Toolchain) (binary : Binary) (trace : List (BookCall × Library)),
    Run.Along (fun before call after => call.Step tools binary before after) Library.empty trace →
    Run.Along (fun _ _ after => EmbeddedSearchable tools binary after) Library.empty trace := by
  intro always
  let after := (BookCall.reset false cutAfterDrop).left wholeTools ⟨1, 1, 1⟩ oneBook
  have searchable := (always wholeTools ⟨1, 1, 1⟩
    [(.ingest ingestOne, oneBook), (.reset false cutAfterDrop, after)]
    ⟨ingestOne_step, ⟨trivial, rfl⟩, trivial⟩).2.1
  have isEmbedded : ⟨1, "sha", .embedded, some "epub", 1, some (.envelope 1), none⟩ ∈ after.intakes := by decide
  obtain ⟨plans, planned, isPerm⟩ := searchable _ isEmbedded rfl
  have noRows : after.plansOf 1 = [] := by decide
  have isCons : planBookChunks wholeTools ⟨1, 1, 1⟩ (after.tree 1) ≠ some [] := by decide
  rw [noRows] at isPerm
  rw [isPerm.symm.eq_nil] at planned
  exact isCons planned

end Bookrack.Ingest
