/-
Restamping: what a run of the book drivers keeps of the envelope that the comparison trusts.

* `Described` — a book whose state carries a model is described by the envelope on file, or it has no tree
  and is not `Embedded`.
* `IngestCall.KeepsDescribed`, `RebuildRun.KeepsDescribed` — what a call must not meet: a new tree next to
  the old envelope with a model on the state, or an `Embedded` book left without its tree.
* **`restamp_tells_truth`** — along every run whose calls meet the condition.
-/

import Bookrack.Ingest.Searchable

namespace Bookrack.Ingest

open Chunk (ChunkPlan)
open Corpus (Node)
open Prog

section Definitions

variable (tools : Toolchain) (binary : Binary)

/-! ### The invariant of one book -/

/-- The envelope on file, if any can be read, describes the book's tree. -/
def Describes (id : Int) (library : Library) : Prop :=
  ∀ envelope, library.readEnvelope id = some (.envelope envelope) →
    builtTree tools binary id envelope.extraction.content = some (library.tree id)

/-- A model on the state row vouches for the envelope. -/
def Described (id : Int) (library : Library) : Prop :=
  library.modelOf id ≠ none →
    library.tree id = [] ∧ ¬ library.IsEmbedded id ∨ Describes tools binary id library

/-- The book's row points to its envelope or to its source, which is no envelope; there is no legacy one. -/
structure Named (id : Int) (library : Library) : Prop where
  path : ∀ intake ∈ library.intakes, intake.intakeId = id → ∀ name, intake.storedPath = some name →
    name = .envelope id ∨ name = .source id
  legacy : library.files (.legacyEnvelope id) = none
  source : ∀ envelope, library.files (.source id) ≠ some (.envelope envelope)

/-- What holds of one book between two calls. -/
structure Own (id : Int) (library : Library) : Prop where
  named : Named id library
  described : Described tools binary id library

/-- The invariant. -/
structure Consistent (library : Library) : Prop where
  sound : library.Sound
  own : ∀ id, PartitionIdx.Fits ⟨id⟩ → Own tools binary id library

end Definitions

variable {tools : Toolchain} {binary : Binary} {id other : Int} {library before after : Library}

section Transfer

/-- Files and rows that say the same of the book. -/
theorem Named.of_same (named : Named id before) (sameIntakes : after.intakes = before.intakes)
    (sameFiles : after.files = before.files) : Named id after where
  path := by
    rw [sameIntakes]
    exact named.path
  legacy := by
    rw [sameFiles]
    exact named.legacy
  source := by
    rw [sameFiles]
    exact named.source

theorem Named.updateIntake {change : Intake → Intake}
    (keepsPath : ∀ intake : Intake, (change intake).storedPath = intake.storedPath)
    (named : Named id library) : Named id (library.updateIntake id change) where
  path := by
    intro intake member isId name isPath
    obtain ⟨old, isOld, rfl⟩ := (mem_updateIntake library).mp member
    split_ifs at isId isPath with isHere
    · exact named.path old isOld isHere name ((keepsPath old).symm.trans isPath)
    · exact absurd isId isHere
  legacy := named.legacy
  source := named.source

theorem Named.setIntakeStatus (status : IntakeStatus) (named : Named id library) :
    Named id (library.setIntakeStatus id status) := named.updateIntake fun _ => rfl

theorem Named.setExtraction (adapter : String) (version : Nat) (named : Named id library) :
    Named id (library.setExtraction id adapter version) := named.updateIntake fun _ => rfl

theorem Named.registered (sha : String) (newId : Int) (named : Named id library) :
    Named id (library.registered sha newId) := by
  unfold Library.registered
  cases library.intakeBySha sha with
  | some intake => exact named
  | none =>
    refine ⟨?_, named.legacy, named.source⟩
    intro intake member isId name isPath
    rcases List.mem_append.mp member with isOld | isNew
    · exact named.path intake isOld isId name isPath
    · rw [List.mem_singleton.mp isNew] at isPath
      cases isPath

theorem Named.filed {sourceSha : String} {extraction : Extracted} {fates : EnvelopeFates}
    (named : Named id before) (filed : Filed id sourceSha extraction fates before after) : Named id after where
  path := by
    rcases filed.intakes with same | stored
    · rw [same]
      exact named.path
    · intro intake member isId name isPath
      rw [stored] at member
      obtain ⟨old, isOld, rfl⟩ := (mem_updateIntake before).mp member
      split_ifs at isId isPath with isHere
      · exact .inl (Option.some.inj isPath).symm
      · exact absurd isId isHere
  legacy := by
    rcases filed.legacy with same | removed
    · rw [same]
      exact named.legacy
    · exact removed
  source := by
    rw [filed.others _ StoreName.noConfusion StoreName.noConfusion]
    exact named.source

theorem Named.anchored (named : Named id before) (anchored : Anchored id before after) : Named id after where
  path := fun intake member isId name isPath => .inr (anchored.paths intake member isId name isPath)
  legacy := by
    rw [anchored.files _ StoreName.noConfusion]
    exact named.legacy
  source := by
    rcases anchored.source with same | isOther
    · rw [same]
      exact named.source
    · intro envelope isEnvelope
      cases isOther.symm.trans isEnvelope

/-- A step at another book. -/
theorem Named.of_within (within : Within id before after) (isOther : other ≠ id) (named : Named other before) :
    Named other after where
  path := by
    intro intake member isId
    rw [within.intakes intake (isId.trans_ne isOther)] at member
    exact named.path intake member isId
  legacy := by
    rw [within.files (.legacyEnvelope other) isOther]
    exact named.legacy
  source := by
    rw [within.files (.source other) isOther]
    exact named.source

/-- Without a legacy file the envelope is the one under the canonical name. -/
theorem Named.readEnvelope (named : Named id library) :
    library.readEnvelope id = library.files (.envelope id) := by
  rw [Library.readEnvelope, named.legacy, Option.or_none]

/-- A rebuild reads the book's envelope. -/
theorem Named.taken (named : Named id library) {intake : Intake} (member : intake ∈ library.intakes)
    (isId : intake.intakeId = id) {run : RebuildRun} {envelope : Envelope}
    (takes : run.Takes library intake envelope) : library.readEnvelope id = some (.envelope envelope) := by
  obtain ⟨path, isPath, isFile⟩ := takes.path
  rcases named.path intake member isId path isPath with rfl | rfl
  · exact isFile
  · exact absurd isFile (named.source envelope)

/-- A step that leaves the book's state, tree, envelope and status as they are. -/
theorem Described.of_same (described : Described tools binary id before)
    (sameModel : after.modelOf id = before.modelOf id) (sameTree : after.tree id = before.tree id)
    (sameEnvelope : after.readEnvelope id = before.readEnvelope id)
    (notNewly : after.IsEmbedded id → before.IsEmbedded id) : Described tools binary id after := by
  intro isModel
  rw [sameModel] at isModel
  rw [sameTree]
  rcases described isModel with ⟨isNil, notEmbedded⟩ | describes
  · exact .inl ⟨isNil, fun isEmbedded => notEmbedded (notNewly isEmbedded)⟩
  · refine .inr ?_
    intro envelope isEnvelope
    rw [sameEnvelope] at isEnvelope
    rw [sameTree]
    exact describes envelope isEnvelope

theorem described_of_noModel (noModel : library.modelOf id = none) : Described tools binary id library :=
  fun isModel => absurd noModel isModel

/-- **A step at one book** keeps the invariant when it keeps it of that book. -/
theorem Consistent.of_local (consistent : Consistent tools binary before) (isLocal : Local id before after)
    (own : Own tools binary id after) : Consistent tools binary after := by
  obtain ⟨sound, within⟩ := isLocal consistent.sound
  refine ⟨sound, fun other fits => ?_⟩
  by_cases same : other = id
  · rw [same]
    exact own
  · have was := consistent.own other fits
    have sameFile : ∀ name : StoreName, name.intakeId = other → after.files name = before.files name :=
      fun name isName => within.files name (isName.trans_ne same)
    refine ⟨was.named.of_within within same,
      was.described.of_same ?_ (within.tree other fits same) ?_ (within.isEmbedded same).mp⟩
    · rw [Library.modelOf, Library.modelOf, within.states other same]
    · rw [Library.readEnvelope, Library.readEnvelope, sameFile _ rfl, sameFile _ rfl]

end Transfer

/-! ### Ingest -/

/-- The run gets to storing its envelope, and the old one is gone from under the canonical name. -/
def IngestFates.ReplacesEnvelope (fates : IngestFates) : Prop :=
  fates.parsedAt = .done ∧ fates.stateStructure ≠ .cut ∧ fates.stamp = .done ∧ fates.envelope.Handled

/-- The run leaves no model on the book's state. -/
def IngestCall.LeavesNoModel (library : Library) (call : IngestCall) : Prop :=
  (call.fates.parsedAt = .done ∧ call.fates.stateStructure = .done ∨
      library.modelOf (call.target library) = none) ∧
    call.fates.resume.stateFailed ≠ .done ∧ call.fates.resume.stateEmbedded ≠ .done

/-- An ingest that writes a new tree replaces or removes the old envelope, unless that one describes the new
tree as well, or the run leaves no model on the state. -/
def IngestCall.KeepsDescribed (tools : Toolchain) (binary : Binary) (library : Library) (call : IngestCall) :
    Prop :=
  ∀ extraction, call.extract = .extracted extraction → call.fates.tree = .allDone →
    (builtTree tools binary (call.target library) extraction.content).isSome →
    call.fates.ReplacesEnvelope ∨
      (∀ envelope, library.readEnvelope (call.target library) = some (.envelope envelope) →
        builtTree tools binary (call.target library) envelope.extraction.content =
          builtTree tools binary (call.target library) extraction.content) ∨
      call.LeavesNoModel library

section Ingest

variable {call : IngestCall} {start : Library} {extraction : Extracted}

/-- The content of the envelope on file, if there is one, is that of the one found. -/
def OldEnvelope (id : Int) (start library : Library) : Prop :=
  ∀ envelope, library.readEnvelope id = some (.envelope envelope) →
    ∃ old, start.readEnvelope id = some (.envelope old) ∧ envelope.extraction.content = old.extraction.content

/-- The new tree is there, and the book is not `Embedded`. -/
structure NewTree (tools : Toolchain) (binary : Binary) (call : IngestCall) (start : Library)
    (extraction : Extracted) (library : Library) : Prop where
  named : Named (call.target start) library
  notEmbedded : ¬ library.IsEmbedded (call.target start)
  all : call.fates.tree = .allDone
  isTree : builtTree tools binary (call.target start) extraction.content =
    some (library.tree (call.target start))

/-- The state has no model any more, or its write was refused and it has the one found. -/
structure Noted (call : IngestCall) (start library : Library) : Prop where
  isParsed : call.fates.parsedAt = .done
  notCut : call.fates.stateStructure ≠ .cut
  model : library.modelOf (call.target start) = none ∨ call.fates.stateStructure ≠ .done ∧
    library.modelOf (call.target start) = start.modelOf (call.target start)

/-- What is known of the ingested book at each stage. -/
def KnownAt (tools : Toolchain) (binary : Binary) (call : IngestCall) (start : Library)
    (extraction : Extracted) : Stage → Library → Prop
  | .registered, library =>
    Own tools binary (call.target start) library ∧
      library.modelOf (call.target start) = start.modelOf (call.target start) ∧
      OldEnvelope (call.target start) start library
  | .demoted, library =>
    Own tools binary (call.target start) library ∧ ¬ library.IsEmbedded (call.target start) ∧
      library.modelOf (call.target start) = start.modelOf (call.target start) ∧
      OldEnvelope (call.target start) start library
  | .built, library =>
    NewTree tools binary call start extraction library ∧
      library.modelOf (call.target start) = start.modelOf (call.target start) ∧
      OldEnvelope (call.target start) start library
  | .noted, library =>
    NewTree tools binary call start extraction library ∧ Noted call start library ∧
      OldEnvelope (call.target start) start library
  | .stamped, library =>
    NewTree tools binary call start extraction library ∧ Noted call start library ∧
      call.fates.stamp = .done ∧ OldEnvelope (call.target start) start library
  | .filed, library =>
    NewTree tools binary call start extraction library ∧ Noted call start library ∧
      call.fates.stamp = .done ∧ (Describes tools binary (call.target start) library ∨
        ¬ call.fates.envelope.Handled ∧ OldEnvelope (call.target start) start library)

theorem NewTree.describes_of_old (newTree : NewTree tools binary call start extraction library)
    (old : OldEnvelope (call.target start) start library)
    (same : ∀ envelope, start.readEnvelope (call.target start) = some (.envelope envelope) →
      builtTree tools binary (call.target start) envelope.extraction.content =
        builtTree tools binary (call.target start) extraction.content) :
    Describes tools binary (call.target start) library := by
  intro envelope isEnvelope
  obtain ⟨found, isFound, sameContent⟩ := old envelope isEnvelope
  rw [sameContent, same found isFound, newTree.isTree]

theorem NewTree.isSome (newTree : NewTree tools binary call start extraction library) :
    (builtTree tools binary (call.target start) extraction.content).isSome := by
  rw [newTree.isTree]
  rfl

theorem NewTree.own (newTree : NewTree tools binary call start extraction library)
    (described : library.modelOf (call.target start) = none ∨
      Describes tools binary (call.target start) library) : Own tools binary (call.target start) library :=
  ⟨newTree.named, fun isModel => .inr (described.resolve_left isModel)⟩

/-- **Once the envelope is stored**: it describes the tree, or the run leaves no model. -/
theorem filed_cases (isExtract : call.extract = .extracted extraction)
    (keeps : call.KeepsDescribed tools binary start)
    (filed : KnownAt tools binary call start extraction .filed library) :
    Describes tools binary (call.target start) library ∨
      library.modelOf (call.target start) = none ∧ call.fates.resume.stateFailed ≠ .done ∧
        call.fates.resume.stateEmbedded ≠ .done := by
  obtain ⟨newTree, noted, isStamped, describes | ⟨notHandled, old⟩⟩ := filed
  · exact .inl describes
  · rcases keeps extraction isExtract newTree.all newTree.isSome with replaces | same | ⟨noModel, silent⟩
    · exact absurd replaces.2.2.2 notHandled
    · exact .inl (newTree.describes_of_old old same)
    · refine .inr ⟨?_, silent⟩
      rcases noted.model with isNone | ⟨notDone, isOld⟩
      · exact isNone
      · rcases noModel with ⟨_, isDone⟩ | isNone
        · exact absurd isDone notDone
        · exact isOld.trans isNone

/-- **`resume_from_chunk` from there.** -/
theorem resume_own {run : EmbedRun} {fates : ResumeFates} (named : Named id before)
    (known : Describes tools binary id before ∨
      before.modelOf id = none ∧ fates.stateFailed ≠ .done ∧ fates.stateEmbedded ≠ .done) :
    ResumeRules tools binary id run fates before (Own tools binary id) := by
  have own : ∀ after : Library, after.files = before.files → after.corpus = before.corpus →
      Named id after → (before.modelOf id = none → fates.stateFailed ≠ .done → fates.stateEmbedded ≠ .done →
        after.modelOf id = none) → Own tools binary id after := by
    intro after sameFiles sameCorpus isNamed noModel
    refine ⟨isNamed, fun isModel => .inr ?_⟩
    rcases known with describes | ⟨isNone, notFailed, notEmbedded⟩
    · intro envelope isEnvelope
      rw [Library.readEnvelope, sameFiles] at isEnvelope
      rw [Library.tree, sameCorpus]
      exact describes envelope isEnvelope
    · exact absurd (noModel isNone notFailed notEmbedded) isModel
  -- an EMBED run leaves everything but the vectors
  have embedded : ∀ after : Library, after = { before with stamps := after.stamps, table := after.table } →
      after.files = before.files ∧ after.corpus = before.corpus ∧ Named id after ∧
        after.modelOf id = before.modelOf id := by
    intro after same
    rw [same]
    exact ⟨rfl, rfl, named.of_same rfl rfl, rfl⟩
  have plain : ∀ after : Library, after = { before with stamps := after.stamps, table := after.table } →
      Own tools binary id after := by
    intro after same
    obtain ⟨sameFiles, sameCorpus, isNamed, sameModel⟩ := embedded after same
    exact own after sameFiles sameCorpus isNamed fun isNone _ _ => sameModel.trans isNone
  exact
    { stop := own before rfl rfl named fun isNone _ _ => isNone
      unread := fun _ => own _ rfl rfl (named.of_same rfl rfl) fun _ _ _ => Library.modelOf_setState _ _ _
      broken := fun after broken => plain after broken.rest
      brokenNoted := by
        intro after broken isDone
        obtain ⟨sameFiles, sameCorpus, isNamed, _⟩ := embedded after broken.rest
        exact own _ sameFiles sameCorpus (isNamed.of_same rfl rfl) fun _ notFailed => absurd isDone notFailed
      full := fun after full => plain after full.rest
      promoted := by
        intro after full _ _
        obtain ⟨sameFiles, sameCorpus, isNamed, sameModel⟩ := embedded after full.rest
        exact own _ sameFiles sameCorpus (isNamed.setIntakeStatus _) fun isNone _ _ => sameModel.trans isNone
      finished := by
        intro after full _ isDone
        obtain ⟨sameFiles, sameCorpus, isNamed, _⟩ := embedded after full.rest
        refine own _ sameFiles sameCorpus ((isNamed.setIntakeStatus .embedded).of_same rfl rfl) ?_
        exact fun _ _ notEmbedded => absurd isDone notEmbedded }

/-- What storing the envelope leaves, from the old one on. -/
theorem filed_known {before after : Library}
    (stamped : KnownAt tools binary call start extraction .stamped before)
    (filed : Filed (call.target start) call.sourceSha extraction call.fates.envelope before after) :
    KnownAt tools binary call start extraction .filed after := by
  obtain ⟨newTree, noted, isStamped, old⟩ := stamped
  have named := newTree.named.filed filed
  have same := filed.rest
  have newTree' : NewTree tools binary call start extraction after := by
    refine ⟨named, ?_, newTree.all, ?_⟩
    · exact fun isEmbedded => newTree.notEmbedded (filed.isEmbedded.mp isEmbedded)
    · rw [same]
      exact newTree.isTree
  have noted' : Noted call start after := by
    refine ⟨noted.isParsed, noted.notCut, ?_⟩
    rw [same]
    exact noted.model
  refine ⟨newTree', noted', isStamped, ?_⟩
  rcases filed.canonical with isNew | isNone | ⟨isOld, notHandled⟩
  · refine .inl fun envelope isEnvelope => ?_
    rw [named.readEnvelope, isNew] at isEnvelope
    obtain rfl := StoreFile.envelope.inj (Option.some.inj isEnvelope)
    exact newTree'.isTree
  · refine .inl fun envelope isEnvelope => ?_
    rw [named.readEnvelope, isNone] at isEnvelope
    cases isEnvelope
  · refine .inr ⟨notHandled, fun envelope isEnvelope => old envelope ?_⟩
    rwa [newTree.named.readEnvelope, ← isOld, ← named.readEnvelope]

theorem stages_own (isExtract : call.extract = .extracted extraction)
    (keeps : call.KeepsDescribed tools binary start) :
    StageRules tools binary (call.target start) call extraction (KnownAt tools binary call start extraction)
      (Own tools binary (call.target start)) where
  demote := by
    rintro before ⟨own, sameModel, old⟩ _
    have embedded : (before.setIntakeStatus (call.target start) .extracted).IsEmbedded (call.target start) ↔
        call.target start ≠ call.target start ∧ before.IsEmbedded (call.target start) :=
      isEmbedded_setIntakeStatus IntakeStatus.noConfusion
    refine ⟨⟨own.named.setIntakeStatus _, own.described.of_same rfl rfl rfl ?_⟩, ?_, sameModel, old⟩
    · exact fun isEmbedded => (embedded.mp isEmbedded).2
    · exact fun isEmbedded => (embedded.mp isEmbedded).1 rfl
  emptied := by
    rintro before after ⟨own, notEmbedded, _⟩ emptied
    have same := emptied.retree.corpus
    refine ⟨own.named.of_same ?_ ?_, fun _ => .inl ⟨emptied.retree.self, ?_⟩⟩
    · rw [same]
      rfl
    · rw [same]
      rfl
    · rw [same]
      exact notEmbedded
  built := by
    rintro before after tree ⟨own, notEmbedded, sameModel, old⟩ all isTree retree
    have same := retree.corpus
    refine ⟨⟨own.named.of_same ?_ ?_, ?_, all, ?_⟩, ?_, ?_⟩
    · rw [same]
      rfl
    · rw [same]
      rfl
    · rw [same]
      exact notEmbedded
    · rw [retree.self]
      exact isTree
    · rw [same]
      exact sameModel
    · rw [same]
      exact old
  noted := by
    rintro before ⟨newTree, _, old⟩ isParsed isDone
    refine ⟨⟨newTree.named.of_same rfl rfl, newTree.notEmbedded, newTree.all, newTree.isTree⟩,
      ⟨isParsed, by simp [isDone], .inl (Library.modelOf_setState _ _ _)⟩, old⟩
  unnoted := by
    rintro before ⟨newTree, sameModel, old⟩ isParsed isFailed
    exact ⟨newTree, ⟨isParsed, by simp [isFailed], .inr ⟨by simp [isFailed], sameModel⟩⟩, old⟩
  stamped := by
    rintro before ⟨newTree, noted, old⟩ isDone
    refine ⟨⟨newTree.named.setExtraction _ _, ?_, newTree.all, newTree.isTree⟩,
      ⟨noted.isParsed, noted.notCut, noted.model⟩,
      isDone, old⟩
    exact fun isEmbedded => newTree.notEmbedded ((isEmbedded_setExtraction _ _).mp isEmbedded)
  filed := fun _ _ stamped filed => filed_known stamped filed
  held := by
    rintro before ⟨newTree, _⟩ _
    exact ⟨newTree.named.of_same rfl rfl, described_of_noModel (Library.modelOf_setState _ _ _)⟩
  resume := fun _ filed _ => resume_own filed.1.named (filed_cases isExtract keeps filed)
  stopBuilt := by
    rintro before ⟨newTree, sameModel, old⟩ stopped
    refine newTree.own ?_
    rcases keeps extraction isExtract newTree.all newTree.isSome with replaces | same | ⟨noModel, _⟩
    · exact absurd ⟨replaces.1, replaces.2.1⟩ stopped
    · exact .inr (newTree.describes_of_old old same)
    · rcases noModel with ⟨isParsed, isDone⟩ | isNone
      · exact absurd ⟨isParsed, by simp [isDone]⟩ stopped
      · exact .inl (sameModel.trans isNone)
  stopNoted := by
    rintro before ⟨newTree, noted, old⟩ notStamped
    refine newTree.own ?_
    rcases keeps extraction isExtract newTree.all newTree.isSome with replaces | same | ⟨noModel, _⟩
    · exact absurd replaces.2.2.1 notStamped
    · exact .inr (newTree.describes_of_old old same)
    · rcases noted.model with isNone | ⟨notDone, sameModel⟩
      · exact .inl isNone
      · rcases noModel with ⟨_, isDone⟩ | isNone
        · exact absurd isDone notDone
        · exact .inl (sameModel.trans isNone)
  stop := by
    rintro before (registered | demoted | filed)
    · exact registered.1
    · exact demoted.1
    · refine filed.1.own ?_
      rcases filed_cases isExtract keeps filed with describes | ⟨isNone, _⟩
      · exact .inr describes
      · exact .inl isNone

/-! ### Restamping -/

theorem compareEnvelope_unchanged {intake : Intake} {file : Option StoreFile}
    (unchanged : compareEnvelope intake extraction file = .unchanged) : ∃ envelope,
      file = some (.envelope envelope) ∧
      { envelope.extraction with extractorVersion := extraction.extractorVersion } = extraction := by
  unfold compareEnvelope at unchanged
  cases file with
  | none => cases unchanged
  | some content =>
    cases content with
    | other => cases unchanged
    | envelope envelope =>
      dsimp only at unchanged
      split_ifs at unchanged with mismatched outdated changed
      exact ⟨envelope, rfl, not_not.mp changed⟩

/-- The book's tree is the one the fresh extraction builds, and the envelope on file was that extraction
but for its version. -/
def TellsTruth (tools : Toolchain) (binary : Binary) (call : IngestCall) (before after : Library) (id : Int) :
    Prop :=
  ∃ extraction, call.extract = .extracted extraction ∧
    (∃ envelope, before.readEnvelope id = some (.envelope envelope) ∧
      { envelope.extraction with extractorVersion := extraction.extractorVersion } = extraction) ∧
    builtTree tools binary id extraction.content = some (after.tree id)

/-- What the comparison has seen of a book whose invariant holds. -/
theorem Compared.described {intake : Intake} (own : Own tools binary intake.intakeId start)
    (compared : Compared binary call start intake extraction) : ∃ envelope,
      start.readEnvelope intake.intakeId = some (.envelope envelope) ∧
      { envelope.extraction with extractorVersion := extraction.extractorVersion } = extraction ∧
      builtTree tools binary intake.intakeId extraction.content = some (start.tree intake.intakeId) := by
  obtain ⟨envelope, isEnvelope, same⟩ := compareEnvelope_unchanged compared.unchanged
  obtain ⟨isEmbedded, isModel⟩ := behind_embedded compared.onFile
  refine ⟨envelope, isEnvelope, same, ?_⟩
  rcases own.described isModel with ⟨_, notEmbedded⟩ | describes
  · exact absurd isEmbedded notEmbedded
  · rw [← describes envelope isEnvelope, ← same]

/-- Storing the compared extraction changes no content. -/
theorem restamp_filed {intake : Intake} {fates : EnvelopeFates} {after : Library}
    (own : Own tools binary intake.intakeId start) (compared : Compared binary call start intake extraction)
    (filed : Filed intake.intakeId call.sourceSha extraction fates start after) :
    Own tools binary intake.intakeId after ∧ after.modelOf intake.intakeId = start.modelOf intake.intakeId ∧
      OldEnvelope intake.intakeId start after := by
  obtain ⟨found, isFound, same, isTree⟩ := compared.described own
  have named := own.named.filed filed
  have rest := filed.rest
  have sameModel : after.modelOf intake.intakeId = start.modelOf intake.intakeId := by
    rw [rest]
    rfl
  have old : OldEnvelope intake.intakeId start after := by
    intro envelope isEnvelope
    refine ⟨found, isFound, ?_⟩
    rw [named.readEnvelope] at isEnvelope
    rcases filed.canonical with isNew | isNone | ⟨isOld, _⟩
    · rw [isNew] at isEnvelope
      obtain rfl := StoreFile.envelope.inj (Option.some.inj isEnvelope)
      rw [← same]
    · cases isNone.symm.trans isEnvelope
    · rw [isOld, ← own.named.readEnvelope, isFound] at isEnvelope
      rw [StoreFile.envelope.inj (Option.some.inj isEnvelope)]
  refine ⟨⟨named, fun _ => .inr ?_⟩, sameModel, old⟩
  intro envelope isEnvelope
  obtain ⟨other, isOther, sameContent⟩ := old envelope isEnvelope
  obtain rfl := StoreFile.envelope.inj (Option.some.inj (isFound.symm.trans isOther))
  rw [sameContent, rest]
  rw [← same] at isTree
  exact isTree

/-- What an ingest leaves of its book, and what a restamp it reports is worth. -/
theorem ingest_own (consistent : Consistent tools binary start) (admissible : call.Admissible start)
    (keeps : call.KeepsDescribed tools binary start) :
    Ends (ingestBook tools binary call) start
      (fun report after => Consistent tools binary after ∧
        (report.restamped = true → TellsTruth tools binary call start after report.intakeId))
      (fun _ => Consistent tools binary) (Consistent tools binary) := by
  have own := consistent.own (call.target start) (admissible.target_fits consistent.sound)
  have rules : IngestRules tools binary call start (KnownAt tools binary call start)
      (fun report after => Own tools binary (call.target start) after ∧
        (report.restamped = true → TellsTruth tools binary call start after report.intakeId))
      (Own tools binary (call.target start)) :=
    { stay := own
      current := fun _ _ _ => ⟨own, fun isRestamped => (by cases isRestamped)⟩
      anchored := by
        intro after new anchored
        rw [target_of_new new] at own ⊢
        have same := anchored.rest
        refine ⟨own.named.anchored anchored, own.described.of_same ?_ ?_ ?_ ?_⟩
        · rw [same]
          rfl
        · rw [same]
          rfl
        · rw [(own.named.anchored anchored).readEnvelope, own.named.readEnvelope]
          exact anchored.files _ StoreName.noConfusion
        · rintro ⟨intake, member, isId, isEmbedded⟩
          exact absurd isEmbedded (anchored.status intake member isId)
      filed := by
        intro intake extraction after compared filed
        rw [target_of_known (known_of_behind compared.onFile)] at own ⊢
        exact (restamp_filed own compared filed).1
      restamped := by
        intro intake extraction after compared filed _
        rw [target_of_known (known_of_behind compared.onFile)] at own ⊢
        have kept := (restamp_filed own compared filed).1
        have stamped : Own tools binary intake.intakeId
            (after.setExtraction intake.intakeId extraction.adapter extraction.extractorVersion) :=
          ⟨kept.named.setExtraction _ _, kept.described.of_same rfl rfl rfl (isEmbedded_setExtraction _ _).mp⟩
        obtain ⟨found, isFound, same, isTree⟩ := compared.described own
        refine ⟨stamped, stamped, fun _ => ⟨extraction, compared.extract, ⟨found, isFound, same⟩, ?_⟩⟩
        have rest := filed.rest
        rw [rest]
        exact isTree
      stages := fun extraction isExtract => stages_own isExtract keeps
      registered := by
        intro _ _
        refine ⟨⟨own.named.registered _ _, own.described.of_same ?_ ?_ ?_ ?_⟩, ?_, ?_⟩
        · rw [registered_eq]
          rfl
        · rw [registered_eq]
          rfl
        · rw [registered_eq]
          rfl
        · exact (isEmbedded_registered _ _).mp
        · rw [registered_eq]
          rfl
        · rw [registered_eq]
          exact fun envelope isEnvelope => ⟨envelope, isEnvelope, rfl⟩
      refiled := by
        intro intake extraction after compared filed _
        have isTarget := target_of_known (known_of_behind compared.onFile)
        show Own tools binary (call.target start) after ∧
          after.modelOf (call.target start) = start.modelOf (call.target start) ∧
          OldEnvelope (call.target start) start after
        rw [isTarget] at own ⊢
        exact restamp_filed own compared filed
      staged := by
        rintro report after ⟨_, notRestamped⟩ kept
        exact ⟨kept, fun isRestamped => absurd (notRestamped.symm.trans isRestamped) Bool.false_ne_true⟩ }
  refine (ingestBook_ends consistent.sound admissible rules).mono ?_ ?_ ?_
  · exact fun report after holds => ⟨consistent.of_local holds.1 holds.2.1, holds.2.2⟩
  · exact fun _ after holds => consistent.of_local holds.1 holds.2
  · exact fun after holds => consistent.of_local holds.1 holds.2

end Ingest

/-! ### Reset and rebuild -/

section Reset

variable {run : ResetRun}

theorem rechunkOne_consistent {position : Nat} {intake : Intake} {report : ResetReport}
    (consistent : Consistent tools binary before) (fits : PartitionIdx.Fits ⟨intake.intakeId⟩) :
    Ends (rechunkOne tools binary run position intake report) before
      (fun _ => Consistent tools binary) (fun _ => Consistent tools binary) (Consistent tools binary) := by
  have own := consistent.own intake.intakeId fits
  have kept : ∀ after : Library, after = { before with stamps := after.stamps, table := after.table } →
      Own tools binary intake.intakeId after := by
    intro after same
    rw [same]
    exact ⟨own.named.of_same rfl rfl, own.described.of_same rfl rfl rfl fun isEmbedded => isEmbedded⟩
  refine (rechunkOne_ends fits consistent.sound (kept before rfl) (fun _ => kept before rfl)
    (fun after broken => kept after broken.rest) ?_).mono (fun _ after holds =>
      consistent.of_local holds.1 holds.2)
    (fun _ after holds => consistent.of_local holds.1 holds.2) fun after holds =>
      consistent.of_local holds.1 holds.2
  -- a book with a plan has a tree, so the envelope describes it
  intro plans written after planned refilled isAll
  refine ⟨kept after refilled.rest, fun _ => ⟨(kept after refilled.rest).named.setIntakeStatus _,
    fun isModel => ?_⟩⟩
  have isOld : before.modelOf intake.intakeId ≠ none := by
    have same := refilled.rest
    rw [same] at isModel
    exact isModel
  rcases own.described isOld with ⟨isNil, _⟩ | describes
  · rw [isNil] at planned
    exact absurd (planBookChunks_nil planned) refilled.isCons
  · right
    rw [refilled.rest]
    exact describes

theorem rechunk_consistent (consistent : Consistent tools binary before) :
    Ends (do
        write run.listExtracted .catalog fun library => library
        let targets ← read (·.intakesWithStatus .extracted)
        loop targets ⟨0, 0, []⟩ (rechunkOne tools binary run)) before
      (fun _ => Consistent tools binary) (fun _ => Consistent tools binary) (Consistent tools binary) := by
  rw [ends_bind]
  refine Ends.write (fun _ => ?_) (fun _ => consistent) fun _ => consistent
  rw [ends_bind, ends_read]
  refine Ends.loop (fun _ => Consistent tools binary) consistent ?_
  intro position intake report library isIntake consistentSoFar
  have isOnFile := (mem_intakesWithStatus.mp (List.mem_of_getElem? isIntake)).1
  exact rechunkOne_consistent consistentSoFar (consistent.sound.fits intake isOnFile)

theorem Consistent.bare (consistent : Consistent tools binary before) :
    Consistent tools binary (bareLibrary before) :=
  ⟨bareLibrary_sound consistent.sound, fun id fits => ⟨(consistent.own id fits).named.of_same rfl rfl,
    (consistent.own id fits).described.of_same rfl rfl rfl fun isEmbedded => isEmbedded⟩⟩

theorem Consistent.demoted {ids : List Intake} : ∀ {library : Library}, Consistent tools binary library →
    (∀ intake ∈ ids, PartitionIdx.Fits ⟨intake.intakeId⟩) → Consistent tools binary (demoted ids library) := by
  induction ids with
  | nil => exact fun consistent _ => consistent
  | cons intake rest ih =>
    intro library consistent fits
    obtain ⟨here, later⟩ := List.forall_mem_cons.mp fits
    have own := consistent.own intake.intakeId here
    refine ih (consistent.of_local (local_setIntakeStatus library .extracted) ⟨own.named.setIntakeStatus _,
      ?_⟩) later
    refine own.described.of_same rfl rfl rfl fun isEmbedded => ?_
    exact ((isEmbedded_setIntakeStatus IntakeStatus.noConfusion).mp isEmbedded).2

theorem reset_consistent (isResume : Bool) (consistent : Consistent tools binary before) :
    Consistent tools binary ((resetAndRechunk tools binary isResume run).left before) := by
  have ends : Ends (resetAndRechunk tools binary isResume run) before
      (fun _ => Consistent tools binary) (fun _ => Consistent tools binary) (Consistent tools binary) := by
    unfold resetAndRechunk
    cases isResume with
    | true => exact rechunk_consistent consistent
    | false =>
      have fits : ∀ intake ∈ before.intakesWithStatus .embedded, PartitionIdx.Fits ⟨intake.intakeId⟩ :=
        fun intake member => consistent.sound.fits intake (mem_intakesWithStatus.mp member).1
      rw [if_neg Bool.false_ne_true]
      refine (dropVectors_ends consistent ?_ ?_).bind ?_
      · exact fun _ _ => ⟨⟨consistent.sound.placed, consistent.sound.distinct, consistent.sound.fits⟩,
          fun id fits => ⟨(consistent.own id fits).named.of_same rfl rfl,
            (consistent.own id fits).described.of_same rfl rfl rfl fun isEmbedded => isEmbedded⟩⟩
      · exact fun count _ _ _ => consistent.bare.demoted fun intake member =>
          fits intake (List.mem_of_mem_take member)
      · rintro _ after ⟨_, _, rfl⟩
        exact rechunk_consistent (consistent.bare.demoted fits)
  exact ends.left

end Reset

section Rebuild

variable {run : RebuildRun}

/-- A rebuild that drops the tree of an `Embedded` book with a model on its state builds it again. -/
def RebuildRun.KeepsDescribed (tools : Toolchain) (binary : Binary) (library : Library) (run : RebuildRun) :
    Prop :=
  ∀ targets, rebuildTargets binary run.params library = .ok targets →
    ∀ position intake, targets[position]? = some intake → intake.status = .embedded →
    library.modelOf intake.intakeId ≠ none → ∀ envelope, run.Takes library intake envelope →
    (bookBatch tools binary envelope.extraction.content).isSome → (run.tree position).drop = .done →
    run.tree position = .allDone ∧ (builtTree tools binary intake.intakeId envelope.extraction.content).isSome

theorem rebuild_consistent {start : Library} (consistent : Consistent tools binary start)
    (keeps : run.KeepsDescribed tools binary start) :
    Consistent tools binary ((rebuildFromIntakes tools binary run).left start) := by
  have ends : Ends (rebuildFromIntakes tools binary run) start
      (fun _ => Consistent tools binary) (fun _ => Consistent tools binary) (Consistent tools binary) := by
    unfold rebuildFromIntakes
    rw [ends_bind]
    refine Ends.write (fun _ => ?_) (fun _ => consistent) fun _ => consistent
    rw [ends_bind, ends_read]
    cases isTargets : rebuildTargets binary run.params start with
    | error reason => exact consistent
    | ok targets =>
      refine (Ends.loop (fun _ library => Consistent tools binary library ∧ Retreed start library)
        ⟨consistent, rfl⟩ ?_).mono (fun _ _ holds => holds.1) (fun _ _ holds => holds) fun _ holds => holds
      rintro position intake report library isIntake ⟨soFar, retreed⟩
      have isOnFile := mem_of_rebuildTargets isTargets intake (List.mem_of_getElem? isIntake)
      have fits := consistent.sound.fits intake isOnFile
      have own := soFar.own intake.intakeId fits
      have isOnFile' : intake ∈ library.intakes := by
        rw [retreed]
        exact isOnFile
      have turned : ∀ {after tree}, Retree ⟨intake.intakeId⟩ tree library after →
          Described tools binary intake.intakeId after →
          Own tools binary intake.intakeId after ∧ Retreed start after := by
        intro after tree retree described
        have same := retree.corpus
        refine ⟨⟨own.named.of_same ?_ ?_, described⟩, ?_⟩
        · rw [same]
          rfl
        · rw [same]
          rfl
        · rw [Retreed, same, retreed]
          rfl
      have turn : Ends (rebuildOne tools binary run position intake report) library
          (fun _ after => Local intake.intakeId library after ∧
            Own tools binary intake.intakeId after ∧ Retreed start after)
          (fun _ after => Local intake.intakeId library after ∧
            Own tools binary intake.intakeId after ∧ Retreed start after)
          (fun after => Local intake.intakeId library after ∧
            Own tools binary intake.intakeId after ∧ Retreed start after) := by
        refine rebuildOne_ends fits soFar.sound ⟨own, retreed⟩ ?_ ?_
        · -- the tree rebuilt is the envelope's
          intro envelope after tree takes all isTree retree
          refine turned retree fun _ => .inr fun found isFound => ?_
          have isTaken := own.named.taken isOnFile' rfl takes
          have sameFile : after.readEnvelope intake.intakeId = library.readEnvelope intake.intakeId := by
            rw [retree.corpus]
            rfl
          rw [sameFile, isTaken] at isFound
          rw [← StoreFile.envelope.inj (Option.some.inj isFound), retree.self, isTree]
        · -- a book left without a tree is not `Embedded`
          intro envelope after takes emptied
          have retree := emptied.retree
          refine turned retree fun isModel => .inl ⟨retree.self, ?_⟩
          rintro ⟨other, isOther, same, isEmbedded⟩
          have isRetreed : after = start.setCorpus after.corpus := by
            rw [retree.corpus, retreed]
            rfl
          rw [isRetreed] at isOther isModel
          obtain rfl := consistent.sound.unique isOther isOnFile same
          have wasTaken : run.Takes start other envelope := by
            refine ⟨takes.wet, ?_, takes.source⟩
            obtain ⟨path, isPath, isFile⟩ := takes.path
            rw [retreed] at isFile
            exact ⟨path, isPath, isFile⟩
          exact emptied.unbuilt (keeps targets isTargets position other isIntake isEmbedded isModel envelope
            wasTaken emptied.isBatch emptied.dropped)
      refine turn.mono ?_ ?_ ?_
      · exact fun _ after holds => ⟨soFar.of_local holds.1 holds.2.1, holds.2.2⟩
      · exact fun _ after holds => soFar.of_local holds.1 holds.2.1
      · exact fun after holds => soFar.of_local holds.1 holds.2.1
  exact ends.left

end Rebuild

/-! ### Runs -/

/-- One call by a binary of some extractor version. -/
inductive VersionedCall
  | ingest (extractorVersion : Nat) (call : IngestCall)
  | reset (extractorVersion : Nat) (isResume : Bool) (run : ResetRun)
  | rebuild (extractorVersion : Nat) (run : RebuildRun)

/-- The binary with another extractor. -/
def Binary.withExtractor (binary : Binary) (extractorVersion : Nat) : Binary := { binary with extractorVersion }

namespace VersionedCall

section Calls

variable (tools : Toolchain) (binary : Binary)

/-- The library a call leaves. -/
def left : VersionedCall → Library → Library
  | .ingest version call => (ingestBook tools (Binary.withExtractor binary version) call).left
  | .reset version isResume run => (resetAndRechunk tools (Binary.withExtractor binary version) isResume
    run).left
  | .rebuild version run => (rebuildFromIntakes tools (Binary.withExtractor binary version) run).left

/-- One call, from the library it finds to the one it leaves. -/
def Step (before : Library) (call : VersionedCall) (after : Library) : Prop :=
  (match call with
    | .ingest _ call => call.Admissible before
    | .reset _ _ _ | .rebuild _ _ => True) ∧ after = call.left tools binary before

/-- What a call must meet for the envelopes to describe the trees. -/
def KeepsDescribed (library : Library) : VersionedCall → Prop
  | .ingest version call => call.KeepsDescribed tools (Binary.withExtractor binary version) library
  | .reset _ _ _ => True
  | .rebuild version run => run.KeepsDescribed tools (Binary.withExtractor binary version) library

/-- An ingest that returns a restamp has told the truth. -/
def RestampsTruly (before : Library) (call : VersionedCall) (after : Library) : Prop :=
  match call with
  | .ingest version call => ∀ report,
    (ingestBook tools (Binary.withExtractor binary version) call).ending before = .value report →
    report.restamped = true →
    TellsTruth tools (Binary.withExtractor binary version) call before after report.intakeId
  | .reset _ _ _ | .rebuild _ _ => True

end Calls

/-- The invariant does not depend on the extractor's version. -/
theorem consistent_withExtractor {version : Nat} :
    Consistent tools (Binary.withExtractor binary version) library ↔ Consistent tools binary library :=
  ⟨fun consistent => ⟨consistent.sound, fun id fits =>
    ⟨(consistent.own id fits).named, (consistent.own id fits).described⟩⟩,
    fun consistent => ⟨consistent.sound, fun id fits =>
      ⟨(consistent.own id fits).named, (consistent.own id fits).described⟩⟩⟩

/-- **The step lemma.** -/
theorem consistent_step {call : VersionedCall} (consistent : Consistent tools binary before)
    (step : call.Step tools binary before after) (keeps : call.KeepsDescribed tools binary before) :
    Consistent tools binary after ∧ call.RestampsTruly tools binary before after := by
  obtain ⟨admissible, rfl⟩ := step
  cases call with
  | ingest version call =>
    have ends := ingest_own (consistent_withExtractor.mpr consistent) admissible keeps
    have left := (ends.mono (fun _ _ holds => holds.1) (fun _ _ holds => holds) fun _ holds => holds).left
    refine ⟨consistent_withExtractor.mp left, ?_⟩
    exact fun report returned isRestamped => (ends.of_value returned).2 isRestamped
  | reset version isResume run =>
    have left : Consistent tools (Binary.withExtractor binary version)
        ((resetAndRechunk tools (Binary.withExtractor binary version) isResume run).left before) :=
      reset_consistent isResume (consistent_withExtractor.mpr consistent)
    exact ⟨consistent_withExtractor.mp left, trivial⟩
  | rebuild version run =>
    have left := rebuild_consistent (consistent_withExtractor.mpr consistent) keeps
    exact ⟨consistent_withExtractor.mp left, trivial⟩

end VersionedCall

theorem empty_consistent : Consistent tools binary Library.empty := by
  refine ⟨Library.empty_sound, fun id _ => ⟨⟨?_, rfl, ?_⟩, described_of_noModel rfl⟩⟩
  · intro _ member
    cases member
  · intro _ isFile
    cases isFile

/-- **Along a run whose calls meet the condition, every restamp that is returned tells the truth.** -/
theorem restamp_tells_truth {trace : List (VersionedCall × Library)}
    (isRun : Run.Along (fun before call after => call.Step tools binary before after) Library.empty trace)
    (keeps : Run.Along (fun before call _ => call.KeepsDescribed tools binary before) Library.empty trace) :
    Run.Along (fun before call after => call.RestampsTruly tools binary before after) Library.empty trace := by
  have along := (isRun.and keeps).invariant (Consistent tools binary)
    (fun before call after consistent holds => call.consistent_step consistent holds.1 holds.2) empty_consistent
  exact along.mono fun _ _ _ holds => holds.2.2

/-! ### A run that breaks it -/

/-- An ingest of the one file by an extractor of this version that reads this paragraph. -/
def readAs (version : Nat) (text : String) (newId : Int) (fates : IngestFates) : IngestCall :=
  ⟨"sha", .extracted (oneParagraph text version), false, false, newId, "now", smoothRun "model", fates⟩

/-- An ingest cut off between the write of the tree and the write of the state. -/
def cutBeforeState : IngestFates := { IngestFates.allDone with stateStructure := .cut }

/-- Extractor 1 reads "a"; extractor 2 reads "b" and is cut off; a reset embeds that tree; extractor 3 reads
"a" again. -/
def staleEnvelope : List VersionedCall :=
  [.ingest 1 (readAs 1 "a" 1 .allDone), .ingest 2 (readAs 2 "b" 2 cutBeforeState), .reset 2 true smoothReset]

/-- The library these calls leave. -/
def afterCalls (calls : List VersionedCall) : Library :=
  calls.foldl (fun library call => call.left wholeTools ⟨1, 1, 1⟩ library) Library.empty

/-- Extractor 2 finds the paragraph extractor 1 found: the ingest returns a restamp, and a true one. -/
theorem restamp_tells_truth_upgrade :
    let first := afterCalls (staleEnvelope.take 1)
    let again := readAs 2 "a" 2 .allDone
    let second := (VersionedCall.ingest 2 again).left wholeTools ⟨1, 1, 1⟩ first
    Run.Along (fun before call after => call.RestampsTruly wholeTools ⟨1, 1, 1⟩ before after) Library.empty
      [(VersionedCall.ingest 1 (readAs 1 "a" 1 .allDone), first), (VersionedCall.ingest 2 again, second)] ∧
      (ingestBook wholeTools (Binary.withExtractor ⟨1, 1, 1⟩ 2) again).ending first =
        .value (.untouched 1 false true) ∧
      TellsTruth wholeTools (Binary.withExtractor ⟨1, 1, 1⟩ 2) again first second 1 := by
  intro first again second
  have along : Run.Along (fun before call after => call.RestampsTruly wholeTools ⟨1, 1, 1⟩ before after)
      Library.empty
      [(VersionedCall.ingest 1 (readAs 1 "a" 1 .allDone), first), (VersionedCall.ingest 2 again, second)] := by
    refine restamp_tells_truth ⟨⟨⟨by decide, by decide⟩, rfl⟩, ⟨⟨by decide, by decide⟩, rfl⟩, trivial⟩
      ⟨?_, ?_, trivial⟩
    · exact fun _ _ _ _ => .inl ⟨rfl, Fate.noConfusion, rfl, .inl rfl⟩
    · exact fun _ _ _ _ => .inl ⟨rfl, Fate.noConfusion, rfl, .inl rfl⟩
  have returns : (ingestBook wholeTools (Binary.withExtractor ⟨1, 1, 1⟩ 2) again).ending first =
      .value (.untouched 1 false true) := by
    decide
  exact ⟨along, returns, along.2.1 _ returns rfl⟩

/-- **Not every restamp tells the truth**: the envelope of an interrupted ingest is older than the tree. -/
theorem restamp_hides_change : ¬ ∀ (tools : Toolchain) (binary : Binary)
    (trace : List (VersionedCall × Library)),
    Run.Along (fun before call after => call.Step tools binary before after) Library.empty trace →
    Run.Along (fun before call after => call.RestampsTruly tools binary before after) Library.empty trace := by
  intro always
  let last := VersionedCall.ingest 3 (readAs 3 "a" 3 .allDone)
  have truly := (always wholeTools ⟨1, 1, 1⟩
    [(VersionedCall.ingest 1 (readAs 1 "a" 1 .allDone), afterCalls (staleEnvelope.take 1)),
      (VersionedCall.ingest 2 (readAs 2 "b" 2 cutBeforeState), afterCalls (staleEnvelope.take 2)),
      (VersionedCall.reset 2 true smoothReset, afterCalls staleEnvelope),
      (last, last.left wholeTools ⟨1, 1, 1⟩ (afterCalls staleEnvelope))]
    ⟨⟨⟨by decide, by decide⟩, rfl⟩, ⟨⟨by decide, by decide⟩, rfl⟩, ⟨trivial, rfl⟩,
      ⟨⟨by decide, by decide⟩, rfl⟩, trivial⟩).2.2.2.1
  obtain ⟨extraction, isExtract, _, isTree⟩ := truly (.untouched 1 false true) (by decide) rfl
  obtain rfl : oneParagraph "a" 3 = extraction := ExtractOutcome.extracted.inj isExtract
  have differs : builtTree wholeTools (Binary.withExtractor ⟨1, 1, 1⟩ 3) 1 (oneParagraph "a" 3).content ≠
      some ((last.left wholeTools ⟨1, 1, 1⟩ (afterCalls staleEnvelope)).tree 1) := by decide
  exact differs isTree

end Bookrack.Ingest
