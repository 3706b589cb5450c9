/-
Removing one book from every store (`runtime/src/cmd/remove.rs`, `catalog/src/cascade.rs`), as a program over
a library with the derived tables of its catalog.

* `executeRemoveFromPlan` — the drift check and the five deletions, the intake row last.
* `Others` — the rows, nodes, chunks and files of every other intake are as they were.
* **`executeRemoveFromPlan_ends`** — a call that stops early has kept the intake row; one that returns has left
  the rows of an unstamped index and an envelope the row does not name, and nothing else of the book.
-/

import Bookrack.Library.Within

namespace Bookrack

open Prog

/-! ### The derived tables -/

/-- The tables of the cascade beside `item_state` and the abstract column of the book's own attributes. -/
inductive DerivedTable
  | nodePublicationAttrs
  | nodeOverrides
  | nodeContributors
  | nodeCategories
  | nodeReviews
  | nodeRoleTakeovers
  | nodePaperAudit
  | tocEdits
  deriving DecidableEq, Repr

/-- The key of a book's rows: `book_root_id` for the TOC overlay, `intake_id` elsewhere. -/
def DerivedTable.keyOf (id : Int) : DerivedTable → Int
  | .tocEdits => (PartitionIdx.root ⟨id⟩).get
  | _ => id

/-- A row of a derived table, by its key column; `content` is the other columns. -/
structure DerivedRow where
  key : Int
  content : String
  deriving DecidableEq, Repr

/-- A library with the derived tables of its catalog. -/
structure Shelf where
  library : Library
  derived : DerivedTable → List DerivedRow

/-- `ItemRemovalCounts`. -/
structure ItemRemovalCounts where
  bookState : Nat
  nodePublicationAttrs : Nat
  nodeOverrides : Nat
  nodeContributors : Nat
  nodeCategories : Nat
  nodeReviews : Nat
  nodeRoleTakeovers : Nat
  nodePaperAudit : Nat
  tocEdits : Nat
  deriving DecidableEq, Repr

namespace Library

/-- `delete_intake`. -/
def deleteIntake (id : Int) (library : Library) : Library :=
  { library with intakes := library.intakes.filter fun intake => decide (intake.intakeId ≠ id) }

/-- The `DELETE`s from `item_state` and from the book's own attributes. -/
def clearDerived (id : Int) (library : Library) : Library :=
  { library with
    states := Function.update library.states id none
    attrs := Function.update library.attrs id none }

/-- `drop_partition` of the corpus. -/
def dropNodes (id : Int) (library : Library) : Library :=
  library.setCorpus (library.corpus.dropPartition ⟨id⟩)

end Library

namespace Shelf

/-- A shelf with nothing on it. -/
def empty : Shelf := ⟨.empty, fun _ => []⟩

/-- A write to the library. -/
def change (step : Library → Library) (shelf : Shelf) : Shelf := { shelf with library := step shelf.library }

/-- The rows of one derived table that belong to a book. -/
def derivedOf (shelf : Shelf) (id : Int) (table : DerivedTable) : List DerivedRow :=
  (shelf.derived table).filter fun row => decide (row.key = table.keyOf id)

/-- `count_book_derived`. -/
def countBookDerived (shelf : Shelf) (id : Int) : ItemRemovalCounts where
  bookState := (shelf.library.states id).toList.length
  nodePublicationAttrs :=
    (shelf.library.attrs id).toList.length + (shelf.derivedOf id .nodePublicationAttrs).length
  nodeOverrides := (shelf.derivedOf id .nodeOverrides).length
  nodeContributors := (shelf.derivedOf id .nodeContributors).length
  nodeCategories := (shelf.derivedOf id .nodeCategories).length
  nodeReviews := (shelf.derivedOf id .nodeReviews).length
  nodeRoleTakeovers := (shelf.derivedOf id .nodeRoleTakeovers).length
  nodePaperAudit := (shelf.derivedOf id .nodePaperAudit).length
  tocEdits := (shelf.derivedOf id .tocEdits).length

/-- `delete_book_derived`: one transaction over every table. -/
def deleteBookDerived (id : Int) (shelf : Shelf) : Shelf where
  library := shelf.library.clearDerived id
  derived table := (shelf.derived table).filter fun row => decide (row.key ≠ table.keyOf id)

end Shelf

/-! ### The plan -/

/-- `RemovePlan`. -/
structure RemovePlan where
  intake : Intake
  counts : ItemRemovalCounts
  vectorRows : Option Nat
  corpusNodes : Nat
  envelopePath : Option StoreName
  envelopeExists : Bool
  deriving DecidableEq, Repr

/-- The errors of a removal: a `CmdInputError`, or a fault under its context. -/
inductive RemoveError
  | targetDrifted (intakeId : Int) (detail : String)
  | context (text : String)
  | removeEnvelope (path : StoreName)
  deriving DecidableEq, Repr

/-- `RemoveOutcome`. -/
structure RemoveOutcome where
  intakeId : Int
  sourceSha256 : String
  catalogDeleted : ItemRemovalCounts
  intakeRowExisted : Bool
  deriving DecidableEq, Repr

/-- What happens to the reads of `derive_remove_plan`. -/
structure PlanFates where
  count : Fate
  openVectors : Fate
  scan : Fate
  openCorpus : Fate
  countNodes : Fate

/-- Every read goes through. -/
def PlanFates.allDone : PlanFates := ⟨.done, .done, .done, .done, .done⟩

/-- The rows of the book in the chunks table; `none` without a table, and where the scan fails. -/
def countVectorRows (id : Int) (scan : Fate) : Prog Shelf RemoveError (Option Nat) := do
  match ← read (·.library.table) with
  | none => pure none
  | some _ =>
    let scanned ← quietly scan fun shelf => shelf
    read fun shelf => if scanned then some (shelf.library.rowsOf id).length else none

/-- `derive_remove_plan`. -/
def deriveRemovePlan (intake : Intake) (fates : PlanFates) : Prog Shelf RemoveError RemovePlan := do
  write fates.count (.context "count catalog rows") fun shelf => shelf
  let counts ← read (·.countBookDerived intake.intakeId)
  let envelopeExists ← read fun shelf => (intake.storedPath.bind shelf.library.files).isSome
  write fates.openVectors (.context "open vector store") fun shelf => shelf
  let vectorRows ← countVectorRows intake.intakeId fates.scan
  write fates.openCorpus (.context "open corpus") fun shelf => shelf
  write fates.countNodes (.context "count corpus nodes") fun shelf => shelf
  let corpusNodes ← read fun shelf => (shelf.library.tree intake.intakeId).length
  pure ⟨intake, counts, vectorRows, corpusNodes, intake.storedPath, envelopeExists⟩

/-! ### The execution -/

/-- What happens to the reads and writes of one removal. -/
structure RemoveFates where
  openCatalog : Fate
  lookUp : Fate
  plan : PlanFates
  deleteDerived : Fate
  openCorpus : Fate
  dropPartition : Fate
  readDim : Fate
  openVectors : Fate
  deleteRows : Fate
  removeEnvelope : Fate
  deleteIntake : Fate

/-- Every read and write goes through. -/
def RemoveFates.allDone : RemoveFates :=
  ⟨.done, .done, .allDone, .done, .done, .done, .done, .done, .done, .done, .done⟩

/-- The drift check. `fingerprint` is the hash over the fields of a plan; `none` is
`ExpectedFingerprint::None`. -/
def checkDrift (fingerprint : RemovePlan → String) (intake : Intake) (expected : Option String)
    (fates : PlanFates) : Prog Shelf RemoveError Unit :=
  match expected with
  | none => pure ()
  | some expected => do
    let current ← deriveRemovePlan intake fates
    if fingerprint current ≠ expected then
      throw (.targetDrifted intake.intakeId
        ("The dry-run pinned fingerprint " ++ expected ++ "; the target now hashes to " ++
          fingerprint current ++ "."))
    else pure ()

/-- The vector step, which goes by the `vector_dim` stamp (`corpus_vector_dim`). -/
def deleteVectors (id : Int) (fates : RemoveFates) : Prog Shelf RemoveError Unit := do
  write fates.readDim (.context "read vector_dim stamp") fun shelf => shelf
  match ← read (·.library.stamps) with
  | none => pure ()
  | some stamps =>
    write fates.openVectors (.context "open vector store") (Shelf.change (Library.openTable stamps.vectorDim))
    write fates.deleteRows (.context "delete vector partition") (Shelf.change (Library.deleteRows ⟨id⟩))

/-- The envelope step. -/
def removeEnvelope (path : Option StoreName) (fate : Fate) : Prog Shelf RemoveError Unit :=
  match path with
  | none => pure ()
  | some path => do
    match ← read (·.library.files path) with
    | none => pure ()
    | some _ => write fate (.removeEnvelope path) (Shelf.change (Library.removeFile path))

/-- `execute_remove_from_plan`. -/
def executeRemoveFromPlan (fingerprint : RemovePlan → String) (id : Int) (expected : Option String)
    (fates : RemoveFates) : Prog Shelf RemoveError RemoveOutcome := do
  write fates.openCatalog (.context "open catalog") fun shelf => shelf
  write fates.lookUp (.context "look up intake") fun shelf => shelf
  match ← read (·.library.intakeById id) with
  | none => throw (.targetDrifted id "The intake the plan was minted against is no longer in the catalog.")
  | some intake =>
    checkDrift fingerprint intake expected fates.plan
    let deleted ← read (·.countBookDerived id)
    write fates.deleteDerived (.context "delete cascaded catalog rows") (Shelf.deleteBookDerived id)
    write fates.openCorpus (.context "open corpus") fun shelf => shelf
    write fates.dropPartition (.context "drop corpus partition") (Shelf.change (Library.dropNodes id))
    deleteVectors id fates
    removeEnvelope intake.storedPath fates.removeEnvelope
    let existed ← read fun shelf => (shelf.library.intakeById id).isSome
    write fates.deleteIntake (.context "delete intake row") (Shelf.change (Library.deleteIntake id))
    pure ⟨id, intake.sourceSha256, deleted, existed⟩

/-! ### What the single writes leave -/

section Writes

variable {id : Int} (library : Library)

theorem local_clearDerived : Local id library (library.clearDerived id) :=
  fun sound => ⟨⟨sound.placed, sound.distinct, sound.fits⟩, fun _ _ => Iff.rfl,
    fun _ isOther => Function.update_of_ne isOther _ _, fun _ isOther => Function.update_of_ne isOther _ _,
    fun _ _ => rfl, fun _ _ _ => rfl, fun _ _ _ => rfl⟩

theorem local_deleteIntake : Local id library (library.deleteIntake id) := by
  intro sound
  refine ⟨⟨sound.placed, ?_, ?_⟩, ?_, fun _ _ => rfl, fun _ _ => rfl, fun _ _ => rfl, fun _ _ _ => rfl,
    fun _ _ _ => rfl⟩
  · exact sound.distinct.sublist (List.filter_sublist.map _)
  · exact fun intake member => sound.fits intake (List.mem_of_mem_filter member)
  · intro intake isOther
    rw [Library.deleteIntake, List.mem_filter, decide_eq_true_iff]
    exact and_iff_left isOther

theorem local_dropNodes (fits : PartitionIdx.Fits ⟨id⟩) : Local id library (library.dropNodes id) :=
  fun sound => (dropped fits sound.placed).toRetree.local sound

theorem local_openTable (dim : Nat) : Local id library (library.openTable dim) :=
  local_untouched ⟨library.stamps, _, rfl, Library.rows_openTable dim, .inl rfl⟩

theorem rows_deleteRows : (library.deleteRows ⟨id⟩).rows = library.rowsOutside ⟨id⟩ := by
  unfold Library.deleteRows Library.rowsOutside Library.rows
  cases library.table <;> rfl

theorem noRowOutside (id : Int) : ∀ row ∈ ([] : List ChunkRow), inBounds ⟨id⟩ row.plan = true :=
  fun _ member => absurd member List.not_mem_nil

theorem local_deleteRows (fits : PartitionIdx.Fits ⟨id⟩) : Local id library (library.deleteRows ⟨id⟩) := by
  intro sound
  refine ⟨⟨sound.placed, sound.distinct, sound.fits⟩, fun _ _ => Iff.rfl, fun _ _ => rfl, fun _ _ => rfl,
    fun _ _ => rfl, fun _ _ _ => rfl, fun other fits' isOther => ?_⟩
  have same := library.rowsOf_rewritten_ne fits fits' isOther (noRowOutside id)
  rw [List.append_nil] at same
  rw [Library.rowsOf, rows_deleteRows]
  exact same

theorem rowsOf_deleteRows : (library.deleteRows ⟨id⟩).rowsOf id = [] := by
  have same := library.rowsOf_rewritten_self (noRowOutside id)
  rw [List.append_nil] at same
  rw [Library.rowsOf, rows_deleteRows]
  exact same

end Writes

/-! ### The other intakes -/

/-- Everything of the other intakes is as it was. -/
structure Others (id : Int) (before after : Shelf) : Prop where
  library : Within id before.library after.library
  derived : ∀ table : DerivedTable, (after.derived table).filter (fun row => decide (row.key ≠ table.keyOf id)) =
    (before.derived table).filter fun row => decide (row.key ≠ table.keyOf id)

/-- How far a removal has come that still has the intake row. -/
structure Partly (id : Int) (before after : Shelf) : Prop where
  others : Others id before after
  sound : after.library.Sound
  intakes : after.library.intakes = before.library.intakes
  stamps : after.library.stamps = before.library.stamps
  rows : after.library.rowsOf id = before.library.rowsOf id ∨ after.library.rowsOf id = []
  files : ∀ name, after.library.files name = before.library.files name ∨ after.library.files name = none

section Partly

variable {id : Int} {first second third : Shelf}

theorem Partly.refl (sound : first.library.Sound) : Partly id first first where
  others := ⟨Within.refl id first.library, fun _ => rfl⟩
  sound := sound
  intakes := rfl
  stamps := rfl
  rows := .inl rfl
  files := fun _ => .inl rfl

theorem Partly.trans (one : Partly id first second) (two : Partly id second third) : Partly id first third where
  others := ⟨one.others.library.trans two.others.library,
    fun table => (two.others.derived table).trans (one.others.derived table)⟩
  sound := two.sound
  intakes := two.intakes.trans one.intakes
  stamps := two.stamps.trans one.stamps
  rows := by
    rcases two.rows with same | isNil
    · rw [same]
      exact one.rows
    · exact .inr isNil
  files := fun name => by
    rcases two.files name with same | isNone
    · rw [same]
      exact one.files name
    · exact .inr isNone

/-- A write to the library that is local to the book. -/
theorem Partly.change {shelf : Shelf} {step : Library → Library} (sound : shelf.library.Sound)
    (isLocal : Local id shelf.library (step shelf.library))
    (intakes : (step shelf.library).intakes = shelf.library.intakes)
    (stamps : (step shelf.library).stamps = shelf.library.stamps)
    (rows : (step shelf.library).rowsOf id = shelf.library.rowsOf id ∨ (step shelf.library).rowsOf id = [])
    (files : ∀ name, (step shelf.library).files name = shelf.library.files name ∨
      (step shelf.library).files name = none) : Partly id shelf (shelf.change step) where
  others := ⟨(isLocal sound).2, fun _ => rfl⟩
  sound := (isLocal sound).1
  intakes := intakes
  stamps := stamps
  rows := rows
  files := files

theorem partly_deleteBookDerived {shelf : Shelf} (sound : shelf.library.Sound) :
    Partly id shelf (shelf.deleteBookDerived id) where
  others := by
    refine ⟨(local_clearDerived shelf.library sound).2, fun table => ?_⟩
    show (List.filter _ _).filter _ = _
    rw [List.filter_filter]
    refine List.filter_congr fun row _ => ?_
    rw [Bool.and_self]
  sound := (local_clearDerived shelf.library sound).1
  intakes := rfl
  stamps := rfl
  rows := .inl rfl
  files := fun _ => .inl rfl

theorem partly_dropNodes {shelf : Shelf} (fits : PartitionIdx.Fits ⟨id⟩) (sound : shelf.library.Sound) :
    Partly id shelf (shelf.change (Library.dropNodes id)) :=
  Partly.change sound (local_dropNodes shelf.library fits) rfl rfl (.inl rfl) fun _ => .inl rfl

end Partly

/-! ### What the steps leave -/

section Steps

variable {id : Int} {shelf : Shelf}

/-- **The vector step**: without a stamp the rows stay. -/
theorem deleteVectors_ends (fits : PartitionIdx.Fits ⟨id⟩) (sound : shelf.library.Sound)
    {fates : RemoveFates} :
    Ends (deleteVectors id fates) shelf
      (fun _ after => Partly id shelf after ∧
        (∃ table, after = shelf.change fun library => { library with table }) ∧
        (after.library.rowsOf id = [] ↔ (shelf.library.stamps = none → shelf.library.rowsOf id = [])))
      (fun _ => Partly id shelf) (Partly id shelf) := by
  have stay : Partly id shelf shelf := Partly.refl sound
  unfold deleteVectors
  rw [ends_bind]
  refine Ends.write (fun _ => ?_) (fun _ => stay) fun _ => stay
  rw [ends_bind, ends_read]
  cases isStamps : shelf.library.stamps with
  | none =>
    refine ⟨stay, ⟨shelf.library.table, rfl⟩, ?_⟩
    exact ⟨fun isNil _ => isNil, fun isNil => isNil rfl⟩
  | some stamps =>
    dsimp only
    have opened : Partly id shelf (shelf.change (Library.openTable stamps.vectorDim)) := by
      refine Partly.change sound (local_openTable shelf.library _) rfl rfl (.inl ?_) fun _ => .inl rfl
      rw [Library.rowsOf, Library.rows_openTable, Library.rowsOf]
    rw [ends_bind]
    refine Ends.write (fun _ => ?_) (fun _ => stay) fun _ => stay
    refine Ends.write (fun _ => ?_) (fun _ => opened) fun _ => opened
    have isNil : ((shelf.library.openTable stamps.vectorDim).deleteRows ⟨id⟩).rowsOf id = [] :=
      rowsOf_deleteRows _
    refine ⟨opened.trans ?_, ⟨_, rfl⟩, fun _ isNone => ?_, fun _ => isNil⟩
    · exact Partly.change opened.sound (local_deleteRows _ fits) rfl rfl (.inr isNil) fun _ => .inl rfl
    · cases isNone

/-- **The envelope step**: the file the row names is gone, and no other. -/
theorem removeEnvelope_ends (sound : shelf.library.Sound) {path : Option StoreName} {fate : Fate}
    (own : ∀ name, path = some name → name.intakeId = id) :
    Ends (removeEnvelope path fate) shelf
      (fun _ after => Partly id shelf after ∧
        (∃ files, after = shelf.change fun library => { library with files }) ∧
        ∀ name, after.library.files name = if path = some name then none else shelf.library.files name)
      (fun _ => Partly id shelf) (Partly id shelf) := by
  have stay : Partly id shelf shelf := Partly.refl sound
  unfold removeEnvelope
  cases path with
  | none => exact ⟨stay, ⟨shelf.library.files, rfl⟩, fun _ => rfl⟩
  | some path =>
    rw [ends_bind, ends_read]
    cases isFile : shelf.library.files path with
    | none =>
      refine ⟨stay, ⟨shelf.library.files, rfl⟩, fun name => ?_⟩
      split_ifs with isPath
      · rw [← Option.some.inj isPath]
        exact isFile
      · rfl
    | some file =>
      dsimp only
      refine Ends.write (fun _ => ?_) (fun _ => stay) fun _ => stay
      have removed : ∀ name, (shelf.library.removeFile path).files name =
          if some path = some name then none else shelf.library.files name := by
        intro name
        split_ifs with isPath
        · rw [← Option.some.inj isPath]
          exact Library.files_removeFile_self _ _
        · exact Library.files_removeFile_ne _ fun same => isPath (congrArg some same.symm)
      refine ⟨?_, ⟨_, rfl⟩, removed⟩
      refine Partly.change sound (local_removeFile _ (own path rfl)) rfl rfl (.inl rfl) fun name => ?_
      rw [removed]
      split_ifs
      · exact .inr rfl
      · exact .inl rfl

/-- The drift check writes nothing. -/
theorem checkDrift_ends {fingerprint : RemovePlan → String} {intake : Intake} {expected : Option String}
    {fates : PlanFates} {post : Unit → Shelf → Prop} {fail : RemoveError → Shelf → Prop} {cut : Shelf → Prop}
    (returned : post () shelf) (failed : ∀ reason, fail reason shelf) (isCut : cut shelf) :
    Ends (checkDrift fingerprint intake expected fates) shelf post fail cut := by
  unfold checkDrift
  cases expected with
  | none => exact returned
  | some expected =>
    have planned : Ends (deriveRemovePlan intake fates) shelf (fun _ after => after = shelf)
        (fun _ after => after = shelf) (fun after => after = shelf) := by
      have frame : Frame fun before after : Shelf => after = before :=
        ⟨fun _ => rfl, fun one two => two.trans one⟩
      have reads : ∀ {fate : Fate} {reason : RemoveError},
          Moves (fun before after : Shelf => after = before) (write fate reason fun shelf => shelf) :=
        Moves.write frame fun _ => rfl
      have moves : Moves (fun before after : Shelf => after = before) (deriveRemovePlan intake fates) := by
        unfold deriveRemovePlan
        refine Moves.bind frame reads fun _ => Moves.bind frame (Moves.read frame _) fun _ =>
          Moves.bind frame (Moves.read frame _) fun _ => Moves.bind frame reads fun _ =>
            Moves.bind frame ?_ fun _ =>
          Moves.bind frame reads fun _ => Moves.bind frame reads fun _ => Moves.bind frame (Moves.read frame _)
          fun _ => Moves.pure frame _
        unfold countVectorRows
        refine Moves.bind frame (Moves.read frame _) fun table => ?_
        cases table with
        | none => exact Moves.pure frame _
        | some _ => exact Moves.bind frame (Moves.quietly frame fun _ => rfl) fun _ => Moves.read frame _
      exact moves.ends shelf
    rw [ends_bind]
    refine planned.mono ?_ ?_ ?_
    · rintro current _ rfl
      split_ifs
      · exact failed _
      · exact returned
    · rintro reason _ rfl
      exact failed reason
    · rintro _ rfl
      exact isCut

/-- What a removal that returned leaves. -/
structure Removed (id : Int) (before after : Shelf) : Prop where
  wasHere : ∃ intake ∈ before.library.intakes, intake.intakeId = id
  others : Others id before after
  sound : after.library.Sound
  derived : ∀ table, after.derivedOf id table = []
  states : after.library.states id = none
  attrs : after.library.attrs id = none
  tree : after.library.tree id = []
  rows : after.library.rowsOf id = [] ↔ (before.library.stamps = none → before.library.rowsOf id = [])
  files : ∀ intake ∈ before.library.intakes, intake.intakeId = id → ∀ name,
    after.library.files name = if intake.storedPath = some name then none else before.library.files name
  row : ∀ intake ∈ after.library.intakes, intake.intakeId ≠ id

theorem mem_of_intakeById {library : Library} {intake : Intake} (found : library.intakeById id = some intake) :
    intake ∈ library.intakes ∧ intake.intakeId = id :=
  ⟨List.mem_of_find?_eq_some found, by simpa using List.find?_some found⟩

/-- **A removal by how it ends.** -/
theorem executeRemoveFromPlan_ends (fingerprint : RemovePlan → String) (expected : Option String)
    (fates : RemoveFates) (sound : shelf.library.Sound)
    (own : ∀ intake ∈ shelf.library.intakes, intake.intakeId = id → ∀ name, intake.storedPath = some name →
      name.intakeId = id) :
    Ends (executeRemoveFromPlan fingerprint id expected fates) shelf (fun _ => Removed id shelf)
      (fun _ => Partly id shelf) (Partly id shelf) := by
  have stay : Partly id shelf shelf := Partly.refl sound
  unfold executeRemoveFromPlan
  rw [ends_bind]
  refine Ends.write (fun _ => ?_) (fun _ => stay) fun _ => stay
  rw [ends_bind]
  refine Ends.write (fun _ => ?_) (fun _ => stay) fun _ => stay
  rw [ends_bind, ends_read]
  cases found : shelf.library.intakeById id with
  | none => exact stay
  | some intake =>
    obtain ⟨member, isId⟩ := mem_of_intakeById found
    have fits : PartitionIdx.Fits ⟨id⟩ := isId ▸ sound.fits intake member
    dsimp only
    rw [ends_bind]
    refine checkDrift_ends ?_ (fun _ => stay) stay
    rw [ends_bind, ends_read, ends_bind]
    refine Ends.write (fun _ => ?_) (fun _ => stay) fun _ => stay
    have cleared : Partly id shelf (shelf.deleteBookDerived id) := partly_deleteBookDerived sound
    rw [ends_bind]
    refine Ends.write (fun _ => ?_) (fun _ => cleared) fun _ => cleared
    rw [ends_bind]
    refine Ends.write (fun _ => ?_) (fun _ => cleared) fun _ => cleared
    have bare := cleared.trans (partly_dropNodes fits cleared.sound)
    rw [ends_bind]
    refine (deleteVectors_ends fits bare.sound).mono ?_ (fun _ _ => bare.trans) fun _ => bare.trans
    rintro _ unindexed ⟨isPartly, ⟨table, isUnindexed⟩, noRows⟩
    have unindexedPartly := bare.trans isPartly
    rw [ends_bind]
    refine (removeEnvelope_ends unindexedPartly.sound (own intake member isId)).mono ?_
      (fun _ _ => unindexedPartly.trans) fun _ => unindexedPartly.trans
    rintro _ unfiled ⟨isPartly', ⟨files, isUnfiled⟩, noFile⟩
    have unfiledPartly := unindexedPartly.trans isPartly'
    rw [ends_bind, ends_read, ends_bind]
    refine Ends.write (fun _ => ?_) (fun _ => unfiledPartly) fun _ => unfiledPartly
    -- the row is deleted last
    have isLocal : (unfiled.library.deleteIntake id).Sound ∧
        Within id unfiled.library (unfiled.library.deleteIntake id) :=
      local_deleteIntake unfiled.library unfiledPartly.sound
    have sameRows : unfiled.library.rowsOf id = unindexed.library.rowsOf id := by rw [isUnfiled]; rfl
    have sameDerived : unfiled.derived = (shelf.deleteBookDerived id).derived := by
      rw [isUnfiled, isUnindexed]; rfl
    refine ⟨⟨intake, member, isId⟩,
      ⟨unfiledPartly.others.library.trans isLocal.2, unfiledPartly.others.derived⟩, isLocal.1, ?_, ?_, ?_, ?_,
        ?_,
      ?_, ?_⟩
    · intro table
      show (unfiled.derived table).filter _ = []
      rw [sameDerived]
      refine List.filter_eq_nil_iff.mpr fun row isRow isKey => ?_
      have isOther := (List.mem_filter.mp isRow).2
      rw [decide_eq_true_iff] at isOther isKey
      exact isOther isKey
    · show unfiled.library.states id = none
      rw [isUnfiled, isUnindexed]
      exact Function.update_self _ _ _
    · show unfiled.library.attrs id = none
      rw [isUnfiled, isUnindexed]
      exact Function.update_self _ _ _
    · show unfiled.library.tree id = []
      rw [isUnfiled, isUnindexed]
      exact Corpus.CorpusDb.bookNodes_dropPartition_self
    · show unfiled.library.rowsOf id = [] ↔ _
      rw [sameRows]
      exact noRows
    · intro other isOther isSame name
      obtain rfl := sound.unique isOther member (isSame.trans isId.symm)
      show unfiled.library.files name = _
      rw [noFile, isUnindexed]
      rfl
    · intro other isOther
      exact of_decide_eq_true (List.mem_filter.mp isOther).2

/-- With the row there and nothing refused, a removal returns. -/
theorem executeRemoveFromPlan_returns (fingerprint : RemovePlan → String)
    (isHere : ∃ intake ∈ shelf.library.intakes, intake.intakeId = id) :
    ∃ outcome, (executeRemoveFromPlan fingerprint id none .allDone).ending shelf = .value outcome := by
  have returns : Ends (executeRemoveFromPlan fingerprint id none .allDone) shelf (fun _ _ => True)
      (fun _ _ => False) (fun _ => False) := by
    have goesOn : ∀ {α : Type} {store : Shelf} {reason : RemoveError} {step : Shelf → Shelf}
        {next : Unit → Prog Shelf RemoveError α},
        Ends (next ()) (step store) (fun _ _ => True) (fun _ _ => False) (fun _ => False) →
        Ends (write .done reason step >>= next) store (fun _ _ => True) (fun _ _ => False) (fun _ => False) :=
      fun rest => ends_bind.mpr rest
    unfold executeRemoveFromPlan
    refine goesOn (goesOn ?_)
    rw [ends_bind, ends_read]
    cases found : shelf.library.intakeById id with
    | none =>
      obtain ⟨intake, member, isId⟩ := isHere
      have absent := List.find?_eq_none.mp found intake member
      rw [decide_eq_true_iff] at absent
      exact absent isId
    | some intake =>
      refine ends_bind.mpr (ends_bind.mpr (goesOn (goesOn (goesOn (ends_bind.mpr ?_)))))
      generalize (Shelf.deleteBookDerived id shelf).change (Library.dropNodes id) = bare
      have vectors : Ends (deleteVectors id .allDone) bare (fun _ _ => True) (fun _ _ => False)
        (fun _ => False) := by
        unfold deleteVectors
        refine goesOn (ends_bind.mpr ?_)
        rw [ends_read]
        cases bare.library.stamps with
        | none => exact trivial
        | some stamps => exact goesOn trivial
      refine vectors.mono (fun _ unindexed _ => ends_bind.mpr ?_) (fun _ _ => False.elim) fun _ => False.elim
      have file : Ends (removeEnvelope intake.storedPath .done) unindexed (fun _ _ => True) (fun _ _ => False)
          (fun _ => False) := by
        unfold removeEnvelope
        cases intake.storedPath with
        | none => exact trivial
        | some path =>
          refine ends_bind.mpr ?_
          rw [ends_read]
          cases unindexed.library.files path with
          | none => exact trivial
          | some file => exact trivial
      refine file.mono (fun _ unfiled _ => ends_bind.mpr (ends_read.mpr (goesOn ?_)))
        (fun _ _ => False.elim) fun _ => False.elim
      exact trivial
  unfold Ends at returns
  unfold Prog.ending
  split at returns
  · exact ⟨_, by rename_i isValue; rw [isValue]⟩
  · exact returns.elim
  · exact returns.elim

end Steps

/-! ### What a removal is for -/

/-- No derived row, node, chunk or envelope of the book is left. -/
structure Gone (id : Int) (shelf : Shelf) : Prop where
  derived : ∀ table, shelf.derivedOf id table = []
  states : shelf.library.states id = none
  attrs : shelf.library.attrs id = none
  tree : shelf.library.tree id = []
  rows : shelf.library.rowsOf id = []
  envelope : shelf.library.files (.envelope id) = none
  legacy : shelf.library.files (.legacyEnvelope id) = none

/-- Removal is complete and resumable: a stopped call has kept the row, and the next one finishes; a call
that returned has left nothing of the book; and the other intakes are as they were. -/
structure RemovesWell (fingerprint : RemovePlan → String) (id : Int) (shelf : Shelf) : Prop where
  others : ∀ expected fates,
    Others id shelf ((executeRemoveFromPlan fingerprint id expected fates).left shelf)
  kept : ∀ expected fates,
    (∀ outcome, (executeRemoveFromPlan fingerprint id expected fates).ending shelf ≠ .value outcome) →
    ∃ intake ∈ ((executeRemoveFromPlan fingerprint id expected fates).left shelf).library.intakes,
      intake.intakeId = id
  resumable : ∀ expected fates,
    (∀ outcome, (executeRemoveFromPlan fingerprint id expected fates).ending shelf ≠ .value outcome) →
    ∃ outcome, (executeRemoveFromPlan fingerprint id none .allDone).ending
        ((executeRemoveFromPlan fingerprint id expected fates).left shelf) = .value outcome ∧
      Gone id ((executeRemoveFromPlan fingerprint id none .allDone).left
        ((executeRemoveFromPlan fingerprint id expected fates).left shelf))
  complete : ∀ expected fates outcome,
    (executeRemoveFromPlan fingerprint id expected fates).ending shelf = .value outcome →
    Gone id ((executeRemoveFromPlan fingerprint id expected fates).left shelf)

/-- A book whose rows a stamp announces, and whose envelope its row names. -/
structure Removable (id : Int) (library : Library) : Prop where
  stamped : library.stamps = none → library.rowsOf id = []
  named : library.files (.envelope id) ≠ none →
    ∀ intake ∈ library.intakes, intake.intakeId = id → intake.storedPath = some (.envelope id)

section Iff

variable {id : Int} {before after : Shelf}

theorem Partly.removable (isPartly : Partly id before after) (removable : Removable id before.library) :
    Removable id after.library where
  stamped := by
    intro isNone
    rw [isPartly.stamps] at isNone
    rcases isPartly.rows with same | isNil
    · rw [same]
      exact removable.stamped isNone
    · exact isNil
  named := by
    intro isThere
    rw [isPartly.intakes]
    rcases isPartly.files (.envelope id) with same | isNone
    · rw [same] at isThere
      exact removable.named isThere
    · exact absurd isNone isThere

/-- **What is left is nothing exactly for a removable book.** -/
theorem Removed.gone_iff (removed : Removed id before after) (sound : before.library.Sound)
    (legacy : before.library.files (.legacyEnvelope id) = none) :
    Gone id after ↔ Removable id before.library := by
  obtain ⟨intake, member, isId⟩ := removed.wasHere
  have files := removed.files intake member isId
  constructor
  · intro gone
    refine ⟨removed.rows.mp gone.rows, fun isThere other isOther isSame => ?_⟩
    obtain rfl := sound.unique isOther member (isSame.trans isId.symm)
    have isNone := gone.envelope
    rw [files] at isNone
    split_ifs at isNone with isNamed
    · exact isNamed
    · exact absurd isNone isThere
  · intro removable
    refine ⟨removed.derived, removed.states, removed.attrs, removed.tree, removed.rows.mpr removable.stamped,
      ?_, ?_⟩
    · rw [files]
      split_ifs with isNamed
      · rfl
      · by_contra isThere
        exact isNamed (removable.named isThere intake member isId)
    · rw [files]
      split_ifs
      · rfl
      · exact legacy

/-- **Removal is complete and resumable exactly for a removable book.** -/
theorem removesWell_iff (fingerprint : RemovePlan → String) {shelf : Shelf}
    (isHere : ∃ intake ∈ shelf.library.intakes, intake.intakeId = id) (sound : shelf.library.Sound)
    (own : ∀ intake ∈ shelf.library.intakes, intake.intakeId = id → ∀ name, intake.storedPath = some name →
      name.intakeId = id)
    (legacy : shelf.library.files (.legacyEnvelope id) = none) :
    RemovesWell fingerprint id shelf ↔ Removable id shelf.library := by
  -- a call, by how it ended
  have returned : ∀ {shelf : Shelf} {expected fates outcome}, shelf.library.Sound →
      (∀ intake ∈ shelf.library.intakes, intake.intakeId = id → ∀ name, intake.storedPath = some name →
        name.intakeId = id) →
      (executeRemoveFromPlan fingerprint id expected fates).ending shelf = .value outcome →
      Removed id shelf ((executeRemoveFromPlan fingerprint id expected fates).left shelf) :=
    fun sound own isValue => (executeRemoveFromPlan_ends fingerprint _ _ sound own).of_value isValue
  have stopped : ∀ {expected fates},
      (∀ outcome, (executeRemoveFromPlan fingerprint id expected fates).ending shelf ≠ .value outcome) →
      Partly id shelf ((executeRemoveFromPlan fingerprint id expected fates).left shelf) := by
    intro expected fates notValue
    have ends := executeRemoveFromPlan_ends fingerprint expected fates sound own
    unfold Ends at ends
    unfold Prog.ending at notValue
    unfold Prog.left
    split at ends <;> rename_i isEnding <;> rw [isEnding] at notValue ⊢
    · exact absurd rfl (notValue _)
    · exact ends
    · exact ends
  constructor
  · intro removes
    obtain ⟨outcome, isValue⟩ := executeRemoveFromPlan_returns fingerprint isHere
    exact ((returned sound own isValue).gone_iff sound legacy).mp (removes.complete _ _ _ isValue)
  · intro removable
    have kept : ∀ {expected fates},
        (∀ outcome, (executeRemoveFromPlan fingerprint id expected fates).ending shelf ≠ .value outcome) →
        ∃ intake ∈ ((executeRemoveFromPlan fingerprint id expected fates).left shelf).library.intakes,
          intake.intakeId = id := by
      intro expected fates notValue
      rw [(stopped notValue).intakes]
      exact isHere
    refine ⟨fun expected fates => ?_, fun _ _ => kept, fun expected fates notValue => ?_, fun _ _ _ isValue =>
      ?_⟩
    · by_cases isOk : ∃ outcome, (executeRemoveFromPlan fingerprint id expected fates).ending shelf = .value
        outcome
      · obtain ⟨outcome, isValue⟩ := isOk
        exact (returned sound own isValue).others
      · exact (stopped (not_exists.mp isOk)).others
    · have isPartly := stopped notValue
      obtain ⟨outcome, isValue⟩ := executeRemoveFromPlan_returns fingerprint (kept notValue)
      refine ⟨outcome, isValue, ?_⟩
      have own' := own
      rw [← isPartly.intakes] at own'
      refine ((returned isPartly.sound own' isValue).gone_iff isPartly.sound ?_).mpr
        (isPartly.removable removable)
      rcases isPartly.files (.legacyEnvelope id) with same | isNone
      · exact same.trans legacy
      · exact isNone
    · exact ((returned sound own isValue).gone_iff sound legacy).mpr removable

end Iff

end Bookrack
