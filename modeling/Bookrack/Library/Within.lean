/-
Steps that concern one book.

* `Library.Sound`: intakes have their own ids, and every node its place.
* `Library.IsEmbedded`: an intake of this id is `Embedded`.
* `Local id before after`: from a sound library the step leads to a sound one, in which every other book's
  row, state, files, tree and chunks are as they were. Every write that names a book is local to it
  (`local_…`), and so is a program of such writes (`Local.frame`).
-/

import Bookrack.Library.Tree

namespace Bookrack

open Corpus (CorpusDb)
open Prog

/-- What holds of every library the drivers leave. -/
structure Library.Sound (library : Library) : Prop where
  placed : library.corpus.Placed
  distinct : (library.intakes.map (·.intakeId)).Nodup
  fits : ∀ intake ∈ library.intakes, PartitionIdx.Fits ⟨intake.intakeId⟩

theorem Library.empty_sound : Library.empty.Sound where
  placed := CorpusDb.empty_placed
  distinct := List.nodup_nil
  fits := fun _ member => absurd member List.not_mem_nil

/-- Everything of the other books is as it was. -/
structure Within (id : Int) (before after : Library) : Prop where
  intakes : ∀ intake : Intake, intake.intakeId ≠ id → (intake ∈ after.intakes ↔ intake ∈ before.intakes)
  states : ∀ other, other ≠ id → after.states other = before.states other
  attrs : ∀ other, other ≠ id → after.attrs other = before.attrs other
  files : ∀ name : StoreName, name.intakeId ≠ id → after.files name = before.files name
  tree : ∀ other, PartitionIdx.Fits ⟨other⟩ → other ≠ id → after.tree other = before.tree other
  rowsOf : ∀ other, PartitionIdx.Fits ⟨other⟩ → other ≠ id → after.rowsOf other = before.rowsOf other

/-- A step at one book. -/
def Local (id : Int) (before after : Library) : Prop := before.Sound → after.Sound ∧ Within id before after

theorem Within.refl (id : Int) (library : Library) : Within id library library where
  intakes := fun _ _ => Iff.rfl
  states := fun _ _ => rfl
  attrs := fun _ _ => rfl
  files := fun _ _ => rfl
  tree := fun _ _ _ => rfl
  rowsOf := fun _ _ _ => rfl

theorem Within.trans {id : Int} {first second third : Library} (one : Within id first second)
    (two : Within id second third) : Within id first third where
  intakes := fun intake isOther => (two.intakes intake isOther).trans (one.intakes intake isOther)
  states := fun other isOther => (two.states other isOther).trans (one.states other isOther)
  attrs := fun other isOther => (two.attrs other isOther).trans (one.attrs other isOther)
  files := fun name isOther => (two.files name isOther).trans (one.files name isOther)
  tree := fun other fits isOther => (two.tree other fits isOther).trans (one.tree other fits isOther)
  rowsOf := fun other fits isOther => (two.rowsOf other fits isOther).trans (one.rowsOf other fits isOther)

theorem Local.frame (id : Int) : Frame (Local id) where
  refl := fun library sound => ⟨sound, Within.refl id library⟩
  trans := fun one two sound =>
    ⟨(two (one sound).1).1, (one sound).2.trans (two (one sound).1).2⟩

section Writes

variable {id : Int} (library : Library)

/-! ### The catalog -/

theorem ids_updateIntake {change : Intake → Intake}
    (keepsId : ∀ intake : Intake, (change intake).intakeId = intake.intakeId) :
    (library.updateIntake id change).intakes.map (·.intakeId) = library.intakes.map (·.intakeId) := by
  rw [Library.updateIntake, List.map_map]
  refine List.map_congr_left fun intake _ => ?_
  dsimp only [Function.comp_apply]
  split_ifs
  · exact keepsId intake
  · rfl

/-- A row of the table after an update of one intake. -/
theorem mem_updateIntake {change : Intake → Intake} {intake : Intake} :
    intake ∈ (library.updateIntake id change).intakes ↔
      ∃ old ∈ library.intakes, (if old.intakeId = id then change old else old) = intake := List.mem_map

theorem local_updateIntake {change : Intake → Intake}
    (keepsId : ∀ intake : Intake, (change intake).intakeId = intake.intakeId) :
    Local id library (library.updateIntake id change) := by
  intro sound
  refine ⟨⟨sound.placed, ?_, ?_⟩, ?_, fun _ _ => rfl, fun _ _ => rfl, fun _ _ => rfl, fun _ _ _ => rfl,
    fun _ _ _ => rfl⟩
  · rw [ids_updateIntake library keepsId]
    exact sound.distinct
  · intro intake member
    have isId : intake.intakeId ∈ library.intakes.map (·.intakeId) := by
      rw [← ids_updateIntake library keepsId]
      exact List.mem_map_of_mem member
    obtain ⟨old, isOld, same⟩ := List.mem_map.mp isId
    rw [← same]
    exact sound.fits old isOld
  · intro intake isOther
    rw [mem_updateIntake]
    constructor
    · rintro ⟨old, isOld, rfl⟩
      split_ifs at isOther ⊢ with isId
      · exact absurd ((keepsId old).trans isId) isOther
      · exact isOld
    · exact fun member => ⟨intake, member, if_neg isOther⟩

theorem local_setIntakeStatus (status : IntakeStatus) : Local id library (library.setIntakeStatus id status) :=
  local_updateIntake library fun _ => rfl

theorem local_setExtraction (adapter : String) (version : Nat) :
    Local id library (library.setExtraction id adapter version) :=
  local_updateIntake library fun _ => rfl

theorem local_setStoredPath (path : StoreName) : Local id library (library.setStoredPath id path) :=
  local_updateIntake library fun _ => rfl

theorem local_insertIntake (sha : String) (fits : PartitionIdx.Fits ⟨id⟩)
    (fresh : ∀ intake ∈ library.intakes, intake.intakeId ≠ id) :
    Local id library (library.insertIntake id sha) := by
  intro sound
  refine ⟨⟨sound.placed, ?_, ?_⟩, ?_, fun _ _ => rfl, fun _ _ => rfl, fun _ _ => rfl, fun _ _ _ => rfl,
    fun _ _ _ => rfl⟩
  · rw [Library.insertIntake, List.map_append, List.nodup_append]
    refine ⟨sound.distinct, List.nodup_singleton _, ?_⟩
    intro old isOld new isNew same
    obtain ⟨intake, isIntake, rfl⟩ := List.mem_map.mp isOld
    exact fresh intake isIntake (same.trans (List.mem_singleton.mp isNew))
  · intro intake member
    rcases List.mem_append.mp member with isOld | isNew
    · exact sound.fits intake isOld
    · rw [List.mem_singleton.mp isNew]
      exact fits
  · intro intake isOther
    rw [Library.insertIntake, List.mem_append, List.mem_singleton]
    refine ⟨fun member => member.resolve_right fun isNew => isOther ?_, .inl⟩
    rw [isNew]

theorem local_setState (state : ItemState) : Local id library (library.setState id state) :=
  fun sound => ⟨⟨sound.placed, sound.distinct, sound.fits⟩, fun _ _ => Iff.rfl,
    fun _ isOther => Function.update_of_ne isOther _ _, fun _ _ => rfl, fun _ _ => rfl, fun _ _ _ => rfl,
    fun _ _ _ => rfl⟩

/-! ### Files -/

theorem local_putFile {name : StoreName} (isName : name.intakeId = id) (file : StoreFile) :
    Local id library (library.putFile name file) :=
  fun sound => ⟨⟨sound.placed, sound.distinct, sound.fits⟩, fun _ _ => Iff.rfl, fun _ _ => rfl,
    fun _ _ => rfl, fun _ isOther => Function.update_of_ne
      (fun same => isOther (congrArg StoreName.intakeId same |>.trans isName)) _ _,
    fun _ _ _ => rfl, fun _ _ _ => rfl⟩

theorem local_removeFile {name : StoreName} (isName : name.intakeId = id) :
    Local id library (library.removeFile name) :=
  fun sound => ⟨⟨sound.placed, sound.distinct, sound.fits⟩, fun _ _ => Iff.rfl, fun _ _ => rfl,
    fun _ _ => rfl, fun _ isOther => Function.update_of_ne
      (fun same => isOther (congrArg StoreName.intakeId same |>.trans isName)) _ _,
    fun _ _ _ => rfl, fun _ _ _ => rfl⟩

/-! ### The tree and the chunks -/

variable {library}

theorem Retree.local {tree : List Corpus.Node} {after : Library} (retree : Retree ⟨id⟩ tree library after) :
    Local id library after := by
  intro sound
  have isAfter := retree.corpus
  refine ⟨⟨retree.placed, ?_, ?_⟩, ?_, ?_, ?_, ?_, retree.others, ?_⟩
  · rw [isAfter]
    exact sound.distinct
  · rw [isAfter]
    exact sound.fits
  all_goals
    rw [isAfter]
  · exact fun _ _ => Iff.rfl
  · exact fun _ _ => rfl
  · exact fun _ _ => rfl
  · exact fun _ _ => rfl
  · exact fun _ _ _ => rfl

/-- New stamps and a table with the same rows. -/
theorem local_untouched {after : Library} (untouched : Untouched library after) :
    Local id library after := by
  obtain ⟨stamps, table, rfl, sameRows, -⟩ := untouched
  refine fun sound => ⟨⟨sound.placed, sound.distinct, sound.fits⟩, fun _ _ => Iff.rfl, fun _ _ => rfl,
    fun _ _ => rfl, fun _ _ => rfl, fun _ _ _ => rfl, fun other _ _ => ?_⟩
  rw [Library.rowsOf, sameRows]
  rfl

/-- The book's rows replaced by others of the book. -/
theorem local_withVectors (fits : PartitionIdx.Fits ⟨id⟩) {stamps : IndexStamps} {dim : Nat}
    {written : List ChunkRow} (inside : ∀ row ∈ written, inBounds ⟨id⟩ row.plan = true) :
    Local id library (library.withVectors stamps dim (library.rowsOutside ⟨id⟩ ++ written)) :=
  fun sound => ⟨⟨sound.placed, sound.distinct, sound.fits⟩, fun _ _ => Iff.rfl, fun _ _ => rfl,
    fun _ _ => rfl, fun _ _ => rfl, fun _ _ _ => rfl,
    fun _ fits' isOther => Library.rowsOf_rewritten_ne fits fits' isOther inside⟩

end Writes

/-! ### Who is embedded -/

/-- An intake of this id is `Embedded`. -/
def Library.IsEmbedded (library : Library) (id : Int) : Prop :=
  ∃ intake ∈ library.intakes, intake.intakeId = id ∧ intake.status = .embedded

section Embedded

variable {id other : Int} {library before after : Library}

theorem Within.isEmbedded (within : Within id before after) (isOther : other ≠ id) :
    after.IsEmbedded other ↔ before.IsEmbedded other := by
  constructor
  · rintro ⟨intake, member, rfl, isEmbedded⟩
    exact ⟨intake, (within.intakes intake isOther).mp member, rfl, isEmbedded⟩
  · rintro ⟨intake, member, rfl, isEmbedded⟩
    exact ⟨intake, (within.intakes intake isOther).mpr member, rfl, isEmbedded⟩

/-- An update that leaves id and status alone. -/
theorem isEmbedded_updateIntake {change : Intake → Intake}
    (keepsId : ∀ intake : Intake, (change intake).intakeId = intake.intakeId)
    (keepsStatus : ∀ intake : Intake, (change intake).status = intake.status) :
    (library.updateIntake id change).IsEmbedded other ↔ library.IsEmbedded other := by
  have same : ∀ old : Intake, (if old.intakeId = id then change old else old).intakeId = old.intakeId ∧
      (if old.intakeId = id then change old else old).status = old.status := by
    intro old
    split_ifs
    · exact ⟨keepsId old, keepsStatus old⟩
    · exact ⟨rfl, rfl⟩
  constructor
  · rintro ⟨intake, member, isId, isEmbedded⟩
    obtain ⟨old, isOld, rfl⟩ := (mem_updateIntake library).mp member
    exact ⟨old, isOld, (same old).1.symm.trans isId, (same old).2.symm.trans isEmbedded⟩
  · rintro ⟨old, isOld, isId, isEmbedded⟩
    exact ⟨_, (mem_updateIntake library).mpr ⟨old, isOld, rfl⟩, (same old).1.trans isId,
      (same old).2.trans isEmbedded⟩

theorem isEmbedded_setExtraction (adapter : String) (version : Nat) :
    (library.setExtraction id adapter version).IsEmbedded other ↔ library.IsEmbedded other :=
  isEmbedded_updateIntake (fun _ => rfl) fun _ => rfl

theorem isEmbedded_setStoredPath (path : StoreName) :
    (library.setStoredPath id path).IsEmbedded other ↔ library.IsEmbedded other :=
  isEmbedded_updateIntake (fun _ => rfl) fun _ => rfl

theorem isEmbedded_setIntakeStatus {status : IntakeStatus} (notEmbedded : status ≠ .embedded) :
    (library.setIntakeStatus id status).IsEmbedded other ↔ other ≠ id ∧ library.IsEmbedded other := by
  constructor
  · rintro ⟨intake, member, isId, isEmbedded⟩
    obtain ⟨old, isOld, rfl⟩ := (mem_updateIntake library).mp member
    split_ifs at isId isEmbedded with isHere
    · exact absurd isEmbedded notEmbedded
    · exact ⟨fun same => isHere (isId.trans same), old, isOld, isId, isEmbedded⟩
  · rintro ⟨isOther, old, isOld, rfl, isEmbedded⟩
    exact ⟨old, (mem_updateIntake library).mpr ⟨old, isOld, if_neg isOther⟩, rfl, isEmbedded⟩

theorem mem_intakesWithStatus {status : IntakeStatus} {intake : Intake} :
    intake ∈ library.intakesWithStatus status ↔ intake ∈ library.intakes ∧ intake.status = status := by
  rw [Library.intakesWithStatus, (List.perm_insertionSort _ _).mem_iff, List.mem_filter, decide_eq_true_iff]

theorem Library.Sound.distinct_intakesWithStatus (sound : library.Sound) (status : IntakeStatus) :
    ((library.intakesWithStatus status).map (·.intakeId)).Nodup := by
  rw [Library.intakesWithStatus, ((List.perm_insertionSort _ _).map _).nodup_iff]
  exact sound.distinct.sublist (List.filter_sublist.map _)

/-- An id has one row. -/
theorem Library.Sound.unique (sound : library.Sound) {one other : Intake} (isOne : one ∈ library.intakes)
    (isOther : other ∈ library.intakes) (same : one.intakeId = other.intakeId) : one = other :=
  List.inj_on_of_nodup_map sound.distinct isOne isOther same

theorem Library.IsEmbedded.fits (sound : library.Sound) (isEmbedded : library.IsEmbedded id) :
    PartitionIdx.Fits ⟨id⟩ := by
  obtain ⟨intake, member, rfl, _⟩ := isEmbedded
  exact sound.fits intake member

/-- A new intake is pending. -/
theorem isEmbedded_insertIntake (sha : String) :
    (library.insertIntake id sha).IsEmbedded other ↔ library.IsEmbedded other := by
  constructor
  · rintro ⟨intake, member, isId, isEmbedded⟩
    rcases List.mem_append.mp member with isOld | isNew
    · exact ⟨intake, isOld, isId, isEmbedded⟩
    · rw [List.mem_singleton.mp isNew] at isEmbedded
      cases isEmbedded
  · rintro ⟨intake, member, isId, isEmbedded⟩
    exact ⟨intake, List.mem_append_left _ member, isId, isEmbedded⟩

/-- Registering a file changes the catalog only. -/
theorem registered_eq (sha : String) (newId : Int) : library.registered sha newId =
    { library with intakes := (library.registered sha newId).intakes } := by
  unfold Library.registered
  cases library.intakeBySha sha <;> rfl

theorem isEmbedded_registered (sha : String) (newId : Int) :
    (library.registered sha newId).IsEmbedded other ↔ library.IsEmbedded other := by
  unfold Library.registered
  cases library.intakeBySha sha with
  | none => exact isEmbedded_insertIntake sha
  | some intake => exact Iff.rfl

end Embedded

end Bookrack
