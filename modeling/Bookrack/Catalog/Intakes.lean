/-
Intake ids over the life of a catalog (`catalog/src/migrate.rs`, `catalog/src/intake.rs`): inserts and
deletes of intake rows under any schema version, between the forward migrations.

* `rebuildIntake`: the statements of `M[4]`, in order. `rebuildIntake_settled`: it leaves the counter
  at the largest id still on file.
* **`ids_never_reused_iff`**: along every history, no insert is given an id that an earlier row
  carried exactly when `M[4]` runs while the newest id is on file, or no new file is registered after
  it; `rebuild_reuses_id` is the other case.
-/

import Bookrack.Base.Autoincrement
import Bookrack.Base.Run

namespace Bookrack.Catalog

open Autoincrement Run

/-! ### The table -/

/-- `intake.extractor_version`: a string per adapter up to `M[4]`, a number from then on. -/
inductive ExtractorVersion
  | text (value : Option String)
  | number (value : Int)
  deriving DecidableEq, Repr

/-- The columns of an intake row that the inserts and the rebuild look at. -/
structure IntakeRow where
  sourceSha256 : String
  extractorVersion : ExtractorVersion
  deriving DecidableEq, Repr

/-- The intake tables of a catalog. -/
abbrev Db := Store IntakeRow

/-- The rows on file. -/
def intakeRows (db : Db) : List (Int × IntakeRow) := db.rows "intake"

/-! ### The migrations -/

/-- `M[4]`: the table is built anew, filled, and put in the place of the old one, and
`sqlite_sequence` is set from the rows. -/
def rebuildIntake (db : Db) : Db :=
  let db := db.setRows "intake_new" (some [])
  let db := db.copyInto "intake_new"
    ((db.rows "intake").map fun row => (row.1, { row.2 with extractorVersion := .number 1 }))
  let db := db.drop "intake"
  let db := db.rename "intake_new" "intake"
  db.addEntry "intake" (largest (db.rows "intake"))

/-- `TARGET_VERSION`. -/
def targetVersion : Nat := 17

/-- What the migration that starts at a `user_version` does to the intake rows and their keys:
`M[0]` creates the table, `M[4]` rebuilds it, the others leave both alone. -/
def migration (userVersion : Nat) (db : Db) : Db :=
  if userVersion = 0 then db.create "intake" else if userVersion = 4 then rebuildIntake db else db

/-! ### Histories -/

/-- A catalog, and the ids its intake rows have carried, in the order they were given. -/
structure History where
  db : Db
  userVersion : Nat
  given : List Int

/-- One write: a file is registered, a row is deleted, or the next migration is applied. -/
inductive Op
  | register (sourceSha256 : String)
  | delete (intakeId : Int)
  | migrate
  deriving DecidableEq, Repr

namespace History

/-- A file no catalog was kept in yet. -/
def start : History := ⟨.empty, 0, []⟩

/-- The file is registered already. -/
def OnFile (history : History) (sourceSha256 : String) : Prop :=
  ∃ row ∈ intakeRows history.db, row.2.sourceSha256 = sourceSha256

instance (history : History) (sourceSha256 : String) : Decidable (history.OnFile sourceSha256) :=
  inferInstanceAs (Decidable (∃ row ∈ intakeRows history.db, row.2.sourceSha256 = sourceSha256))

/-- What a fresh row's extractor version defaults to. -/
def freshExtractorVersion (userVersion : Nat) : ExtractorVersion :=
  if userVersion ≤ 4 then .text none else .number 1

/-- The state a write leaves. A file on file is not inserted again. -/
def after (history : History) : Op → History
  | .register sourceSha256 =>
    if history.OnFile sourceSha256 then history
    else
      match history.db.insert "intake"
        ⟨sourceSha256, freshExtractorVersion history.userVersion⟩ with
      | none => history
      | some (intakeId, db) => { history with db := db, given := history.given ++ [intakeId] }
  | .delete intakeId => { history with db := history.db.delete "intake" intakeId }
  | .migrate =>
    if history.userVersion < targetVersion then
      { history with
        db := migration history.userVersion history.db, userVersion := history.userVersion + 1 }
    else history

/-- The states writes lead through. -/
def trace (history : History) : List Op → List (Op × History)
  | [] => []
  | op :: rest => (op, history.after op) :: (history.after op).trace rest

end History

/-- One write of a history. -/
def Step (before : History) (op : Op) (next : History) : Prop := next = before.after op

theorem History.trace_along (history : History) (ops : List Op) :
    Along Step history (history.trace ops) := by
  induction ops generalizing history with
  | nil => exact trivial
  | cons op rest ih => exact ⟨rfl, ih _⟩

/-- An insert is given an id that no row has carried. -/
def GivesNewId (before : History) (_ : Op) (next : History) : Prop :=
  ∀ intakeId, next.given = before.given ++ [intakeId] → intakeId ∉ before.given

/-- The write is `M[4]`. -/
def Rebuilds (before : History) (op : Op) : Prop := op = .migrate ∧ before.userVersion = 4

/-- The newest id is on file, or none was given yet. -/
def NewestOnFile (history : History) : Prop :=
  ∀ intakeId ∈ history.given, ∃ row ∈ intakeRows history.db, intakeId ≤ row.1

/-- The write registers no file that is not on file. -/
def KnownFile (before : History) (op : Op) (_ : History) : Prop :=
  ∀ sourceSha256, op = .register sourceSha256 → before.OnFile sourceSha256

/-- **The condition**: when `M[4]` runs, the newest id is on file, or no new file is registered from
then on. -/
def CounterKept : History → List (Op × History) → Prop
  | _, [] => True
  | before, (op, next) :: rest =>
    (Rebuilds before op → NewestOnFile before ∨ Along KnownFile next rest) ∧ CounterKept next rest

/-! ### The rebuild -/

/-- The rows `M[4]` copies. -/
def copiedRows (db : Db) : List (Int × IntakeRow) :=
  (intakeRows db).map fun row => (row.1, { row.2 with extractorVersion := .number 1 })

theorem largest_copiedRows (db : Db) : largest (copiedRows db) = largest (intakeRows db) := by
  unfold copiedRows
  induction intakeRows db with
  | nil => rfl
  | cons row rest ih => exact congrArg (max row.1) ih

theorem rebuildIntake_tables (db : Db) :
    (rebuildIntake db).tables "intake" = some (copiedRows db) := by
  simp [rebuildIntake, copiedRows, intakeRows, Store.rows, Store.setRows, Store.copyInto,
    Store.drop, Store.rename, Store.addEntry]

/-- **The rebuild leaves the counter at the largest id on file.** -/
theorem rebuildIntake_entry {db : Db} (noScratch : entryOf db.sequence "intake_new" = 0) :
    entryOf (rebuildIntake db).sequence "intake" = largest (intakeRows db) ∧
      entryOf (rebuildIntake db).sequence "intake_new" = 0 := by
  have isOther : "intake_new" ≠ "intake" := by decide
  have isSequence : (rebuildIntake db).sequence =
      (((setEntry "intake_new" (max (entryOf db.sequence "intake_new") (largest (copiedRows db)))
          db.sequence).filter fun entry => decide (entry.1 ≠ "intake")).map fun entry =>
            if entry.1 = "intake_new" then ("intake", entry.2) else entry) ++
        [("intake", largest (copiedRows db))] := by
    simp [rebuildIntake, copiedRows, intakeRows, Store.rows, Store.setRows, Store.copyInto,
      Store.drop, Store.rename, Store.addEntry]
  rw [noScratch, max_eq_right (largest_nonneg _), largest_copiedRows] at isSequence
  rw [isSequence]
  constructor
  · exact entryOf_append_same ((entryOf_renamed _ isOther).trans entryOf_setEntry)
  · rw [entryOf_append_other isOther, entryOf_renamed_away _ isOther]

/-! ### Counting -/

/-- The ids given are those up to `top`. -/
def GivenUpTo (history : History) (top : Int) : Prop :=
  ∀ intakeId, intakeId ∈ history.given ↔ 1 ≤ intakeId ∧ intakeId ≤ top

/-- The table counts from `counter`: settled there, present once `M[0]` ran, with no entry left of a
rebuild. -/
structure CountsFrom (history : History) (counter : Int) : Prop where
  settled : Store.Settled history.db "intake" counter
  present : 0 < history.userVersion → (history.db.tables "intake").isSome = true
  noScratch : entryOf history.db.sequence "intake_new" = 0

theorem isOther : "intake_new" ≠ "intake" := by decide

theorem CountsFrom.start : CountsFrom History.start 0 :=
  ⟨⟨rfl, fun _ member => absurd member List.not_mem_nil, le_rfl, by decide⟩,
    fun positive => absurd positive (lt_irrefl 0), rfl⟩

section Step

variable {before : History} {counter top : Int}

/-- Registering a file leaves everything, or gives the next id. -/
theorem after_register (counts : CountsFrom before counter) (sourceSha256 : String) :
    before.after (.register sourceSha256) = before ∨
      ¬before.OnFile sourceSha256 ∧
      (before.after (.register sourceSha256)).given = before.given ++ [counter + 1] ∧
      CountsFrom (before.after (.register sourceSha256)) (counter + 1) ∧
      (before.after (.register sourceSha256)).userVersion = before.userVersion := by
  dsimp only [History.after]
  split_ifs with onFile
  · exact .inl rfl
  · split
    · exact .inl rfl
    · rename_i intakeId db inserts
      obtain ⟨rfl, settled, -⟩ := counts.settled.insert inserts
      refine .inr ⟨onFile, rfl, ⟨settled, fun _ => ?_, ?_⟩, rfl⟩
      · unfold Store.insert at inserts
        split at inserts
        · cases inserts
        · dsimp only at inserts
          split_ifs at inserts
          rw [← (Prod.mk.inj (Option.some.inj inserts)).2]
          simp [Store.setRows]
      · unfold Store.insert at inserts
        split at inserts
        · cases inserts
        · dsimp only at inserts
          split_ifs at inserts
          rw [← (Prod.mk.inj (Option.some.inj inserts)).2, entryOf_setEntry_other isOther]
          exact counts.noScratch

/-- A file that is not on file gets an id while one is left. -/
theorem after_register_new (counts : CountsFrom before counter) (kept : 0 < before.userVersion)
    (fits : counter + 1 ≤ maxKey) {sourceSha256 : String} (isNew : ¬before.OnFile sourceSha256) :
    (before.after (.register sourceSha256)).given = before.given ++ [counter + 1] := by
  rcases after_register counts sourceSha256 with same | ⟨-, given, -, -⟩
  · obtain ⟨⟨intakeId, db⟩, inserts⟩ := Option.isSome_iff_exists.mp
      (counts.settled.insert_isSome (counts.present kept) fits
        ⟨sourceSha256, History.freshExtractorVersion before.userVersion⟩)
    obtain ⟨rfl, -, -⟩ := counts.settled.insert inserts
    dsimp only [History.after]
    rw [if_neg isNew, inserts]
  · exact given

theorem after_delete (counts : CountsFrom before counter) (intakeId : Int) :
    CountsFrom (before.after (.delete intakeId)) counter := by
  refine ⟨counts.settled.delete intakeId, fun kept => ?_, counts.noScratch⟩
  have present := counts.present kept
  simpa [History.after, Store.delete, Store.setRows] using present

/-- A migration other than the rebuild keeps the counter. -/
theorem after_migrate (counts : CountsFrom before counter) (noRebuild : before.userVersion ≠ 4) :
    CountsFrom (before.after .migrate) counter := by
  dsimp only [History.after]
  split_ifs with behind
  · unfold migration
    rw [if_neg noRebuild]
    by_cases isFirst : before.userVersion = 0
    · rw [if_pos isFirst]
      unfold Store.create
      split_ifs with present
      · exact ⟨counts.settled, fun _ => present, counts.noScratch⟩
      · refine ⟨⟨counts.settled.entry, ?_, counts.settled.nonneg, counts.settled.inside⟩,
          fun _ => by simp [Store.setRows], counts.noScratch⟩
        intro row member
        rw [Store.setRows_rows] at member
        exact absurd member List.not_mem_nil
    · rw [if_neg isFirst]
      exact ⟨counts.settled, fun _ => counts.present (Nat.pos_of_ne_zero isFirst), counts.noScratch⟩
  · exact counts

/-- **The rebuild counts from the largest id on file.** -/
theorem after_rebuild (counts : CountsFrom before counter) (isRebuild : before.userVersion = 4) :
    CountsFrom (before.after .migrate) (largest (intakeRows before.db)) := by
  have behind : before.userVersion < targetVersion := by rw [isRebuild]; decide
  have isAfter : (before.after .migrate).db = rebuildIntake before.db := by
    dsimp only [History.after]
    rw [if_pos behind, isRebuild]
    rfl
  obtain ⟨isEntry, noScratch⟩ := rebuildIntake_entry counts.noScratch
  refine ⟨⟨by rw [isAfter, isEntry], ?_, largest_nonneg _, ?_⟩, ?_, by rw [isAfter, noScratch]⟩
  · intro row member
    rw [isAfter, Store.rows, rebuildIntake_tables, Option.getD_some] at member
    rw [← largest_copiedRows]
    exact le_largest member
  · exact ((largest_le_iff counts.settled.nonneg).mpr counts.settled.below).trans
      counts.settled.inside
  · intro _
    rw [isAfter, rebuildIntake_tables]
    rfl

/-- The newest id is on file exactly when the largest id on file is the newest. -/
theorem newestOnFile_iff (counts : CountsFrom before top) (given : GivenUpTo before top) :
    NewestOnFile before ↔ largest (intakeRows before.db) = top := by
  have atMost := (largest_le_iff counts.settled.nonneg).mpr counts.settled.below
  have nonneg := counts.settled.nonneg
  constructor
  · intro newest
    by_cases isNone : top = 0
    · have := largest_nonneg (intakeRows before.db)
      exact le_antisymm atMost (by omega)
    · obtain ⟨row, member, isLargest⟩ := newest top ((given top).mpr ⟨by omega, le_rfl⟩)
      exact le_antisymm atMost (isLargest.trans (le_largest member))
  · intro isTop intakeId isGiven
    obtain ⟨positive, isBelow⟩ := (given intakeId).mp isGiven
    obtain ⟨row, member, isLargest⟩ :=
      largest_mem (by omega : 0 < largest (intakeRows before.db))
    exact ⟨row, member, by omega⟩

theorem GivenUpTo.next (given : GivenUpTo before top) (nonneg : 0 ≤ top) {next : History}
    (isNext : next.given = before.given ++ [top + 1]) : GivenUpTo next (top + 1) := by
  intro intakeId
  rw [isNext, List.mem_append, List.mem_singleton, given]
  omega

end Step

/-! ### Runs -/

theorem givesNewId_of_same {before next : History} {op : Op} (same : next.given = before.given) :
    GivesNewId before op next := by
  intro intakeId isGiven
  rw [same] at isGiven
  simpa using congrArg List.length isGiven

theorem after_given_of_not_register (before : History) {op : Op}
    (notRegister : ∀ sourceSha256, op ≠ .register sourceSha256) :
    (before.after op).given = before.given := by
  cases op with
  | register sourceSha256 => exact absurd rfl (notRegister sourceSha256)
  | delete intakeId => rfl
  | migrate =>
    dsimp only [History.after]
    split_ifs <;> rfl

theorem userVersion_le (before : History) (op : Op) :
    before.userVersion ≤ (before.after op).userVersion := by
  cases op with
  | register sourceSha256 =>
    dsimp only [History.after]
    split_ifs
    · exact le_rfl
    · split <;> exact le_rfl
  | delete intakeId => exact le_rfl
  | migrate =>
    dsimp only [History.after]
    split_ifs
    · exact Nat.le_succ _
    · exact le_rfl

/-- The rebuild runs once. -/
theorem counterKept_later {trace : List (Op × History)} : ∀ {before : History},
    4 < before.userVersion → Along Step before trace → CounterKept before trace := by
  induction trace with
  | nil => exact fun _ _ => trivial
  | cons entry rest ih =>
    obtain ⟨op, next⟩ := entry
    rintro before isLater ⟨rfl, run⟩
    refine ⟨fun rebuilds => ?_, ih (isLater.trans_le (userVersion_le before op)) run⟩
    have := rebuilds.2
    omega

/-- After a rebuild that lost the counter, ids stay new exactly as long as no new file comes. -/
theorem givesNewId_lost {counter top : Int} {trace : List (Op × History)} : ∀ {before : History},
    CountsFrom before counter → GivenUpTo before top → counter < top → top ≤ maxKey →
    4 < before.userVersion → Along Step before trace →
      (Along GivesNewId before trace ↔ Along KnownFile before trace) := by
  induction trace with
  | nil => exact fun _ _ _ _ _ _ => Iff.rfl
  | cons entry rest ih =>
    obtain ⟨op, next⟩ := entry
    rintro before counts given isLost fits isLater ⟨rfl, run⟩
    have isLater' := isLater.trans_le (userVersion_le before op)
    -- a write that gives no id leaves the rest to the induction
    have goesOn : CountsFrom (before.after op) counter →
        (before.after op).given = before.given → KnownFile before op (before.after op) →
        (Along GivesNewId before ((op, before.after op) :: rest) ↔
          Along KnownFile before ((op, before.after op) :: rest)) := by
      intro counts' same known
      have given' : GivenUpTo (before.after op) top := by
        intro intakeId
        rw [same]
        exact given intakeId
      rw [along_cons, along_cons, ih counts' given' isLost fits isLater' run]
      exact and_congr_left fun _ => iff_of_true (givesNewId_of_same same) known
    cases op with
    | register sourceSha256 =>
      have nonneg := counts.settled.nonneg
      by_cases onFile : before.OnFile sourceSha256
      · have same : before.after (.register sourceSha256) = before := if_pos onFile
        refine goesOn (by rw [same]; exact counts) (by rw [same]) fun other isOp => ?_
        rw [← Op.register.inj isOp]
        exact onFile
      · -- the id handed out is one of those given before the rebuild
        have isGiven := after_register_new counts (by omega) (by omega) onFile
        refine iff_of_false (fun gives => ?_) fun known => onFile (known.1 _ rfl)
        exact gives.1 _ isGiven ((given _).mpr ⟨by omega, by omega⟩)
    | delete intakeId =>
      exact goesOn (after_delete counts intakeId) rfl fun _ isOp => by cases isOp
    | migrate =>
      refine goesOn (after_migrate counts (by omega)) ?_ fun _ isOp => by cases isOp
      exact after_given_of_not_register before fun _ isOp => by cases isOp

/-- The run lemma, from any state that has not lost its counter. -/
theorem givesNewId_iff {trace : List (Op × History)} : ∀ {before : History} {top : Int},
    CountsFrom before top → GivenUpTo before top → Along Step before trace →
      (Along GivesNewId before trace ↔ CounterKept before trace) := by
  induction trace with
  | nil => exact fun _ _ _ => iff_of_true trivial trivial
  | cons entry rest ih =>
    obtain ⟨op, next⟩ := entry
    rintro before top counts given ⟨rfl, run⟩
    -- a write that keeps the counter and is not the rebuild
    have goesOn : ∀ {top' : Int}, CountsFrom (before.after op) top' →
        GivenUpTo (before.after op) top' → GivesNewId before op (before.after op) →
        (Rebuilds before op → NewestOnFile before) →
        (Along GivesNewId before ((op, before.after op) :: rest) ↔
          CounterKept before ((op, before.after op) :: rest)) := by
      intro top' counts' given' gives newest
      rw [along_cons, ih counts' given' run, CounterKept]
      exact and_congr_left fun _ => iff_of_true gives fun rebuilds => .inl (newest rebuilds)
    have sameGiven : (before.after op).given = before.given → GivenUpTo (before.after op) top := by
      intro same intakeId
      rw [same]
      exact given intakeId
    cases op with
    | register sourceSha256 =>
      have noRebuild : Rebuilds before (.register sourceSha256) → NewestOnFile before :=
        fun rebuilds => by cases rebuilds.1
      rcases after_register counts sourceSha256 with same | ⟨-, isGiven, counts', -⟩
      · have kept : (before.after (.register sourceSha256)).given = before.given := by rw [same]
        exact goesOn (by rw [same]; exact counts) (sameGiven kept) (givesNewId_of_same kept) noRebuild
      · refine goesOn counts' (given.next counts.settled.nonneg isGiven) ?_ noRebuild
        intro intakeId isGiven' isOld
        have isNext := List.append_cancel_left (isGiven.symm.trans isGiven')
        rw [← List.singleton_inj.mp isNext] at isOld
        have := ((given _).mp isOld).2
        omega
    | delete intakeId =>
      refine goesOn (after_delete counts intakeId) (sameGiven rfl) (givesNewId_of_same rfl) ?_
      exact fun rebuilds => by cases rebuilds.1
    | migrate =>
      have same : (before.after .migrate).given = before.given :=
        after_given_of_not_register before fun _ isOp => by cases isOp
      by_cases isRebuild : before.userVersion = 4
      · have counts' := after_rebuild counts isRebuild
        by_cases isTop : largest (intakeRows before.db) = top
        · rw [isTop] at counts'
          exact goesOn counts' (sameGiven same) (givesNewId_of_same same)
            fun _ => (newestOnFile_iff counts given).mpr isTop
        · have atMost := (largest_le_iff counts.settled.nonneg).mpr counts.settled.below
          have isLater : 4 < (before.after .migrate).userVersion := by
            dsimp only [History.after]
            rw [if_pos (by rw [isRebuild]; decide), isRebuild]
            exact Nat.lt_succ_self 4
          rw [along_cons, CounterKept, givesNewId_lost counts' (sameGiven same)
            (lt_of_le_of_ne atMost isTop) counts.settled.inside isLater run]
          constructor
          · rintro ⟨-, known⟩
            exact ⟨fun _ => .inr known, counterKept_later isLater run⟩
          · rintro ⟨kept, -⟩
            refine ⟨givesNewId_of_same same, (kept ⟨rfl, isRebuild⟩).resolve_left ?_⟩
            exact fun newest => isTop ((newestOnFile_iff counts given).mp newest)
      · exact goesOn (after_migrate counts isRebuild) (sameGiven same) (givesNewId_of_same same)
          fun rebuilds => absurd rebuilds.2 isRebuild

/-- **No intake id is given twice exactly when the rebuild keeps the counter.** Along every history
of inserts, deletes and migrations: no insert is given an id that an earlier row carried, if and
only if `M[4]` runs while the newest id is on file or no new file is registered after it. -/
theorem ids_never_reused_iff {trace : List (Op × History)} (run : Along Step History.start trace) :
    Along GivesNewId History.start trace ↔ CounterKept History.start trace := by
  refine givesNewId_iff CountsFrom.start (fun intakeId => ?_) run
  refine iff_of_false List.not_mem_nil ?_
  omega

/-- Two files before the rebuild and one after it. -/
def threeFiles : List Op :=
  List.replicate 4 .migrate ++ [.register "a", .register "b", .migrate, .register "c"]

theorem ids_never_reused_iff_threeFiles :
    Along GivesNewId History.start (History.start.trace threeFiles) := by
  refine (ids_never_reused_iff (History.start.trace_along threeFiles)).mpr ?_
  have newest : ∀ intakeId ∈ [(1 : Int), 2], ∃ row ∈
      [((1 : Int), IntakeRow.mk "a" (.text none)), (2, IntakeRow.mk "b" (.text none))],
      intakeId ≤ row.1 := by decide
  refine ⟨?_, ?_, ?_, ?_, ?_, ?_, ?_, ?_, trivial⟩
  all_goals first
    | exact fun _ => .inl newest
    | exact fun rebuilds => absurd rebuilds.2 (by decide)
    | exact fun rebuilds => absurd rebuilds.1 (by decide)

/-- The newer of two files is removed before the rebuild. -/
def removedBeforeRebuild : List Op :=
  List.replicate 4 .migrate ++ [.register "a", .register "b", .delete 2, .migrate, .register "c"]

/-- **The file registered after the rebuild is given the removed book's id.** -/
theorem rebuild_reuses_id :
    ¬ ∀ trace, Along Step History.start trace → Along GivesNewId History.start trace := by
  intro always
  have gives := always _ (History.start.trace_along removedBeforeRebuild)
  have isSplit : History.start.trace removedBeforeRebuild =
      (History.start.trace removedBeforeRebuild).take 8 ++
        (History.start.trace removedBeforeRebuild).drop 8 := (List.take_append_drop 8 _).symm
  rw [isSplit, Along.split] at gives
  have reused : (2 : Int) ∉ [(1 : Int), 2] := gives.2.1 2 rfl
  exact reused (by decide)

end Bookrack.Catalog
