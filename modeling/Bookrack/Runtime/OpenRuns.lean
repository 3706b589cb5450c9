/-
Open pipeline runs and the passes that probe them, as one transition system: the two legs of a run's
owner (`runtime/src/pipeline_run_helpers.rs`), the record it holds in between
(`catalog/src/run_lock.rs`), and the surveys and repairs of `runtime/src/open_runs.rs`. Every call
that another process can see is a step of its own: the insert, the opening of the record and the
lock on it, the update, the removal, the release.

* `OwnerStep` / `PassStep` / `Step` — everything an owner, a pass, or the system can do.
* `Sound` — who may hold a record's lock, and what is known of a run by the phase of its owner. It
  holds of every state of every run (`sound_step`).
* `Kept` — a record is not lost before its row is closed (`kept_step`).
-/

import Bookrack.Base.Run
import Bookrack.Catalog.PipelineRuns
import Mathlib.Logic.Function.Basic

namespace Bookrack.Runtime.OpenRuns

open Catalog

/-! ### The state -/

/-- Who holds the lock of a record: the owner's handle, or a probe of a pass. -/
inductive Holder
  | owner
  | pass (pass : Nat)
  deriving DecidableEq, Repr

/-- A record: whether the directory still names the file, and who has its lock. A file that is no
longer named stays lockable through the handles that are open on it. -/
structure LockFile where
  named : Bool
  holder : Option Holder
  deriving DecidableEq, Repr

/-- How far the owner of a run is. `working` says whether it holds its record; `dropping` is past
the row's update or unwinding, with the record still to remove. -/
inductive Phase
  | absent
  | registered
  | created
  | working (tracked : Bool)
  | dropping
  | releasing
  | gone
  deriving DecidableEq, Repr

/-- `RunLiveness`, without the reason of the last. -/
inductive RunLiveness
  | held
  | abandoned
  | noRecord
  | unreadable
  deriving DecidableEq, Repr

/-- A survey on its way: the catalogs and rows still to read, and the runs judged, in order. -/
structure Survey where
  dryRun : Bool
  registries : List Registry
  todo : List RunId
  runs : List (RunId × RunLiveness)
  deriving DecidableEq, Repr

/-- `CloseAbandonedReport`; what it copies of a row is the row's id. -/
structure CloseAbandonedReport where
  dryRun : Bool
  closed : List RunId
  failures : List RunId
  leftRunning : Nat
  leftUnjudged : Nat
  deriving DecidableEq, Repr

/-- Where a pass is. -/
inductive Pass
  | idle
  | surveying (survey : Survey)
  | opened (run : RunId) (survey : Survey)
  | holding (run : RunId) (survey : Survey)
  | closing (todo : List RunId) (report : CloseAbandonedReport)
  | discarding (run : RunId) (todo : List RunId) (report : CloseAbandonedReport)
  | done (report : CloseAbandonedReport)
  deriving DecidableEq, Repr

structure World where
  table : RunTable
  files : List Char → LockFile
  phases : RunId → Phase
  passes : Nat → Pass

/-- An empty data root, and nobody at work. -/
def World.start : World where
  table := .empty
  files := fun _ => { named := false, holder := none }
  phases := fun _ => .absent
  passes := fun _ => .idle

/-- The record under a run's name. -/
def World.file (world : World) (run : RunId) : LockFile := world.files (runLockName run)

def World.setFile (world : World) (run : RunId) (file : LockFile) : World :=
  { world with files := Function.update world.files (runLockName run) file }

def World.setPhase (world : World) (run : RunId) (phase : Phase) : World :=
  { world with phases := Function.update world.phases run phase }

def World.setPass (world : World) (pass : Nat) (state : Pass) : World :=
  { world with passes := Function.update world.passes pass state }

def World.setTable (world : World) (table : RunTable) : World := { world with table := table }

/-- `fs::remove_file` on a record. -/
def LockFile.removed (file : LockFile) : LockFile := { file with named := false }

def LockFile.lockedBy (file : LockFile) (holder : Holder) : LockFile :=
  { file with holder := some holder }

/-- The holder's handle is closed, by its process or by the kernel. -/
def LockFile.released (file : LockFile) : LockFile := { file with holder := none }

/-! #### Reading what was set -/

section Fields

variable (world : World) (run other : RunId) (pass : Nat)

@[simp] theorem table_setFile (file : LockFile) : (world.setFile run file).table = world.table := rfl
@[simp] theorem phases_setFile (file : LockFile) :
    (world.setFile run file).phases = world.phases := rfl
@[simp] theorem passes_setFile (file : LockFile) :
    (world.setFile run file).passes = world.passes := rfl
@[simp] theorem table_setPhase (phase : Phase) :
    (world.setPhase run phase).table = world.table := rfl
@[simp] theorem file_setPhase (phase : Phase) :
    (world.setPhase run phase).file other = world.file other := rfl
@[simp] theorem passes_setPhase (phase : Phase) :
    (world.setPhase run phase).passes = world.passes := rfl
@[simp] theorem table_setPass (state : Pass) : (world.setPass pass state).table = world.table := rfl
@[simp] theorem file_setPass (state : Pass) :
    (world.setPass pass state).file other = world.file other := rfl
@[simp] theorem phases_setPass (state : Pass) :
    (world.setPass pass state).phases = world.phases := rfl
@[simp] theorem table_setTable (table : RunTable) : (world.setTable table).table = table := rfl
@[simp] theorem file_setTable (table : RunTable) :
    (world.setTable table).file other = world.file other := rfl
@[simp] theorem phases_setTable (table : RunTable) :
    (world.setTable table).phases = world.phases := rfl
@[simp] theorem passes_setTable (table : RunTable) :
    (world.setTable table).passes = world.passes := rfl

/-- A record's file is no other run's: the names tell the runs apart. -/
@[simp] theorem file_setFile (file : LockFile) :
    (world.setFile run file).file other = if other = run then file else world.file other := by
  show Function.update world.files (runLockName run) file (runLockName other) = _
  by_cases here : other = run
  · rw [if_pos here, here, Function.update_self]
  · rw [if_neg here, Function.update_of_ne fun same => here (runLockName_injective same)]
    rfl

@[simp] theorem phases_setPhase (phase : Phase) :
    (world.setPhase run phase).phases other = if other = run then phase else world.phases other :=
  Function.update_apply ..

@[simp] theorem passes_setPass (other : Nat) (state : Pass) :
    (world.setPass pass state).passes other = if other = pass then state else world.passes other :=
  Function.update_apply ..

end Fields

/-! ### The owner -/

/-- What an owner does next, with what the system calls answered. -/
inductive OwnerAct
  | register
  | create (opened : Bool)
  | lock (answered : Bool)
  | stamp (ok : Bool) (written : Option String)
  | unwind
  | unlink (removed : Bool)
  | release
  | die
  deriving DecidableEq, Repr

/-- The status `close_run` writes. -/
def closeStatus (ok : Bool) : RunStatus := if ok then .ok else .error

/-- The phase behind the last use of the handle: an untracked run has nothing to drop. -/
def dropPhase (tracked : Bool) : Phase := if tracked then .dropping else .gone

/-- The record when its owner's process has ended. -/
def LockFile.withoutOwner (file : LockFile) : LockFile :=
  if file.holder = some .owner then file.released else file

/-- The steps of a run's owner. `RunLock::acquire` is `create` and `lock`: a record that is locked
already (`lockRefused`) or cannot be locked (`lockFails`) leaves its file where it is. An update
that fails abandons the run: its handle closes and the file stays. -/
inductive OwnerStep (run : RunId) : World → OwnerAct → World → Prop
  | register {world : World} {opened : RunTable} :
      openPipelineRun world.table run = some opened →
        OwnerStep run world .register ((world.setTable opened).setPhase run .registered)
  | create {world : World} : world.phases run = .registered →
      OwnerStep run world (.create true)
        ((world.setFile run { world.file run with named := true }).setPhase run .created)
  | createFails {world : World} : world.phases run = .registered →
      OwnerStep run world (.create false) (world.setPhase run (.working false))
  | lock {world : World} : world.phases run = .created → (world.file run).holder = none →
      OwnerStep run world (.lock true)
        ((world.setFile run ((world.file run).lockedBy .owner)).setPhase run (.working true))
  | lockRefused {world : World} {holder : Holder} : world.phases run = .created →
      (world.file run).holder = some holder →
        OwnerStep run world (.lock true) (world.setPhase run (.working false))
  | lockFails {world : World} : world.phases run = .created →
      OwnerStep run world (.lock false) (world.setPhase run (.working false))
  | stamp {world : World} {tracked ok : Bool} {now : String} :
      world.phases run = .working tracked →
        OwnerStep run world (.stamp ok (some now))
          ((world.setTable (closePipelineRun world.table run (closeStatus ok) now)).setPhase run
            (dropPhase tracked))
  | stampFails {world : World} {tracked ok : Bool} : world.phases run = .working tracked →
      OwnerStep run world (.stamp ok none)
        ((world.setFile run (world.file run).withoutOwner).setPhase run .gone)
  | unwind {world : World} {tracked : Bool} : world.phases run = .working tracked →
      OwnerStep run world .unwind (world.setPhase run (dropPhase tracked))
  | unlink {world : World} : world.phases run = .dropping →
      OwnerStep run world (.unlink true)
        ((world.setFile run (world.file run).removed).setPhase run .releasing)
  | unlinkFails {world : World} : world.phases run = .dropping →
      OwnerStep run world (.unlink false) (world.setPhase run .releasing)
  | release {world : World} : world.phases run = .releasing →
      OwnerStep run world .release
        ((world.setFile run (world.file run).withoutOwner).setPhase run .gone)
  | die {world : World} : world.phases run ≠ .absent →
      OwnerStep run world .die
        ((world.setFile run (world.file run).withoutOwner).setPhase run .gone)

/-! ### The passes -/

/-- What a pass does next, with what the system calls answered. -/
inductive PassAct
  | begin (dryRun : Bool)
  | look (run : RunId)
  | list (readable : Bool)
  | openRecord (readable : Bool)
  | tryLock (answered : Bool)
  | letGo
  | conclude
  | close (written : Option String)
  | discard (removed : Bool)
  | finish
  | stop
  deriving DecidableEq, Repr

/-- A survey with one run judged. -/
def Survey.judge (survey : Survey) (run : RunId) (liveness : RunLiveness) : Survey :=
  { survey with runs := survey.runs ++ [(run, liveness)] }

def Survey.count (survey : Survey) (liveness : RunLiveness) : Nat :=
  (survey.runs.filter fun judged => judged.2 == liveness).length

/-- `OpenRunSurvey::abandoned`. -/
def Survey.abandoned (survey : Survey) : List RunId :=
  (survey.runs.filter fun judged => judged.2 == .abandoned).map Prod.fst

/-- The survey of both catalogs under the data root, before its first row. -/
def Survey.begun (dryRun : Bool) : Survey :=
  { dryRun := dryRun, registries := [.books, .papers], todo := [], runs := [] }

/-- The report as `close_abandoned_runs` starts it. -/
def Survey.report (survey : Survey) : CloseAbandonedReport where
  dryRun := survey.dryRun
  closed := []
  failures := []
  leftRunning := survey.count .held
  leftUnjudged := survey.count .noRecord

def CloseAbandonedReport.close (report : CloseAbandonedReport) (run : RunId) :
    CloseAbandonedReport :=
  { report with closed := report.closed ++ [run] }

def CloseAbandonedReport.fail (report : CloseAbandonedReport) (run : RunId) :
    CloseAbandonedReport :=
  { report with failures := report.failures ++ [run] }

/-- Where a pass goes from its survey: a dry run reports its plan, the real pass closes it. -/
def Survey.concluded (survey : Survey) : Pass :=
  if survey.dryRun then .done { survey.report with closed := survey.abandoned }
  else .closing survey.abandoned survey.report

/-- The record a stopped pass leaves: the kernel releases the lock its probe held. -/
def World.letGoOf (world : World) (pass : Nat) : World :=
  match world.passes pass with
  | .holding run _ => world.setFile run (world.file run).released
  | _ => world

/-- The steps of a pass. `run_liveness` is `openRecord`, `tryLock` and, where it got the lock,
`letGo`; `look` is the one probe `runs list` makes of a row that reads `running`. -/
inductive PassStep (pass : Nat) : World → PassAct → World → Prop
  | begin {world : World} {dryRun : Bool} : world.passes pass = .idle →
      PassStep pass world (.begin dryRun) (world.setPass pass (.surveying (.begun dryRun)))
  | look {world : World} {run : RunId} : world.passes pass = .idle →
      world.table.statusOf run = some .running →
        PassStep pass world (.look run)
          (world.setPass pass (.surveying { dryRun := true, registries := [], todo := [run], runs := [] }))
  | list {world : World} {survey : Survey} {registry : Registry} {rest : List Registry} :
      world.passes pass = .surveying survey → survey.todo = [] →
      survey.registries = registry :: rest →
        PassStep pass world (.list true) (world.setPass pass (.surveying
          { survey with registries := rest, todo := listOpenPipelineRuns world.table registry }))
  | listFails {world : World} {survey : Survey} {registry : Registry} {rest : List Registry} :
      world.passes pass = .surveying survey → survey.todo = [] →
      survey.registries = registry :: rest →
        PassStep pass world (.list false)
          (world.setPass pass (.surveying { survey with registries := rest }))
  | openRecord {world : World} {survey : Survey} {run : RunId} {rest : List RunId} :
      world.passes pass = .surveying survey → survey.todo = run :: rest →
      (world.file run).named = true →
        PassStep pass world (.openRecord true)
          (world.setPass pass (.opened run { survey with todo := rest }))
  | noRecord {world : World} {survey : Survey} {run : RunId} {rest : List RunId} :
      world.passes pass = .surveying survey → survey.todo = run :: rest →
      (world.file run).named = false →
        PassStep pass world (.openRecord true)
          (world.setPass pass (.surveying ({ survey with todo := rest }.judge run .noRecord)))
  | openFails {world : World} {survey : Survey} {run : RunId} {rest : List RunId} :
      world.passes pass = .surveying survey → survey.todo = run :: rest →
        PassStep pass world (.openRecord false)
          (world.setPass pass (.surveying ({ survey with todo := rest }.judge run .unreadable)))
  | tryLock {world : World} {survey : Survey} {run : RunId} :
      world.passes pass = .opened run survey → (world.file run).holder = none →
        PassStep pass world (.tryLock true)
          ((world.setFile run ((world.file run).lockedBy (.pass pass))).setPass pass
            (.holding run survey))
  | held {world : World} {survey : Survey} {run : RunId} {holder : Holder} :
      world.passes pass = .opened run survey → (world.file run).holder = some holder →
        PassStep pass world (.tryLock true)
          (world.setPass pass (.surveying (survey.judge run .held)))
  | lockFails {world : World} {survey : Survey} {run : RunId} :
      world.passes pass = .opened run survey →
        PassStep pass world (.tryLock false)
          (world.setPass pass (.surveying (survey.judge run .unreadable)))
  | letGo {world : World} {survey : Survey} {run : RunId} :
      world.passes pass = .holding run survey →
        PassStep pass world .letGo
          ((world.setFile run (world.file run).released).setPass pass
            (.surveying (survey.judge run .abandoned)))
  | conclude {world : World} {survey : Survey} :
      world.passes pass = .surveying survey → survey.todo = [] → survey.registries = [] →
        PassStep pass world .conclude (world.setPass pass survey.concluded)
  | close {world : World} {run : RunId} {rest : List RunId} {report : CloseAbandonedReport}
      {now : String} : world.passes pass = .closing (run :: rest) report →
        PassStep pass world (.close (some now))
          ((world.setTable (closePipelineRun world.table run .abandoned now)).setPass pass
            (.discarding run rest report))
  | closeFails {world : World} {run : RunId} {rest : List RunId} {report : CloseAbandonedReport} :
      world.passes pass = .closing (run :: rest) report →
        PassStep pass world (.close none) (world.setPass pass (.closing rest (report.fail run)))
  | discard {world : World} {run : RunId} {rest : List RunId} {report : CloseAbandonedReport} :
      world.passes pass = .discarding run rest report →
        PassStep pass world (.discard true)
          ((world.setFile run (world.file run).removed).setPass pass
            (.closing rest (report.close run)))
  | discardFails {world : World} {run : RunId} {rest : List RunId}
      {report : CloseAbandonedReport} : world.passes pass = .discarding run rest report →
        PassStep pass world (.discard false)
          (world.setPass pass (.closing rest (report.close run)))
  | finish {world : World} {report : CloseAbandonedReport} :
      world.passes pass = .closing [] report →
        PassStep pass world .finish (world.setPass pass (.done report))
  | stop {world : World} :
      PassStep pass world .stop ((world.letGoOf pass).setPass pass .idle)

inductive Event
  | owner (run : RunId) (act : OwnerAct)
  | pass (pass : Nat) (act : PassAct)
  deriving DecidableEq, Repr

inductive Step : World → Event → World → Prop
  | owner {before after : World} {run : RunId} {act : OwnerAct} :
      OwnerStep run before act after → Step before (.owner run act) after
  | pass {before after : World} {pass : Nat} {act : PassAct} :
      PassStep pass before act after → Step before (.pass pass act) after

/-! ### Who holds what -/

/-- The owner is past its lock and before its release. -/
def Phase.holds : Phase → Bool
  | .working true | .dropping | .releasing => true
  | _ => false

/-- The owner has got as far as the record, or past it. -/
def Phase.made : Phase → Bool
  | .absent | .registered => false
  | _ => true

/-- The runs a pass takes to be abandoned and has still to close. -/
def Pass.judged : Pass → List RunId
  | .surveying survey | .opened _ survey => survey.abandoned
  | .holding run survey => survey.abandoned ++ [run]
  | .closing todo _ | .discarding _ todo _ => todo
  | .idle | .done _ => []

/-- What holds of one run. -/
structure SoundRun (world : World) (run : RunId) : Prop where
  rows : world.table.statusOf run = none ↔ world.phases run = .absent
  owner : (world.file run).holder = some .owner ↔ (world.phases run).holds = true
  probe : ∀ pass, (world.file run).holder = some (.pass pass) ↔
    ∃ survey, world.passes pass = .holding run survey
  named : (world.file run).named = true → (world.phases run).made = true
  opened : ∀ pass survey, world.passes pass = .opened run survey → (world.phases run).made = true
  judged : ∀ pass, run ∈ (world.passes pass).judged → (world.phases run).made = true

/-- **Who holds what**, for every run. -/
def Sound (world : World) : Prop := ∀ run, SoundRun world run

theorem sound_start : Sound .start := by
  intro run
  have status : World.start.table.statusOf run = none := rfl
  constructor
  · exact ⟨fun _ => rfl, fun _ => status⟩
  · constructor
    · intro taken
      cases taken
    · intro holds
      cases holds
  · intro pass
    constructor
    · intro taken
      cases taken
    · rintro ⟨survey, holding⟩
      cases holding
  · intro named
    cases named
  · intro pass survey opened
    cases opened
  · intro pass judged
    cases judged

/-- The run's facts read its row, its record, its phase and the passes only. -/
theorem SoundRun.congr {before after : World} {run : RunId} (sound : SoundRun before run)
    (status : after.table.statusOf run = before.table.statusOf run)
    (file : after.file run = before.file run) (phase : after.phases run = before.phases run)
    (passes : after.passes = before.passes) : SoundRun after run := by
  obtain ⟨rows, owner, probe, named, opened, judged⟩ := sound
  constructor
  · rw [status, phase, rows]
  · rw [file, phase, owner]
  · intro pass
    rw [file, passes, probe]
  · rw [file, phase]
    exact named
  · intro pass survey
    rw [passes, phase]
    exact opened pass survey
  · intro pass
    rw [passes, phase]
    exact judged pass

theorem SoundRun.free_of_absent {world : World} {run : RunId} (sound : SoundRun world run)
    (early : (world.phases run).made = false) :
    (world.file run).named = false ∧ (world.file run).holder ≠ some .owner ∧
      (∀ pass survey, world.passes pass ≠ .opened run survey) ∧
        ∀ pass, run ∉ (world.passes pass).judged := by
  refine ⟨?_, ?_, ?_, ?_⟩
  · by_contra named
    exact absurd (sound.named (by simpa using named)) (by simp [early])
  · intro taken
    have holds := sound.owner.mp taken
    revert early holds
    cases world.phases run <;> simp [Phase.made, Phase.holds]
  · exact fun pass survey opened => absurd (sound.opened pass survey opened) (by simp [early])
  · exact fun pass judged => absurd (sound.judged pass judged) (by simp [early])

/-- A record that is closed by its owner's process keeps the locks of the probes. -/
theorem withoutOwner_holder (file : LockFile) (pass : Nat) :
    file.withoutOwner.holder = some (.pass pass) ↔ file.holder = some (.pass pass) := by
  unfold LockFile.withoutOwner
  by_cases own : file.holder = some .owner
  · simp [own, LockFile.released]
  · rw [if_neg own]

theorem withoutOwner_free (file : LockFile) : file.withoutOwner.holder ≠ some .owner := by
  unfold LockFile.withoutOwner
  by_cases own : file.holder = some .owner
  · simp [own, LockFile.released]
  · rwa [if_neg own]

@[simp] theorem withoutOwner_named (file : LockFile) : file.withoutOwner.named = file.named := by
  unfold LockFile.withoutOwner
  split <;> rfl

/-- An owner's own run, past its step: the phase is past the record, and the lock follows it. -/
theorem SoundRun.moved {before after : World} {run : RunId} (sound : SoundRun before run)
    (row : after.table.statusOf run ≠ none) (made : (after.phases run).made = true)
    (owner : (after.file run).holder = some .owner ↔ (after.phases run).holds = true)
    (probe : ∀ pass, (after.file run).holder = some (.pass pass) ↔
      (before.file run).holder = some (.pass pass))
    (passes : after.passes = before.passes) : SoundRun after run where
  rows := by
    refine ⟨fun none => absurd none row, fun absent => ?_⟩
    rw [absent] at made
    cases made
  owner := owner
  probe pass := by rw [probe, passes, sound.probe]
  named := fun _ => made
  opened := fun _ _ _ => made
  judged := fun _ _ => made

/-- Everything an owner's step leaves alone. -/
theorem ownerStep_frame {before after : World} {run : RunId} {act : OwnerAct}
    (step : OwnerStep run before act after) :
    after.passes = before.passes ∧ ∀ other, other ≠ run →
      after.table.statusOf other = before.table.statusOf other ∧
        after.file other = before.file other ∧ after.phases other = before.phases other := by
  cases step with
  | register opens =>
    exact ⟨rfl, fun other apart => ⟨by simp [statusOf_openPipelineRun opens, apart], rfl,
      by simp [apart]⟩⟩
  | stamp =>
    exact ⟨rfl, fun other apart => ⟨by simp [statusOf_closePipelineRun, apart], rfl,
      by simp [apart]⟩⟩
  | create | createFails | lock | lockRefused | lockFails | stampFails | unwind | unlink
  | unlinkFails | release | die =>
    exact ⟨rfl, fun other apart => ⟨rfl, by simp [apart], by simp [apart]⟩⟩

theorem SoundRun.row {world : World} {run : RunId} (sound : SoundRun world run)
    (there : world.phases run ≠ .absent) : world.table.statusOf run ≠ none :=
  fun none => there (sound.rows.mp none)

theorem dropPhase_made (tracked : Bool) : (dropPhase tracked).made = true := by
  cases tracked <;> rfl

theorem dropPhase_holds (tracked : Bool) :
    (dropPhase tracked).holds = (Phase.working tracked).holds := by cases tracked <;> rfl

/-- A step of the owner keeps what holds of its own run. -/
theorem soundRun_owner {before after : World} {run : RunId} {act : OwnerAct}
    (sound : SoundRun before run) (step : OwnerStep run before act after) :
    SoundRun after run := by
  have frame := (ownerStep_frame step).1
  cases step with
  | register opens =>
    have unknown : before.table.statusOf run = none := by
      rw [statusOf_eq_none]
      unfold openPipelineRun at opens
      split at opens
      · cases opens
      · assumption
    have early : (before.phases run).made = false := by rw [sound.rows.mp unknown]; rfl
    obtain ⟨unnamed, free, unopened, unjudged⟩ := sound.free_of_absent early
    constructor
    · simp [statusOf_openPipelineRun opens]
    · simpa [Phase.holds] using free
    · simpa using sound.probe
    · simp [unnamed]
    · exact fun pass survey opened => absurd opened (unopened pass survey)
    · exact fun pass judged => absurd judged (unjudged pass)
  | create at' =>
    have row := sound.row (by simp [at'])
    have owner := sound.owner
    simp only [at', Phase.holds] at owner
    exact sound.moved row (by simp [Phase.made]) (by simpa [Phase.holds] using owner) (by simp)
      frame
  | createFails at' =>
    have row := sound.row (by simp [at'])
    have owner := sound.owner
    simp only [at', Phase.holds] at owner
    exact sound.moved row (by simp [Phase.made]) (by simpa [Phase.holds] using owner) (by simp)
      frame
  | lock at' free =>
    have row := sound.row (by simp [at'])
    exact sound.moved row (by simp [Phase.made]) (by simp [Phase.holds, LockFile.lockedBy])
      (by simp [LockFile.lockedBy, free]) frame
  | lockRefused at' | lockFails at' =>
    have row := sound.row (by simp [at'])
    have owner := sound.owner
    simp only [at', Phase.holds] at owner
    exact sound.moved row (by simp [Phase.made]) (by simpa [Phase.holds] using owner) (by simp)
      frame
  | stamp at' =>
    have row := sound.row (by simp [at'])
    have owner := sound.owner
    rw [at'] at owner
    exact sound.moved (by simpa [statusOf_closePipelineRun] using row) (by simp [dropPhase_made])
      (by simpa [dropPhase_holds] using owner) (by simp) frame
  | unwind at' =>
    have row := sound.row (by simp [at'])
    have owner := sound.owner
    rw [at'] at owner
    exact sound.moved row (by simp [dropPhase_made]) (by simpa [dropPhase_holds] using owner)
      (by simp) frame
  | unlink at' =>
    have row := sound.row (by simp [at'])
    have owner := sound.owner
    simp only [at', Phase.holds] at owner
    exact sound.moved row (by simp [Phase.made])
      (by simpa [Phase.holds, LockFile.removed] using owner) (by simp [LockFile.removed]) frame
  | unlinkFails at' =>
    have row := sound.row (by simp [at'])
    have owner := sound.owner
    simp only [at', Phase.holds] at owner
    exact sound.moved row (by simp [Phase.made]) (by simpa [Phase.holds] using owner) (by simp)
      frame
  | stampFails at' | release at' =>
    have row := sound.row (by simp [at'])
    exact sound.moved row (by simp [Phase.made]) (by simp [Phase.holds, withoutOwner_free])
      (by simp [withoutOwner_holder]) frame
  | die there =>
    exact sound.moved (sound.row there) (by simp [Phase.made])
      (by simp [Phase.holds, withoutOwner_free]) (by simp [withoutOwner_holder]) frame

/-! ### What a pass does to it -/

/-- A pass that takes and holds no lock in its step. -/
theorem SoundRun.paced {world : World} {run : RunId} (sound : SoundRun world run) {pass : Nat}
    {state : Pass} (was : ∀ survey, world.passes pass ≠ .holding run survey)
    (is : ∀ survey, state ≠ .holding run survey)
    (opened : ∀ survey, state = .opened run survey → (world.phases run).made = true)
    (judged : run ∈ state.judged → (world.phases run).made = true) :
    SoundRun (world.setPass pass state) run where
  rows := sound.rows
  owner := sound.owner
  probe other := by
    simp only [file_setPass, passes_setPass]
    rw [sound.probe]
    by_cases here : other = pass
    · subst here
      simp [was, is]
    · simp [here]
  named := sound.named
  opened other survey := by
    simp only [passes_setPass, phases_setPass]
    by_cases here : other = pass
    · simpa [here] using opened survey
    · simpa [here] using sound.opened other survey
  judged other := by
    simp only [passes_setPass, phases_setPass]
    by_cases here : other = pass
    · simpa [here] using judged
    · simpa [here] using sound.judged other

theorem abandoned_judge (survey : Survey) (run : RunId) (liveness : RunLiveness) :
    (survey.judge run liveness).abandoned =
      survey.abandoned ++ if liveness = .abandoned then [run] else [] := by
  simp only [Survey.abandoned, Survey.judge, List.filter_append, List.map_append]
  cases liveness <;> rfl

/-- The record's name is removed: its locks stay. -/
theorem SoundRun.removed {world : World} {run : RunId} (sound : SoundRun world run)
    (target : RunId) : SoundRun (world.setFile target (world.file target).removed) run where
  rows := sound.rows
  owner := by
    rw [file_setFile]
    split
    · rename_i here
      subst here
      exact sound.owner
    · exact sound.owner
  probe pass := by
    rw [file_setFile]
    split
    · rename_i here
      subst here
      exact sound.probe pass
    · exact sound.probe pass
  named := by
    rw [file_setFile]
    split
    · intro named
      cases named
    · exact sound.named
  opened := sound.opened
  judged := sound.judged

/-- A row's status is rewritten: the row stays. -/
theorem SoundRun.closed {world : World} {run : RunId} (sound : SoundRun world run)
    (target : RunId) (status : RunStatus) (now : String) :
    SoundRun (world.setTable (closePipelineRun world.table target status now)) run where
  rows := by
    rw [table_setTable, statusOf_closePipelineRun]
    split
    · rw [Option.map_eq_none_iff]
      exact sound.rows
    · exact sound.rows
  owner := sound.owner
  probe := sound.probe
  named := sound.named
  opened := sound.opened
  judged := sound.judged

/-- A probe takes a record's lock. -/
theorem SoundRun.taken {world : World} {run target : RunId} {pass : Nat} {survey : Survey}
    (sound : SoundRun world run) (opened : world.passes pass = .opened target survey)
    (free : (world.file target).holder = none) :
    SoundRun ((world.setFile target ((world.file target).lockedBy (.pass pass))).setPass pass
      (.holding target survey)) run := by
  have judged : run ∈ survey.abandoned → (world.phases run).made = true := fun member =>
    sound.judged pass (by rwa [opened])
  by_cases here : run = target
  · subst here
    have unheld : ¬ (world.phases run).holds = true := by
      rw [← sound.owner, free]
      simp
    have made := sound.opened pass survey opened
    constructor
    · exact sound.rows
    · simpa [LockFile.lockedBy] using unheld
    · intro other
      by_cases own : other = pass
      · simp [own, LockFile.lockedBy]
      · have elsewhere := sound.probe other
        rw [free] at elsewhere
        simp only [reduceCtorEq, false_iff] at elsewhere
        simpa [own, LockFile.lockedBy, Ne.symm own] using elsewhere
    · exact fun _ => made
    · exact fun _ _ _ => made
    · exact fun _ _ => made
  · have elsewhere : SoundRun
        (world.setFile target ((world.file target).lockedBy (.pass pass))) run :=
      sound.congr rfl (by simp [here]) rfl rfl
    refine elsewhere.paced ?_ ?_ ?_ ?_
    · intro other
      simp [opened]
    · rintro other ⟨⟩
      exact here rfl
    · exact fun other opened => by cases opened
    · intro member
      rcases List.mem_append.mp member with old | new
      · exact judged old
      · exact absurd (List.mem_singleton.mp new) here

/-- A probe lets a record's lock go. -/
theorem SoundRun.letGo {world : World} {run target : RunId} {pass : Nat} {survey : Survey}
    (sound : SoundRun world run) (holding : world.passes pass = .holding target survey)
    {state : Pass} (is : ∀ other survey, state ≠ .holding other survey)
    (opened : ∀ other survey, state ≠ .opened other survey)
    (judged : ∀ other ∈ state.judged, other ∈ (Pass.holding target survey).judged) :
    SoundRun ((world.setFile target (world.file target).released).setPass pass state) run := by
  have made : run ∈ state.judged → (world.phases run).made = true := fun member =>
    sound.judged pass (by rw [holding]; exact judged run member)
  by_cases here : run = target
  · subst here
    have mine : (world.file run).holder = some (.pass pass) := (sound.probe pass).mpr ⟨_, holding⟩
    have unheld : ¬ (world.phases run).holds = true := by
      rw [← sound.owner, mine]
      simp
    constructor
    · exact sound.rows
    · simpa [LockFile.released] using unheld
    · intro other
      by_cases own : other = pass
      · simp [own, LockFile.released, is]
      · have elsewhere := sound.probe other
        rw [mine] at elsewhere
        simp only [Option.some.injEq, Holder.pass.injEq, Ne.symm own, false_iff] at elsewhere
        simpa [own, LockFile.released] using elsewhere
    · simpa [LockFile.released] using sound.named
    · intro other survey
      by_cases own : other = pass
      · simp [own, opened]
      · simpa [own] using sound.opened other survey
    · intro other
      by_cases own : other = pass
      · simpa [own] using made
      · simpa [own] using sound.judged other
  · have elsewhere : SoundRun (world.setFile target (world.file target).released) run :=
      sound.congr rfl (by simp [here]) rfl rfl
    refine elsewhere.paced ?_ ?_ ?_ ?_
    · rintro other eq
      rw [passes_setFile, holding] at eq
      exact here (Pass.holding.inj eq).1.symm
    · exact fun other => is run other
    · exact fun other eq => absurd eq (opened run other)
    · exact made

/-- A step of a pass keeps what holds of every run. -/
theorem soundRun_pass {before after : World} {pass : Nat} {act : PassAct}
    (sound : Sound before) (step : PassStep pass before act after) (run : RunId) :
    SoundRun after run := by
  have own := sound run
  have judged := own.judged pass
  cases step with
  | begin at' | look at' | finish at' =>
    exact own.paced (by simp [at']) (by simp) (by simp) (by simp [Pass.judged, Survey.abandoned,
      Survey.begun])
  | list at' todo rest | listFails at' todo rest =>
    rw [at'] at judged
    exact own.paced (by simp [at']) (by simp) (by simp) judged
  | openRecord at' todo named =>
    rw [at'] at judged
    refine own.paced (by simp [at']) (by simp) ?_ judged
    rintro survey ⟨⟩
    exact own.named named
  | noRecord at' | openFails at' | held at' | lockFails at' =>
    rw [at'] at judged
    refine own.paced (by simp [at']) (by simp) (by simp) ?_
    show run ∈ (Survey.judge _ _ _).abandoned → _
    rw [abandoned_judge, if_neg (by simp), List.append_nil]
    exact judged
  | tryLock at' free => exact own.taken at' free
  | letGo at' =>
    refine own.letGo at' (by simp) (by simp) ?_
    simp [Pass.judged, abandoned_judge]
  | conclude at' =>
    rw [at'] at judged
    refine own.paced (by simp [at']) ?_ ?_ ?_
    · unfold Survey.concluded
      split <;> simp
    · unfold Survey.concluded
      split <;> simp
    · unfold Survey.concluded
      split
      · simp [Pass.judged]
      · exact judged
  | close at' =>
    rw [at'] at judged
    refine (own.closed _ _ _).paced (by simp [at']) (by simp) (by simp) ?_
    exact fun member => judged (List.mem_cons_of_mem _ member)
  | closeFails at' =>
    rw [at'] at judged
    refine own.paced (by simp [at']) (by simp) (by simp) ?_
    exact fun member => judged (List.mem_cons_of_mem _ member)
  | discard at' =>
    rw [at'] at judged
    exact (own.removed _).paced (by simp [at']) (by simp) (by simp) judged
  | discardFails at' =>
    rw [at'] at judged
    exact own.paced (by simp [at']) (by simp) (by simp) judged
  | stop =>
    unfold World.letGoOf
    split
    · rename_i target survey at'
      exact own.letGo at' (by simp) (by simp) (by simp [Pass.judged])
    · rename_i free
      exact own.paced (fun survey eq => free _ _ eq) (by simp) (by simp) (by simp [Pass.judged])

/-- **Every step keeps who holds what.** -/
theorem sound_step {before after : World} {event : Event} (sound : Sound before)
    (step : Step before event after) : Sound after := by
  cases step with
  | @owner _ run act step =>
    intro other
    by_cases here : other = run
    · subst here
      exact soundRun_owner (sound other) step
    · obtain ⟨passes, frame⟩ := ownerStep_frame step
      obtain ⟨status, file, phase⟩ := frame other here
      exact (sound other).congr status file phase passes
  | pass step => exact soundRun_pass sound step

end Bookrack.Runtime.OpenRuns
