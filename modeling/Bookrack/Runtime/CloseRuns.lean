/-
The repair of abandoned runs as one pass (`survey`, `close_abandoned_runs` and `close_one` in
`runtime/src/open_runs.rs`), and what becomes of a run that was lost.

* `undisturbed_pass` — **a pass nobody disturbs is the sequential one**: step by step it ends with
  the report and the effects `surveyRuns` foretells, and touches nothing else.
* `lost_step` — a run that died with its record keeps it until its row is closed.
* `lost_run_closed` — **no lost run stays open**: however the system went on after its owner died or
  could not stamp it, the next undisturbed repair closes it.
-/

import Bookrack.Runtime.AbandonedRuns

namespace Bookrack.Runtime.OpenRuns

open Catalog Run

/-! ### The pass on its own -/

/-- `run_liveness` where every call is answered. -/
def runLiveness (world : World) (run : RunId) : RunLiveness :=
  if (world.file run).named then
    match (world.file run).holder with
    | none => .abandoned
    | some _ => .held
  else .noRecord

/-- `survey_catalog`. -/
def surveyCatalog (world : World) (registry : Registry) : List (RunId × RunLiveness) :=
  (listOpenPipelineRuns world.table registry).map fun run => (run, runLiveness world run)

/-- `survey`. -/
def surveyRuns (world : World) : List (RunId × RunLiveness) :=
  surveyCatalog world .books ++ surveyCatalog world .papers

/-- The survey when it has read both catalogs. -/
def surveyed (world : World) (dryRun : Bool) : Survey :=
  { dryRun := dryRun, registries := [], todo := [], runs := surveyRuns world }

/-- The report of `close_abandoned_runs` where every call is answered. -/
def closeAbandonedRuns (world : World) (dryRun : Bool) : CloseAbandonedReport :=
  { (surveyed world dryRun).report with closed := (surveyed world dryRun).abandoned }

/-- The rows of a list are stamped `abandoned` and lose their records; nothing else changes. -/
structure ClosedExactly (before after : World) (closed : List RunId) : Prop where
  status : ∀ run, after.table.statusOf run =
    if run ∈ closed then some .abandoned else before.table.statusOf run
  file : ∀ run, after.file run =
    if run ∈ closed then (before.file run).removed else before.file run
  phases : after.phases = before.phases

/-- What a survey has still to judge. -/
def pending (origin : World) (survey : Survey) : List (RunId × RunLiveness) :=
  (survey.todo.map fun run => (run, runLiveness origin run)) ++
    survey.registries.flatMap (surveyCatalog origin)

/-- A pass at its start. -/
def World.begun (world : World) (pass : Nat) (dryRun : Bool) : World :=
  world.setPass pass (.surveying (.begun dryRun))

/-- An answer a repair hopes for. -/
def PassAct.answered : PassAct → Bool
  | .list true | .openRecord true | .tryLock true | .letGo | .conclude | .close (some _)
  | .discard true | .finish => true
  | _ => false

/-- A step of one pass, with every call answered. -/
def Undisturbed (pass : Nat) (before : World) (event : Event) (after : World) : Prop :=
  ∃ act, event = .pass pass act ∧ act.answered = true ∧ PassStep pass before act after

/-- A row's status, read after the rows of a list were stamped. -/
def stamped (origin : World) (closed : List RunId) (run : RunId) : Option RunStatus :=
  if run ∈ closed then some .abandoned else origin.table.statusOf run

/-- A record, read after the records of a list were removed. -/
def cleared (origin : World) (closed : List RunId) (run : RunId) : LockFile :=
  if run ∈ closed then (origin.file run).removed else origin.file run

/-- How far an undisturbed pass is, told by where it started. -/
def Progress (origin : World) (dryRun : Bool) (pass : Nat) (world : World) : Prop :=
  world.phases = origin.phases ∧
  match world.passes pass with
  | .idle => False
  | .surveying survey =>
    survey.dryRun = dryRun ∧ world.table = origin.table ∧
      (∀ run, world.file run = origin.file run) ∧
        survey.runs ++ pending origin survey = surveyRuns origin
  | .opened run survey =>
    survey.dryRun = dryRun ∧ world.table = origin.table ∧
      (∀ other, world.file other = origin.file other) ∧ (origin.file run).named = true ∧
        survey.runs ++ (run, runLiveness origin run) :: pending origin survey = surveyRuns origin
  | .holding run survey =>
    survey.dryRun = dryRun ∧ world.table = origin.table ∧
      (∀ other, (if other = run then (world.file other).released else world.file other) =
        origin.file other) ∧
        survey.runs ++ (run, .abandoned) :: pending origin survey = surveyRuns origin
  | .closing todo report =>
    dryRun = false ∧ ∃ closed, closed ++ todo = (surveyed origin dryRun).abandoned ∧
      report = { (surveyed origin dryRun).report with closed := closed } ∧
        (∀ run, world.table.statusOf run = stamped origin closed run) ∧
          ∀ run, world.file run = cleared origin closed run
  | .discarding run todo report =>
    dryRun = false ∧ ∃ closed, closed ++ run :: todo = (surveyed origin dryRun).abandoned ∧
      report = { (surveyed origin dryRun).report with closed := closed } ∧
        (∀ other, world.table.statusOf other = stamped origin (closed ++ [run]) other) ∧
          ∀ other, world.file other = cleared origin closed other
  | .done report =>
    report = closeAbandonedRuns origin dryRun ∧
      ClosedExactly origin world (if dryRun then [] else (surveyed origin dryRun).abandoned)

/-- A planned run has a row. -/
theorem row_of_planned {origin : World} {dryRun : Bool} {run : RunId}
    (planned : run ∈ (surveyed origin dryRun).abandoned) :
    origin.table.statusOf run = some .running ∧ (origin.file run).named = true ∧
      (origin.file run).holder = none := by
  simp only [Survey.abandoned, surveyed, surveyRuns, surveyCatalog, List.mem_map, List.mem_filter,
    List.mem_append, beq_iff_eq] at planned
  obtain ⟨⟨other, liveness⟩, ⟨listed, free⟩, rfl⟩ := planned
  have judged : other ∈ listOpenPipelineRuns origin.table other.command.registry ∧
      runLiveness origin other = liveness := by
    rcases listed with ⟨found, member, eq⟩ | ⟨found, member, eq⟩ <;>
    · cases eq
      exact ⟨mem_listOpen.mpr ⟨(mem_listOpen.mp member).1, rfl⟩, rfl⟩
  obtain ⟨member, rfl⟩ := judged
  refine ⟨(mem_listOpen.mp member).1, ?_⟩
  show (origin.file other).named = true ∧ (origin.file other).holder = none
  replace free : runLiveness origin other = .abandoned := free
  unfold runLiveness at free
  split at free
  · rename_i named
    refine ⟨named, ?_⟩
    split at free
    · assumption
    · cases free
  · cases free

/-- A running row whose record is there and unlocked is planned, and no other. -/
theorem mem_planned {origin : World} {dryRun : Bool} {run : RunId} :
    run ∈ (surveyed origin dryRun).abandoned ↔ origin.table.statusOf run = some .running ∧
      (origin.file run).named = true ∧ (origin.file run).holder = none := by
  refine ⟨row_of_planned, ?_⟩
  rintro ⟨row, named, free⟩
  have liveness : runLiveness origin run = .abandoned := by
    rw [runLiveness, if_pos named, free]
  have listed : (run, RunLiveness.abandoned) ∈ surveyCatalog origin run.command.registry :=
    List.mem_map.mpr ⟨run, mem_listOpen.mpr ⟨row, rfl⟩, by rw [liveness]⟩
  refine List.mem_map.mpr ⟨(run, .abandoned), List.mem_filter.mpr ⟨?_, rfl⟩, rfl⟩
  show (run, RunLiveness.abandoned) ∈ surveyRuns origin
  unfold surveyRuns
  cases registry : run.command.registry with
  | books =>
    rw [registry] at listed
    exact List.mem_append_left _ listed
  | papers =>
    rw [registry] at listed
    exact List.mem_append_right _ listed

theorem released_of_free {file : LockFile} (free : file.holder = none) (holder : Holder) :
    (file.lockedBy holder).released = file := by
  cases file
  cases free
  rfl

/-- **One step of an undisturbed pass** keeps what it has done and what it has still to do. -/
theorem progress_step {origin before after : World} {dryRun : Bool} {pass : Nat} {event : Event}
    (progress : Progress origin dryRun pass before) (step : Undisturbed pass before event after) :
    Progress origin dryRun pass after := by
  obtain ⟨act, -, answered, step⟩ := step
  have phases := (passStep_frame step).1.trans progress.1
  refine ⟨phases, ?_⟩
  replace progress := progress.2
  cases step with
  | begin | look | listFails | openFails | lockFails | closeFails | discardFails | stop =>
    cases answered
  | list at' todo registries =>
    rw [at'] at progress
    obtain ⟨dry, table, files, runs⟩ := progress
    simp only [passes_own]
    refine ⟨dry, table, files, ?_⟩
    rw [← runs, table]
    simp [pending, todo, registries, surveyCatalog]
  | openRecord at' todo named =>
    rw [at'] at progress
    obtain ⟨dry, table, files, runs⟩ := progress
    simp only [passes_own]
    refine ⟨dry, table, files, by rwa [← files], ?_⟩
    rw [← runs]
    simp [pending, todo]
  | noRecord at' todo unnamed =>
    rw [at'] at progress
    obtain ⟨dry, table, files, runs⟩ := progress
    simp only [passes_own]
    refine ⟨dry, table, files, ?_⟩
    rw [files] at unnamed
    rw [← runs]
    simp [pending, todo, Survey.judge, runLiveness, unnamed]
  | tryLock at' free =>
    rw [at'] at progress
    obtain ⟨dry, table, files, named, runs⟩ := progress
    simp only [passes_own]
    refine ⟨dry, table, ?_, ?_⟩
    · intro other
      rw [← files]
      split
      · rename_i here
        subst here
        simp [released_of_free free]
      · rename_i apart
        simp [apart]
    · rw [files] at free
      rw [← runs]
      simp [runLiveness, named, free]
  | held at' taken =>
    rw [at'] at progress
    obtain ⟨dry, table, files, named, runs⟩ := progress
    simp only [passes_own]
    refine ⟨dry, table, files, ?_⟩
    rw [files] at taken
    rw [← runs]
    simp [pending, Survey.judge, runLiveness, named, taken]
  | letGo at' =>
    rw [at'] at progress
    obtain ⟨dry, table, files, runs⟩ := progress
    simp only [passes_own]
    refine ⟨dry, table, ?_, ?_⟩
    · intro other
      rw [← files]
      simp only [file_setPass, file_setFile]
      split
      · rename_i here
        rw [here]
      · rfl
    · rw [← runs]
      simp [pending, Survey.judge]
  | conclude at' todo registries =>
    rw [at'] at progress
    obtain ⟨dry, table, files, runs⟩ := progress
    rename_i survey
    have whole : survey = surveyed origin dryRun := by
      obtain ⟨_, _, _, judged⟩ := survey
      cases dry
      cases todo
      cases registries
      simp only [pending, List.map_nil, List.flatMap_nil, List.append_nil] at runs
      rw [surveyed, ← runs]
    subst whole
    unfold Survey.concluded
    simp only [passes_own]
    cases dryRun with
    | true =>
      exact ⟨rfl, ⟨fun run => by simp [table], fun run => by simp [files], phases⟩⟩
    | false =>
      exact ⟨rfl, [], rfl, rfl, fun run => by simp [stamped, table],
        fun run => by simp [cleared, files]⟩
  | close at' =>
    rw [at'] at progress
    obtain ⟨real, closed, split, report, status, files⟩ := progress
    rename_i run rest report now
    simp only [passes_own]
    refine ⟨real, closed, split, report, ?_, files⟩
    have row : origin.table.statusOf run = some .running :=
      (@row_of_planned origin dryRun run (by rw [← split]; simp)).1
    intro other
    show (closePipelineRun _ _ _ _).statusOf other = _
    rw [statusOf_closePipelineRun, status]
    by_cases here : other = run
    · subst here
      by_cases earlier : other ∈ closed <;> simp [stamped, row, earlier]
    · simp [here, stamped]
  | discard at' =>
    rw [at'] at progress
    obtain ⟨real, closed, split, report, status, files⟩ := progress
    rename_i run rest report
    simp only [passes_own]
    refine ⟨real, closed ++ [run], by simpa using split, by rw [report]; rfl, status, ?_⟩
    intro other
    simp only [file_setPass, file_setFile, files]
    by_cases here : other = run
    · subst here
      simp only [cleared, if_true, List.mem_append, List.mem_singleton, or_true]
      split <;> rfl
    · simp [here, cleared]
  | finish at' =>
    rw [at'] at progress
    obtain ⟨real, closed, split, report, status, files⟩ := progress
    simp only [passes_own]
    rw [List.append_nil] at split
    subst real split
    exact ⟨report, status, files, phases⟩

theorem progress_begun (origin : World) (pass : Nat) (dryRun : Bool) :
    Progress origin dryRun pass (origin.begun pass dryRun) := by
  refine ⟨rfl, ?_⟩
  rw [World.begun, passes_own]
  refine ⟨rfl, rfl, fun run => rfl, ?_⟩
  simp [Survey.begun, pending, surveyRuns]

/-- Where an undisturbed pass ends: with the report and the effects of the sequential one. -/
theorem undisturbed_pass {origin : World} {dryRun : Bool} {pass : Nat}
    {trace : List (Event × World)}
    (alone : Along (Undisturbed pass) (origin.begun pass dryRun) trace)
    {report : CloseAbandonedReport}
    (done : (finish (origin.begun pass dryRun) trace).passes pass = .done report) :
    report = closeAbandonedRuns origin dryRun ∧
      ClosedExactly origin (finish (origin.begun pass dryRun) trace)
        (if dryRun then [] else (surveyed origin dryRun).abandoned) := by
  have ended := alone.finish_invariant (Progress origin dryRun pass)
    (fun _ _ _ progress step => progress_step progress step) (progress_begun origin pass dryRun)
  have facts := ended.2
  rw [done] at facts
  exact facts

/-- What is left to do of an undisturbed pass. -/
def remaining (origin : World) (dryRun : Bool) : Pass → Nat
  | .idle | .done _ => 0
  | .surveying survey =>
    3 * (pending origin survey).length + survey.registries.length +
      2 * (surveyed origin dryRun).abandoned.length + 2
  | .opened _ survey =>
    3 * (pending origin survey).length + survey.registries.length +
      2 * (surveyed origin dryRun).abandoned.length + 4
  | .holding _ survey =>
    3 * (pending origin survey).length + survey.registries.length +
      2 * (surveyed origin dryRun).abandoned.length + 3
  | .closing todo _ => 2 * todo.length + 1
  | .discarding _ todo _ => 2 * todo.length + 2

/-- Until it is done, an undisturbed pass has a step to take, and less to do behind it. -/
theorem undisturbed_step {origin world : World} {dryRun : Bool} {pass : Nat}
    (progress : Progress origin dryRun pass world)
    (open' : ∀ report, world.passes pass ≠ .done report) :
    ∃ event after, Undisturbed pass world event after ∧
      remaining origin dryRun (after.passes pass) < remaining origin dryRun (world.passes pass) := by
  obtain ⟨-, facts⟩ := progress
  cases at' : world.passes pass with
  | idle =>
    rw [at'] at facts
    exact facts.elim
  | done report => exact absurd at' (open' report)
  | surveying survey =>
    rw [at'] at facts
    obtain ⟨dry, table, files, runs⟩ := facts
    cases todo : survey.todo with
    | cons run rest =>
      cases named : (world.file run).named with
      | true =>
        refine ⟨_, _, ⟨_, rfl, rfl, .openRecord at' todo named⟩, ?_⟩
        simp [remaining, pending, todo]
        omega
      | false =>
        refine ⟨_, _, ⟨_, rfl, rfl, .noRecord at' todo named⟩, ?_⟩
        simp [remaining, pending, todo, Survey.judge]
    | nil =>
      cases registries : survey.registries with
      | cons registry rest =>
        refine ⟨_, _, ⟨_, rfl, rfl, .list at' todo registries⟩, ?_⟩
        simp [remaining, pending, todo, registries, surveyCatalog, table]
      | nil =>
        refine ⟨_, _, ⟨_, rfl, rfl, .conclude at' todo registries⟩, ?_⟩
        have whole : survey.abandoned = (surveyed origin dryRun).abandoned := by
          simp only [pending, todo, registries, List.map_nil, List.flatMap_nil,
            List.append_nil] at runs
          simp [Survey.abandoned, surveyed, runs]
        rw [passes_own, Survey.concluded]
        split <;> simp only [remaining, whole] <;> omega
  | opened run survey =>
    cases taken : (world.file run).holder with
    | none =>
      refine ⟨_, _, ⟨_, rfl, rfl, .tryLock at' taken⟩, ?_⟩
      simp [remaining]
    | some holder =>
      refine ⟨_, _, ⟨_, rfl, rfl, .held at' taken⟩, ?_⟩
      simp [remaining, Survey.judge, pending]
  | holding run survey =>
    refine ⟨_, _, ⟨_, rfl, rfl, .letGo at'⟩, ?_⟩
    simp [remaining, Survey.judge, pending]
  | closing todo report =>
    cases todo with
    | nil =>
      refine ⟨_, _, ⟨_, rfl, rfl, .finish at'⟩, ?_⟩
      simp [remaining]
    | cons run rest =>
      refine ⟨_, _, ⟨.close (some ""), rfl, rfl, .close at'⟩, ?_⟩
      rw [passes_own]
      simp only [remaining, List.length_cons]
      omega
  | discarding run todo report =>
    refine ⟨_, _, ⟨.discard true, rfl, rfl, .discard at'⟩, ?_⟩
    simp [remaining]

/-- **An undisturbed pass gets done.** -/
theorem undisturbed_ends {origin : World} {dryRun : Bool} {pass : Nat} (world : World)
    (progress : Progress origin dryRun pass world) :
    ∃ after report, Reaches (Undisturbed pass) world after ∧ after.passes pass = .done report := by
  by_cases done : ∃ report, world.passes pass = .done report
  · obtain ⟨report, done⟩ := done
    exact ⟨world, report, Reaches.refl _, done⟩
  · obtain ⟨event, next, step, less⟩ :=
      undisturbed_step progress fun report at' => done ⟨report, at'⟩
    obtain ⟨after, report, reaches, ends⟩ := undisturbed_ends next (progress_step progress step)
    exact ⟨after, report, (Reaches.one step).trans reaches, ends⟩
termination_by remaining origin dryRun (world.passes pass)

/-- **A pass nobody disturbs is the sequential one**: from any state it gets done, and however it
got there its report is that of `close_abandoned_runs`, it stamped exactly the running rows whose
record was there and unlocked, removed exactly their records, and left nothing for another pass. A
dry run reports the same and changes nothing. -/
theorem undisturbed_pass_sequential (origin : World) (pass : Nat) (dryRun : Bool) :
    (∃ after report, Reaches (Undisturbed pass) (origin.begun pass dryRun) after ∧
      after.passes pass = .done report) ∧
    ∀ trace report, Along (Undisturbed pass) (origin.begun pass dryRun) trace →
      (finish (origin.begun pass dryRun) trace).passes pass = .done report →
        report = closeAbandonedRuns origin dryRun ∧
          (∀ run, run ∈ report.closed ↔ origin.table.statusOf run = some .running ∧
            (origin.file run).named = true ∧ (origin.file run).holder = none) ∧
          ClosedExactly origin (finish (origin.begun pass dryRun) trace)
            (if dryRun then [] else report.closed) ∧
          (dryRun = false → ∀ second,
            (closeAbandonedRuns (finish (origin.begun pass dryRun) trace) second).closed = []) := by
  refine ⟨undisturbed_ends _ (progress_begun origin pass dryRun), ?_⟩
  intro trace report alone done
  obtain ⟨rfl, exactly⟩ := undisturbed_pass alone done
  refine ⟨rfl, fun run => mem_planned, exactly, ?_⟩
  rintro rfl second
  replace exactly : ClosedExactly origin _ (surveyed origin false).abandoned := exactly
  refine List.eq_nil_iff_forall_not_mem.mpr fun run again => ?_
  obtain ⟨row, named, free⟩ := row_of_planned again
  by_cases planned : run ∈ (surveyed origin false).abandoned
  · rw [exactly.status, if_pos planned] at row
    cases row
  · rw [exactly.status, if_neg planned] at row
    rw [exactly.file, if_neg planned] at named free
    exact planned (mem_planned.mpr ⟨row, named, free⟩)

/-! ### A run that was lost -/

/-- The owner of a run is gone without having stamped it, and its record is still there. -/
def Lost (world : World) (run : RunId) : Prop :=
  world.phases run = .gone ∧ world.table.statusOf run = some .running ∧
    (world.file run).named = true

/-- A record is not lost before its row is closed: while the row reads `running` and the owner
keeps a record it is there, and a pass discards only what it has stamped. -/
structure Kept (world : World) : Prop where
  there : ∀ run, world.phases run = .created ∨ world.phases run = .working true →
    world.table.statusOf run = some .running → (world.file run).named = true
  discarding : ∀ pass run todo report, world.passes pass = .discarding run todo report →
    ∃ status, world.table.statusOf run = some status ∧ status ≠ .running

theorem kept_start : Kept .start where
  there run phase row := by cases row
  discarding pass run todo report at' := by cases at'

/-- What a step does to the rows: it opens one, or stamps one, or none. -/
theorem table_step {before after : World} {event : Event} (step : Step before event after) :
    after.table = before.table ∨
      (∃ run, event = .owner run .register ∧
        openPipelineRun before.table run = some after.table) ∨
      ∃ run status now, status ≠ .running ∧
        after.table = closePipelineRun before.table run status now := by
  cases step with
  | owner step =>
    cases step with
    | register opens => exact .inr (.inl ⟨_, rfl, opens⟩)
    | @stamp tracked ok now =>
      exact .inr (.inr ⟨_, closeStatus ok, now, by cases ok <;> simp [closeStatus], rfl⟩)
    | create | createFails | lock | lockRefused | lockFails | stampFails | unwind | unlink
    | unlinkFails | release | die => exact .inl rfl
  | pass step =>
    rcases (passStep_frame step).2.2 with same | ⟨run, now, closes⟩
    · exact .inl same
    · exact .inr (.inr ⟨run, .abandoned, now, by simp, closes⟩)

/-- A row that does not read `running` never does again. -/
theorem closed_stays {before after : World} {event : Event} {run : RunId} {status : RunStatus}
    (step : Step before event after) (row : before.table.statusOf run = some status)
    (closed : status ≠ .running) :
    ∃ later, after.table.statusOf run = some later ∧ later ≠ .running := by
  rcases table_step step with same | ⟨target, -, opens⟩ | ⟨target, wrote, now, other, closes⟩
  · exact ⟨status, by rw [same, row], closed⟩
  · refine ⟨status, ?_, closed⟩
    have apart : run ≠ target := by
      rintro rfl
      unfold openPipelineRun at opens
      split at opens
      · cases opens
      · rename_i unknown
        rw [statusOf_eq_none.mpr unknown] at row
        cases row
    rw [statusOf_openPipelineRun opens, if_neg apart, row]
  · rw [closes, statusOf_closePipelineRun]
    by_cases here : run = target
    · exact ⟨wrote, by rw [if_pos here, row]; rfl, other⟩
    · exact ⟨status, by rw [if_neg here, row], closed⟩

/-- A pass takes a record's name away only where it discards it. -/
theorem passStep_named {before after : World} {pass : Nat} {act : PassAct}
    (step : PassStep pass before act after) (run : RunId) :
    (after.file run).named = (before.file run).named ∨
      ∃ todo report, before.passes pass = .discarding run todo report := by
  cases step with
  | tryLock | letGo =>
    left
    simp only [file_setPass, file_setFile]
    split
    · rename_i here
      rw [here]
      rfl
    · rfl
  | stop =>
    left
    unfold World.letGoOf
    split
    · simp only [file_setPass, file_setFile]
      split
      · rename_i here
        rw [here]
        rfl
      · rfl
    · rfl
  | @discard target rest report at' =>
    by_cases here : run = target
    · exact .inr ⟨rest, report, here ▸ at'⟩
    · left
      simp [here]
  | begin | look | list | listFails | openRecord | noRecord | openFails | held | lockFails | conclude
  | close | closeFails | discardFails | finish => exact .inl rfl

/-- **A record stays until its row is closed**, one step at a time. -/
theorem kept_step {before after : World} {event : Event} (sound : Sound before)
    (kept : Kept before) (step : Step before event after) : Kept after := by
  have wasRunning : ∀ run, after.table.statusOf run = some .running →
      before.table.statusOf run ≠ none → before.table.statusOf run = some .running := by
    intro run row known
    obtain ⟨status, was⟩ := Option.ne_none_iff_exists'.mp known
    by_contra other
    obtain ⟨later, reads, closed⟩ := closed_stays step was fun eq => other (eq ▸ was)
    rw [row] at reads
    exact closed (Option.some.inj reads).symm
  refine ⟨?_, ?_⟩
  · intro run phase row
    cases step with
    | @owner _ target act step =>
      by_cases here : run = target
      · subst here
        cases step with
        | create => simp
        | lock at' =>
          have named := kept.there run (.inl at') row
          simpa [LockFile.lockedBy] using named
        | register | createFails | lockRefused | lockFails | unlink | unlinkFails | stampFails
        | release | die => simp at phase
        | @stamp tracked | @unwind tracked => cases tracked <;> simp [dropPhase] at phase
      · obtain ⟨rowSame, file, phaseSame⟩ := (ownerStep_frame step).2 run here
        rw [phaseSame] at phase
        rw [rowSame] at row
        rw [file]
        exact kept.there run phase row
    | @pass _ number act step =>
      have phases := (passStep_frame step).1
      rw [phases] at phase
      have row' : before.table.statusOf run = some .running := by
        refine wasRunning run row ((sound run).row ?_)
        intro absent
        rw [absent] at phase
        rcases phase with phase | phase <;> cases phase
      rcases passStep_named step run with same | ⟨todo, report, discarding⟩
      · rw [same]
        exact kept.there run phase row'
      · obtain ⟨status, stands, closed⟩ := kept.discarding number run todo report discarding
        rw [row'] at stands
        exact absurd (Option.some.inj stands).symm closed
  · intro pass run todo report at'
    have old : ∀ todo report, before.passes pass = .discarding run todo report →
        ∃ status, after.table.statusOf run = some status ∧ status ≠ .running := by
      intro todo report was
      obtain ⟨status, stands, closed⟩ := kept.discarding pass run todo report was
      exact closed_stays step stands closed
    cases step with
    | owner step =>
      rw [(ownerStep_frame step).1] at at'
      exact old todo report at'
    | @pass _ number act step =>
      by_cases here : pass = number
      · subst here
        cases step with
        | @close target rest report now was =>
          rw [passes_own] at at'
          cases at'
          have made := (sound run).judged pass (by rw [was]; exact List.mem_cons_self)
          have known : before.table.statusOf run ≠ none := (sound run).row (by
            intro absent
            rw [absent] at made
            cases made)
          obtain ⟨status, row⟩ := Option.ne_none_iff_exists'.mp known
          refine ⟨.abandoned, ?_, by simp⟩
          show (closePipelineRun _ _ _ _).statusOf run = _
          rw [statusOf_closePipelineRun, if_pos rfl, row]
          rfl
        | conclude =>
          rw [passes_own, Survey.concluded] at at'
          split at at' <;> cases at'
        | begin | look | list | listFails | openRecord | noRecord | openFails | tryLock | held
        | lockFails | letGo | closeFails | discard | discardFails | finish | stop =>
          rw [passes_own] at at'
          cases at'
      · rw [(passStep_frame step).2.1 pass here] at at'
        exact old todo report at'

/-- An owner that dies, or cannot stamp its run, leaves it lost as long as its record is there. -/
theorem lost_of_breaking {before after : World} {run : RunId} {act : OwnerAct}
    (step : OwnerStep run before act after) (breaks : act = .die ∨ ∃ ok, act = .stamp ok none)
    (recorded : (before.file run).named = true)
    (row : before.table.statusOf run = some .running) : Lost after run := by
  rcases breaks with rfl | ⟨ok, rfl⟩ <;> cases step <;> exact ⟨by simp, row, by simpa using recorded⟩

/-- **A lost run keeps its record until its row is closed.** -/
theorem lost_step {before after : World} {event : Event} {run : RunId} (kept : Kept before)
    (lost : Lost before run) (step : Step before event after) :
    Lost after run ∨ ∃ status, after.table.statusOf run = some status ∧ status ≠ .running := by
  obtain ⟨gone, row, named⟩ := lost
  obtain ⟨goneAfter, status⟩ := ended_step ⟨gone, .inl row⟩ step
  rcases status with row' | row'
  · refine .inl ⟨goneAfter, row', ?_⟩
    cases step with
    | @owner _ target act step =>
      by_cases here : run = target
      · subst here
        cases step with
        | die => simpa using named
        | register opens =>
          unfold openPipelineRun at opens
          split at opens
          · cases opens
          · rename_i unknown
            rw [statusOf_eq_none.mpr unknown] at row
            cases row
        | create at' | createFails at' | lock at' | lockRefused at' | lockFails at' | stamp at'
        | stampFails at' | unwind at' | unlink at' | unlinkFails at' | release at' =>
          rw [gone] at at'
          cases at'
      · rw [((ownerStep_frame step).2 run here).2.1]
        exact named
    | @pass _ number act step =>
      rcases passStep_named step run with same | ⟨todo, report, discarding⟩
      · rw [same]
        exact named
      · obtain ⟨status, stands, closed⟩ := kept.discarding number run todo report discarding
        rw [row] at stands
        exact absurd (Option.some.inj stands).symm closed
  · exact .inr ⟨.abandoned, row', by simp⟩

/-- Along any run, a lost run is lost still, or its row was closed. -/
theorem lost_along {start : World} {trace : List (Event × World)} {run : RunId}
    (steps : Along Step start trace) (sound : Sound start) (kept : Kept start)
    (lost : Lost start run) : Sound (finish start trace) ∧ (Lost (finish start trace) run ∨
      ∃ status, (finish start trace).table.statusOf run = some status ∧ status ≠ .running) := by
  have ended := steps.finish_invariant
    (fun world => Sound world ∧ Kept world ∧ (Lost world run ∨
      ∃ status, world.table.statusOf run = some status ∧ status ≠ .running))
    (by
      rintro before event after ⟨sound, kept, lost | ⟨status, row, closed⟩⟩ step
      · exact ⟨sound_step sound step, kept_step sound kept step, lost_step kept lost step⟩
      · exact ⟨sound_step sound step, kept_step sound kept step,
          .inr (closed_stays step row closed)⟩)
    ⟨sound, kept, .inl lost⟩
  exact ⟨ended.1, ended.2.2⟩

/-- Both invariants hold along every run of the system. -/
theorem sound_kept_along {trace : List (Event × World)} (steps : Along Step .start trace) :
    Sound (finish .start trace) ∧ Kept (finish .start trace) := by
  refine steps.finish_invariant (fun world => Sound world ∧ Kept world) ?_ ⟨sound_start, kept_start⟩
  rintro before event after ⟨sound, kept⟩ step
  exact ⟨sound_step sound step, kept_step sound kept step⟩

/-- **No lost run stays open.** In any run of the system let an owner die, or fail to stamp its run,
while its record is there and its row reads `running`. However the system goes on, if the row reads
`running` still and no probe has the record's lock, every undisturbed repair from there stamps it,
reports it, and takes its record away. -/
theorem lost_run_closed {run : RunId} {early late repair : List (Event × World)}
    (history : Along Step .start early) {act : OwnerAct} {broken : World}
    (step : OwnerStep run (finish .start early) act broken)
    (breaks : act = .die ∨ ∃ ok, act = .stamp ok none)
    (recorded : ((finish .start early).file run).named = true)
    (row : (finish .start early).table.statusOf run = some .running)
    (later : Along Step broken late)
    (unstamped : (finish broken late).table.statusOf run = some .running)
    (unprobed : ∀ other survey, (finish broken late).passes other ≠ .holding run survey)
    {pass : Nat} (alone : Along (Undisturbed pass) ((finish broken late).begun pass false) repair)
    {report : CloseAbandonedReport}
    (done : (finish ((finish broken late).begun pass false) repair).passes pass = .done report) :
    run ∈ report.closed ∧
      (finish ((finish broken late).begun pass false) repair).table.statusOf run =
        some .abandoned ∧
      ((finish ((finish broken late).begun pass false) repair).file run).named = false := by
  obtain ⟨sound, kept⟩ := sound_kept_along history
  have lost := lost_of_breaking step breaks recorded row
  obtain ⟨soundLate, lostLate | ⟨status, stands, closed⟩⟩ := lost_along later
    (sound_step sound (.owner step)) (kept_step sound kept (.owner step)) lost
  · obtain ⟨gone, -, named⟩ := lostLate
    have free : ((finish broken late).file run).holder = none := by
      cases taken : ((finish broken late).file run).holder with
      | none => rfl
      | some holder =>
        cases holder with
        | owner =>
          have holds := (soundLate run).owner.mp taken
          rw [gone] at holds
          cases holds
        | pass other =>
          obtain ⟨survey, holding⟩ := ((soundLate run).probe other).mp taken
          exact absurd holding (unprobed other survey)
    obtain ⟨rfl, exactly⟩ := undisturbed_pass alone done
    have planned : run ∈ (surveyed (finish broken late) false).abandoned :=
      mem_planned.mpr ⟨unstamped, named, free⟩
    refine ⟨planned, ?_, ?_⟩
    · rw [exactly.status]
      exact if_pos planned
    · rw [exactly.file]
      exact congrArg LockFile.named (if_pos planned)
  · rw [unstamped] at stands
    exact absurd (Option.some.inj stands).symm closed

/-- An ingest at work with its record. -/
theorem ingest_works : ∃ trace, Along Step .start trace ∧
    (finish .start trace).phases ingestRun = .working true ∧
      (finish .start trace).table.statusOf ingestRun = some .running ∧
        (finish .start trace).passes = fun _ => .idle := by
  have steps : Along Step .start _ :=
    along_cons.mpr ⟨.owner (.register opens_ingest),
      along_cons.mpr ⟨@Step.owner _ _ ingestRun _ (.create (by simp)),
        along_cons.mpr ⟨@Step.owner _ _ ingestRun _ (.lock (by simp) (by simp [start_free])),
          along_nil⟩⟩⟩
  exact ⟨_, steps, by simp, by simp [statusOf_openPipelineRun opens_ingest], rfl⟩

/-- An ingest killed at work is closed by the next repair. -/
theorem lost_ingest_closed : ∃ broken after report, Reaches Step .start broken ∧
    Reaches (Undisturbed 0) (broken.begun 0 false) after ∧ after.passes 0 = .done report ∧
      ingestRun ∈ report.closed ∧ after.table.statusOf ingestRun = some .abandoned := by
  obtain ⟨trace, history, phase, row, passes⟩ := ingest_works
  have recorded := (sound_kept_along history).2.there ingestRun (.inr phase) row
  have dies := @OwnerStep.die ingestRun (finish .start trace) (by simp [phase])
  obtain ⟨after, report, ⟨repair, alone, rfl⟩, done⟩ :=
    undisturbed_ends _ (progress_begun (finish _ []) 0 false)
  have closed := lost_run_closed history dies (.inl rfl) recorded row along_nil row
    (by simp [passes]) alone done
  exact ⟨_, _, report, (Reaches.trans ⟨trace, history, rfl⟩ (Reaches.one (.owner dies))),
    ⟨repair, alone, rfl⟩, done, closed.1, closed.2.1⟩

end Bookrack.Runtime.OpenRuns
