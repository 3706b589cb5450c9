/-
Whose row the worker's outcome lands on.

`apply_outcome` finds its row by id alone, and `ingest.cancel` accepts a row that is running, so an
outcome can overwrite a cancelled row, or a row that was cancelled and retried since the pull. That
is the only way it goes wrong:

* `outcome_lands_on_running` — in a run where no cancel picks the row of the job being executed,
  every outcome is written onto a row that has been running since its pull, a cancelled row stays
  cancelled until a retry selects it, and a pending row waits for a pull, a cancel or a clear.
* `cancelled_row_overwritten` — pull, cancel, outcome.
-/

import Bookrack.Runtime.RowStep

namespace Bookrack.Runtime

open Queue Registry Run

/-! ### What the run should look like -/

/-- **Every outcome is written onto a row that has been running since its pull.** The pull and the
outcome belong together when no other outcome lies between them. -/
def OutcomesOntoRunning (trace : Trace) : Prop :=
  ∀ early pull stretch outcome late job id recorded,
    trace = early ++ pull :: (stretch ++ outcome :: late) →
    pull.1.2 = .pulled job → outcome.1.2 = .recorded id recorded →
    (∀ entry ∈ stretch, ∀ id recorded, entry.1.2 ≠ .recorded id recorded) →
    id = job.id ∧ ∀ entry ∈ pull :: stretch, entry.2.stateOf job.id = some .running

/-- **A row reported cancelled stays cancelled** until a retry reports it. -/
def CancelledStays (trace : Trace) : Prop :=
  ∀ early cancel stretch late id,
    trace = early ++ cancel :: (stretch ++ late) → cancel.1.2 = .wrote (.cancelled id) →
    (∀ entry ∈ stretch, ∀ outcome, entry.1.2 = .wrote (.retried outcome) → id ∉ outcome.retried) →
    ∀ entry ∈ cancel :: stretch, entry.2.stateOf id = some .cancelled

/-- **A pending row leaves `Pending` only through a pull, a cancel or a clear.** -/
def PendingLeaves (before : Daemon) (label : Event × Effect) (after : Daemon) : Prop :=
  ∀ id, before.stateOf id = some .pending → after.stateOf id ≠ some .pending →
    (∃ job, label.2 = .pulled job ∧ job.id = id) ∨ label.2 = .wrote (.cancelled id) ∨
      ∃ count, label.2 = .wrote (.cleared count)

/-! ### The condition -/

/-- **The condition on a run's cancels**: none picks the row of the job the worker is executing. -/
def SparesExecuting (before : Daemon) (label : Event × Effect) (_ : Daemon) : Prop :=
  ∀ jobId now job, label.1 = .handle (.ingestCancel jobId now) .ok →
    before.worker = .executing job → cancelTarget before.queue jobId ≠ some job.id

/-- The row of the job the worker is executing is running. -/
def ExecutesRunning (daemon : Daemon) : Prop :=
  ∀ job, daemon.worker = .executing job → daemon.stateOf job.id = some .running

/-- The invariant the condition keeps. -/
structure OutcomeInvariant (daemon : Daemon) : Prop where
  distinct : DistinctIds daemon
  running : ExecutesRunning daemon

/-- A running row stays running, except through a cancel, its own outcome, or the recovery. -/
theorem running_kept {daemon after : Daemon} {event : Event} {effect : Effect} {id : String}
    (steps : Transition daemon event effect after) (running : daemon.stateOf id = some .running)
    (notCancelled : ∀ jobId now, event = .handle (.ingestCancel jobId now) .ok →
      cancelTarget daemon.queue jobId ≠ some id)
    (notRecorded : ∀ outcome, effect ≠ .recorded id outcome)
    (started : daemon.worker ≠ .starting) : after.stateOf id = some .running := by
  obtain ⟨job, found, state⟩ := stateOf_some.mp running
  obtain ⟨next, follows, moved⟩ := row_follows steps found
  refine stateOf_some.mpr ⟨next, follows, ?_⟩
  have same := row_id found
  cases moved with
  | kept => exact state
  | cancelled jobId now _ live target => exact absurd (same ▸ target) (notCancelled jobId now rfl)
  | cleared now count _ pending => simp [state] at pending
  | retried wanted jobId outcome _ retryable => simp [state, JobState.isRetryable] at retryable
  | started now written _ pending => simp [state] at pending
  | recorded executed result now written _ executing isExecuted =>
    exact absurd (by rw [← isExecuted, same]) (notRecorded result.outcome)
  | requeued written _ starting => exact absurd starting started

/-- **One step keeps the invariant** when it meets the condition. -/
theorem outcomeInvariant_step {before after : Daemon} {label : Event × Effect}
    (holds : OutcomeInvariant before) (steps : Step before label after)
    (spares : SparesExecuting before label after) : OutcomeInvariant after := by
  have transition := step_transition steps
  refine ⟨transition_distinctIds holds.distinct transition, fun job executing => ?_⟩
  rcases executing_cases transition executing with ⟨already, notRecorded⟩ | pulled
  · refine running_kept transition (holds.running job already) ?_ (notRecorded job.id) ?_
    · exact fun jobId now isCancel => spares jobId now job isCancel already
    · rw [already]
      exact Worker.noConfusion
  · rw [pulled] at transition
    obtain ⟨-, found, running⟩ := pulled_row holds.distinct transition
    exact stateOf_some.mpr ⟨job, found, running⟩

/-- A cancelled row stays cancelled, except through a retry that reports it. -/
theorem cancelled_kept {daemon after : Daemon} {event : Event} {effect : Effect} {id : String}
    (holds : OutcomeInvariant daemon) (steps : Transition daemon event effect after)
    (cancelled : daemon.stateOf id = some .cancelled)
    (notRetried : ∀ outcome, effect = .wrote (.retried outcome) → id ∉ outcome.retried) :
    after.stateOf id = some .cancelled := by
  obtain ⟨job, found, state⟩ := stateOf_some.mp cancelled
  obtain ⟨next, follows, moved⟩ := row_follows steps found
  refine stateOf_some.mpr ⟨next, follows, ?_⟩
  have same := row_id found
  cases moved with
  | kept => exact state
  | cancelled jobId now _ live => rfl
  | cleared now count _ pending => rfl
  | retried wanted jobId outcome _ retryable served reported =>
    exact absurd (same ▸ reported) (notRetried outcome rfl)
  | started now written _ pending => simp [state] at pending
  | recorded executed result now written _ executing isExecuted =>
    have running := holds.running executed executing
    rw [← isExecuted, same, cancelled] at running
    cases running
  | requeued written _ starting running => simp [state] at running

theorem pending_leaves {before after : Daemon} {label : Event × Effect}
    (holds : OutcomeInvariant before) (steps : Step before label after) :
    PendingLeaves before label after := by
  intro id pending left
  obtain ⟨job, found, state⟩ := stateOf_some.mp pending
  obtain ⟨event, effect⟩ := label
  have transition := step_transition steps
  obtain ⟨next, follows, moved⟩ := row_follows transition found
  have same := row_id found
  have moves : next.state ≠ .pending := fun still => left (stateOf_some.mpr ⟨next, follows, still⟩)
  clear steps transition
  cases moved with
  | kept => exact absurd state moves
  | cancelled jobId now _ live => exact Or.inr (Or.inl (by rw [same]))
  | cleared now count _ isPending => exact Or.inr (Or.inr ⟨count, rfl⟩)
  | retried wanted jobId outcome _ retryable => simp [state, JobState.isRetryable] at retryable
  | started now written _ isPending => exact Or.inl ⟨_, rfl, same⟩
  | recorded executed result now written _ executing isExecuted =>
    have running := holds.running executed executing
    rw [← isExecuted, same, pending] at running
    cases running
  | requeued written _ starting running => simp [state] at running

/-- A cancel that picks the row of the job being executed leaves that row cancelled, so a run whose
executing row is always running has no such cancel. -/
theorem sparesExecuting_of_running {before after : Daemon} {label : Event × Effect}
    (distinct : DistinctIds before) (steps : Step before label after)
    (running : ExecutesRunning after) : SparesExecuting before label after := by
  obtain ⟨event, effect⟩ := label
  rintro jobId now job rfl executing target
  obtain ⟨mutated, cancels⟩ := cancelMatching_of_target now target
  have wrote : effect = .wrote (.cancelled job.id) := by
    have steps : step before (.handle (.ingestCancel jobId now) .ok) = some (effect, after) := steps
    have mutates : cancelMutation jobId now before.queue = .ok (job.id, mutated) := by
      simp only [cancelMutation, cancels]
    simp only [step, Request.run, Daemon.ingestCancel, mutateJobsAndPersist_ok mutates,
      answer] at steps
    split at steps
    · cases steps
      rfl
    · cases steps
  have transition := step_transition steps
  have still := executing_kept transition executing (by rw [wrote]; simp)
  rw [wrote] at transition
  have cancelled := cancelled_row distinct transition
  rw [running job still] at cancelled
  cases cancelled

/-! ### Whole runs -/

/-- The invariant at a point of a run that meets the condition, and the rest of the run from it. -/
theorem outcomeInvariant_split {start : Daemon} {early rest : Trace}
    (initial : OutcomeInvariant start) (run : Along Step start (early ++ rest))
    (spares : Along SparesExecuting start (early ++ rest)) :
    OutcomeInvariant (finish start early) ∧ Along Step (finish start early) rest ∧
      Along SparesExecuting (finish start early) rest := by
  obtain ⟨runEarly, runRest⟩ := Along.split.mp run
  obtain ⟨sparesEarly, sparesRest⟩ := Along.split.mp spares
  exact ⟨(runEarly.and sparesEarly).finish_invariant OutcomeInvariant
    (fun _ _ _ holds met => outcomeInvariant_step holds met.1 met.2) initial, runRest, sparesRest⟩

theorem outcomesOntoRunning_of_spares {start : Daemon} {trace : Trace}
    (initial : OutcomeInvariant start) (run : Along Step start trace)
    (spares : Along SparesExecuting start trace) : OutcomesOntoRunning trace := by
  rintro early ⟨⟨event, effect⟩, first⟩ stretch ⟨⟨event', effect'⟩, last⟩ late job id recorded rfl
    pulled records quiet
  obtain ⟨holds, ⟨pullStep, runRest⟩, ⟨pullSpares, sparesRest⟩⟩ :=
    outcomeInvariant_split initial run spares
  obtain rfl : effect = .pulled job := pulled
  obtain rfl : effect' = .recorded id recorded := records
  obtain ⟨runStretch, outcomeStep, -⟩ := Along.split.mp runRest
  obtain ⟨sparesStretch, -⟩ := Along.split.mp sparesRest
  have next := outcomeInvariant_step holds pullStep pullSpares
  have executing := (pulled_row holds.distinct (step_transition pullStep)).1
  -- Between the pull and the outcome the worker stays on the job and the invariant holds.
  have stretchSteps := (runStretch.and sparesStretch).and
    (Along.of_forall (Q := fun label _ => ∀ id recorded, label.2 ≠ .recorded id recorded) quiet first)
  have kept : ∀ before label after,
      OutcomeInvariant before ∧ before.worker = .executing job →
      (Step before label after ∧ SparesExecuting before label after) ∧
        (∀ id recorded, label.2 ≠ .recorded id recorded) →
      OutcomeInvariant after ∧ after.worker = .executing job := by
    rintro before ⟨event, effect⟩ after ⟨invariant, working⟩ ⟨⟨steps, spared⟩, notRecorded⟩
    exact ⟨outcomeInvariant_step invariant steps spared,
      executing_kept (step_transition steps) working notRecorded⟩
  have atEnd := stretchSteps.finish_invariant _ kept ⟨next, executing⟩
  have during := stretchSteps.held _ kept ⟨next, executing⟩
  refine ⟨?_, ?_⟩
  · obtain ⟨executed, working, rfl⟩ := recorded_executing (step_transition outcomeStep)
    rw [atEnd.2] at working
    cases working
    rfl
  · intro entry member
    rcases List.mem_cons.mp member with rfl | member
    · exact next.running job executing
    · exact (during entry member).1.running job (during entry member).2

theorem cancelledStays_of_spares {start : Daemon} {trace : Trace}
    (initial : OutcomeInvariant start) (run : Along Step start trace)
    (spares : Along SparesExecuting start trace) : CancelledStays trace := by
  rintro early ⟨⟨event, effect⟩, first⟩ stretch late id rfl cancels quiet
  obtain ⟨holds, ⟨cancelStep, runRest⟩, ⟨cancelSpares, sparesRest⟩⟩ :=
    outcomeInvariant_split initial run spares
  obtain rfl : effect = .wrote (.cancelled id) := cancels
  have next := outcomeInvariant_step holds cancelStep cancelSpares
  have cancelled := cancelled_row holds.distinct (step_transition cancelStep)
  have stretchSteps := ((Along.split.mp runRest).1.and (Along.split.mp sparesRest).1).and
    (Along.of_forall (Q := fun label _ =>
      ∀ outcome, label.2 = .wrote (.retried outcome) → id ∉ outcome.retried) quiet first)
  have during := stretchSteps.held
    (fun daemon => OutcomeInvariant daemon ∧ daemon.stateOf id = some .cancelled) ?_
    ⟨next, cancelled⟩
  · intro entry member
    rcases List.mem_cons.mp member with rfl | member
    · exact cancelled
    · exact (during entry member).2
  · rintro before ⟨event, effect⟩ after ⟨invariant, still⟩ ⟨⟨steps, spared⟩, notRetried⟩
    exact ⟨outcomeInvariant_step invariant steps spared,
      cancelled_kept invariant (step_transition steps) still notRetried⟩

/-- **Outcomes and cancels.** In a run where no cancel picks the row of the job being executed,
outcomes land on rows running since their pull, reported cancels last until a retry, and pending
rows wait for a pull, a cancel or a clear. And in no other run is the row of the job being executed
running in every state. -/
theorem outcome_lands_on_running {start : Daemon} {trace : Trace} (distinct : DistinctIds start)
    (notExecuting : ∀ job, start.worker ≠ .executing job) (run : Along Step start trace) :
    (Along SparesExecuting start trace →
      OutcomesOntoRunning trace ∧ CancelledStays trace ∧ Along PendingLeaves start trace) ∧
    (Along SparesExecuting start trace ↔ ∀ entry ∈ trace, ExecutesRunning entry.2) := by
  have initial : OutcomeInvariant start :=
    ⟨distinct, fun job executing => absurd executing (notExecuting job)⟩
  refine ⟨fun spares => ⟨outcomesOntoRunning_of_spares initial run spares,
    cancelledStays_of_spares initial run spares, ?_⟩, fun spares => ?_, fun running => ?_⟩
  · refine ((run.and spares).invariant OutcomeInvariant ?_ initial).mono
      fun _ _ _ along => along.2.2
    exact fun _ _ _ holds met =>
      ⟨outcomeInvariant_step holds met.1 met.2, pending_leaves holds met.1⟩
  · intro entry member
    exact ((run.and spares).held OutcomeInvariant
      (fun _ _ _ holds met => outcomeInvariant_step holds met.1 met.2) initial entry member).running
  · clear notExecuting initial
    induction trace generalizing start with
    | nil => exact trivial
    | cons entry rest ih =>
      refine ⟨sparesExecuting_of_running distinct run.1 (running entry List.mem_cons_self), ?_⟩
      exact ih (transition_distinctIds distinct (step_transition run.1)) run.2
        fun later member => running later (List.mem_cons_of_mem _ member)

/-- The job the concrete runs pull. -/
def betaRunning : QueueJob := startJob 1 betaJob

/-- A second job comes in while the first one is executed; it is cancelled and retried before the
outcome of the first. -/
def cancelOther : Trace :=
  let second : Request :=
    .ingestSubmit [("b.epub", { id := "job-2", now := 2 })] "main" .high false false none
  let result := RunResult.success { noOp := false, needsOcr := false, intakeId := none }
  let pulled := (oneJobDaemon.pull 1 .ok).2
  let submitted := (Request.run pulled .ok second).2
  let cancelled := (Request.run submitted .ok (.ingestCancel "job-2" 3)).2
  let retried := (Request.run cancelled .ok (.queueRetry none (some "job-2"))).2
  [((.pull 1 .ok, .pulled betaRunning), pulled),
    ((.handle second .ok, .wrote (.submitted ["job-2"])), submitted),
    ((.handle (.ingestCancel "job-2" 3) .ok, .wrote (.cancelled "job-2")), cancelled),
    ((.handle (.queueRetry none (some "job-2")) .ok,
      .wrote (.retried { retried := ["job-2"], held := [] })), retried),
    ((.finish result 4 .ok, .recorded "job-1" .done), retried.recordOutcome betaRunning result 4 .ok)]

theorem outcome_lands_on_running_cancelOther :
    (OutcomesOntoRunning cancelOther ∧ CancelledStays cancelOther ∧
      Along PendingLeaves oneJobDaemon cancelOther) ∧
      ∀ entry ∈ cancelOther, ExecutesRunning entry.2 := by
  have run : Along Step oneJobDaemon cancelOther := ⟨rfl, rfl, rfl, rfl, rfl, trivial⟩
  have spares : Along SparesExecuting oneJobDaemon cancelOther := by
    refine ⟨?_, ?_, ?_, ?_, ?_, trivial⟩
    · exact fun _ _ _ isCancel => Event.noConfusion isCancel
    · exact fun _ _ _ isCancel => Request.noConfusion (Event.handle.inj isCancel).1
    · -- the cancel picks the second row, the worker executes the first
      intro jobId now job isCancel executing
      obtain ⟨rfl, -⟩ := Request.ingestCancel.inj (Event.handle.inj isCancel).1
      obtain rfl : betaRunning = job := Worker.executing.inj executing
      decide
    · exact fun _ _ _ isCancel => Request.noConfusion (Event.handle.inj isCancel).1
    · exact fun _ _ _ isCancel => Event.noConfusion isCancel
  obtain ⟨kept, equivalent⟩ := outcome_lands_on_running (by decide) (fun _ => Worker.noConfusion) run
  exact ⟨kept spares, equivalent.mp spares⟩

/-- A pull, a cancel of the running row, and the outcome of its job. -/
def pullCancelFinish : Trace :=
  let result := RunResult.success { noOp := false, needsOcr := false, intakeId := none }
  let pulled := (oneJobDaemon.pull 1 .ok).2
  let cancelled := (Request.run pulled .ok (.ingestCancel "job-1" 2)).2
  [((.pull 1 .ok, .pulled betaRunning), pulled),
    ((.handle (.ingestCancel "job-1" 2) .ok, .wrote (.cancelled "job-1")), cancelled),
    ((.finish result 3 .ok, .recorded "job-1" .done),
      cancelled.recordOutcome betaRunning result 3 .ok)]

/-- **A cancelled row is overwritten**: pull, cancel, outcome. The outcome lands on a row that is no
longer running, and the row reported cancelled ends up done without a retry. -/
theorem cancelled_row_overwritten :
    ¬ ∀ (start : Daemon) (trace : Trace), DistinctIds start →
      (∀ job, start.worker ≠ .executing job) → Along Step start trace →
        OutcomesOntoRunning trace ∧ CancelledStays trace ∧ Along PendingLeaves start trace := by
  intro claim
  obtain ⟨ontoRunning, -, -⟩ := claim oneJobDaemon pullCancelFinish (by decide)
    (fun _ => Worker.noConfusion) ⟨rfl, rfl, rfl, trivial⟩
  obtain ⟨-, running⟩ := ontoRunning [] _ [_] _ [] betaRunning "job-1" .done rfl rfl rfl
    (by simp)
  have cancelled := running _ (List.mem_cons_of_mem _ (List.mem_singleton_self _))
  exact absurd cancelled (by decide)

end Bookrack.Runtime
