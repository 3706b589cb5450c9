/-
What holds of every row of the queue document, whatever sequence of mutators led to it.

`RowWellFormed` ties the six run fields of a row to its state; `Submission` is everything a row
carries from its enqueue on. Every mutator of `Queue.Mutators` moves rows by `RowMove`, so both
results are one case analysis of `RowMove` each, carried to whole sequences by `Rows.Evolves`.
-/

import Bookrack.Queue.Mutators

namespace Bookrack.Queue

/-! ### The field invariant -/

/-- The run fields of a row, tied to its state. -/
structure RowWellFormed (job : QueueJob) : Prop where
  pending : job.state = .pending → job.startedAt = none ∧ job.finishedAt = none ∧
    job.error = none ∧ job.problem = none ∧ job.mergedInto = none
  running : job.state = .running → job.startedAt.isSome ∧ job.finishedAt = none ∧
    job.error = none ∧ job.problem = none ∧ job.mergedInto = none
  terminal : job.state.isLive = false → job.finishedAt.isSome
  error : job.error.isSome ↔ job.state = .failed
  problem : job.problem.isSome → job.state = .failed
  mergedInto : job.mergedInto.isSome ↔ job.state = .skippedDuplicate ∨ job.state = .needsOcr

theorem submitted_wellFormed {job : QueueJob} (submitted : Submitted job) : RowWellFormed job := by
  obtain ⟨mint, path, options, intakeOcr, rfl⟩ := submitted
  constructor <;> simp [submittedJob, JobState.isLive]

/-- An outcome writes every run field but `startedAt`, so its result does not depend on what the
row held before. -/
theorem recordOutcome_wellFormed (now : Timestamp) (outcome : JobOutcome) (job : QueueJob) :
    RowWellFormed (recordOutcome now outcome job) := by
  cases outcome <;> constructor <;> simp [recordOutcome, JobState.isLive]

/-- A live row carries no error, no problem and no anchor. -/
theorem RowWellFormed.live_clear {job : QueueJob} (wellFormed : RowWellFormed job)
    (live : job.state.isLive = true) :
    job.error = none ∧ job.problem = none ∧ job.mergedInto = none := by
  cases state : job.state with
  | pending =>
    obtain ⟨-, -, error, problem, merged⟩ := wellFormed.pending state
    exact ⟨error, problem, merged⟩
  | running =>
    obtain ⟨-, -, error, problem, merged⟩ := wellFormed.running state
    exact ⟨error, problem, merged⟩
  | done | skippedDuplicate | needsOcr | failed | cancelled => simp [state, JobState.isLive] at live

/-- **Every move keeps the field invariant.** -/
theorem rowMove_wellFormed {job next : QueueJob} (wellFormed : RowWellFormed job)
    (move : RowMove job next) : RowWellFormed next := by
  cases move with
  | start now pending =>
    obtain ⟨-, finished, error, problem, merged⟩ := wellFormed.pending pending
    constructor <;> simp [startJob, JobState.isLive, finished, error, problem, merged]
  | outcome now outcome => exact recordOutcome_wellFormed now outcome job
  | cancel now live =>
    obtain ⟨error, problem, merged⟩ := wellFormed.live_clear live
    constructor <;> simp [cancelJob, error, problem, merged]
  | retry retryable => constructor <;> simp [resetForRetry, JobState.isLive]
  | requeue running =>
    obtain ⟨-, finished, error, problem, merged⟩ := wellFormed.running running
    constructor <;> simp [requeueJob, JobState.isLive, finished, error, problem, merged]
  | pin target unnamed =>
    exact ⟨wellFormed.pending, wellFormed.running, wellFormed.terminal, wellFormed.error,
      wellFormed.problem, wellFormed.mergedInto⟩

/-! ### What a row keeps from its submission -/

/-- The id, the submit instant and the submit-time flags of a row. -/
structure Submission where
  id : String
  queuedAt : Timestamp
  path : String
  kind : ItemKind
  priority : Priority
  force : Bool
  holdForMetadata : Bool
  intakeOcr : Option IntakeOcrInfo
  auditProfile : Option String
  deriving DecidableEq, Repr

/-- The submission a row stems from. -/
def QueueJob.submission (job : QueueJob) : Submission where
  id := job.id
  queuedAt := job.queuedAt
  path := job.path
  kind := job.kind
  priority := job.priority
  force := job.force
  holdForMetadata := job.holdForMetadata
  intakeOcr := job.intakeOcr
  auditProfile := job.auditProfile

/-- **No move touches what a row was submitted with.** -/
theorem rowMove_submission {job next : QueueJob} (move : RowMove job next) :
    next.submission = job.submission := by
  cases move with
  | outcome now outcome => cases outcome <;> rfl
  | start | cancel | retry | requeue | pin => rfl

/-- A row names another library only by being pinned, and only when it named none. -/
theorem rowMove_library {job next : QueueJob} (move : RowMove job next) :
    next.library = job.library ∨ job.library = "" := by
  cases move with
  | outcome now outcome => cases outcome <;> exact Or.inl rfl
  | pin target unnamed =>
    rw [isUnnamedRunnable, Bool.and_eq_true, beq_iff_eq] at unnamed
    exact Or.inr unnamed.1
  | start | cancel | retry | requeue => exact Or.inl rfl

/-! ### Sequences of mutators -/

/-- One call of a mutator, with every value it reads from outside the document. -/
inductive Mutation
  | enqueueFiles (paths : List (String × Mint)) (options : SubmitOptions)
  | enqueueOcrIntake (path : String) (info : IntakeOcrInfo) (mint : Mint) (options : SubmitOptions)
  | pullPending (now : Timestamp)
  | applyOutcome (id : String) (outcome : JobOutcome) (now : Timestamp)
  | cancelMatching (fragment : String) (now : Timestamp)
  | cancelAllPending (now : Timestamp)
  | retryTerminal (selector : RetrySelector) (mounted : String → Bool)
  | pinUnnamedJobs (target : String)
  | failJobsAgainst (library : String) (failure : JobFailure) (clock : String → Timestamp)
  | crashRecoveryReset

/-- The document after one call; a refused cancel or retry leaves it as it was. -/
def Mutation.run (state : QueueState) : Mutation → QueueState
  | .enqueueFiles paths options => (Queue.enqueueFiles state paths options).2
  | .enqueueOcrIntake path info mint options =>
    (Queue.enqueueOcrIntake state path info mint options).2
  | .pullPending now => (Queue.pullPending state now).2
  | .applyOutcome id outcome now => Queue.applyOutcome state id outcome now
  | .cancelMatching fragment now =>
    match Queue.cancelMatching state fragment now with
    | .ok (_, after) => after
    | .error _ => state
  | .cancelAllPending now => (Queue.cancelAllPending state now).2
  | .retryTerminal selector mounted =>
    match Queue.retryTerminal state selector mounted with
    | .ok (_, after) => after
    | .error _ => state
  | .pinUnnamedJobs target => (Queue.pinUnnamedJobs state target).2
  | .failJobsAgainst library failure clock => (Queue.failJobsAgainst state library failure clock).2
  | .crashRecoveryReset => Queue.crashRecoveryReset state

/-- The document after a sequence of calls. -/
def runMutations (state : QueueState) (mutations : List Mutation) : QueueState :=
  mutations.foldl Mutation.run state

theorem mutation_evolves (state : QueueState) (mutation : Mutation) :
    JobsEvolve state.jobs (mutation.run state).jobs := by
  cases mutation with
  | enqueueFiles paths options => exact enqueueFiles_evolves state paths options
  | enqueueOcrIntake path info mint options =>
    exact enqueueOcrIntake_evolves state path info mint options
  | pullPending now => exact pullPending_evolves state now
  | applyOutcome id outcome now => exact applyOutcome_evolves state id outcome now
  | cancelMatching fragment now =>
    simp only [Mutation.run]
    split
    · rename_i cancelled
      exact cancelMatching_evolves cancelled
    · exact .refl _
  | cancelAllPending now => exact cancelAllPending_evolves state now
  | retryTerminal selector mounted =>
    simp only [Mutation.run]
    split
    · rename_i retried
      exact retryTerminal_evolves retried
    · exact .refl _
  | pinUnnamedJobs target => exact pinUnnamedJobs_evolves state target
  | failJobsAgainst library failure clock =>
    exact failJobsAgainst_evolves state library failure clock
  | crashRecoveryReset => exact crashRecoveryReset_evolves state

theorem runMutations_evolves (mutations : List Mutation) (state : QueueState) :
    JobsEvolve state.jobs (runMutations state mutations).jobs := by
  induction mutations generalizing state with
  | nil => exact .refl _
  | cons mutation rest ih => exact (mutation_evolves state mutation).trans (ih _)

/-- **The queue row field invariant.** From the empty queue, whatever mutators run: every row's
run fields fit its state, and whatever runs after that, no row is removed or reordered and none
loses anything it was submitted with. -/
theorem queueRows_wellFormed_and_permanent (mutations later : List Mutation) :
    (∀ job ∈ (runMutations .empty mutations).jobs, RowWellFormed job) ∧
      (runMutations .empty mutations).jobs.map QueueJob.submission <+:
        (runMutations .empty (mutations ++ later)).jobs.map QueueJob.submission := by
  refine ⟨?_, ?_⟩
  · exact (runMutations_evolves mutations .empty).all (fun _ => submitted_wellFormed)
      (fun _ _ => rowMove_wellFormed) (fun _ member => by cases member)
  · have split : runMutations .empty (mutations ++ later) =
        runMutations (runMutations .empty mutations) later := List.foldl_append
    rw [split]
    exact (runMutations_evolves later _).column_kept fun _ _ => rowMove_submission

end Bookrack.Queue
