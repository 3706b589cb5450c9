/-
The queue's mutators (`runtime/src/queue.rs`): every function that changes a row or appends one,
pure over the document. The instants and the ids the source draws inside (`Utc::now()`,
`Uuid::now_v7()`) are arguments.

Each mutator rewrites rows in place or appends rows; what it does to one row is `RowMove`, and
`*_evolves` says so of the whole table (`Rows.Evolves`). Every invariant of the queue document is
read off these lemmas, none of which needs the ids to be distinct.
-/

import Bookrack.Base.Rows
import Bookrack.Queue.Job
import Mathlib.Tactic.Common

namespace Bookrack.Queue

open Relation (ReflTransGen)

/-! ### Submitting -/

/-- The id and the instant one row is minted with. -/
structure Mint where
  id : String
  now : Timestamp
  deriving DecidableEq, Repr

/-- The submit-time arguments every row of one `enqueue_files` call shares. -/
structure SubmitOptions where
  library : String
  kind : ItemKind
  priority : Priority
  force : Bool
  holdForMetadata : Bool
  bookAuditProfile : Option String
  deriving DecidableEq, Repr

/-- The row literal both enqueue functions push. -/
def submittedJob (mint : Mint) (path : String) (options : SubmitOptions)
    (intakeOcr : Option IntakeOcrInfo) : QueueJob where
  id := mint.id
  library := options.library
  path := path
  kind := options.kind
  priority := options.priority
  force := options.force
  holdForMetadata := options.holdForMetadata
  intakeOcr := intakeOcr
  auditProfile := options.bookAuditProfile
  state := .pending
  queuedAt := mint.now
  startedAt := none
  finishedAt := none
  error := none
  problem := none
  mergedInto := none

/-- `enqueue_files`: one row per path, each with its own mint; returns the ids in order. -/
def enqueueFiles (state : QueueState) (paths : List (String × Mint)) (options : SubmitOptions) :
    List String × QueueState :=
  (paths.map fun entry => entry.2.id,
    { state with
      jobs := state.jobs ++ paths.map fun entry => submittedJob entry.2 entry.1 options none })

/-- `enqueue_ocr_intake`: one book row carrying the OCR side data; returns its id. -/
def enqueueOcrIntake (state : QueueState) (path : String) (info : IntakeOcrInfo) (mint : Mint)
    (options : SubmitOptions) : String × QueueState :=
  (mint.id,
    { state with
      jobs := state.jobs ++ [submittedJob mint path { options with kind := .book } (some info)] })

/-! ### Pulling -/

/-- The row `pull_pending` marks: `Running`, stamped. -/
def startJob (now : Timestamp) (job : QueueJob) : QueueJob :=
  { job with state := .running, startedAt := some now }

/-- The first pending row of one priority, in insertion order. -/
def firstPending (jobs : List QueueJob) (priority : Priority) : Option Nat :=
  jobs.findIdx? fun job => job.state == .pending && job.priority == priority

/-- The row the worker takes next: the first pending one of the highest priority that has one. -/
def nextPending (jobs : List QueueJob) : Option Nat :=
  [Priority.high, Priority.normal, Priority.low].findSome? (firstPending jobs)

/-- `pull_pending`: the pulled row as it stands after the pull, and the document. -/
def pullPending (state : QueueState) (now : Timestamp) : Option QueueJob × QueueState :=
  if state.paused then (none, state)
  else
    match nextPending state.jobs with
    | none => (none, state)
    | some index =>
      let jobs := state.jobs.modify index (startJob now)
      (jobs[index]?, { state with jobs := jobs })

/-! ### Outcomes -/

/-- What a failed run records. -/
structure JobFailure where
  message : String
  problem : Option Problem
  deriving DecidableEq, Repr

/-- The outcome of one run. -/
inductive JobOutcome
  | done
  | skippedDuplicate (intakeId : Int)
  | needsOcr (intakeId : Int)
  | failed (failure : JobFailure)
  deriving DecidableEq, Repr

/-- The body of `apply_outcome` on the row it found. -/
def recordOutcome (now : Timestamp) (outcome : JobOutcome) (job : QueueJob) : QueueJob :=
  let job := { job with finishedAt := some now }
  match outcome with
  | .done => { job with state := .done, error := none, problem := none, mergedInto := none }
  | .skippedDuplicate intakeId =>
    { job with state := .skippedDuplicate, error := none, problem := none,
               mergedInto := some intakeId }
  | .needsOcr intakeId =>
    { job with state := .needsOcr, error := none, problem := none, mergedInto := some intakeId }
  | .failed failure =>
    { job with state := .failed, error := some failure.message, problem := failure.problem,
               mergedInto := none }

/-- `apply_outcome`: the first row with the id, whatever its state; no such row is a silent
no-op. -/
def applyOutcome (state : QueueState) (id : String) (outcome : JobOutcome) (now : Timestamp) :
    QueueState :=
  match state.jobs.findIdx? fun job => job.id == id with
  | none => state
  | some index => { state with jobs := state.jobs.modify index (recordOutcome now outcome) }

/-! ### Cancelling -/

/-- The row a cancel leaves: `Cancelled`, stamped, nothing else touched. -/
def cancelJob (now : Timestamp) (job : QueueJob) : QueueJob :=
  { job with state := .cancelled, finishedAt := some now }

/-- The text of a cancel's refusal. -/
def cancelRefusalText (fragment : String) : FragmentMiss → String
  | .empty => "queue cancel: id fragment must not be empty"
  | .noMatch => "queue cancel: no pending or running job matches " ++ debugText fragment
  | .ambiguous count =>
    "queue cancel: " ++ debugText fragment ++ " is ambiguous, matches " ++ toString count ++ " jobs"

/-- The id of the row a cancel's fragment picks, if it picks one. -/
def cancelTarget (state : QueueState) (fragment : String) : Option String :=
  match matchIdFragment state.jobs fragment fun job => job.state.isLive with
  | .ok index => (state.jobs[index]?).map QueueJob.id
  | .error _ => none

/-- `cancel_matching`: the one pending or running row whose id contains the fragment. -/
def cancelMatching (state : QueueState) (fragment : String) (now : Timestamp) :
    Except String (String × QueueState) :=
  match matchIdFragment state.jobs fragment fun job => job.state.isLive with
  | .ok index =>
    match state.jobs[index]? with
    | some job => .ok (job.id, { state with jobs := state.jobs.modify index (cancelJob now) })
    -- The matcher's index is in range (`matchIdFragment_ok`).
    | none => .error ""
  | .error miss => .error (cancelRefusalText fragment miss)

/-- `cancel_all_pending`: running rows are left alone; returns the number cancelled. -/
def cancelAllPending (state : QueueState) (now : Timestamp) : Nat × QueueState :=
  ((state.jobs.filter fun job => job.state == .pending).length,
    { state with
      jobs := state.jobs.map fun job => if job.state = .pending then cancelJob now job else job })

/-! ### Retrying -/

/-- `RETRYABLE_STATES.contains`. -/
def JobState.isRetryable : JobState → Bool
  | .failed | .needsOcr | .cancelled => true
  | _ => false

/-- Which rows a retry selects. -/
inductive RetrySelector
  | state (wanted : JobState)
  | idFragment (fragment : String)
  deriving DecidableEq, Repr

/-- Why a retry did nothing. -/
inductive RetryRefusal
  | stateNotRetryable (state : JobState)
  | emptyFragment
  | noMatch (fragment : String)
  | ambiguous (fragment : String) (count : Nat)
  | notRetryable (id : String) (state : String)
  | libraryNotMounted (id library : String)
  deriving DecidableEq, Repr

/-- The `Display` of a refusal. -/
def RetryRefusal.text : RetryRefusal → String
  | .stateNotRetryable state =>
    "state " ++ state.asWireStr
      ++ " is not retryable; retryable states are failed, needs_ocr, cancelled"
  | .emptyFragment => "id fragment must not be empty"
  | .noMatch fragment => "no job matches " ++ debugText fragment
  | .ambiguous fragment count =>
    debugText fragment ++ " is ambiguous, matches " ++ toString count ++ " jobs"
  | .notRetryable id state =>
    "job " ++ id ++ " is " ++ state ++ ", not failed, needs_ocr, or cancelled"
  | .libraryNotMounted id library =>
    "job " ++ id ++ " is against library " ++ debugText library ++ ", which is not mounted"

/-- A row a retry selected and left as it was. -/
structure HeldJob where
  id : String
  library : String
  deriving DecidableEq, Repr

/-- What a retry did. -/
structure RetryOutcome where
  retried : List String
  held : List HeldJob
  deriving DecidableEq, Repr

/-- `reset_for_retry`: back to `Pending`, the five run fields cleared. -/
def resetForRetry (job : QueueJob) : QueueJob :=
  { job with
    state := .pending
    startedAt := none
    finishedAt := none
    error := none
    problem := none
    mergedInto := none }

/-- The rows a state selection flips. -/
def flipsRow (wanted : JobState) (mounted : String → Bool) (job : QueueJob) : Bool :=
  job.state == wanted && mounted job.library

/-- The rows a state selection holds. -/
def holdsRow (wanted : JobState) (mounted : String → Bool) (job : QueueJob) : Bool :=
  job.state == wanted && !mounted job.library

/-- `retry_terminal`. A fragment is matched against every row before the state check, and the
library check comes last. -/
def retryTerminal (state : QueueState) (selector : RetrySelector) (mounted : String → Bool) :
    Except RetryRefusal (RetryOutcome × QueueState) :=
  match selector with
  | .state wanted =>
    if wanted.isRetryable then
      .ok ({ retried := (state.jobs.filter (flipsRow wanted mounted)).map (·.id)
             held := (state.jobs.filter (holdsRow wanted mounted)).map fun job =>
               { id := job.id, library := job.library } },
        { state with
          jobs := state.jobs.map fun job =>
            if flipsRow wanted mounted job then resetForRetry job else job })
    else .error (.stateNotRetryable wanted)
  | .idFragment fragment =>
    match matchIdFragment state.jobs fragment fun _ => true with
    | .ok index =>
      match state.jobs[index]? with
      | some job =>
        if job.state.isRetryable then
          if mounted job.library then
            .ok ({ retried := [job.id], held := [] },
              { state with jobs := state.jobs.modify index resetForRetry })
          else .error (.libraryNotMounted job.id job.library)
        else .error (.notRetryable job.id job.state.asWireStr)
      -- The matcher's index is in range (`matchIdFragment_ok`).
      | none => .error .emptyFragment
    | .error .empty => .error .emptyFragment
    | .error .noMatch => .error (.noMatch fragment)
    | .error (.ambiguous count) => .error (.ambiguous fragment count)

/-! ### Bring-up -/

/-- The row `crash_recovery_reset` leaves in place of a running one. -/
def requeueJob (job : QueueJob) : QueueJob :=
  { job with state := .pending, startedAt := none }

/-- `crash_recovery_reset`: every running row back to pending. -/
def crashRecoveryReset (state : QueueState) : QueueState :=
  { state with
    jobs := state.jobs.map fun job => if job.state = .running then requeueJob job else job }

/-- The rows `pin_unnamed_jobs` names: no library yet, and still able to run. -/
def isUnnamedRunnable (job : QueueJob) : Bool :=
  job.library == "" && (job.state.isLive || job.state.isRetryable)

/-- `pin_unnamed_jobs`; returns the number of rows changed. -/
def pinUnnamedJobs (state : QueueState) (target : String) : Nat × QueueState :=
  ((state.jobs.filter isUnnamedRunnable).length,
    { state with
      jobs := state.jobs.map fun job =>
        if isUnnamedRunnable job then { job with library := target } else job })

/-- The rows the worker has not finished with, against one library. -/
def isLiveAgainst (library : String) (job : QueueJob) : Bool :=
  job.library == library && job.state.isLive

/-- `fail_jobs_against`: collects the ids first, then records the failure on each in turn;
`clock` gives the instant each application draws. -/
def failJobsAgainst (state : QueueState) (library : String) (failure : JobFailure)
    (clock : String → Timestamp) : Nat × QueueState :=
  let ids := (state.jobs.filter (isLiveAgainst library)).map (·.id)
  (ids.length,
    ids.foldl (fun state id => applyOutcome state id (.failed failure) (clock id)) state)

/-! ### What a mutator does to one row -/

/-- One in-place change of a row. -/
inductive RowMove : QueueJob → QueueJob → Prop
  | start (job : QueueJob) (now : Timestamp) :
      job.state = .pending → RowMove job (startJob now job)
  | outcome (job : QueueJob) (now : Timestamp) (outcome : JobOutcome) :
      RowMove job (recordOutcome now outcome job)
  | cancel (job : QueueJob) (now : Timestamp) :
      job.state.isLive = true → RowMove job (cancelJob now job)
  | retry (job : QueueJob) : job.state.isRetryable = true → RowMove job (resetForRetry job)
  | requeue (job : QueueJob) : job.state = .running → RowMove job (requeueJob job)
  | pin (job : QueueJob) (target : String) :
      isUnnamedRunnable job = true → RowMove job { job with library := target }

/-- A row as an enqueue writes it. -/
def Submitted (job : QueueJob) : Prop :=
  ∃ mint path options intakeOcr, job = submittedJob mint path options intakeOcr

/-- What the mutators do to the table of rows. -/
abbrev JobsEvolve : List QueueJob → List QueueJob → Prop := Rows.Evolves RowMove Submitted

theorem nextPending_spec {jobs : List QueueJob} {index : Nat}
    (next : nextPending jobs = some index) :
    ∃ job, jobs[index]? = some job ∧ job.state = .pending := by
  obtain ⟨priority, -, found⟩ := List.exists_of_findSome?_eq_some next
  obtain ⟨inside, holds, -⟩ := List.findIdx?_eq_some_iff_getElem.mp found
  refine ⟨_, List.getElem?_eq_getElem inside, ?_⟩
  rw [Bool.and_eq_true] at holds
  exact beq_iff_eq.mp holds.1

/-- **What a pull does**: nothing, or the next pending row of an unpaused queue is started. -/
theorem pullPending_cases (state : QueueState) (now : Timestamp) :
    pullPending state now = (none, state) ∨
      ∃ index job, state.paused = false ∧ nextPending state.jobs = some index ∧
        state.jobs[index]? = some job ∧ job.state = .pending ∧
        pullPending state now =
          (some (startJob now job),
            { state with jobs := state.jobs.modify index (startJob now) }) := by
  unfold pullPending
  by_cases paused : state.paused = true
  · exact Or.inl (if_pos paused)
  · rw [if_neg paused]
    cases next : nextPending state.jobs with
    | none => exact Or.inl rfl
    | some index =>
      obtain ⟨job, found, pending⟩ := nextPending_spec next
      refine Or.inr ⟨index, job, by simpa using paused, rfl, found, pending, ?_⟩
      simp only [List.getElem?_modify_eq, found, Option.map_eq_map, Option.map_some]

/-- **What a successful cancel does**: the live row its fragment picks is cancelled. -/
theorem cancelMatching_ok {state after : QueueState} {fragment id : String} {now : Timestamp}
    (cancelled : cancelMatching state fragment now = .ok (id, after)) :
    ∃ index job, state.jobs[index]? = some job ∧ job.state.isLive = true ∧ job.id = id ∧
      cancelTarget state fragment = some id ∧
      after = { state with jobs := state.jobs.modify index (cancelJob now) } := by
  unfold cancelMatching at cancelled
  split at cancelled
  · rename_i index located
    obtain ⟨job, found, live, -⟩ := matchIdFragment_ok located
    rw [found] at cancelled
    cases cancelled
    exact ⟨index, job, found, live, rfl, by simp [cancelTarget, located, found], rfl⟩
  · cases cancelled

/-- A fragment that picks a row cancels it. -/
theorem cancelMatching_of_target {state : QueueState} {fragment id : String} (now : Timestamp)
    (target : cancelTarget state fragment = some id) :
    ∃ after, cancelMatching state fragment now = .ok (id, after) := by
  unfold cancelTarget at target
  split at target
  · rename_i index located
    obtain ⟨job, found, rfl⟩ := Option.map_eq_some_iff.mp target
    exact ⟨_, by simp only [cancelMatching, located, found]; rfl⟩
  · cases target

/-- **What a successful retry does**: the retryable rows of mounted libraries it reports are reset,
and nothing else. -/
theorem retryTerminal_ok {state after : QueueState} {selector : RetrySelector}
    {mounted : String → Bool} {outcome : RetryOutcome}
    (retried : retryTerminal state selector mounted = .ok (outcome, after)) :
    ∃ jobs, after = { state with jobs := jobs } ∧
      List.Forall₂ (fun job next => next = job ∨ next = resetForRetry job ∧
        job.state.isRetryable = true ∧ mounted job.library = true ∧ job.id ∈ outcome.retried)
        state.jobs jobs := by
  cases selector with
  | state wanted =>
    simp only [retryTerminal] at retried
    split at retried
    · rename_i retryable
      cases retried
      refine ⟨_, rfl, List.forall₂_map_right_iff.mpr (List.forall₂_same.mpr fun job member => ?_)⟩
      split
      · rename_i flips
        have selected := flips
        rw [flipsRow, Bool.and_eq_true, beq_iff_eq] at selected
        refine Or.inr ⟨rfl, by rw [selected.1]; exact retryable, selected.2, ?_⟩
        exact List.mem_map.mpr ⟨job, List.mem_filter.mpr ⟨member, flips⟩, rfl⟩
      · exact Or.inl rfl
    · cases retried
  | idFragment fragment =>
    simp only [retryTerminal] at retried
    split at retried
    · split at retried
      · rename_i job found
        split at retried
        · rename_i retryable
          split at retried
          · rename_i isMounted
            cases retried
            refine ⟨_, rfl, ?_⟩
            apply Rows.forall₂_modify
            · exact fun row => Or.inl rfl
            · intro row present
              obtain rfl : job = row := Option.some.inj (found.symm.trans present)
              exact Or.inr ⟨rfl, retryable, isMounted, List.mem_singleton_self _⟩
          · cases retried
        · cases retried
      · cases retried
    all_goals cases retried

theorem enqueueFiles_evolves (state : QueueState) (paths : List (String × Mint))
    (options : SubmitOptions) :
    JobsEvolve state.jobs (enqueueFiles state paths options).2.jobs := by
  refine Rows.evolves_append _ _ fun row member => ?_
  obtain ⟨entry, -, rfl⟩ := List.mem_map.mp member
  exact ⟨entry.2, entry.1, options, none, rfl⟩

theorem enqueueOcrIntake_evolves (state : QueueState) (path : String) (info : IntakeOcrInfo)
    (mint : Mint) (options : SubmitOptions) :
    JobsEvolve state.jobs (enqueueOcrIntake state path info mint options).2.jobs := by
  refine Rows.evolves_append _ _ fun row member => ?_
  rw [List.mem_singleton] at member
  exact ⟨mint, path, _, _, member⟩

theorem pullPending_evolves (state : QueueState) (now : Timestamp) :
    JobsEvolve state.jobs (pullPending state now).2.jobs := by
  rcases pullPending_cases state now with pulls | ⟨index, job, -, -, found, pending, pulls⟩
  · rw [pulls]
    exact .refl _
  · rw [pulls]
    refine Rows.evolves_modify _ _ _ fun row present => ?_
    obtain rfl : job = row := Option.some.inj (found.symm.trans present)
    exact .single (.start job now pending)

theorem applyOutcome_evolves (state : QueueState) (id : String) (outcome : JobOutcome)
    (now : Timestamp) : JobsEvolve state.jobs (applyOutcome state id outcome now).jobs := by
  unfold applyOutcome
  split
  · exact .refl _
  · exact Rows.evolves_modify _ _ _ fun row _ => .single (.outcome row now outcome)

theorem cancelMatching_evolves {state after : QueueState} {fragment id : String} {now : Timestamp}
    (cancelled : cancelMatching state fragment now = .ok (id, after)) :
    JobsEvolve state.jobs after.jobs := by
  obtain ⟨index, job, found, live, -, -, rfl⟩ := cancelMatching_ok cancelled
  refine Rows.evolves_modify _ _ _ fun row present => ?_
  obtain rfl : job = row := Option.some.inj (found.symm.trans present)
  exact .single (.cancel job now live)

theorem cancelAllPending_evolves (state : QueueState) (now : Timestamp) :
    JobsEvolve state.jobs (cancelAllPending state now).2.jobs := by
  refine Rows.evolves_map _ _ fun row _ => ?_
  split
  · rename_i pending
    exact .single (.cancel row now (by rw [pending]; rfl))
  · exact .refl

theorem retryTerminal_evolves {state after : QueueState} {selector : RetrySelector}
    {mounted : String → Bool} {outcome : RetryOutcome}
    (retried : retryTerminal state selector mounted = .ok (outcome, after)) :
    JobsEvolve state.jobs after.jobs := by
  obtain ⟨jobs, rfl, rows⟩ := retryTerminal_ok retried
  refine ⟨jobs, [], (List.append_nil _).symm, rows.imp ?_, fun _ member => by cases member⟩
  rintro job next (rfl | ⟨rfl, retryable, -⟩)
  · exact .refl
  · exact .single (.retry job retryable)

theorem crashRecoveryReset_evolves (state : QueueState) :
    JobsEvolve state.jobs (crashRecoveryReset state).jobs := by
  refine Rows.evolves_map _ _ fun row _ => ?_
  split
  · rename_i running
    exact .single (.requeue row running)
  · exact .refl

theorem pinUnnamedJobs_evolves (state : QueueState) (target : String) :
    JobsEvolve state.jobs (pinUnnamedJobs state target).2.jobs := by
  refine Rows.evolves_map _ _ fun row _ => ?_
  split
  · rename_i unnamed
    exact .single (.pin row target unnamed)
  · exact .refl

theorem failJobsAgainst_evolves (state : QueueState) (library : String) (failure : JobFailure)
    (clock : String → Timestamp) :
    JobsEvolve state.jobs (failJobsAgainst state library failure clock).2.jobs := by
  have each : ∀ (ids : List String) (state : QueueState), JobsEvolve state.jobs
      (ids.foldl (fun state id => applyOutcome state id (.failed failure) (clock id)) state).jobs := by
    intro ids
    induction ids with
    | nil => exact fun state => .refl _
    | cons id rest ih => exact fun state => (applyOutcome_evolves _ _ _ _).trans (ih _)
  exact each _ state

end Bookrack.Queue
