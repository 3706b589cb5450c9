/-
What one step of the daemon does to the rows of the queue.

* `RowStep` — the seven things that can happen to a row that was there before the step.
* `transition_rows` — after any step the queue is the rows from before, each moved by `RowStep`,
  followed by freshly submitted ones.
* `row_follows` / `rows_origin` — the two directions the invariants read it in.
-/

import Bookrack.Runtime.Step

namespace Bookrack.Runtime

open Queue Registry

/-! ### One row -/

/-- What one step does to one row. -/
inductive RowStep (daemon : Daemon) : Event → Effect → QueueJob → QueueJob → Prop
  | kept (event : Event) (effect : Effect) (job : QueueJob) : RowStep daemon event effect job job
  | cancelled (jobId : String) (now : Timestamp) (job : QueueJob) :
      job.state.isLive = true → cancelTarget daemon.queue jobId = some job.id →
      RowStep daemon (.handle (.ingestCancel jobId now) .ok) (.wrote (.cancelled job.id)) job
        (cancelJob now job)
  | cleared (now : Timestamp) (count : Nat) (job : QueueJob) : job.state = .pending →
      RowStep daemon (.handle (.queueClear now) .ok) (.wrote (.cleared count)) job
        (cancelJob now job)
  | retried (state : Option JobState) (jobId : Option String) (outcome : RetryOutcome)
      (job : QueueJob) :
      job.state.isRetryable = true → job.library ∈ daemon.registry.mounted →
      job.id ∈ outcome.retried →
      RowStep daemon (.handle (.queueRetry state jobId) .ok) (.wrote (.retried outcome)) job
        (resetForRetry job)
  | started (now : Timestamp) (written : SaveResult) (job : QueueJob) : job.state = .pending →
      RowStep daemon (.pull now written) (.pulled (startJob now job)) job (startJob now job)
  | recorded (executed : QueueJob) (result : RunResult) (now : Timestamp) (written : SaveResult)
      (job : QueueJob) :
      daemon.worker = .executing executed → job.id = executed.id →
      RowStep daemon (.finish result now written) (.recorded executed.id result.outcome) job
        (recordOutcome now result.outcome job)
  | requeued (written : SaveResult) (job : QueueJob) :
      daemon.worker = .starting → job.state = .running →
      RowStep daemon (.recover written) .quiet job (requeueJob job)

theorem RowStep.submission {daemon : Daemon} {event : Event} {effect : Effect}
    {job next : QueueJob} (moved : RowStep daemon event effect job next) :
    next.id = job.id ∧ next.library = job.library := by
  cases moved with
  | recorded executed result now written => cases result.outcome <;> exact ⟨rfl, rfl⟩
  | kept | cancelled | cleared | retried | started | requeued => exact ⟨rfl, rfl⟩

/-! ### The table -/

/-- What one step does to the table of rows. -/
structure RowsStep (daemon : Daemon) (event : Event) (effect : Effect)
    (kept added : List QueueJob) : Prop where
  moved : List.Forall₂ (RowStep daemon event effect) daemon.queue.jobs kept
  distinct : (added.map QueueJob.id).Nodup
  fresh : ∀ row ∈ added, row.id ∉ daemon.queue.jobs.map QueueJob.id
  pending : ∀ row ∈ added, row.state = .pending
  served : ∀ row ∈ added, row.library ∈ daemon.registry.mounted

/-- After the step the table is the old rows moved in place, then the freshly submitted ones. -/
def TableStep (daemon : Daemon) (event : Event) (effect : Effect) (after : List QueueJob) : Prop :=
  ∃ kept added, after = kept ++ added ∧ RowsStep daemon event effect kept added

/-- A step that moves rows in place and appends none. -/
theorem TableStep.inPlace {daemon : Daemon} {event : Event} {effect : Effect}
    {kept : List QueueJob}
    (moved : List.Forall₂ (RowStep daemon event effect) daemon.queue.jobs kept) :
    TableStep daemon event effect kept :=
  ⟨kept, [], (List.append_nil _).symm, moved, List.nodup_nil, by simp, by simp, by simp⟩

/-- A step that leaves every row alone. -/
theorem TableStep.untouched (daemon : Daemon) (event : Event) (effect : Effect) :
    TableStep daemon event effect daemon.queue.jobs :=
  .inPlace (List.forall₂_same.mpr fun job _ => .kept event effect job)

/-- An enqueue appends its rows. -/
theorem TableStep.enqueued {daemon : Daemon} {event : Event} {effect : Effect}
    {added : List QueueJob} {library : String} {minted : List String}
    (ids : added.map QueueJob.id = minted) (distinct : minted.Nodup)
    (fresh : ∀ id ∈ minted, id ∉ daemon.queue.jobs.map QueueJob.id)
    (pending : ∀ row ∈ added, row.state = .pending) (named : ∀ row ∈ added, row.library = library)
    (served : library ∈ daemon.registry.mounted) :
    TableStep daemon event effect (daemon.queue.jobs ++ added) := by
  refine ⟨_, added, rfl, List.forall₂_same.mpr fun job _ => .kept event effect job, ?_, ?_,
    pending, ?_⟩
  · rw [ids]
    exact distinct
  · intro row member
    exact fresh _ (by rw [← ids]; exact List.mem_map_of_mem member)
  · intro row member
    rw [named row member]
    exact served

theorem enqueueFiles_ids (paths : List (String × Mint)) (options : SubmitOptions) :
    (paths.map fun entry => submittedJob entry.2 entry.1 options none).map QueueJob.id =
      paths.map fun entry => entry.2.id := by
  rw [List.map_map]
  rfl

/-- The two submits of a batch of files. -/
theorem mutate_enqueueFiles {daemon : Daemon} {receipt : Receipt} {mutated : QueueState}
    {paths : List (String × Mint)} (options : SubmitOptions) {request : Request}
    (minted : request.minted = paths.map fun entry => entry.2.id)
    (fresh : request.Fresh daemon.queue)
    (mutates : checkLibrary daemon.registry options.library
      ((enqueueFiles daemon.queue paths options).map Receipt.submitted id) =
        .ok (receipt, mutated)) :
    TableStep daemon (.handle request .ok) (.wrote receipt) mutated.jobs := by
  obtain ⟨served, same⟩ := checkLibrary_ok mutates
  cases same
  refine TableStep.enqueued (enqueueFiles_ids paths options) (minted ▸ fresh.1) (minted ▸ fresh.2)
    ?_ ?_ served
  · intro row member
    obtain ⟨entry, -, rfl⟩ := List.mem_map.mp member
    rfl
  · intro row member
    obtain ⟨entry, -, rfl⟩ := List.mem_map.mp member
    rfl

theorem lookupFault_isNone {registry : LibraryRegistry} {library : String}
    (served : (lookupFault registry library).isNone = true) : library ∈ registry.mounted := by
  unfold lookupFault at served
  split at served
  · rename_i found
    exact (get_ok found).2
  · cases served

/-- What a request's mutation does to the rows. -/
theorem mutate_rows {daemon : Daemon} {request : Request} {receipt : Receipt}
    {mutated : QueueState} (fresh : request.Fresh daemon.queue)
    (mutates : request.mutate daemon.registry daemon.queue = .ok (receipt, mutated)) :
    TableStep daemon (.handle request .ok) (.wrote receipt) mutated.jobs := by
  cases request with
  | ingestSubmit paths library priority force hold profile =>
    exact mutate_enqueueFiles
      { library := library, kind := .book, priority := priority, force := force,
        holdForMetadata := hold, bookAuditProfile := profile } rfl fresh mutates
  | gleanSubmit paths library priority force =>
    exact mutate_enqueueFiles
      { library := library, kind := .paper, priority := priority, force := force,
        holdForMetadata := false, bookAuditProfile := none } rfl fresh mutates
  | intakeOcr ocrMd info mint library priority force hold profile =>
    obtain ⟨served, same⟩ := checkLibrary_ok mutates
    cases same
    exact TableStep.enqueued rfl fresh.1 fresh.2 (by simp [submittedJob]) (by simp [submittedJob])
      served
  | ingestCancel jobId now =>
    obtain ⟨id, rfl, cancels⟩ := mutate_ingestCancel mutates
    obtain ⟨index, job, found, live, rfl, target, rfl⟩ := cancelMatching_ok cancels
    refine .inPlace (Rows.forall₂_modify (fun row => .kept _ _ row) _ _ _ ?_)
    intro row present
    obtain rfl : job = row := Option.some.inj (found.symm.trans present)
    exact .cancelled jobId now job live target
  | queueClear now =>
    cases mutates
    refine .inPlace (List.forall₂_map_right_iff.mpr (List.forall₂_same.mpr fun job _ => ?_))
    split
    · rename_i pending
      exact .cleared now _ job pending
    · exact .kept _ _ job
  | queueRetry state jobId =>
    obtain ⟨selector, outcome, rfl, retries⟩ := mutate_queueRetry mutates
    obtain ⟨jobs, rfl, rows⟩ := retryTerminal_ok retries
    refine .inPlace (rows.imp ?_)
    rintro job next (rfl | ⟨rfl, retryable, served, reported⟩)
    · exact .kept _ _ next
    · exact .retried state jobId outcome job retryable (lookupFault_isNone served) reported
  | queuePause | queueResume =>
    cases mutates
    exact .untouched daemon _ _

theorem recordedQueue_jobs (queue : QueueState) (job : QueueJob) (result : RunResult)
    (now : Timestamp) :
    (recordedQueue queue job result now).jobs =
      (applyOutcome queue job.id result.outcome now).jobs := by
  unfold recordedQueue
  split
  · unfold applyOutcome
    dsimp only
    split <;> rfl
  · rfl

/-- The jobs list is the only part of a document `apply_outcome` rewrites. -/
theorem applyOutcome_rows (daemon : Daemon) (executed : QueueJob) (result : RunResult)
    (now : Timestamp) (written : SaveResult) (executing : daemon.worker = .executing executed) :
    List.Forall₂
      (RowStep daemon (.finish result now written) (.recorded executed.id result.outcome))
      daemon.queue.jobs (applyOutcome daemon.queue executed.id result.outcome now).jobs := by
  unfold applyOutcome
  split
  · exact List.forall₂_same.mpr fun job _ => .kept _ _ job
  · rename_i index located
    refine Rows.forall₂_modify (fun row => .kept _ _ row) _ _ _ fun row present => ?_
    obtain ⟨inside, holds, -⟩ := List.findIdx?_eq_some_iff_getElem.mp located
    obtain rfl := Option.some.inj ((List.getElem?_eq_getElem inside).symm.trans present)
    exact .recorded executed result now written _ executing (by simpa using holds)

@[simp] theorem saveAtomic_jobs (daemon : Daemon) (written : SaveResult) :
    (daemon.saveAtomic written).queue.jobs = daemon.queue.jobs := by cases written <;> rfl

@[simp] theorem saveAtomic_worker (daemon : Daemon) (written : SaveResult) :
    (daemon.saveAtomic written).worker = daemon.worker := by cases written <;> rfl

@[simp] theorem publishSaved_worker (daemon : Daemon) (lastFinished : Option JobOutcomeSummary)
    (written : SaveResult) : (daemon.publishSaved lastFinished written).worker = daemon.worker := by
  cases written <;> rfl

@[simp] theorem saveAtomic_registry (daemon : Daemon) (written : SaveResult) :
    (daemon.saveAtomic written).registry = daemon.registry := by cases written <;> rfl

@[simp] theorem publishSaved_registry (daemon : Daemon) (lastFinished : Option JobOutcomeSummary)
    (written : SaveResult) :
    (daemon.publishSaved lastFinished written).registry = daemon.registry := by
  cases written <;> rfl

@[simp] theorem publishSaved_queue (daemon : Daemon) (lastFinished : Option JobOutcomeSummary)
    (written : SaveResult) : (daemon.publishSaved lastFinished written).queue = daemon.queue := by
  cases written <;> rfl

theorem recordOutcome_jobs (daemon : Daemon) (job : QueueJob) (result : RunResult)
    (now : Timestamp) (written : SaveResult) :
    (daemon.recordOutcome job result now written).queue.jobs =
      (applyOutcome daemon.queue job.id result.outcome now).jobs := by
  rw [← recordedQueue_jobs]
  cases written with
  | ok => rfl
  | failed error =>
    simp only [Daemon.recordOutcome]
    split <;> rfl

@[simp] theorem recordOutcome_worker (daemon : Daemon) (job : QueueJob) (result : RunResult)
    (now : Timestamp) (written : SaveResult) :
    (daemon.recordOutcome job result now written).worker = .idle := by
  cases written with
  | ok => rfl
  | failed error =>
    simp only [Daemon.recordOutcome]
    split <;> rfl

@[simp] theorem recordOutcome_registry (daemon : Daemon) (job : QueueJob) (result : RunResult)
    (now : Timestamp) (written : SaveResult) :
    (daemon.recordOutcome job result now written).registry = daemon.registry := by
  cases written with
  | ok => rfl
  | failed error =>
    simp only [Daemon.recordOutcome]
    split <;> rfl

/-- **What any step does to the rows.** -/
theorem transition_rows {daemon after : Daemon} {event : Event} {effect : Effect}
    (steps : Transition daemon event effect after) :
    TableStep daemon event effect after.queue.jobs := by
  cases steps with
  | refused event error isRequest => exact .untouched daemon _ _
  | wrote request receipt mutated fresh mutates =>
    have rows := mutate_rows fresh mutates
    exact rows
  | stored | replied | mounted | unmounted | polled | pulledNothing => exact .untouched daemon _ _
  | recovered written starting =>
    simp only [Daemon.recover, publishSaved_queue, saveAtomic_jobs, crashRecoveryReset]
    refine .inPlace (List.forall₂_map_right_iff.mpr (List.forall₂_same.mpr fun job _ => ?_))
    split
    · rename_i running
      exact .requeued written job starting running
    · exact .kept _ _ job
  | pulled now written job index armed unpaused next found pending pulls =>
    simp only [publishSaved_queue, saveAtomic_jobs]
    refine .inPlace (Rows.forall₂_modify (fun row => .kept _ _ row) _ _ _ fun row present => ?_)
    obtain rfl : job = row := Option.some.inj (found.symm.trans present)
    exact .started now written job pending
  | recorded job result now written executing =>
    rw [recordOutcome_jobs]
    exact .inPlace (applyOutcome_rows daemon job result now written executing)

/-! ### The two readings -/

/-- The ids of the rows are pairwise distinct. -/
def DistinctIds (daemon : Daemon) : Prop := (daemon.queue.jobs.map QueueJob.id).Nodup

instance (daemon : Daemon) : Decidable (DistinctIds daemon) :=
  inferInstanceAs (Decidable (List.Nodup _))

theorem RowsStep.ids {daemon : Daemon} {event : Event} {effect : Effect}
    {kept added : List QueueJob} (rows : RowsStep daemon event effect kept added) :
    kept.map QueueJob.id = daemon.queue.jobs.map QueueJob.id := by
  exact Rows.map_forall₂ (fun _ _ moved => moved.submission.1) rows.moved

/-- Distinct ids stay distinct. -/
theorem transition_distinctIds {daemon after : Daemon} {event : Event} {effect : Effect}
    (distinct : DistinctIds daemon) (steps : Transition daemon event effect after) :
    DistinctIds after := by
  obtain ⟨kept, added, rows, step⟩ := transition_rows steps
  unfold DistinctIds
  rw [rows, List.map_append, step.ids]
  refine List.nodup_append'.mpr ⟨distinct, step.distinct, ?_⟩
  intro id present member
  obtain ⟨row, isAdded, rfl⟩ := List.mem_map.mp member
  exact step.fresh row isAdded present

/-- **Forwards**: a row is still there after the step, moved by it. -/
theorem row_follows {daemon after : Daemon} {event : Event} {effect : Effect}
    (steps : Transition daemon event effect after) {id : String} {job : QueueJob}
    (found : daemon.row id = some job) :
    ∃ next, after.row id = some next ∧ RowStep daemon event effect job next := by
  obtain ⟨kept, added, rows, step⟩ := transition_rows steps
  unfold Daemon.row
  rw [rows]
  exact Rows.lookup_forall₂ (fun _ _ moved => moved.submission.1) step.moved added found

/-- **Backwards**: a row after the step was there before it, or was just submitted against a served
library. -/
theorem rows_origin {daemon after : Daemon} {event : Event} {effect : Effect}
    (steps : Transition daemon event effect after) {next : QueueJob}
    (member : next ∈ after.queue.jobs) :
    (∃ job ∈ daemon.queue.jobs, RowStep daemon event effect job next) ∨
      next.state = .pending ∧ next.library ∈ daemon.registry.mounted := by
  obtain ⟨kept, added, rows, step⟩ := transition_rows steps
  rw [rows] at member
  rcases List.mem_append.mp member with member | member
  · obtain ⟨position, inside, rfl⟩ := List.mem_iff_getElem.mp member
    have length := step.moved.length_eq
    exact Or.inl ⟨_, List.getElem_mem (by omega), step.moved.get (by omega) inside⟩
  · exact Or.inr ⟨step.pending next member, step.served next member⟩

/-- **The worker's phase**: it starts executing at a pull and stops at the outcome, and no other
step touches it while it executes. -/
theorem executing_cases {daemon after : Daemon} {event : Event} {effect : Effect} {job : QueueJob}
    (steps : Transition daemon event effect after) (executing : after.worker = .executing job) :
    (daemon.worker = .executing job ∧ ∀ id outcome, effect ≠ .recorded id outcome) ∨
      effect = .pulled job := by
  cases steps with
  | refused | wrote | stored | replied | mounted | unmounted =>
    exact Or.inl ⟨executing, by simp⟩
  | recovered written starting => simp [Daemon.recover] at executing
  | polled idle =>
    simp only [Daemon.poll] at executing
    split at executing <;> cases executing
  | pulledNothing now written armed pulls => cases executing
  | pulled now written started index armed unpaused next found pending pulls =>
    simp only [publishSaved_worker, saveAtomic_worker, Worker.executing.injEq] at executing
    exact Or.inr (by rw [executing])
  | recorded executed result now written running => simp at executing

/-- An outcome is recorded for the job the worker is executing, and the worker goes idle. -/
theorem recorded_executing {daemon after : Daemon} {event : Event} {id : String}
    {outcome : JobOutcome} (steps : Transition daemon event (.recorded id outcome) after) :
    ∃ job, daemon.worker = .executing job ∧ job.id = id := by
  cases steps with
  | recorded job result now written executing => exact ⟨job, executing, rfl⟩

/-- While no outcome is recorded, the worker stays on the job it executes. -/
theorem executing_kept {daemon after : Daemon} {event : Event} {effect : Effect} {job : QueueJob}
    (steps : Transition daemon event effect after) (executing : daemon.worker = .executing job)
    (notRecorded : ∀ id outcome, effect ≠ .recorded id outcome) : after.worker = .executing job := by
  cases steps with
  | refused | wrote | stored | replied | mounted | unmounted => exact executing
  | recovered written phase => simp [executing] at phase
  | polled phase => simp [executing] at phase
  | pulledNothing now written phase => simp [executing] at phase
  | pulled now written started index phase => simp [executing] at phase
  | recorded executed result now written => exact absurd rfl (notRecorded _ _)

/-- A pull leaves the worker on the pulled job and that job's row running. -/
theorem pulled_row {daemon after : Daemon} {event : Event} {job : QueueJob}
    (distinct : DistinctIds daemon) (steps : Transition daemon event (.pulled job) after) :
    after.worker = .executing job ∧ after.row job.id = some job ∧ job.state = .running := by
  cases steps with
  | pulled now written pulled index armed unpaused next found pending pulls =>
    refine ⟨by simp, ?_, rfl⟩
    unfold Daemon.row
    rw [publishSaved_queue, saveAtomic_jobs]
    exact Rows.lookup_modified distinct found rfl

/-- A cancel leaves the row it reported cancelled. -/
theorem cancelled_row {daemon after : Daemon} {event : Event} {id : String}
    (distinct : DistinctIds daemon)
    (steps : Transition daemon event (.wrote (.cancelled id)) after) :
    after.stateOf id = some .cancelled := by
  cases steps with
  | wrote request receipt mutated fresh mutates =>
    cases request with
    | ingestCancel jobId now =>
      obtain ⟨reported, same, cancels⟩ := mutate_ingestCancel mutates
      cases same
      obtain ⟨index, job, found, -, rfl, -, rfl⟩ := cancelMatching_ok cancels
      have cancelled : Rows.lookup QueueJob.id job.id
          (daemon.queue.jobs.modify index (cancelJob now)) = some (cancelJob now job) :=
        Rows.lookup_modified distinct found rfl
      show Option.map QueueJob.state (Rows.lookup QueueJob.id job.id
        (daemon.queue.jobs.modify index (cancelJob now))) = some .cancelled
      rw [cancelled]
      rfl
    | ingestSubmit | gleanSubmit | intakeOcr => cases (checkLibrary_ok mutates).2
    | queueClear | queuePause | queueResume => cases mutates
    | queueRetry state jobId =>
      obtain ⟨selector, outcome, same, -⟩ := mutate_queueRetry mutates
      cases same

theorem row_id {daemon : Daemon} {id : String} {job : QueueJob} (found : daemon.row id = some job) :
    job.id = id := (Rows.lookup_key found).2

theorem stateOf_some {daemon : Daemon} {id : String} {state : JobState} :
    daemon.stateOf id = some state ↔ ∃ job, daemon.row id = some job ∧ job.state = state := by
  unfold Daemon.stateOf
  exact Option.map_eq_some_iff

/-! ### A daemon for the concrete runs -/

/-- A pending row against library `beta`. -/
def betaJob : QueueJob :=
  submittedJob { id := "job-1", now := 0 } "a.epub"
    { library := "beta", kind := .book, priority := .normal, force := false,
      holdForMetadata := false, bookAuditProfile := none } none

/-- A registry serving `main` and `beta`. -/
def twoLibraries : LibraryRegistry := .serving {"main", "beta"} none

/-- The daemon of `main` with that one row, its worker about to pull. -/
def oneJobDaemon : Daemon :=
  { Daemon.boot { QueueState.empty with jobs := [betaJob] } twoLibraries "main" with
    worker := .armed }

end Bookrack.Runtime
