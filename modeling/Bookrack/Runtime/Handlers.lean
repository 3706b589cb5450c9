/-
The control-plane handlers that write the queue or the mounted set (`control/methods/`): what each
does under the queue mutex, and the unlocked steps it owes afterwards.

* `Request.run` — the locked section of one queue-writing handler.
* `run_cases` — all of them have one shape: refused with the daemon untouched, or the mutated
  document saved and the rest of the handler queued behind the calls already in flight.
-/

import Bookrack.Runtime.State

namespace Bookrack.Runtime

open Queue Registry

/-! ### The locked sections of the queue writers -/

/-- The library check of `enqueue_against`. -/
def checkLibrary {T : Type} (registry : LibraryRegistry) (library : String) (enqueued : T) :
    Except RpcError T :=
  match registry.get (some library) with
  | .error error => .error (registryErr error)
  | .ok _ => .ok enqueued

/-- `enqueue_against`: the library is looked up under the queue lock before `enqueue` runs. -/
def Daemon.enqueueAgainst {T : Type} (daemon : Daemon) (library : String)
    (enqueue : QueueState → T × QueueState) (written : SaveResult) :
    Except RpcError (T × QueueTick) × Daemon :=
  daemon.mutateJobsAndPersist
    (fun queue => checkLibrary daemon.registry library (enqueue queue)) written

/-- The locked section of `ingest.submit`. -/
def Daemon.ingestSubmit (daemon : Daemon) (paths : List (String × Mint)) (library : String)
    (priority : Priority) (force holdForMetadata : Bool) (auditProfile : Option String)
    (written : SaveResult) : Except RpcError (List String × QueueTick) × Daemon :=
  daemon.enqueueAgainst library
    (fun queue => enqueueFiles queue paths
      { library := library, kind := .book, priority := priority, force := force,
        holdForMetadata := holdForMetadata, bookAuditProfile := auditProfile })
    written

/-- The locked section of `glean.submit`. -/
def Daemon.gleanSubmit (daemon : Daemon) (paths : List (String × Mint)) (library : String)
    (priority : Priority) (force : Bool) (written : SaveResult) :
    Except RpcError (List String × QueueTick) × Daemon :=
  daemon.enqueueAgainst library
    (fun queue => enqueueFiles queue paths
      { library := library, kind := .paper, priority := priority, force := force,
        holdForMetadata := false, bookAuditProfile := none })
    written

/-- The locked section of `intake.ocr`. -/
def Daemon.intakeOcr (daemon : Daemon) (ocrMd : String) (info : IntakeOcrInfo) (mint : Mint)
    (library : String) (priority : Priority) (force holdForMetadata : Bool)
    (auditProfile : Option String) (written : SaveResult) :
    Except RpcError (String × QueueTick) × Daemon :=
  daemon.enqueueAgainst library
    (fun queue => enqueueOcrIntake queue ocrMd info mint
      { library := library, kind := .book, priority := priority, force := force,
        holdForMetadata := holdForMetadata, bookAuditProfile := auditProfile })
    written

/-- `ingest.cancel`'s mutation. -/
def cancelMutation (jobId : String) (now : Timestamp) (queue : QueueState) :
    Except RpcError (String × QueueState) :=
  match cancelMatching queue jobId now with
  | .ok cancelled => .ok cancelled
  | .error text => .error (RpcError.new jobNotFound ("ingest.cancel: " ++ text))

/-- The locked section of `ingest.cancel`. -/
def Daemon.ingestCancel (daemon : Daemon) (jobId : String) (now : Timestamp)
    (written : SaveResult) : Except RpcError (String × QueueTick) × Daemon :=
  daemon.mutateJobsAndPersist (cancelMutation jobId now) written

/-- The locked section of `queue.clear`. It carries its own copy of the roll-back. -/
def Daemon.queueClear (daemon : Daemon) (now : Timestamp) (written : SaveResult) :
    Except RpcError (Nat × QueueTick) × Daemon :=
  let (cleared, mutated) := cancelAllPending daemon.queue now
  let saved := { daemon with queue := mutated }.saveAtomic written
  match written with
  | .failed error =>
    (.error (persistError error),
      { saved with queue := { saved.queue with jobs := daemon.queue.jobs } })
  | .ok => (.ok (cleared, deriveTick saved.queue none), saved)

/-- Exactly one of the two selectors of `queue.retry`. -/
def retrySelector : Option JobState → Option String → Except RpcError RetrySelector
  | some state, none => .ok (.state state)
  | none, some jobId => .ok (.idFragment jobId)
  | _, _ =>
    .error (RpcError.new invalidParams "queue.retry takes exactly one of `state` or `job_id`")

/-- `unmounted_retry`: `cause` is what the registry said of the library. -/
def unmountedRetry (id library : String) (cause : Option RegistryError) : Problem :=
  let next := "`bookrack libraries mount " ++ library ++ "`, then `bookrack queue retry --job "
    ++ id ++ "`."
  let problem := Problem.new ("cannot retry job " ++ debugText id ++ ": library "
    ++ debugText library ++ " is not mounted")
  match cause with
  | some (.libraryUnmounted _ reason) =>
    (problem.detail (skipDetail reason)).hint
      (match reason.data.hint with
      | some hint =>
        hint ++ " Once it is mounted, run `bookrack queue retry --job " ++ id ++ "`."
      | none => "Run " ++ next)
  | some (.libraryUnknown _ available) =>
    let mounted := if available = [] then "none" else String.intercalate ", " available
    (problem.detail ("Mounted libraries: " ++ mounted ++ ".")).hint ("Run " ++ next)
  | _ => problem.hint ("Run " ++ next)

/-- The registry's refusal of a name, when it refuses it. -/
def lookupFault (registry : LibraryRegistry) (library : String) : Option RegistryError :=
  match registry.get (some library) with
  | .ok _ => none
  | .error error => some error

/-- The envelope of a refused retry. -/
def retryErr (registry : LibraryRegistry) (refusal : RetryRefusal) : RpcError :=
  match refusal with
  | .libraryNotMounted id library =>
    rpcFromProblem invalidLibrary (unmountedRetry id library (lookupFault registry library))
  | .noMatch _ | .ambiguous .. => RpcError.new jobNotFound ("queue.retry: " ++ refusal.text)
  | .stateNotRetryable _ | .emptyFragment | .notRetryable .. =>
    RpcError.new invalidParams ("queue.retry: " ++ refusal.text)

/-- `queue.retry`'s mutation: each selected row's library is looked up under the queue lock. -/
def retryMutation (registry : LibraryRegistry) (selector : RetrySelector) (queue : QueueState) :
    Except RpcError (RetryOutcome × QueueState) :=
  match retryTerminal queue selector fun library => (lookupFault registry library).isNone with
  | .ok retried => .ok retried
  | .error refusal => .error (retryErr registry refusal)

/-- The locked section of `queue.retry`. -/
def Daemon.queueRetry (daemon : Daemon) (state : Option JobState) (jobId : Option String)
    (written : SaveResult) : Except RpcError (RetryOutcome × QueueTick) × Daemon :=
  match retrySelector state jobId with
  | .error error => (.error error, daemon)
  | .ok selector => daemon.mutateJobsAndPersist (retryMutation daemon.registry selector) written

/-- The locked section of `apply_pause`; a failed save puts the previous flag back. -/
def Daemon.applyPause (daemon : Daemon) (paused : Bool) (written : SaveResult) :
    Except RpcError QueueTick × Daemon :=
  let prev := daemon.queue.paused
  let saved := { daemon with queue := { daemon.queue with paused := paused } }.saveAtomic written
  match written with
  | .failed error =>
    (.error (persistError error), { saved with queue := { saved.queue with paused := prev } })
  | .ok => (.ok (deriveTick saved.queue none), saved)

/-! ### The requests -/

/-- A call of a queue-writing handler, with what it draws from the clock and the id mint. -/
inductive Request
  | ingestSubmit (paths : List (String × Mint)) (library : String) (priority : Priority)
      (force holdForMetadata : Bool) (auditProfile : Option String)
  | gleanSubmit (paths : List (String × Mint)) (library : String) (priority : Priority)
      (force : Bool)
  | intakeOcr (ocrMd : String) (info : IntakeOcrInfo) (mint : Mint) (library : String)
      (priority : Priority) (force holdForMetadata : Bool) (auditProfile : Option String)
  | ingestCancel (jobId : String) (now : Timestamp)
  | queueClear (now : Timestamp)
  | queueRetry (state : Option JobState) (jobId : Option String)
  | queuePause
  | queueResume
  deriving DecidableEq, Repr

/-- The ids a request mints. -/
def Request.minted : Request → List String
  | .ingestSubmit paths .. | .gleanSubmit paths .. => paths.map fun entry => entry.2.id
  | .intakeOcr _ _ mint .. => [mint.id]
  | _ => []

/-- The store of the pause flag a request still owes after its locked section. -/
def Request.store : Request → Option Bool
  | .queuePause => some true
  | .queueResume => some false
  | _ => none

/-- What a step shows to the outside. -/
inductive Effect
  | quiet
  | refused (error : RpcError)
  | wrote (receipt : Receipt)
  | stored (value : Bool)
  | replied (reply : Reply)
  | pulled (job : QueueJob)
  | recorded (id : String) (outcome : JobOutcome)
  | mounted (name : String)
  | unmounted (name : String)
  deriving DecidableEq, Repr

/-- The rest of a handler after its locked section: its refusal, or the call left in flight. -/
def answer {T : Type} (receipt : T → Receipt) (store : Option Bool)
    (result : Except RpcError (T × QueueTick) × Daemon) : Effect × Daemon :=
  match result with
  | (.error error, daemon) => (.refused error, daemon)
  | (.ok (out, tick), daemon) =>
    (.wrote (receipt out),
      { daemon with
        calls := daemon.calls ++ [{ receipt := receipt out, tick := tick, store := store }] })

/-- `set_paused` past its locked section: the store comes before the tick. -/
def answerPause (paused : Bool) (result : Except RpcError QueueTick × Daemon) : Effect × Daemon :=
  match result with
  | (.error error, daemon) => (.refused error, daemon)
  | (.ok tick, daemon) =>
    (.wrote (.paused paused),
      { daemon with
        calls := daemon.calls ++ [{ receipt := .paused paused, tick := tick,
                                    store := some paused }] })

/-- The locked section of one queue-writing handler. -/
def Request.run (daemon : Daemon) (written : SaveResult) : Request → Effect × Daemon
  | .ingestSubmit paths library priority force hold profile =>
    answer .submitted none
      (daemon.ingestSubmit paths library priority force hold profile written)
  | .gleanSubmit paths library priority force =>
    answer .submitted none (daemon.gleanSubmit paths library priority force written)
  | .intakeOcr ocrMd info mint library priority force hold profile =>
    answer .ocrSubmitted none
      (daemon.intakeOcr ocrMd info mint library priority force hold profile written)
  | .ingestCancel jobId now => answer .cancelled none (daemon.ingestCancel jobId now written)
  | .queueClear now => answer .cleared none (daemon.queueClear now written)
  | .queueRetry state jobId => answer .retried none (daemon.queueRetry state jobId written)
  | .queuePause => answerPause true (daemon.applyPause true written)
  | .queueResume => answerPause false (daemon.applyPause false written)

/-! ### One shape for all of them -/

/-- What a request does to the document before it is saved. -/
def Request.mutate (registry : LibraryRegistry) (queue : QueueState) :
    Request → Except RpcError (Receipt × QueueState)
  | .ingestSubmit paths library priority force hold profile =>
    checkLibrary registry library <|
      (enqueueFiles queue paths
        { library := library, kind := .book, priority := priority, force := force,
          holdForMetadata := hold, bookAuditProfile := profile }).map .submitted id
  | .gleanSubmit paths library priority force =>
    checkLibrary registry library <|
      (enqueueFiles queue paths
        { library := library, kind := .paper, priority := priority, force := force,
          holdForMetadata := false, bookAuditProfile := none }).map .submitted id
  | .intakeOcr ocrMd info mint library priority force hold profile =>
    checkLibrary registry library <|
      (enqueueOcrIntake queue ocrMd info mint
        { library := library, kind := .book, priority := priority, force := force,
          holdForMetadata := hold, bookAuditProfile := profile }).map .ocrSubmitted id
  | .ingestCancel jobId now =>
    (cancelMutation jobId now queue).map fun cancelled => cancelled.map .cancelled id
  | .queueClear now => .ok ((cancelAllPending queue now).map .cleared id)
  | .queueRetry state jobId =>
    match retrySelector state jobId with
    | .error error => .error error
    | .ok selector =>
      (retryMutation registry selector queue).map fun retried => retried.map .retried id
  | .queuePause => .ok (.paused true, { queue with paused := true })
  | .queueResume => .ok (.paused false, { queue with paused := false })

/-- A handler is refused and leaves the daemon as it was, or commits its mutation: the document is
saved, and the handler's store and tick are queued behind those of the handlers before it. -/
def RefusedOrCommitted (daemon : Daemon) (mutation : Except RpcError (Receipt × QueueState))
    (store : Option Bool) (written : SaveResult) (result : Effect × Daemon) : Prop :=
  (∃ error, result = (.refused error, daemon)) ∨
    ∃ receipt mutated, mutation = .ok (receipt, mutated) ∧ written = .ok ∧
      result = (.wrote receipt, daemon.commit receipt store mutated)

theorem answer_mutate_cases {T : Type} (daemon : Daemon) (receipt : T → Receipt)
    (mutate : QueueState → Except RpcError (T × QueueState)) (written : SaveResult)
    (onlyJobs : ∀ out mutated, mutate daemon.queue = .ok (out, mutated) →
      OnlyJobs daemon.queue mutated) :
    RefusedOrCommitted daemon ((mutate daemon.queue).map fun result => result.map receipt id) none
      written (answer receipt none (daemon.mutateJobsAndPersist mutate written)) := by
  cases mutates : mutate daemon.queue with
  | error error =>
    refine Or.inl ⟨error, ?_⟩
    rw [mutateJobsAndPersist_refused mutates]
    rfl
  | ok result =>
    obtain ⟨out, mutated⟩ := result
    cases written with
    | failed error =>
      refine Or.inl ⟨persistError error, ?_⟩
      rw [mutateJobsAndPersist_failed mutates (onlyJobs out mutated mutates)]
      rfl
    | ok =>
      refine Or.inr ⟨receipt out, mutated, rfl, rfl, ?_⟩
      rw [mutateJobsAndPersist_ok mutates]
      rfl

theorem checkLibrary_map {T U : Type} (registry : LibraryRegistry) (library : String)
    (enqueued : T) (convert : T → U) :
    (checkLibrary registry library enqueued).map convert =
      checkLibrary registry library (convert enqueued) := by
  unfold checkLibrary
  cases registry.get (some library) <;> rfl

theorem checkLibrary_ok {T : Type} {registry : LibraryRegistry} {library : String}
    {enqueued result : T} (ok : checkLibrary registry library enqueued = .ok result) :
    library ∈ registry.mounted ∧ enqueued = result := by
  unfold checkLibrary at ok
  cases found : registry.get (some library) with
  | error error => simp [found] at ok
  | ok handle =>
    rw [found] at ok
    exact ⟨(get_ok found).2, Except.ok.inj ok⟩

theorem answer_enqueue_cases {T : Type} (daemon : Daemon) (receipt : T → Receipt)
    (library : String) (enqueue : QueueState → T × QueueState) (written : SaveResult)
    (onlyJobs : OnlyJobs daemon.queue (enqueue daemon.queue).2) :
    RefusedOrCommitted daemon
      (checkLibrary daemon.registry library ((enqueue daemon.queue).map receipt id)) none written
      (answer receipt none (daemon.enqueueAgainst library enqueue written)) := by
  rw [← checkLibrary_map _ _ _ fun result : T × QueueState => result.map receipt id]
  refine answer_mutate_cases daemon receipt
    (fun queue => checkLibrary daemon.registry library (enqueue queue)) written ?_
  intro out mutated mutates
  have same := (checkLibrary_ok mutates).2
  rw [same] at onlyJobs
  exact onlyJobs

theorem cancelMatching_onlyJobs {jobId id : String} {now : Timestamp} {queue mutated : QueueState}
    (cancelled : cancelMatching queue jobId now = .ok (id, mutated)) : OnlyJobs queue mutated := by
  obtain ⟨index, job, -, -, -, -, rfl⟩ := cancelMatching_ok cancelled
  rfl

theorem cancelMutation_ok {jobId id : String} {now : Timestamp} {queue mutated : QueueState}
    (mutates : cancelMutation jobId now queue = .ok (id, mutated)) :
    cancelMatching queue jobId now = .ok (id, mutated) := by
  unfold cancelMutation at mutates
  split at mutates
  · rename_i cancelled found
    cases mutates
    exact found
  · cases mutates

theorem retryTerminal_onlyJobs {queue mutated : QueueState} {selector : RetrySelector}
    {mounted : String → Bool} {outcome : RetryOutcome}
    (retried : retryTerminal queue selector mounted = .ok (outcome, mutated)) :
    OnlyJobs queue mutated := by
  obtain ⟨jobs, rfl, -⟩ := retryTerminal_ok retried
  rfl

theorem retryMutation_ok {registry : LibraryRegistry} {selector : RetrySelector}
    {outcome : RetryOutcome} {queue mutated : QueueState}
    (mutates : retryMutation registry selector queue = .ok (outcome, mutated)) :
    retryTerminal queue selector (fun library => (lookupFault registry library).isNone) =
      .ok (outcome, mutated) := by
  unfold retryMutation at mutates
  split at mutates
  · rename_i retried found
    cases mutates
    exact found
  · cases mutates

/-- A cancel's mutation, inverted. -/
theorem mutate_ingestCancel {registry : LibraryRegistry} {queue mutated : QueueState}
    {jobId : String} {now : Timestamp} {receipt : Receipt}
    (mutates : (Request.ingestCancel jobId now).mutate registry queue = .ok (receipt, mutated)) :
    ∃ id, receipt = .cancelled id ∧ cancelMatching queue jobId now = .ok (id, mutated) := by
  cases cancels : cancelMutation jobId now queue with
  | error error => simp [Request.mutate, cancels, Except.map] at mutates
  | ok cancelled =>
    obtain ⟨id, after⟩ := cancelled
    simp only [Request.mutate, cancels, Except.map] at mutates
    cases mutates
    exact ⟨id, rfl, cancelMutation_ok cancels⟩

/-- A retry's mutation, inverted. -/
theorem mutate_queueRetry {registry : LibraryRegistry} {queue mutated : QueueState}
    {state : Option JobState} {jobId : Option String} {receipt : Receipt}
    (mutates : (Request.queueRetry state jobId).mutate registry queue = .ok (receipt, mutated)) :
    ∃ selector outcome, receipt = .retried outcome ∧
      retryTerminal queue selector (fun library => (lookupFault registry library).isNone) =
        .ok (outcome, mutated) := by
  cases selected : retrySelector state jobId with
  | error error => simp [Request.mutate, selected] at mutates
  | ok selector =>
    cases retries : retryMutation registry selector queue with
    | error error => simp [Request.mutate, selected, retries, Except.map] at mutates
    | ok retried =>
      obtain ⟨outcome, after⟩ := retried
      simp only [Request.mutate, selected, retries, Except.map] at mutates
      cases mutates
      exact ⟨selector, outcome, rfl, retryMutation_ok retries⟩

theorem applyPause_cases (daemon : Daemon) (paused : Bool) (written : SaveResult) :
    RefusedOrCommitted daemon (.ok (.paused paused, { daemon.queue with paused := paused }))
      (some paused) written (answerPause paused (daemon.applyPause paused written)) := by
  cases written with
  | failed error => exact Or.inl ⟨persistError error, rfl⟩
  | ok => exact Or.inr ⟨_, _, rfl, rfl, rfl⟩

/-- **Every handler refuses and changes nothing, or commits its mutation.** -/
theorem run_cases (daemon : Daemon) (written : SaveResult) (request : Request) :
    RefusedOrCommitted daemon (request.mutate daemon.registry daemon.queue) request.store written
      (request.run daemon written) := by
  cases request with
  | ingestSubmit paths library priority force hold profile =>
    exact answer_enqueue_cases daemon _ _ _ written rfl
  | gleanSubmit paths library priority force =>
    exact answer_enqueue_cases daemon _ _ _ written rfl
  | intakeOcr ocrMd info mint library priority force hold profile =>
    exact answer_enqueue_cases daemon _ _ _ written rfl
  | ingestCancel jobId now =>
    exact answer_mutate_cases daemon _ _ written fun _ _ mutates =>
      cancelMatching_onlyJobs (cancelMutation_ok mutates)
  | queueClear now =>
    cases written with
    | failed error => exact Or.inl ⟨persistError error, rfl⟩
    | ok => exact Or.inr ⟨_, _, rfl, rfl, rfl⟩
  | queueRetry state jobId =>
    cases selected : retrySelector state jobId with
    | error error =>
      refine Or.inl ⟨error, ?_⟩
      simp only [Request.run, Daemon.queueRetry, selected]
      rfl
    | ok selector =>
      simp only [Request.mutate, Request.run, Daemon.queueRetry, selected]
      exact answer_mutate_cases daemon _ _ written fun _ _ mutates =>
        retryTerminal_onlyJobs (retryMutation_ok mutates)
  | queuePause => exact applyPause_cases daemon true written
  | queueResume => exact applyPause_cases daemon false written

end Bookrack.Runtime
