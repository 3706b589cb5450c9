/-
The queue-writing handlers in place: the order in which each touches the locked document, and what
it puts back (`control/methods/queue_writes.rs`, `save_atomic` in `queue.rs`).

A mutation works on the locked document, so one that is refused half-way leaves the rows it had
already changed; the registry answers every lookup of a retry anew and may fail on any of them.

* `Mutation.TouchesJobs`: whatever a mutation returns, it leaves every field but `jobs`.
* **`failed_untouched`**: a handler that answers an error leaves the document in memory and on disk,
  the pause flag and the ticks as they were.
* **`locked_refines`**: with a registry whose lookups never fail, the locked sections are those of
  `Request.run`.
-/

import Bookrack.Runtime.Handlers

namespace Bookrack.Runtime

open Queue Registry

/-! ### The registry under a lookup -/

/-- What one `registry.get` answers: the library is served, it is not, or the registry failed. -/
inductive Lookup
  | served
  | absent (cause : RegistryError)
  | fault (error : RpcError)
  deriving DecidableEq, Repr

/-- `get(Some(library))?` under `map_err(registry_err)`. -/
def Lookup.check : Lookup → Except RpcError Unit
  | .served => .ok ()
  | .absent cause => .error (registryErr cause)
  | .fault error => .error error

/-- The lookup of a registry whose locks are sound. -/
def LibraryRegistry.lookup (registry : LibraryRegistry) (library : String) : Lookup :=
  match lookupFault registry library with
  | none => .served
  | some cause => .absent cause

/-! ### What the handlers share -/

/-- The document in memory and on disk, the worker's pause flag, whether the failure pause stands,
and the ticks published. -/
structure Desk where
  queue : QueueState
  disk : QueueState
  queuePaused : Bool
  failurePause : Bool
  ticks : List QueueTick
  deriving DecidableEq, Repr

/-- A mutation of the locked document: what it returns, and the document as it leaves it. -/
abbrev Mutation (T : Type) := QueueState → Except RpcError T × QueueState

/-- `save_atomic`: the relabel, the write, and the relabel undone when the write failed. -/
def Desk.saveAtomic (desk : Desk) (written : SaveResult) : Desk :=
  let loaded := desk.queue.schemaVersion
  let queue := { desk.queue with schemaVersion := queueSchemaVersion }
  match written with
  | .ok => { desk with queue := queue, disk := queue }
  | .failed _ => { desk with queue := { queue with schemaVersion := loaded } }

/-- `mutate_jobs_and_persist`. -/
def Desk.mutateJobsAndPersist {T : Type} (desk : Desk) (mutate : Mutation T)
    (written : SaveResult) : Except RpcError (T × QueueTick) × Desk :=
  let prevJobs := desk.queue.jobs
  match mutate desk.queue with
  | (.error error, left) => (.error error, { desk with queue := { left with jobs := prevJobs } })
  | (.ok out, mutated) =>
    let saved := { desk with queue := mutated }.saveAtomic written
    match written with
    | .failed error =>
      (.error (persistError error), { saved with queue := { saved.queue with jobs := prevJobs } })
    | .ok => (.ok (out, deriveTick saved.queue none), saved)

/-! ### The mutations -/

/-- The closure of `enqueue_against`. -/
def enqueueMutation {T : Type} (lookup : Lookup) (enqueue : QueueState → T × QueueState) :
    Mutation T := fun queue =>
  match lookup.check with
  | .error error => (.error error, queue)
  | .ok () => ((enqueue queue).map .ok id)

/-- The closure of `ingest.cancel`. -/
def cancelInPlace (jobId : String) (now : Timestamp) : Mutation String := fun queue =>
  match cancelMutation jobId now queue with
  | .ok (id, mutated) => (.ok id, mutated)
  | .error error => (.error error, queue)

/-- What the closure of `queue.retry` remembers over its lookups: how many it made, the last library
found absent, and the first failure. -/
structure Asked where
  count : Nat
  notMounted : Option RegistryError
  fault : Option RpcError
  deriving DecidableEq, Repr

/-- No lookup yet. -/
def Asked.nothing : Asked := ⟨0, none, none⟩

/-- One call of the closure `retry_terminal` is handed. -/
def Asked.mounted (asked : Asked) : Lookup → Bool × Asked
  | .served => (true, { asked with count := asked.count + 1 })
  | .absent cause => (false, { asked with count := asked.count + 1, notMounted := some cause })
  | .fault error =>
    (false, { asked with count := asked.count + 1, fault := asked.fault.or (some error) })

/-- The loop of a state selection: each selected row is flipped or held as the lookup says. -/
def retryRows (wanted : JobState) (lookups : Nat → String → Lookup) :
    Asked → List QueueJob → Asked × RetryOutcome × List QueueJob
  | asked, [] => (asked, ⟨[], []⟩, [])
  | asked, job :: rest =>
    if job.state = wanted then
      let (isMounted, asked) := asked.mounted (lookups asked.count job.library)
      let (asked, outcome, rows) := retryRows wanted lookups asked rest
      if isMounted then
        (asked, { outcome with retried := job.id :: outcome.retried }, resetForRetry job :: rows)
      else (asked, { outcome with held := ⟨job.id, job.library⟩ :: outcome.held }, job :: rows)
    else
      let (asked, outcome, rows) := retryRows wanted lookups asked rest
      (asked, outcome, job :: rows)

/-- `retry_terminal` with the lookups its closure makes. -/
def retryTerminalInPlace (selector : RetrySelector) (lookups : Nat → String → Lookup)
    (queue : QueueState) : Asked × Except RetryRefusal RetryOutcome × QueueState :=
  match selector with
  | .state wanted =>
    if wanted.isRetryable then
      let (asked, outcome, rows) := retryRows wanted lookups .nothing queue.jobs
      (asked, .ok outcome, { queue with jobs := rows })
    else (.nothing, .error (.stateNotRetryable wanted), queue)
  | .idFragment fragment =>
    match matchIdFragment queue.jobs fragment fun _ => true with
    | .ok index =>
      match queue.jobs[index]? with
      | some job =>
        if job.state.isRetryable then
          let (isMounted, asked) := Asked.nothing.mounted (lookups 0 job.library)
          if isMounted then
            (asked, .ok ⟨[job.id], []⟩,
              { queue with jobs := queue.jobs.modify index resetForRetry })
          else (asked, .error (.libraryNotMounted job.id job.library), queue)
        else (.nothing, .error (.notRetryable job.id job.state.asWireStr), queue)
      -- The matcher's index is in range (`matchIdFragment_ok`).
      | none => (.nothing, .error .emptyFragment, queue)
    | .error .empty => (.nothing, .error .emptyFragment, queue)
    | .error .noMatch => (.nothing, .error (.noMatch fragment), queue)
    | .error (.ambiguous count) => (.nothing, .error (.ambiguous fragment count), queue)

/-- The envelope of a refused retry, with what the registry said of the library. -/
def retryEnvelope (cause : Option RegistryError) (refusal : RetryRefusal) : RpcError :=
  match refusal with
  | .libraryNotMounted id library =>
    rpcFromProblem invalidLibrary (unmountedRetry id library cause)
  | .noMatch _ | .ambiguous .. => RpcError.new jobNotFound ("queue.retry: " ++ refusal.text)
  | .stateNotRetryable _ | .emptyFragment | .notRetryable .. =>
    RpcError.new invalidParams ("queue.retry: " ++ refusal.text)

/-- The closure of `queue.retry`: a registry failure is answered after the rows were gone through. -/
def retryInPlace (selector : RetrySelector) (lookups : Nat → String → Lookup) :
    Mutation RetryOutcome := fun queue =>
  let (asked, outcome, mutated) := retryTerminalInPlace selector lookups queue
  match asked.fault with
  | some error => (.error error, mutated)
  | none =>
    match outcome with
    | .error refusal => (.error (retryEnvelope asked.notMounted refusal), mutated)
    | .ok outcome => (.ok outcome, mutated)

/-! ### The handlers -/

/-- The locked section of `queue.clear`. -/
def Desk.queueClear (desk : Desk) (now : Timestamp) (written : SaveResult) :
    Except RpcError (Nat × QueueTick) × Desk :=
  let prevJobs := desk.queue.jobs
  let (cleared, mutated) := cancelAllPending desk.queue now
  let saved := { desk with queue := mutated }.saveAtomic written
  match written with
  | .failed error =>
    (.error (persistError error), { saved with queue := { saved.queue with jobs := prevJobs } })
  | .ok => (.ok (cleared, deriveTick saved.queue none), saved)

/-- The locked section of `apply_pause`. -/
def Desk.applyPause (desk : Desk) (paused : Bool) (written : SaveResult) :
    Except RpcError (Bool × QueueTick) × Desk :=
  let prev := desk.queue.paused
  let saved := { desk with queue := { desk.queue with paused := paused } }.saveAtomic written
  match written with
  | .failed error =>
    (.error (persistError error), { saved with queue := { saved.queue with paused := prev } })
  | .ok => (.ok (paused, deriveTick saved.queue none), saved)

/-- A section's receipt in place of its value. -/
def asReceipt {T : Type} (receipt : T → Receipt) (result : Except RpcError (T × QueueTick) × Desk) :
    Except RpcError (Receipt × QueueTick) × Desk :=
  result.map (fun answer => answer.map fun out => out.map receipt id) id

/-- The locked section of a handler. -/
def Request.locked (desk : Desk) (lookups : Nat → String → Lookup) (written : SaveResult) :
    Request → Except RpcError (Receipt × QueueTick) × Desk
  | .ingestSubmit paths library priority force hold profile =>
    asReceipt .submitted <| desk.mutateJobsAndPersist (enqueueMutation (lookups 0 library)
      fun queue => enqueueFiles queue paths
        { library := library, kind := .book, priority := priority, force := force,
          holdForMetadata := hold, bookAuditProfile := profile }) written
  | .gleanSubmit paths library priority force =>
    asReceipt .submitted <| desk.mutateJobsAndPersist (enqueueMutation (lookups 0 library)
      fun queue => enqueueFiles queue paths
        { library := library, kind := .paper, priority := priority, force := force,
          holdForMetadata := false, bookAuditProfile := none }) written
  | .intakeOcr ocrMd info mint library priority force hold profile =>
    asReceipt .ocrSubmitted <| desk.mutateJobsAndPersist (enqueueMutation (lookups 0 library)
      fun queue => enqueueOcrIntake queue ocrMd info mint
        { library := library, kind := .book, priority := priority, force := force,
          holdForMetadata := hold, bookAuditProfile := profile }) written
  | .ingestCancel jobId now =>
    asReceipt .cancelled <| desk.mutateJobsAndPersist (cancelInPlace jobId now) written
  | .queueClear now => asReceipt .cleared <| desk.queueClear now written
  | .queueRetry state jobId =>
    match retrySelector state jobId with
    | .error error => (.error error, desk)
    | .ok selector =>
      asReceipt .retried <| desk.mutateJobsAndPersist (retryInPlace selector lookups) written
  | .queuePause => asReceipt .paused <| desk.applyPause true written
  | .queueResume => asReceipt .paused <| desk.applyPause false written

/-- What a pause or resume does between its save and its tick. -/
def Desk.storePaused (desk : Desk) : Option Bool → Desk
  | none => desk
  | some paused =>
    { desk with queuePaused := paused, failurePause := desk.failurePause && paused }

/-- A handler: the locked section, then the flag it owes, the tick and the reply. -/
def Request.handle (desk : Desk) (lookups : Nat → String → Lookup) (written : SaveResult)
    (request : Request) : Except RpcError Reply × Desk :=
  match request.locked desk lookups written with
  | (.error error, desk) => (.error error, desk)
  | (.ok (receipt, tick), desk) =>
    let desk := desk.storePaused request.store
    (.ok (receipt.reply desk.queuePaused), { desk with ticks := desk.ticks ++ [tick] })

/-! ### Mutations touch the rows only -/

/-- Whatever it returns, the mutation leaves every field of the document but its rows. -/
def Mutation.TouchesJobs {T : Type} (mutate : Mutation T) : Prop :=
  ∀ queue, OnlyJobs queue (mutate queue).2

theorem enqueueMutation_touchesJobs {T : Type} (lookup : Lookup)
    {enqueue : QueueState → T × QueueState} (onlyJobs : ∀ queue, OnlyJobs queue (enqueue queue).2) :
    Mutation.TouchesJobs (enqueueMutation lookup enqueue) := by
  intro queue
  unfold enqueueMutation
  split
  · rfl
  · exact onlyJobs queue

theorem cancelInPlace_touchesJobs (jobId : String) (now : Timestamp) :
    Mutation.TouchesJobs (cancelInPlace jobId now) := by
  intro queue
  unfold cancelInPlace
  split
  · rename_i cancels
    exact cancelMatching_onlyJobs (cancelMutation_ok cancels)
  · rfl

theorem retryTerminalInPlace_onlyJobs (selector : RetrySelector) (lookups : Nat → String → Lookup)
    (queue : QueueState) : OnlyJobs queue (retryTerminalInPlace selector lookups queue).2.2 := by
  cases selector with
  | state wanted =>
    dsimp only [retryTerminalInPlace]
    split <;> rfl
  | idFragment fragment =>
    dsimp only [retryTerminalInPlace]
    split
    · split
      · split
        · split <;> rfl
        · rfl
      · rfl
    all_goals rfl

theorem retryInPlace_touchesJobs (selector : RetrySelector) (lookups : Nat → String → Lookup) :
    Mutation.TouchesJobs (retryInPlace selector lookups) := by
  intro queue
  have onlyJobs := retryTerminalInPlace_onlyJobs selector lookups queue
  dsimp only [retryInPlace]
  split
  · exact onlyJobs
  · split <;> exact onlyJobs

/-! ### A failure leaves the desk -/

/-- Undoing the relabel and putting the rows back restores the document. -/
theorem restore_jobs {queue mutated : QueueState} (onlyJobs : OnlyJobs queue mutated) :
    { mutated with jobs := queue.jobs } = queue := by
  rw [onlyJobs]

theorem Desk.mutateJobsAndPersist_error {T : Type} {desk : Desk} {mutate : Mutation T}
    (touchesJobs : mutate.TouchesJobs) {written : SaveResult} {error : RpcError}
    (fails : (desk.mutateJobsAndPersist mutate written).1 = .error error) :
    (desk.mutateJobsAndPersist mutate written).2 = desk := by
  have restored := restore_jobs (touchesJobs desk.queue)
  unfold Desk.mutateJobsAndPersist at fails ⊢
  rcases mutates : mutate desk.queue with ⟨refused | out, left⟩
  · rw [mutates] at restored
    simp only [restored]
  · rw [mutates] at restored
    cases written with
    | ok => simp [mutates] at fails
    | failed _ => simp only [Desk.saveAtomic, restored]

theorem Desk.queueClear_error {desk : Desk} {now : Timestamp} {written : SaveResult}
    {error : RpcError} (fails : (desk.queueClear now written).1 = .error error) :
    (desk.queueClear now written).2 = desk := by
  cases written with
  | ok => cases fails
  | failed _ => rfl

theorem Desk.applyPause_error {desk : Desk} {paused : Bool} {written : SaveResult}
    {error : RpcError} (fails : (desk.applyPause paused written).1 = .error error) :
    (desk.applyPause paused written).2 = desk := by
  cases written with
  | ok => cases fails
  | failed _ => rfl

theorem asReceipt_error {T : Type} {receipt : T → Receipt} {desk : Desk}
    {result : Except RpcError (T × QueueTick) × Desk}
    (kept : ∀ error, result.1 = .error error → result.2 = desk) {error : RpcError}
    (fails : (asReceipt receipt result).1 = .error error) : (asReceipt receipt result).2 = desk := by
  obtain ⟨answer, after⟩ := result
  cases answer with
  | error refused => exact kept refused rfl
  | ok out => cases fails

theorem locked_error {desk : Desk} {lookups : Nat → String → Lookup} {written : SaveResult}
    {request : Request} {error : RpcError}
    (fails : (request.locked desk lookups written).1 = .error error) :
    (request.locked desk lookups written).2 = desk := by
  cases request with
  | ingestSubmit paths library priority force hold profile =>
    refine asReceipt_error (fun _ =>
      Desk.mutateJobsAndPersist_error (enqueueMutation_touchesJobs _ ?_)) fails
    exact fun _ => rfl
  | gleanSubmit paths library priority force =>
    refine asReceipt_error (fun _ =>
      Desk.mutateJobsAndPersist_error (enqueueMutation_touchesJobs _ ?_)) fails
    exact fun _ => rfl
  | intakeOcr ocrMd info mint library priority force hold profile =>
    refine asReceipt_error (fun _ =>
      Desk.mutateJobsAndPersist_error (enqueueMutation_touchesJobs _ ?_)) fails
    exact fun _ => rfl
  | ingestCancel jobId now =>
    exact asReceipt_error (fun _ =>
      Desk.mutateJobsAndPersist_error (cancelInPlace_touchesJobs jobId now)) fails
  | queueClear now => exact asReceipt_error (fun _ => Desk.queueClear_error) fails
  | queueRetry state jobId =>
    dsimp only [Request.locked] at fails ⊢
    cases selected : retrySelector state jobId with
    | error refused => rfl
    | ok selector =>
      rw [selected] at fails
      exact asReceipt_error (fun _ =>
        Desk.mutateJobsAndPersist_error (retryInPlace_touchesJobs selector lookups)) fails
  | queuePause => exact asReceipt_error (fun _ => Desk.applyPause_error) fails
  | queueResume => exact asReceipt_error (fun _ => Desk.applyPause_error) fails

/-- **A handler that answers an error has changed nothing**: every field of the document in memory,
the document on disk, the pause flag and the ticks are as before the call, wherever its mutation was
refused or its save failed. -/
theorem failed_untouched (desk : Desk) (lookups : Nat → String → Lookup) (written : SaveResult)
    (request : Request) {error : RpcError}
    (fails : (request.handle desk lookups written).1 = .error error) :
    (request.handle desk lookups written).2 = desk := by
  unfold Request.handle at fails ⊢
  rcases section_ : request.locked desk lookups written with ⟨refused | ⟨receipt, tick⟩, after⟩
  · have isError : (request.locked desk lookups written).1 = .error refused :=
      congrArg Prod.fst section_
    have kept := locked_error isError
    rw [section_] at kept
    exact kept
  · rw [section_] at fails
    cases fails

/-- Two failed rows of libraries `a` and `b`, in a document an older binary wrote. -/
def twoFailed : Desk where
  queue := { schemaVersion := 6, paused := false, jobs := ["a", "b"].map fun library =>
    { submittedJob ⟨library, 0⟩ "book.epub" ⟨library, .book, .normal, false, false, none⟩ none with
      state := .failed } }
  disk := { schemaVersion := 6, paused := false, jobs := [] }
  queuePaused := false
  failurePause := false
  ticks := []

/-- The registry serves `a` and fails on `b`, after the first row was flipped. -/
theorem failed_untouched_twoFailed :
    let lookups := fun count (_ : String) =>
      if count = 0 then Lookup.served else .fault (RpcError.new internalError "lock poisoned")
    (retryInPlace (.state .failed) lookups twoFailed.queue).2 ≠ twoFailed.queue ∧
      ((Request.queueRetry (some .failed) none).handle twoFailed lookups .ok).2 = twoFailed := by
  intro lookups
  have fails : ((Request.queueRetry (some .failed) none).handle twoFailed lookups .ok).1 =
      .error (RpcError.new internalError "lock poisoned") := by decide
  exact ⟨by decide, failed_untouched _ _ _ _ fails⟩

/-! ### With a registry that never fails -/

/-- The daemon a locked section leaves: the document, and on success the call in flight. -/
def Daemon.afterLocked (daemon : Daemon) (store : Option Bool)
    (result : Except RpcError (Receipt × QueueTick) × Desk) : Effect × Daemon :=
  match result with
  | (.error error, desk) =>
    (.refused error, { daemon with queue := desk.queue, disk := desk.disk })
  | (.ok (receipt, tick), desk) =>
    (.wrote receipt,
      { daemon with
        queue := desk.queue
        disk := desk.disk
        calls := daemon.calls ++ [{ receipt := receipt, tick := tick, store := store }] })

/-- The desk of a daemon that has published `ticks`. -/
def Daemon.desk (daemon : Daemon) (ticks : List QueueTick) : Desk where
  queue := daemon.queue
  disk := daemon.disk
  queuePaused := daemon.queuePaused
  failurePause := daemon.failurePause
  ticks := ticks

/-- A mutation in place does what the pure one does, up to the rows a refused one leaves. -/
structure Agree {T : Type} (queue : QueueState) (inPlace : Mutation T)
    (mutate : QueueState → Except RpcError (T × QueueState)) : Prop where
  done : ∀ out mutated, mutate queue = .ok (out, mutated) → inPlace queue = (.ok out, mutated)
  refused : ∀ error, mutate queue = .error error → (inPlace queue).1 = .error error

theorem mutateJobsAndPersist_refines {T : Type} {daemon : Daemon} {ticks : List QueueTick}
    {inPlace : Mutation T} {mutate : QueueState → Except RpcError (T × QueueState)}
    (agree : Agree daemon.queue inPlace mutate) (touchesJobs : inPlace.TouchesJobs)
    (receipt : T → Receipt) (written : SaveResult) :
    daemon.afterLocked none
        (asReceipt receipt ((daemon.desk ticks).mutateJobsAndPersist inPlace written)) =
      answer receipt none (daemon.mutateJobsAndPersist mutate written) := by
  cases mutates : mutate daemon.queue with
  | error error =>
    have isError := agree.refused error mutates
    have refused : ((daemon.desk ticks).mutateJobsAndPersist inPlace written).1 = .error error := by
      unfold Desk.mutateJobsAndPersist
      rcases inPlaceIs : inPlace daemon.queue with ⟨answered, left⟩
      rw [inPlaceIs] at isError
      rw [show (daemon.desk ticks).queue = daemon.queue from rfl, inPlaceIs,
        show answered = .error error from isError]
    have kept := Desk.mutateJobsAndPersist_error touchesJobs refused
    rw [mutateJobsAndPersist_refused mutates, ← Prod.mk.eta
      (p := (daemon.desk ticks).mutateJobsAndPersist inPlace written), refused, kept]
    rfl
  | ok result =>
    obtain ⟨out, mutated⟩ := result
    have inPlaceIs := agree.done out mutated mutates
    unfold Desk.mutateJobsAndPersist Daemon.mutateJobsAndPersist
    rw [show (daemon.desk ticks).queue = daemon.queue from rfl, inPlaceIs, mutates]
    cases written <;> rfl

theorem lookup_check {T : Type} (registry : LibraryRegistry) (library : String) (enqueued : T) :
    checkLibrary registry library enqueued =
      (LibraryRegistry.lookup registry library).check.map fun _ => enqueued := by
  unfold checkLibrary LibraryRegistry.lookup lookupFault
  cases registry.get (some library) <;> rfl

theorem enqueueMutation_agree {T : Type} (registry : LibraryRegistry) (library : String)
    (enqueue : QueueState → T × QueueState) (queue : QueueState) :
    Agree queue (enqueueMutation (LibraryRegistry.lookup registry library) enqueue)
      (fun queue => checkLibrary registry library (enqueue queue)) := by
  unfold enqueueMutation
  simp only [lookup_check]
  cases (LibraryRegistry.lookup registry library).check with
  | error refused =>
    exact ⟨fun out mutated done => (by cases done), fun error isError => Except.error.inj isError ▸ rfl⟩
  | ok _ =>
    refine ⟨fun out mutated done => ?_, fun error isError => (by cases isError)⟩
    rw [show enqueue queue = (out, mutated) from Except.ok.inj done]
    rfl

theorem cancelInPlace_agree (jobId : String) (now : Timestamp) (queue : QueueState) :
    Agree queue (cancelInPlace jobId now) (cancelMutation jobId now) := by
  refine ⟨fun out mutated done => ?_, fun error isError => ?_⟩
  · simp only [cancelInPlace, done]
  · simp only [cancelInPlace, isError]

/-- Whether the registry serves a library. -/
def servesIn (registry : LibraryRegistry) (library : String) : Bool :=
  (lookupFault registry library).isNone

/-- A sound registry answers a call of the closure as `servesIn` does and records no failure. -/
theorem mounted_lookup (registry : LibraryRegistry) (library : String) (asked : Asked) :
    ∃ later, asked.mounted (LibraryRegistry.lookup registry library) =
      (servesIn registry library, later) ∧ later.fault = asked.fault ∧
        (servesIn registry library = false → later.notMounted = lookupFault registry library) := by
  unfold LibraryRegistry.lookup servesIn
  cases lookupFault registry library with
  | none => exact ⟨_, rfl, rfl, fun absent => (by cases absent)⟩
  | some cause => exact ⟨_, rfl, rfl, fun _ => rfl⟩

/-- The loop of a state selection under a sound registry. -/
theorem retryRows_lookup (registry : LibraryRegistry) (wanted : JobState) (jobs : List QueueJob) :
    ∀ asked, ∃ later, later.fault = asked.fault ∧
      retryRows wanted (fun _ => LibraryRegistry.lookup registry) asked jobs =
        (later,
          { retried := (jobs.filter (flipsRow wanted (servesIn registry))).map (·.id)
            held := (jobs.filter (holdsRow wanted (servesIn registry))).map fun job =>
              ⟨job.id, job.library⟩ },
          jobs.map fun job =>
            if flipsRow wanted (servesIn registry) job then resetForRetry job else job) := by
  induction jobs with
  | nil => exact fun asked => ⟨asked, rfl, rfl⟩
  | cons job rest ih =>
    intro asked
    rw [retryRows]
    by_cases selected : job.state = wanted
    · obtain ⟨next, isNext, sameFault, -⟩ := mounted_lookup registry job.library asked
      obtain ⟨later, sameLater, isLater⟩ := ih next
      refine ⟨later, sameLater.trans sameFault, ?_⟩
      simp only [if_pos selected, isNext, isLater]
      cases serves : servesIn registry job.library <;>
        simp [flipsRow, holdsRow, selected, serves]
    · obtain ⟨later, sameFault, isLater⟩ := ih asked
      refine ⟨later, sameFault, ?_⟩
      have notFlipped : flipsRow wanted (servesIn registry) job = false := by
        simp [flipsRow, selected]
      have notHeld : holdsRow wanted (servesIn registry) job = false := by
        simp [holdsRow, selected]
      simp only [if_neg selected, isLater, List.filter_cons, List.map_cons, notFlipped, notHeld,
        Bool.false_eq_true, if_false]

/-- `retry_terminal` under a sound registry, with what the closure remembers of a refusal. -/
theorem retryTerminal_lookup (registry : LibraryRegistry) (selector : RetrySelector)
    (queue : QueueState) : ∃ asked left, asked.fault = none ∧
      retryTerminalInPlace selector (fun _ => LibraryRegistry.lookup registry) queue =
        (asked, (retryTerminal queue selector (servesIn registry)).map Prod.fst, left) ∧
      (∀ outcome mutated, retryTerminal queue selector (servesIn registry) = .ok (outcome, mutated) →
        left = mutated) ∧
      ∀ id library, retryTerminal queue selector (servesIn registry) =
        .error (.libraryNotMounted id library) →
          asked.notMounted = lookupFault registry library := by
  cases selector with
  | state wanted =>
    dsimp only [retryTerminalInPlace, retryTerminal]
    by_cases retryable : wanted.isRetryable = true
    · obtain ⟨later, noFault, isLater⟩ := retryRows_lookup registry wanted queue.jobs .nothing
      simp only [if_pos retryable, isLater]
      refine ⟨later, _, noFault, rfl, fun outcome mutated done => ?_, fun id library fails => ?_⟩
      · exact congrArg Prod.snd (Except.ok.inj done)
      · cases fails
    · simp only [if_neg retryable]
      exact ⟨.nothing, queue, rfl, rfl, fun _ _ done => (by cases done),
        fun _ _ fails => (by cases fails)⟩
  | idFragment fragment =>
    dsimp only [retryTerminalInPlace, retryTerminal]
    rcases matchIdFragment queue.jobs fragment fun _ => true with miss | index
    · cases miss <;> exact ⟨.nothing, queue, rfl, rfl, fun _ _ done => (by cases done),
        fun _ _ fails => (by cases fails)⟩
    · dsimp only
      cases queue.jobs[index]? with
      | none => exact ⟨.nothing, queue, rfl, rfl, fun _ _ done => (by cases done),
          fun _ _ fails => (by cases fails)⟩
      | some job =>
        dsimp only
        by_cases retryable : job.state.isRetryable = true
        · obtain ⟨later, isLater, noFault, remembers⟩ :=
            mounted_lookup registry job.library .nothing
          simp only [if_pos retryable, isLater]
          cases serves : servesIn registry job.library with
          | true => exact ⟨later, _, noFault, rfl,
              fun outcome mutated done => congrArg Prod.snd (Except.ok.inj done),
              fun _ _ fails => (by cases fails)⟩
          | false =>
            refine ⟨later, queue, noFault, rfl, fun _ _ done => (by cases done), ?_⟩
            intro id library fails
            obtain ⟨-, rfl⟩ := RetryRefusal.libraryNotMounted.inj (Except.error.inj fails)
            exact remembers serves
        · simp only [if_neg retryable]
          exact ⟨.nothing, queue, rfl, rfl, fun _ _ done => (by cases done),
            fun _ _ fails => (by cases fails)⟩

theorem retryInPlace_agree (registry : LibraryRegistry) (selector : RetrySelector)
    (queue : QueueState) : Agree queue
      (retryInPlace selector fun _ => LibraryRegistry.lookup registry)
      (retryMutation registry selector) := by
  obtain ⟨asked, left, noFault, inPlaceIs, sameRows, remembers⟩ :=
    retryTerminal_lookup registry selector queue
  have serves : (fun library => (lookupFault registry library).isNone) = servesIn registry := rfl
  cases retries : retryTerminal queue selector (servesIn registry) with
  | ok retried =>
    obtain ⟨outcome, mutated⟩ := retried
    have pure_ : retryMutation registry selector queue = .ok (outcome, mutated) := by
      rw [retryMutation, serves, retries]
    have inPlace : retryInPlace selector (fun _ => LibraryRegistry.lookup registry) queue =
        (.ok outcome, left) := by
      simp only [retryInPlace, inPlaceIs, noFault, retries, Except.map]
    refine ⟨fun out after done => ?_, fun error fails => ?_⟩
    · obtain ⟨rfl, rfl⟩ := Prod.mk.inj (Except.ok.inj (pure_.symm.trans done))
      rw [inPlace, sameRows _ _ retries]
    · cases pure_.symm.trans fails
  | error refusal =>
    have pure_ : retryMutation registry selector queue = .error (retryErr registry refusal) := by
      rw [retryMutation, serves, retries]
    have inPlace : retryInPlace selector (fun _ => LibraryRegistry.lookup registry) queue =
        (.error (retryEnvelope asked.notMounted refusal), left) := by
      simp only [retryInPlace, inPlaceIs, noFault, retries, Except.map]
    refine ⟨fun out after done => ?_, fun error fails => ?_⟩
    · cases pure_.symm.trans done
    · rw [inPlace, ← Except.error.inj (pure_.symm.trans fails)]
      cases refusal with
      | libraryNotMounted id library =>
        rw [remembers id library retries]
        rfl
      | stateNotRetryable _ => rfl
      | emptyFragment => rfl
      | noMatch _ => rfl
      | ambiguous _ _ => rfl
      | notRetryable _ _ => rfl

/-- **Under a registry whose lookups never fail, the locked sections are those of `Request.run`.** -/
theorem locked_refines (daemon : Daemon) (ticks : List QueueTick) (written : SaveResult)
    (request : Request) :
    daemon.afterLocked request.store (request.locked (daemon.desk ticks)
      (fun _ => LibraryRegistry.lookup daemon.registry) written) = request.run daemon written := by
  cases request with
  | ingestSubmit paths library priority force hold profile =>
    refine mutateJobsAndPersist_refines (enqueueMutation_agree daemon.registry library _ _)
      (enqueueMutation_touchesJobs _ ?_) _ written
    exact fun _ => rfl
  | gleanSubmit paths library priority force =>
    refine mutateJobsAndPersist_refines (enqueueMutation_agree daemon.registry library _ _)
      (enqueueMutation_touchesJobs _ ?_) _ written
    exact fun _ => rfl
  | intakeOcr ocrMd info mint library priority force hold profile =>
    refine mutateJobsAndPersist_refines (enqueueMutation_agree daemon.registry library _ _)
      (enqueueMutation_touchesJobs _ ?_) _ written
    exact fun _ => rfl
  | ingestCancel jobId now =>
    exact mutateJobsAndPersist_refines (cancelInPlace_agree jobId now _)
      (cancelInPlace_touchesJobs jobId now) _ written
  | queueClear now => cases written <;> rfl
  | queueRetry state jobId =>
    dsimp only [Request.locked, Request.run, Daemon.queueRetry]
    cases retrySelector state jobId with
    | error refused => rfl
    | ok selector =>
      exact mutateJobsAndPersist_refines (retryInPlace_agree daemon.registry selector _)
        (retryInPlace_touchesJobs selector _) _ written
  | queuePause => cases written <;> rfl
  | queueResume => cases written <;> rfl

end Bookrack.Runtime
