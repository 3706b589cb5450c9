/-
The daemon as one transition system: the locked sections of the handlers, their unlocked remainders,
the queue worker's loop (`worker_loop` in `runtime/src/queue.rs`), and runtime mounts and unmounts.

* `step` — what one event does; `none` when the event cannot happen now.
* `Transition` / `step_transition` — everything a step can do, guards included. Every invariant of
  a run is a case analysis of `Transition`.
* `transition_rows` — what any step does to the rows of the queue (`RowStep`).
-/

import Bookrack.Base.Deferred
import Bookrack.Base.Run
import Bookrack.Runtime.Handlers

namespace Bookrack.Runtime

open Queue Registry

/-! ### The worker -/

/-- `JobSuccess`. -/
structure JobSuccess where
  noOp : Bool
  needsOcr : Bool
  intakeId : Option Int
  deriving DecidableEq, Repr

/-- `JobError`: a failure of the one book, or of the whole process. -/
inductive JobError
  | book (failure : JobFailure)
  | process (failure : JobFailure)
  deriving DecidableEq, Repr

/-- `JobError::into_failure`. -/
def JobError.intoFailure : JobError → JobFailure
  | .book failure | .process failure => failure

/-- What a runner returned. -/
inductive RunResult
  | success (success : JobSuccess)
  | error (error : JobError)
  deriving DecidableEq, Repr

/-- The outcome a run is recorded as. A needs-OCR or no-op success without an intake id falls back
to `done`. -/
def RunResult.outcome : RunResult → JobOutcome
  | .success { needsOcr := true, intakeId := some intakeId, .. } => .needsOcr intakeId
  | .success { needsOcr := true, .. } => .done
  | .success { noOp := true, intakeId := some intakeId, .. } => .skippedDuplicate intakeId
  | .success { noOp := true, .. } => .done
  | .success { noOp := false, .. } => .done
  | .error fault => .failed fault.intoFailure

/-- Whether a run pauses the queue: only a process-level failure does. -/
def RunResult.pausesQueue : RunResult → Bool
  | .error (.process _) => true
  | _ => false

/-- The worker publishes what it saved while it still holds the queue mutex. -/
def Daemon.publishSaved (daemon : Daemon) (lastFinished : Option JobOutcomeSummary)
    (written : SaveResult) : Daemon :=
  match written with
  | .ok => { daemon with lastTick := some (deriveTick daemon.queue lastFinished) }
  | .failed _ => daemon

/-- The crash recovery at the worker's start. -/
def Daemon.recover (daemon : Daemon) (written : SaveResult) : Daemon :=
  ({ daemon with queue := crashRecoveryReset daemon.queue, worker := .idle }.saveAtomic
    written).publishSaved none written

/-- One round of the loop up to the pull: a set flag ends it. -/
def Daemon.poll (daemon : Daemon) : Daemon :=
  { daemon with worker := if daemon.queuePaused then .idle else .armed }

/-- The pull. A failed save leaves the row running in memory, and the job still runs. -/
def Daemon.pull (daemon : Daemon) (now : Timestamp) (written : SaveResult) : Effect × Daemon :=
  match pullPending daemon.queue now with
  | (none, queue) => (.quiet, { daemon with queue := queue, worker := .idle })
  | (some job, queue) =>
    (.pulled job,
      ({ daemon with queue := queue, worker := .executing job }.saveAtomic written).publishSaved none
        written)

/-- The document the outcome block saves: the pause flag first, then the outcome. -/
def recordedQueue (queue : QueueState) (job : QueueJob) (result : RunResult) (now : Timestamp) :
    QueueState :=
  applyOutcome (if result.pausesQueue then { queue with paused := true } else queue) job.id
    result.outcome now

/-- The outcome block. After a failed save a process-level failure writes the constant `false` over
the pause flag in memory. -/
def Daemon.recordOutcome (daemon : Daemon) (job : QueueJob) (result : RunResult) (now : Timestamp)
    (written : SaveResult) : Daemon :=
  let saved := { daemon with queue := recordedQueue daemon.queue job result now
                             worker := .idle }.saveAtomic written
  match written with
  | .ok =>
    let lastFinished := (saved.row job.id).map (summarizeOutcome now)
    { saved with
      queuePaused := result.pausesQueue || saved.queuePaused
      failurePause := result.pausesQueue || saved.failurePause
      lastTick := some (deriveTick saved.queue lastFinished) }
  | .failed _ =>
    if result.pausesQueue then { saved with queue := { saved.queue with paused := false } }
    else saved

/-! ### Handlers past their locked section -/

/-- A pause or resume stores the flag; a resume also ends a failure pause. -/
def Daemon.storeFlag (daemon : Daemon) (value : Bool) (calls : List Call) : Daemon :=
  { daemon with
    queuePaused := value
    failurePause := if value then daemon.failurePause else false
    calls := calls }

/-- The next unlocked step of the call at `index`: the store it owes, else its tick and reply. -/
def Daemon.resumeCall (daemon : Daemon) (index : Nat) : Option (Effect × Daemon) :=
  match daemon.calls[index]? with
  | none => none
  | some call =>
    match call.store with
    | some value =>
      some (.stored value,
        daemon.storeFlag value (daemon.calls.set index { call with store := none }))
    | none =>
      some (.replied (call.receipt.reply daemon.queuePaused),
        { daemon with lastTick := some call.tick, calls := daemon.calls.eraseIdx index })

/-! ### Mounting and unmounting -/

/-- `queued_against`. -/
def queuedAgainst (queue : QueueState) (library : String) : Nat :=
  (queue.jobs.filter (isLiveAgainst library)).length

/-- `library.mount`. -/
def Daemon.mount (daemon : Daemon) (name : String) (bringUp : Option RpcError) : Effect × Daemon :=
  match Mounter.mount daemon.registry name bringUp with
  | .ok registry => (.mounted name, { daemon with registry := registry })
  | .error error => (.refused error, daemon)

/-- `library.unmount`: the queued work is counted and the library removed under one hold of the
queue mutex. -/
def Daemon.unmount (daemon : Daemon) (name : String) : Effect × Daemon :=
  match Mounter.unmount daemon.registry name
    { primary := some daemon.libraryName, queuedJobs := queuedAgainst daemon.queue name } with
  | .ok registry => (.unmounted name, { daemon with registry := registry })
  | .error refusal => (.refused (unmountErr refusal), daemon)

/-! ### The step relation -/

/-- One event, with what it draws from outside the daemon. -/
inductive Event
  | handle (request : Request) (written : SaveResult)
  | resumeCall (index : Nat)
  | mount (name : String) (bringUp : Option RpcError)
  | unmount (name : String)
  | recover (written : SaveResult)
  | poll
  | pull (now : Timestamp) (written : SaveResult)
  | finish (result : RunResult) (now : Timestamp) (written : SaveResult)
  deriving DecidableEq, Repr

/-- The events that a caller asks for and that may be refused. -/
def Event.isRequest : Event → Bool
  | .handle .. | .mount .. | .unmount .. => true
  | _ => false

/-- The ids a request mints are new and pairwise distinct. -/
def Request.Fresh (queue : QueueState) (request : Request) : Prop :=
  request.minted.Nodup ∧ ∀ id ∈ request.minted, id ∉ queue.jobs.map QueueJob.id

instance (queue : QueueState) (request : Request) : Decidable (request.Fresh queue) :=
  inferInstanceAs (Decidable (_ ∧ _))

/-- What an event does, `none` when it cannot happen now. -/
def step (daemon : Daemon) (event : Event) : Option (Effect × Daemon) :=
  match event, daemon.worker with
  | .handle request written, _ =>
    if request.Fresh daemon.queue then some (request.run daemon written) else none
  | .resumeCall index, _ => daemon.resumeCall index
  | .mount name bringUp, _ => some (daemon.mount name bringUp)
  | .unmount name, _ => some (daemon.unmount name)
  | .recover written, .starting => some (.quiet, daemon.recover written)
  | .poll, .idle => some (.quiet, daemon.poll)
  | .pull now written, .armed => some (daemon.pull now written)
  | .finish result now written, .executing job =>
    some (.recorded job.id result.outcome, daemon.recordOutcome job result now written)
  | _, _ => none

/-- One step of a run; the label is the event and what it showed. -/
def Step (before : Daemon) (label : Event × Effect) (after : Daemon) : Prop :=
  step before label.1 = some (label.2, after)

/-- A run of the daemon: what happened, what it showed, and the state it led to. -/
abbrev Trace := List ((Event × Effect) × Daemon)

/-- The daemon as bring-up hands it over: the worker is about to start, the flag and the document on
disk are those of the loaded queue. -/
def Daemon.boot (queue : QueueState) (registry : LibraryRegistry) (libraryName : String) :
    Daemon where
  queue := queue
  disk := queue
  queuePaused := queue.paused
  worker := .starting
  calls := []
  lastTick := none
  failurePause := false
  registry := registry
  libraryName := libraryName

/-- Everything a step can do. -/
inductive Transition (daemon : Daemon) : Event → Effect → Daemon → Prop
  | refused (event : Event) (error : RpcError) : event.isRequest = true →
      Transition daemon event (.refused error) daemon
  | wrote (request : Request) (receipt : Receipt) (mutated : QueueState) :
      request.Fresh daemon.queue →
      request.mutate daemon.registry daemon.queue = .ok (receipt, mutated) →
      Transition daemon (.handle request .ok) (.wrote receipt)
        (daemon.commit receipt request.store mutated)
  | stored (older newer : List Call) (call : Call) (value : Bool) :
      daemon.calls = older ++ call :: newer → call.store = some value →
      Transition daemon (.resumeCall older.length) (.stored value)
        (daemon.storeFlag value (older ++ { call with store := none } :: newer))
  | replied (older newer : List Call) (call : Call) :
      daemon.calls = older ++ call :: newer → call.store = none →
      Transition daemon (.resumeCall older.length) (.replied (call.receipt.reply daemon.queuePaused))
        { daemon with lastTick := some call.tick, calls := older ++ newer }
  | mounted (name : String) (bringUp : Option RpcError) (registry : LibraryRegistry) :
      Mounter.mount daemon.registry name bringUp = .ok registry →
      Transition daemon (.mount name bringUp) (.mounted name) { daemon with registry := registry }
  | unmounted (name : String) (registry : LibraryRegistry) :
      Mounter.unmount daemon.registry name
        { primary := some daemon.libraryName, queuedJobs := queuedAgainst daemon.queue name } =
          .ok registry →
      Transition daemon (.unmount name) (.unmounted name) { daemon with registry := registry }
  | recovered (written : SaveResult) : daemon.worker = .starting →
      Transition daemon (.recover written) .quiet (daemon.recover written)
  | polled : daemon.worker = .idle → Transition daemon .poll .quiet daemon.poll
  | pulledNothing (now : Timestamp) (written : SaveResult) : daemon.worker = .armed →
      pullPending daemon.queue now = (none, daemon.queue) →
      Transition daemon (.pull now written) .quiet { daemon with worker := .idle }
  | pulled (now : Timestamp) (written : SaveResult) (job : QueueJob) (index : Nat) :
      daemon.worker = .armed → daemon.queue.paused = false →
      nextPending daemon.queue.jobs = some index → daemon.queue.jobs[index]? = some job →
      job.state = .pending →
      pullPending daemon.queue now = (some (startJob now job),
        { daemon.queue with jobs := daemon.queue.jobs.modify index (startJob now) }) →
      Transition daemon (.pull now written) (.pulled (startJob now job))
        (({ daemon with
            queue := { daemon.queue with jobs := daemon.queue.jobs.modify index (startJob now) }
            worker := .executing (startJob now job) }.saveAtomic written).publishSaved none written)
  | recorded (job : QueueJob) (result : RunResult) (now : Timestamp) (written : SaveResult) :
      daemon.worker = .executing job →
      Transition daemon (.finish result now written) (.recorded job.id result.outcome)
        (daemon.recordOutcome job result now written)

theorem resumeCall_transition {daemon after : Daemon} {index : Nat} {effect : Effect}
    (resumed : daemon.resumeCall index = some (effect, after)) :
    Transition daemon (.resumeCall index) effect after := by
  unfold Daemon.resumeCall at resumed
  split at resumed
  · cases resumed
  · rename_i call found
    obtain ⟨older, newer, calls, rfl, erased, replaced⟩ := Deferred.pick_split found
    split at resumed
    · rename_i value owed
      cases resumed
      rw [replaced]
      exact .stored older newer call value calls owed
    · rename_i settled
      cases resumed
      rw [erased]
      exact .replied older newer call calls settled

theorem pull_transition {daemon : Daemon} (now : Timestamp) (written : SaveResult)
    (armed : daemon.worker = .armed) :
    Transition daemon (.pull now written) (daemon.pull now written).1
      (daemon.pull now written).2 := by
  rcases pullPending_cases daemon.queue now with
    pulls | ⟨index, job, unpaused, next, found, pending, pulls⟩
  · simp only [Daemon.pull, pulls]
    exact .pulledNothing now written armed pulls
  · simp only [Daemon.pull, pulls]
    exact .pulled now written job index armed unpaused next found pending pulls

/-- **Inversion of a step.** -/
theorem step_transition {daemon after : Daemon} {event : Event} {effect : Effect}
    (steps : step daemon event = some (effect, after)) : Transition daemon event effect after := by
  cases event with
  | handle request written =>
    simp only [step] at steps
    split at steps
    · rename_i fresh
      rcases run_cases daemon written request with ⟨error, runs⟩ | ⟨receipt, mutated, mutates, ok, runs⟩
      · rw [runs] at steps
        cases steps
        exact .refused _ error rfl
      · rw [runs] at steps
        cases steps
        subst ok
        exact .wrote request receipt mutated fresh mutates
    · cases steps
  | resumeCall index => exact resumeCall_transition (by simpa only [step] using steps)
  | mount name bringUp =>
    simp only [step, Daemon.mount] at steps
    split at steps
    · rename_i registry mounts
      cases steps
      exact .mounted name bringUp registry mounts
    · cases steps
      exact .refused _ _ rfl
  | unmount name =>
    simp only [step, Daemon.unmount] at steps
    split at steps
    · rename_i registry unmounts
      cases steps
      exact .unmounted name registry unmounts
    · cases steps
      exact .refused _ _ rfl
  | recover written =>
    cases phase : daemon.worker with
    | starting =>
      simp only [step, phase] at steps
      cases steps
      exact .recovered written phase
    | idle | armed | executing => simp [step, phase] at steps
  | poll =>
    cases phase : daemon.worker with
    | idle =>
      simp only [step, phase] at steps
      cases steps
      exact .polled phase
    | starting | armed | executing => simp [step, phase] at steps
  | pull now written =>
    cases phase : daemon.worker with
    | armed =>
      simp only [step, phase] at steps
      have same := Option.some.inj steps
      have pulls := pull_transition now written phase
      rwa [same] at pulls
    | starting | idle | executing => simp [step, phase] at steps
  | finish result now written =>
    cases phase : daemon.worker with
    | executing job =>
      simp only [step, phase] at steps
      cases steps
      exact .recorded job result now written phase
    | starting | idle | armed => simp [step, phase] at steps

end Bookrack.Runtime
