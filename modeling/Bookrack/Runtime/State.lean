/-
The state the control-plane handlers and the queue worker share, and the two primitives both write
it through: `save_atomic` (`runtime/src/queue.rs`) and the persist-or-roll-back path of the handlers
(`control/methods/queue_writes.rs`).

One `Daemon` holds the document under the queue mutex, the document on disk, the worker's atomic
pause flag, the worker's phase, the handlers that have left the mutex and still owe an unlocked
step, the last tick published, and the registry. Everything a handler or the worker does under the
mutex is one function of it.
-/

import Bookrack.Queue.Mutators
import Bookrack.Registry.Registry

namespace Bookrack.Runtime

open Queue Registry

/-! ### Ticks -/

/-- The outcome a tick that closes out a job carries. -/
structure JobOutcomeSummary where
  jobId : String
  kind : ItemKind
  state : JobState
  error : Option String
  problem : Option Problem
  finishedAt : Timestamp
  deriving DecidableEq, Repr

/-- `QueueTick`. -/
structure QueueTick where
  current : Option String
  pending : Nat
  running : Nat
  lastFinished : Option JobOutcomeSummary
  deriving DecidableEq, Repr

/-- One round of `derive_tick`'s loop. -/
def countJob (tick : QueueTick) (job : QueueJob) : QueueTick :=
  match job.state with
  | .pending => { tick with pending := tick.pending + 1 }
  | .running =>
    { tick with running := tick.running + 1, current := tick.current.or (some job.id) }
  | _ => tick

/-- `derive_tick`. -/
def deriveTick (state : QueueState) (lastFinished : Option JobOutcomeSummary) : QueueTick :=
  state.jobs.foldl countJob
    { current := none, pending := 0, running := 0, lastFinished := lastFinished }

/-- `summarize_outcome`; `now` stands in for a row that was never stamped. -/
def summarizeOutcome (now : Timestamp) (job : QueueJob) : JobOutcomeSummary where
  jobId := job.id
  kind := job.kind
  state := job.state
  error := job.error
  problem := job.problem
  finishedAt := job.finishedAt.getD now

/-! ### The shared state -/

/-- Where the worker's loop stands. -/
inductive Worker
  /-- Before the crash recovery at startup. -/
  | starting
  /-- Between two rounds, about to read the pause flag. -/
  | idle
  /-- The flag read unset; about to pull. -/
  | armed
  /-- The runner is on the pulled job, a copy of its row as it stood at the pull. -/
  | executing (job : QueueJob)
  deriving DecidableEq, Repr

/-- What a handler's locked section hands to the rest of the handler. -/
inductive Receipt
  | submitted (ids : List String)
  | ocrSubmitted (id : String)
  | cancelled (id : String)
  | cleared (count : Nat)
  | retried (outcome : RetryOutcome)
  | paused (value : Bool)
  deriving DecidableEq, Repr

/-- A handler's success reply. -/
inductive Reply
  | submitted (ids : List String)
  | ocrSubmitted (id : String)
  | cancelled (id : String)
  | cleared (count : Nat) (paused : Bool)
  | retried (outcome : RetryOutcome) (paused : Bool)
  | paused (value : Bool)
  deriving DecidableEq, Repr

/-- The reply a receipt becomes; the pause flag is read as the reply is built. -/
def Receipt.reply (queuePaused : Bool) : Receipt → Reply
  | .submitted ids => .submitted ids
  | .ocrSubmitted id => .ocrSubmitted id
  | .cancelled id => .cancelled id
  | .cleared count => .cleared count queuePaused
  | .retried outcome => .retried outcome queuePaused
  | .paused value => .paused value

/-- A handler past its locked section: the atomic store a pause or resume still owes, and the tick
it has not published yet. -/
structure Call where
  receipt : Receipt
  tick : QueueTick
  store : Option Bool
  deriving DecidableEq, Repr

/-- The daemon. `calls` is in the order the locked sections ran. -/
structure Daemon where
  queue : QueueState
  disk : QueueState
  queuePaused : Bool
  worker : Worker
  calls : List Call
  lastTick : Option QueueTick
  failurePause : Bool
  registry : LibraryRegistry
  libraryName : String

/-- The row with the given id, as memory has it. -/
def Daemon.row (daemon : Daemon) (id : String) : Option QueueJob :=
  Rows.lookup QueueJob.id id daemon.queue.jobs

/-- The state of the row with the given id, as memory has it. -/
def Daemon.stateOf (daemon : Daemon) (id : String) : Option JobState :=
  (daemon.row id).map QueueJob.state

/-! ### Saving -/

/-- How one write of the document ends. -/
inductive SaveResult
  | ok
  | failed (error : String)
  deriving DecidableEq, Repr

/-- `save_atomic`: a write relabels the document to this binary's schema version, and a failed one
undoes the relabel. -/
def Daemon.saveAtomic (daemon : Daemon) : SaveResult → Daemon
  | .ok =>
    let document := { daemon.queue with schemaVersion := queueSchemaVersion }
    { daemon with queue := document, disk := document }
  | .failed _ => daemon

/-- The refusal of a handler whose save failed. -/
def persistError (error : String) : RpcError :=
  RpcError.new internalError ("persist queue state: " ++ error)

/-- `mutate_jobs_and_persist`: a refused mutation attempts no save, and a failed save puts the jobs
list back. -/
def Daemon.mutateJobsAndPersist {T : Type} (daemon : Daemon)
    (mutate : QueueState → Except RpcError (T × QueueState)) (written : SaveResult) :
    Except RpcError (T × QueueTick) × Daemon :=
  match mutate daemon.queue with
  | .error error => (.error error, daemon)
  | .ok (out, mutated) =>
    let saved := { daemon with queue := mutated }.saveAtomic written
    match written with
    | .failed error =>
      (.error (persistError error),
        { saved with queue := { saved.queue with jobs := daemon.queue.jobs } })
    | .ok => (.ok (out, deriveTick saved.queue none), saved)

/-- The daemon a handler's successful save leaves: the mutated document in memory and on disk, and
the handler's unlocked steps still to come. -/
def Daemon.commit (daemon : Daemon) (receipt : Receipt) (store : Option Bool)
    (mutated : QueueState) : Daemon :=
  let document := { mutated with schemaVersion := queueSchemaVersion }
  { daemon with
    queue := document
    disk := document
    calls := daemon.calls ++ [{ receipt := receipt, tick := deriveTick document none,
                                store := store }] }

/-- A mutation touched nothing of the document but its rows, which is all a roll-back restores. -/
def OnlyJobs (before after : QueueState) : Prop := after = { before with jobs := after.jobs }

theorem mutateJobsAndPersist_refused {T : Type} {daemon : Daemon} {error : RpcError}
    {mutate : QueueState → Except RpcError (T × QueueState)}
    (refused : mutate daemon.queue = .error error) (written : SaveResult) :
    daemon.mutateJobsAndPersist mutate written = (.error error, daemon) := by
  simp only [Daemon.mutateJobsAndPersist, refused]

theorem mutateJobsAndPersist_failed {T : Type} {daemon : Daemon} {out : T} {mutated : QueueState}
    {mutate : QueueState → Except RpcError (T × QueueState)}
    (mutates : mutate daemon.queue = .ok (out, mutated)) (onlyJobs : OnlyJobs daemon.queue mutated)
    (error : String) :
    daemon.mutateJobsAndPersist mutate (.failed error) = (.error (persistError error), daemon) := by
  have restored : { mutated with jobs := daemon.queue.jobs } = daemon.queue := by rw [onlyJobs]
  simp only [Daemon.mutateJobsAndPersist, mutates, Daemon.saveAtomic, restored]

theorem mutateJobsAndPersist_ok {T : Type} {daemon : Daemon} {out : T} {mutated : QueueState}
    {mutate : QueueState → Except RpcError (T × QueueState)}
    (mutates : mutate daemon.queue = .ok (out, mutated)) :
    daemon.mutateJobsAndPersist mutate .ok =
      (.ok (out, deriveTick { mutated with schemaVersion := queueSchemaVersion } none),
        { daemon with queue := { mutated with schemaVersion := queueSchemaVersion }
                      disk := { mutated with schemaVersion := queueSchemaVersion } }) := by
  simp only [Daemon.mutateJobsAndPersist, mutates, Daemon.saveAtomic]

end Bookrack.Runtime
