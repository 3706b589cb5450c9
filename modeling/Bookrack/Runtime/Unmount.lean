/-
Unmounting under a running worker.

`library.unmount` counts the pending and running rows of the library under the queue mutex. No row
that may still run is ever left without its library (`live_rows_served`). But the count reads row
states, and a cancelled row may belong to a job the worker is still executing:

* `unmount_waits_for_worker_iff` — the exact condition on the unmount requests of a run under which
  none takes a library from under the job being executed.
* `unmounted_under_worker` — pull, cancel, unmount.
-/

import Bookrack.Runtime.RowStep

namespace Bookrack.Runtime

open Queue Registry Run

/-! ### What the run should look like -/

/-- No unmount removes the library of the job the worker is executing. -/
def UnmountSpares (before : Daemon) (label : Event × Effect) (_ : Daemon) : Prop :=
  ∀ name job, label.2 = .unmounted name → before.worker = .executing job → job.library ≠ name

/-- Every pending or running row names a served library. -/
def LiveRowsServed (daemon : Daemon) : Prop :=
  ∀ row ∈ daemon.queue.jobs, row.state.isLive = true → row.library ∈ daemon.registry.mounted

/-- Another guard of the unmount refuses the name. -/
def RefusedAnyway (daemon : Daemon) (name : String) : Prop :=
  name ∉ daemon.registry.mounted ∨ daemon.libraryName = name ∨ daemon.registry.mounted.card = 1 ∨
    ∃ row ∈ daemon.queue.jobs, isLiveAgainst name row = true

/-- **The condition on a run's unmount requests**: one that names the library of the job being
executed while that job's row is cancelled is refused by another guard. -/
def UnmountsElsewhere (before : Daemon) (label : Event × Effect) (_ : Daemon) : Prop :=
  ∀ name job, label.1 = .unmount name → before.worker = .executing job → job.library = name →
    before.stateOf job.id = some .cancelled → RefusedAnyway before name

/-! ### Live rows -/

theorem queuedAgainst_eq_zero {queue : QueueState} {library : String} :
    queuedAgainst queue library = 0 ↔ ∀ row ∈ queue.jobs, isLiveAgainst library row = false := by
  unfold queuedAgainst
  rw [List.length_eq_zero_iff, List.filter_eq_nil_iff]
  simp

/-- A row that is live after a step was live before it, or was retried against a served library. -/
theorem RowStep.live_origin {daemon : Daemon} {event : Event} {effect : Effect}
    {job next : QueueJob} (moved : RowStep daemon event effect job next)
    (live : next.state.isLive = true) :
    job.state.isLive = true ∨ job.library ∈ daemon.registry.mounted := by
  cases moved with
  | kept => exact Or.inl live
  | cancelled jobId now _ wasLive => exact Or.inl wasLive
  | cleared now count _ pending => cases live
  | retried state jobId outcome _ retryable served => exact Or.inr served
  | started now written _ pending => exact Or.inl (by rw [pending]; rfl)
  | recorded executed result now written =>
    cases outcome : result.outcome with
    | done | skippedDuplicate | needsOcr | failed =>
      rw [outcome] at live
      cases live
  | requeued written _ starting running => exact Or.inl (by rw [running]; rfl)

/-- A step that leaves the registry alone keeps every live row served. -/
theorem liveRowsServed_of_registry {daemon after : Daemon} {event : Event} {effect : Effect}
    (served : LiveRowsServed daemon) (steps : Transition daemon event effect after)
    (same : after.registry = daemon.registry) : LiveRowsServed after := by
  intro row member live
  rw [same]
  rcases rows_origin steps member with ⟨job, present, moved⟩ | ⟨-, submitted⟩
  · rw [moved.submission.2]
    exact (moved.live_origin live).elim (served job present) id
  · exact submitted

/-- **One step keeps every live row served.** -/
theorem live_rows_served {daemon after : Daemon} {event : Event} {effect : Effect}
    (served : LiveRowsServed daemon) (steps : Transition daemon event effect after) :
    LiveRowsServed after := by
  cases steps with
  | mounted name bringUp registry mounts =>
    intro row member live
    show row.library ∈ registry.mounted
    rw [(mounterMount_mounted mounts).1]
    exact Finset.mem_insert_of_mem (served row member live)
  | unmounted name registry unmounts =>
    obtain ⟨-, -, -, uncounted, removed⟩ := mounterUnmount_ok_iff.mp unmounts
    intro row member live
    show row.library ∈ registry.mounted
    rw [unmount_mounted removed]
    refine Finset.mem_erase.mpr ⟨?_, served row member live⟩
    rintro named
    have counted := queuedAgainst_eq_zero.mp uncounted row member
    simp [isLiveAgainst, named, live] at counted
  | refused event error isRequest => exact served
  | wrote request receipt mutated fresh mutates =>
    exact liveRowsServed_of_registry served (.wrote request receipt mutated fresh mutates) rfl
  | stored | replied | polled | pulledNothing => exact served
  | recovered written starting =>
    exact liveRowsServed_of_registry served (.recovered written starting) (by simp [Daemon.recover])
  | pulled now written job index armed unpaused next found pending pulls =>
    exact liveRowsServed_of_registry served
      (.pulled now written job index armed unpaused next found pending pulls) (by simp)
  | recorded job result now written executing =>
    exact liveRowsServed_of_registry served (.recorded job result now written executing) (by simp)

/-! ### The row of the job being executed -/

/-- The row of the job being executed names the job's library, and is live or cancelled. -/
def ExecutingRow (daemon : Daemon) : Prop :=
  ∀ job, daemon.worker = .executing job → ∃ row, daemon.row job.id = some row ∧
    row.library = job.library ∧ (row.state.isLive = true ∨ row.state = .cancelled)

/-- The invariant of every run. -/
structure UnmountInvariant (daemon : Daemon) : Prop where
  distinct : DistinctIds daemon
  executing : ExecutingRow daemon
  served : LiveRowsServed daemon

/-- A live or cancelled row is live or cancelled after any step but its own outcome. -/
theorem RowStep.live_or_cancelled {daemon : Daemon} {event : Event} {effect : Effect}
    {job next : QueueJob} (moved : RowStep daemon event effect job next)
    (notRecorded : ∀ id outcome, effect ≠ .recorded id outcome)
    (state : job.state.isLive = true ∨ job.state = .cancelled) :
    next.state.isLive = true ∨ next.state = .cancelled := by
  cases moved with
  | kept => exact state
  | cancelled | cleared => exact Or.inr rfl
  | retried | started | requeued => exact Or.inl rfl
  | recorded => exact absurd rfl (notRecorded _ _)

/-- **One step keeps the invariant**, with no condition. -/
theorem unmountInvariant_step {before after : Daemon} {label : Event × Effect}
    (holds : UnmountInvariant before) (steps : Step before label after) :
    UnmountInvariant after := by
  have transition := step_transition steps
  refine ⟨transition_distinctIds holds.distinct transition, fun job executing => ?_,
    live_rows_served holds.served transition⟩
  rcases executing_cases transition executing with ⟨already, notRecorded⟩ | pulled
  · obtain ⟨row, found, library, state⟩ := holds.executing job already
    obtain ⟨next, follows, moved⟩ := row_follows transition found
    exact ⟨next, follows, moved.submission.2.trans library,
      moved.live_or_cancelled notRecorded state⟩
  · rw [pulled] at transition
    obtain ⟨-, found, running⟩ := pulled_row holds.distinct transition
    exact ⟨job, found, rfl, Or.inl (by rw [running]; rfl)⟩

/-! ### The unmount step -/

/-- What an unmount step shows: the removal exactly when no guard refuses. -/
theorem unmount_step {before after : Daemon} {name : String} {effect : Effect}
    (steps : Step before (.unmount name, effect) after) :
    effect = .unmounted name ↔ ¬ RefusedAnyway before name := by
  have steps : some (before.unmount name) = some (effect, after) := steps
  have shown : effect = (before.unmount name).1 := by rw [Option.some.inj steps]
  rw [shown]
  unfold Daemon.unmount
  have guards : (∃ registry, Mounter.unmount before.registry name
      { primary := some before.libraryName, queuedJobs := queuedAgainst before.queue name } =
        .ok registry) ↔ ¬ RefusedAnyway before name := by
    constructor
    · rintro ⟨registry, unmounts⟩
      obtain ⟨served, primary, last, uncounted, -⟩ := mounterUnmount_ok_iff.mp unmounts
      rintro (unserved | isPrimary | isLast | ⟨row, member, counted⟩)
      · exact unserved served
      · exact primary (by rw [isPrimary])
      · exact last isLast
      · rw [queuedAgainst_eq_zero.mp uncounted row member] at counted
        cases counted
    · intro passes
      simp only [RefusedAnyway, not_or, not_not, not_exists, not_and, Bool.not_eq_true] at passes
      obtain ⟨served, primary, last, uncounted⟩ := passes
      have removes : ∃ registry, before.registry.unmount name = .ok registry := by
        simp [LibraryRegistry.unmount, served]
      obtain ⟨registry, removed⟩ := removes
      exact ⟨registry, mounterUnmount_ok_iff.mpr
        ⟨served, by simpa using primary, last, queuedAgainst_eq_zero.mpr uncounted, removed⟩⟩
  rw [← guards]
  cases Mounter.unmount before.registry name
      { primary := some before.libraryName, queuedJobs := queuedAgainst before.queue name } with
  | ok registry => simp
  | error refusal => simp

/-- Only an unmount request shows a removal. -/
theorem unmounted_event {before after : Daemon} {label : Event × Effect} {name : String}
    (steps : Step before label after) (removed : label.2 = .unmounted name) :
    label.1 = .unmount name := by
  obtain ⟨event, effect⟩ := label
  have transition := step_transition steps
  cases removed
  cases transition with
  | unmounted name registry unmounts => rfl

/-- **One step**: an unmount takes the library from under the job being executed exactly when the
job's row is cancelled and no other guard refuses. -/
theorem unmountSpares_iff {before after : Daemon} {label : Event × Effect}
    (holds : UnmountInvariant before) (steps : Step before label after) :
    UnmountSpares before label after ↔ UnmountsElsewhere before label after := by
  obtain ⟨event, effect⟩ := label
  constructor
  · rintro spares name job rfl executing named -
    by_contra passes
    exact spares name job ((unmount_step steps).mpr passes) executing named
  · rintro elsewhere name job rfl executing named
    obtain rfl : event = .unmount name := unmounted_event steps rfl
    have passes := (unmount_step steps).mp rfl
    obtain ⟨row, found, library, live | cancelled⟩ := holds.executing job executing
    · refine passes (Or.inr (Or.inr (Or.inr ⟨row, (Rows.lookup_key found).1, ?_⟩)))
      simp [isLiveAgainst, library, named, live]
    · exact passes (elsewhere name job rfl executing named
        (stateOf_some.mpr ⟨row, found, cancelled⟩))

/-- **Unmounts and the worker.** In every run each pending or running row names a served library,
and no unmount removes the library of the job being executed exactly when each unmount request that
names it while its row is cancelled is refused by another guard. -/
theorem unmount_waits_for_worker_iff {start : Daemon} {trace : Trace} (distinct : DistinctIds start)
    (notExecuting : ∀ job, start.worker ≠ .executing job) (served : LiveRowsServed start)
    (run : Along Step start trace) :
    (Along UnmountSpares start trace ∧ ∀ entry ∈ trace, LiveRowsServed entry.2) ↔
      Along UnmountsElsewhere start trace := by
  have initial : UnmountInvariant start :=
    ⟨distinct, fun job executing => absurd executing (notExecuting job), served⟩
  have steps := run.invariant UnmountInvariant
    (fun _ _ _ holds steps => ⟨unmountInvariant_step holds steps, unmountSpares_iff holds steps⟩)
    initial
  refine ⟨fun spares => (steps.and spares.1).mono fun _ _ _ both => both.1.2.2.mp both.2,
    fun elsewhere => ⟨(steps.and elsewhere).mono fun _ _ _ both => both.1.2.2.mpr both.2, ?_⟩⟩
  exact fun entry member => (run.held UnmountInvariant
    (fun _ _ _ holds steps => unmountInvariant_step holds steps) initial entry member).served

/-- An unmount of `beta` while its job runs, with the row left alone. -/
def pullAndUnmount : Trace :=
  let pulled := (oneJobDaemon.pull 1 .ok).2
  [((.pull 1 .ok, .pulled (startJob 1 betaJob)), pulled),
    ((.unmount "beta", .refused (unmountErr (.refused "beta" (queuedWorkProblem 1)))), pulled)]

theorem unmount_waits_for_worker_iff_pullAndUnmount :
    Along UnmountSpares oneJobDaemon pullAndUnmount ∧
      ∀ entry ∈ pullAndUnmount, LiveRowsServed entry.2 := by
  have run : Along Step oneJobDaemon pullAndUnmount := ⟨rfl, rfl, trivial⟩
  refine (unmount_waits_for_worker_iff (by decide) (fun _ => Worker.noConfusion) ?_ run).mpr
    ⟨?_, ?_, trivial⟩
  · intro row member _
    obtain rfl : row = betaJob := List.mem_singleton.mp member
    decide
  · exact fun _ _ isUnmount => Event.noConfusion isUnmount
  · rintro name job - executing - cancelled
    cases executing
    exact absurd cancelled (by decide)

/-- The same with the running row cancelled first. -/
def pullCancelUnmount : Trace :=
  let pulled := (oneJobDaemon.pull 1 .ok).2
  let cancelled := (Request.run pulled .ok (.ingestCancel "job-1" 2)).2
  [((.pull 1 .ok, .pulled (startJob 1 betaJob)), pulled),
    ((.handle (.ingestCancel "job-1" 2) .ok, .wrote (.cancelled "job-1")), cancelled),
    ((.unmount "beta", .unmounted "beta"), (cancelled.unmount "beta").2)]

/-- **A library is unmounted under the worker**: pull, cancel, unmount. The cancelled row is not
counted, and the worker is still executing the job. -/
theorem unmounted_under_worker :
    ¬ ∀ (start : Daemon) (trace : Trace), DistinctIds start →
      (∀ job, start.worker ≠ .executing job) → LiveRowsServed start → Along Step start trace →
        Along UnmountSpares start trace ∧ ∀ entry ∈ trace, LiveRowsServed entry.2 := by
  intro claim
  have served : LiveRowsServed oneJobDaemon := by
    intro row member _
    obtain rfl : row = betaJob := List.mem_singleton.mp member
    decide
  have spares := (claim oneJobDaemon pullCancelUnmount (by decide) (fun _ => Worker.noConfusion)
    served ⟨rfl, rfl, rfl, trivial⟩).1
  exact spares.2.2.1 "beta" (startJob 1 betaJob) rfl rfl rfl

end Bookrack.Runtime
