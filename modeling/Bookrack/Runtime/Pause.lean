/-
The three copies of the pause flag: the worker's atomic, the one in memory, the one on disk.

`apply_pause` saves the document under the mutex and stores the atomic after leaving it; the worker's
outcome block saves and stores under the mutex, and after a failed save writes a constant over the
flag in memory. `pause_agrees_iff` gives the exact condition on the steps of a run under which the
three copies agree whenever nothing is in flight; `failed_save_clears_pause` is a run without it
that needs no two calls to overlap.
-/

import Bookrack.Runtime.Settle

namespace Bookrack.Runtime

open Queue Registry Run Deferred

/-- The three copies are equal. -/
def PauseAgrees (daemon : Daemon) : Prop :=
  daemon.queuePaused = daemon.queue.paused ∧ daemon.queue.paused = daemon.disk.paused

/-- **What the run should look like**: with nothing in flight the three copies are equal. -/
def PauseAgreesAtRest (daemon : Daemon) : Prop := daemon.calls = [] → PauseAgrees daemon

/-- Letting the calls in flight finish ends in agreement. -/
def PauseSettles (daemon : Daemon) : Prop :=
  ∀ trace, Finishes daemon trace → PauseAgrees (finish daemon trace)

/-! ### The condition -/

/-- No store overtakes an older one that is still owed and has the other value, unless a newer one
is owed too. -/
def StoresInOrder (before : Daemon) (event : Event) : Prop :=
  ∀ older call newer value, event = .resumeCall older.length →
    before.calls = older ++ call :: newer → call.store = some value →
    pendingStores newer = [] → ∀ last, (pendingStores older).getLast? = some last → last = value

/-- The worker pauses the queue itself only when the newest store still owed, if any, is a pause,
and its save fails only when the queue was not paused already. -/
def SelfPauseClear (before : Daemon) (event : Event) : Prop :=
  ∀ failure now written, event = .finish (.error (.process failure)) now written →
    match written with
    | .ok => ∀ last, (pendingStores before.calls).getLast? = some last → last = true
    | .failed _ => before.queue.paused = false

/-- **The condition on the steps of a run.** -/
def PauseOrderly (before : Daemon) (label : Event × Effect) (_ : Daemon) : Prop :=
  StoresInOrder before label.1 ∧ SelfPauseClear before label.1

/-! ### The invariant -/

/-- Memory and disk agree, and the stores still owed end at their value. -/
structure PauseInvariant (daemon : Daemon) : Prop where
  saved : daemon.queue.paused = daemon.disk.paused
  agrees : Agrees daemon.queue.paused (pendingStores daemon.calls) (some daemon.queuePaused)

/-- The pause flag a request's mutation leaves in the document. -/
theorem mutate_paused {registry : LibraryRegistry} {queue mutated : QueueState} {request : Request}
    {receipt : Receipt} (mutates : request.mutate registry queue = .ok (receipt, mutated)) :
    mutated.paused = request.store.getD queue.paused := by
  cases request with
  | ingestSubmit | gleanSubmit | intakeOcr =>
    cases (checkLibrary_ok mutates).2
    rfl
  | ingestCancel jobId now =>
    obtain ⟨id, -, cancels⟩ := mutate_ingestCancel mutates
    rw [cancelMatching_onlyJobs cancels]
    rfl
  | queueClear | queuePause | queueResume =>
    cases mutates
    rfl
  | queueRetry state jobId =>
    obtain ⟨selector, outcome, -, retries⟩ := mutate_queueRetry mutates
    rw [retryTerminal_onlyJobs retries]
    rfl

/-- A step that keeps the flag in memory and either saves it or leaves the disk alone, and touches
neither the atomic nor the calls, keeps the invariant. -/
theorem pauseInvariant_of_same {daemon after : Daemon} (holds : PauseInvariant daemon)
    (memory : after.queue.paused = daemon.queue.paused)
    (disk : after.disk.paused = after.queue.paused ∨ after.disk = daemon.disk)
    (flag : after.queuePaused = daemon.queuePaused)
    (stores : pendingStores after.calls = pendingStores daemon.calls) : PauseInvariant after := by
  refine ⟨?_, ?_⟩
  · rcases disk with saved | same
    · exact saved.symm
    · rw [memory, same]
      exact holds.saved
  · rw [memory, flag, stores]
    exact holds.agrees

/-- Only a resumed call and a process-level failure are subject to the condition. -/
theorem pauseOrderly_of_other {before : Daemon} {event : Event}
    (notResumed : ∀ index, event ≠ .resumeCall index)
    (notFailure : ∀ failure now written, event ≠ .finish (.error (.process failure)) now written) :
    StoresInOrder before event ∧ SelfPauseClear before event :=
  ⟨fun older _ _ _ isResume => absurd isResume (notResumed older.length),
    fun failure now written isFinish => absurd isFinish (notFailure failure now written)⟩

/-- A commit queues the request's store, if it owes one, behind the older ones. -/
theorem pauseInvariant_commit {daemon : Daemon} (holds : PauseInvariant daemon)
    {request : Request} {receipt : Receipt} {mutated : QueueState}
    (mutates : request.mutate daemon.registry daemon.queue = .ok (receipt, mutated)) :
    PauseInvariant (daemon.commit receipt request.store mutated) := by
  have paused := mutate_paused mutates
  refine ⟨rfl, ?_⟩
  show Agrees mutated.paused (pendingStores (daemon.calls ++ [_])) (some daemon.queuePaused)
  rw [pendingStores_append, pendingStores_cons, paused]
  cases request.store with
  | none => simpa [pendingStores] using holds.agrees
  | some value => simpa [pendingStores] using agrees_commit _ (pendingStores daemon.calls) value

/-- A store keeps the invariant exactly when it overtakes no older store with another value. -/
theorem pauseInvariant_stored {daemon : Daemon} (holds : PauseInvariant daemon)
    {older newer : List Call} {call : Call} {value : Bool}
    (calls : daemon.calls = older ++ call :: newer) (owed : call.store = some value) :
    PauseInvariant (daemon.storeFlag value (older ++ { call with store := none } :: newer)) ↔
      StoresInOrder daemon (.resumeCall older.length) := by
  have agrees : Agrees daemon.queue.paused (pendingStores older ++ value :: pendingStores newer)
      (some daemon.queuePaused) := by
    have holdsAgrees := holds.agrees
    rwa [calls, pendingStores_append, pendingStores_cons, owed] at holdsAgrees
  have survives := agrees_publish_iff agrees
  have stores : pendingStores (older ++ { call with store := none } :: newer) =
      pendingStores older ++ pendingStores newer := by
    rw [pendingStores_append, pendingStores_cons]
    rfl
  constructor
  · intro kept older' call' newer' value' isResume calls' owed' nothingNewer
    obtain ⟨rfl, rfl, rfl⟩ := pick_unique (calls.symm.trans calls') (Event.resumeCall.inj isResume)
    obtain rfl : value = value' := Option.some.inj (owed.symm.trans owed')
    refine survives.mp ?_ nothingNewer
    have agreesAfter := kept.agrees
    simp only [Daemon.storeFlag] at agreesAfter
    rwa [stores] at agreesAfter
  · intro inOrder
    refine ⟨holds.saved, ?_⟩
    show Agrees daemon.queue.paused
      (pendingStores (older ++ { call with store := none } :: newer)) (some value)
    rw [stores]
    exact survives.mpr (inOrder older call newer value rfl calls owed)

theorem applyOutcome_paused (queue : QueueState) (id : String) (outcome : JobOutcome)
    (now : Timestamp) : (applyOutcome queue id outcome now).paused = queue.paused := by
  unfold applyOutcome
  split <;> rfl

theorem recordedQueue_paused (queue : QueueState) (job : QueueJob) (result : RunResult)
    (now : Timestamp) :
    (recordedQueue queue job result now).paused = (result.pausesQueue || queue.paused) := by
  unfold recordedQueue
  rw [applyOutcome_paused]
  cases result.pausesQueue <;> rfl

/-- An outcome that does not pause the queue leaves the three copies alone. -/
theorem pauseInvariant_recorded_quiet {daemon : Daemon} (holds : PauseInvariant daemon)
    (job : QueueJob) {result : RunResult} (now : Timestamp) (written : SaveResult)
    (quiet : result.pausesQueue = false) :
    PauseInvariant (daemon.recordOutcome job result now written) := by
  have paused := recordedQueue_paused daemon.queue job result now
  rw [quiet, Bool.false_or] at paused
  cases written with
  | ok =>
    refine pauseInvariant_of_same holds paused (Or.inl rfl) ?_ rfl
    simp [Daemon.recordOutcome, Daemon.saveAtomic, quiet]
  | failed error =>
    simp only [Daemon.recordOutcome, quiet, Bool.false_eq_true, if_false]
    exact pauseInvariant_of_same holds paused (Or.inr rfl) rfl rfl

/-- A process-level failure keeps the invariant exactly when it meets its condition: saved, it
overtakes the stores still owed; unsaved, it writes `false` over the flag in memory. -/
theorem pauseInvariant_recorded_failure {daemon : Daemon} (holds : PauseInvariant daemon)
    (job : QueueJob) (failure : JobFailure) (now : Timestamp) (written : SaveResult) :
    PauseInvariant (daemon.recordOutcome job (.error (.process failure)) now written) ↔
      SelfPauseClear daemon (.finish (.error (.process failure)) now written) := by
  have paused := recordedQueue_paused daemon.queue job (.error (.process failure)) now
  cases written with
  | ok =>
    have memory : (daemon.recordOutcome job (.error (.process failure)) now .ok).queue.paused =
        true := paused
    constructor
    · intro kept failure' now' written' isFinish
      cases isFinish
      have agrees := kept.agrees
      rw [memory] at agrees
      exact agrees_announce_iff.mp agrees
    · intro clear
      refine ⟨rfl, ?_⟩
      rw [memory]
      exact agrees_announce_iff.mpr (clear failure now .ok rfl)
  | failed error =>
    constructor
    · intro kept failure' now' written' isFinish
      cases isFinish
      exact holds.saved.trans kept.saved.symm
    · intro clear
      have unpaused : daemon.queue.paused = false := clear failure now (.failed error) rfl
      exact pauseInvariant_of_same holds unpaused.symm (Or.inr rfl) rfl rfl

/-- The outcome block keeps the invariant exactly when a self-pause meets its condition. -/
theorem pauseInvariant_recorded {daemon : Daemon} (holds : PauseInvariant daemon) (job : QueueJob)
    (result : RunResult) (now : Timestamp) (written : SaveResult) :
    PauseInvariant (daemon.recordOutcome job result now written) ↔
      SelfPauseClear daemon (.finish result now written) := by
  cases quiet : result.pausesQueue with
  | false =>
    refine iff_of_true (pauseInvariant_recorded_quiet holds job now written quiet) ?_
    intro failure now' written' isFinish
    cases isFinish
    cases quiet
  | true =>
    cases result with
    | success success => cases quiet
    | error error =>
      cases error with
      | book failure => cases quiet
      | process failure => exact pauseInvariant_recorded_failure holds job failure now written

/-- **One step** keeps the invariant exactly when it meets the condition. -/
theorem pauseInvariant_step_iff {before after : Daemon} {label : Event × Effect}
    (holds : PauseInvariant before) (steps : Step before label after) :
    PauseInvariant after ↔ PauseOrderly before label after := by
  obtain ⟨event, effect⟩ := label
  unfold PauseOrderly
  cases step_transition steps with
  | refused event error isRequest =>
    refine iff_of_true holds (pauseOrderly_of_other ?_ ?_)
    · rintro index rfl
      cases isRequest
    · rintro failure now written rfl
      cases isRequest
  | wrote request receipt mutated fresh mutates =>
    exact iff_of_true (pauseInvariant_commit holds mutates) (pauseOrderly_of_other (by simp) (by simp))
  | stored older newer call value calls owed =>
    rw [pauseInvariant_stored holds calls owed]
    exact ⟨fun inOrder => ⟨inOrder, fun _ _ _ isFinish => Event.noConfusion isFinish⟩, And.left⟩
  | replied older newer call calls settled =>
    refine iff_of_true (pauseInvariant_of_same holds rfl (Or.inr rfl) rfl ?_) ⟨?_, ?_⟩
    · rw [calls, pendingStores_append, pendingStores_append, pendingStores_cons, settled]
      rfl
    · intro older' call' newer' value isResume calls' owed
      obtain ⟨rfl, rfl, rfl⟩ := pick_unique (calls.symm.trans calls') (Event.resumeCall.inj isResume)
      rw [settled] at owed
      cases owed
    · exact fun _ _ _ isFinish => Event.noConfusion isFinish
  | mounted | unmounted | polled | pulledNothing =>
    exact iff_of_true (pauseInvariant_of_same holds rfl (Or.inr rfl) rfl rfl)
      (pauseOrderly_of_other (by simp) (by simp))
  | recovered written starting =>
    refine iff_of_true (pauseInvariant_of_same holds ?_ ?_ ?_ ?_)
      (pauseOrderly_of_other (by simp) (by simp))
    all_goals cases written <;> simp [Daemon.recover, Daemon.saveAtomic, Daemon.publishSaved, crashRecoveryReset]
  | pulled now written job index armed unpaused next found pending pulls =>
    refine iff_of_true (pauseInvariant_of_same holds ?_ ?_ ?_ ?_)
      (pauseOrderly_of_other (by simp) (by simp))
    all_goals cases written <;> simp [Daemon.saveAtomic, Daemon.publishSaved]
  | recorded job result now written executing =>
    rw [pauseInvariant_recorded holds]
    exact ⟨fun clear => ⟨fun _ _ _ _ isResume => Event.noConfusion isResume, clear⟩, And.right⟩

/-! ### Whole runs -/

/-- The invariant is what settling in agreement means. -/
theorem pauseInvariant_iff_settles {daemon : Daemon} :
    PauseInvariant daemon ↔ PauseSettles daemon := by
  constructor
  · intro holds trace finishes
    -- The oldest call overtakes nothing, so finishing in order keeps the invariant.
    have atRest : PauseInvariant (finish daemon trace) := by
      have steps := finishes.run.and (Along.of_forall
        (Q := fun label _ => label.1 = .resumeCall 0) finishes.inOrder daemon)
      refine steps.finish_invariant PauseInvariant ?_ holds
      rintro before ⟨event, effect⟩ after invariant ⟨step, isOldest⟩
      obtain rfl : event = .resumeCall 0 := isOldest
      refine (pauseInvariant_step_iff invariant step).mpr
        ⟨?_, fun _ _ _ isFinish => Event.noConfusion isFinish⟩
      intro older call newer value isResume calls owed nothingNewer last isLast
      have none : older = [] := List.length_eq_zero_iff.mp (Event.resumeCall.inj isResume).symm
      rw [none] at isLast
      cases isLast
    refine ⟨?_, atRest.saved⟩
    have agrees := atRest.agrees
    rw [finishes.done] at agrees
    exact agrees _ rfl
  · intro settles
    obtain ⟨trace, finishes, queue, disk, flag, -⟩ := finishes_exists daemon
    have agrees := settles trace finishes
    rw [PauseAgrees, queue, disk] at agrees
    refine ⟨agrees.2, fun value isNewest => ?_⟩
    rw [← flag, Option.some.injEq] at isNewest
    rw [← isNewest]
    exact agrees.1

/-- **The pause flag.** In a run whose steps meet the condition, the three copies of the pause flag
are equal whenever nothing is in flight; and the steps meet the condition exactly when every state
of the run settles in agreement. -/
theorem pause_agrees_iff {start : Daemon} {trace : Trace} (atRest : start.calls = [])
    (agrees : PauseAgrees start) (run : Along Step start trace) :
    (Along PauseOrderly start trace → ∀ entry ∈ trace, PauseAgreesAtRest entry.2) ∧
      (Along PauseOrderly start trace ↔ ∀ entry ∈ trace, PauseSettles entry.2) := by
  have initial : PauseInvariant start := by
    refine ⟨agrees.2, ?_⟩
    rw [atRest, agrees.1]
    rintro value isNewest
    exact (Option.some.inj isNewest).symm
  have settles : Along PauseOrderly start trace → ∀ entry ∈ trace, PauseSettles entry.2 := by
    intro orderly entry member
    exact pauseInvariant_iff_settles.mp ((run.and orderly).held PauseInvariant
      (fun _ _ _ holds met => (pauseInvariant_step_iff holds met.1).mpr met.2) initial entry member)
  refine ⟨fun orderly entry member rest => ?_, settles, fun settled => ?_⟩
  · exact settles orderly entry member [] ⟨trivial, by simp, rest⟩
  · clear settles atRest agrees
    induction trace generalizing start with
    | nil => exact trivial
    | cons entry rest ih =>
      have next := pauseInvariant_iff_settles.mpr (settled entry List.mem_cons_self)
      exact ⟨(pauseInvariant_step_iff initial run.1).mp next,
        ih run.2 next fun later member => settled later (List.mem_cons_of_mem _ member)⟩

/-- A pause from its locked section to its reply. -/
def pauseFrom (daemon : Daemon) : Trace :=
  let saved := (Request.run daemon .ok .queuePause).2
  let stored := saved.storeFlag true (saved.calls.map fun call => { call with store := none })
  [((.handle .queuePause .ok, .wrote (.paused true)), saved),
    ((.resumeCall 0, .stored true), stored),
    ((.resumeCall 0, .replied (.paused true)),
      { stored with lastTick := some (deriveTick saved.queue none), calls := [] })]

/-- A store is in order when none of the older calls owes one. -/
theorem pauseOrderly_of_nothingOlder {before after : Daemon} {index : Nat} {effect : Effect}
    (none : pendingStores (before.calls.take index) = []) :
    PauseOrderly before (.resumeCall index, effect) after := by
  refine ⟨?_, fun _ _ _ isFinish => Event.noConfusion isFinish⟩
  intro older call newer value isResume calls owed nothingNewer last isLast
  rw [Event.resumeCall.inj isResume, calls, List.take_left] at none
  rw [none] at isLast
  cases isLast

/-- The daemon after the next unlocked step of the call at `index`. -/
def Daemon.resumed (daemon : Daemon) (index : Nat) : Daemon :=
  ((daemon.resumeCall index).map Prod.snd).getD daemon

/-- A pause and a resume with both locked sections before the first store; the resume replies
first. -/
def pauseThenResume : Trace :=
  let paused := (Request.run oneJobDaemon .ok .queuePause).2
  let overlapping := (Request.run paused .ok .queueResume).2
  let stored := overlapping.resumed 0
  let both := stored.resumed 1
  let replied := both.resumed 1
  [((.handle .queuePause .ok, .wrote (.paused true)), paused),
    ((.handle .queueResume .ok, .wrote (.paused false)), overlapping),
    ((.resumeCall 0, .stored true), stored),
    ((.resumeCall 1, .stored false), both),
    ((.resumeCall 1, .replied (.paused false)), replied),
    ((.resumeCall 0, .replied (.paused true)), replied.resumed 0)]

theorem pause_agrees_iff_pauseThenResume :
    (∀ entry ∈ pauseThenResume, PauseAgreesAtRest entry.2) ∧
      ∀ entry ∈ pauseThenResume, PauseSettles entry.2 := by
  have run : Along Step oneJobDaemon pauseThenResume := ⟨rfl, rfl, rfl, rfl, rfl, rfl, trivial⟩
  have orderly : Along PauseOrderly oneJobDaemon pauseThenResume := by
    refine ⟨pauseOrderly_of_other (by simp) (by simp), pauseOrderly_of_other (by simp) (by simp),
      ?_, ?_, ?_, ?_, trivial⟩
    all_goals exact pauseOrderly_of_nothingOlder rfl
  obtain ⟨agrees, settles⟩ := pause_agrees_iff rfl ⟨rfl, rfl⟩ run
  exact ⟨agrees orderly, settles.mp orderly⟩

/-- The queue is paused while a job runs; the job then fails with the process out of descriptors,
and so does the save of its outcome. -/
def pauseThenFailure : Trace :=
  let pulled := (oneJobDaemon.pull 1 .ok).2
  let paused := finish pulled (pauseFrom pulled)
  let failure := RunResult.error (.process { message := "too many open files", problem := none })
  [((.pull 1 .ok, .pulled (startJob 1 betaJob)), pulled)] ++ pauseFrom pulled ++
    [((.finish failure 2 (.failed "too many open files"), .recorded "job-1" failure.outcome),
      paused.recordOutcome (startJob 1 betaJob) failure 2 (.failed "too many open files"))]

/-- **A failed save clears the pause in memory**: the running daemon then holds an unpaused document
while the disk and the worker's flag say paused, with nothing in flight. -/
theorem failed_save_clears_pause :
    ¬ ∀ (start : Daemon) (trace : Trace), start.calls = [] → PauseAgrees start →
      Along Step start trace → ∀ entry ∈ trace, PauseAgreesAtRest entry.2 := by
  intro claim
  have run : Along Step oneJobDaemon pauseThenFailure := ⟨rfl, rfl, rfl, rfl, rfl, trivial⟩
  have agrees := claim oneJobDaemon pauseThenFailure rfl ⟨rfl, rfl⟩ run _
    (List.mem_append_right _ (List.mem_singleton_self _)) rfl
  exact absurd agrees.2 (by decide)

end Bookrack.Runtime
