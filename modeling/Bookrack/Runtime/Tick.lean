/-
The last tick published against the document on disk.

A handler derives its tick under the queue mutex and publishes it after leaving it; the worker
publishes under the mutex. `ticks_current_iff` gives the exact condition on the steps of a run under
which the last tick shows the saved document whenever nothing is in flight; `stale_tick_published`
is two handlers publishing the other way round.
-/

import Bookrack.Runtime.Settle

namespace Bookrack.Runtime

open Queue Registry Run Deferred

/-! ### What a tick shows of a document -/

/-- The counts and the current id of a tick. -/
def QueueTick.view (tick : QueueTick) : Option String × Nat × Nat :=
  (tick.current, tick.pending, tick.running)

/-- What a tick derived from a document shows. -/
def tickView (document : QueueState) : Option String × Nat × Nat := (deriveTick document none).view

theorem countJob_view {first second : QueueTick} (same : first.view = second.view)
    (job : QueueJob) : (countJob first job).view = (countJob second job).view := by
  simp only [QueueTick.view, Prod.mk.injEq] at same
  obtain ⟨current, pending, running⟩ := same
  unfold countJob
  cases job.state <;> simp [QueueTick.view, current, pending, running]

/-- The outcome a tick carries does not change what it shows of the document. -/
theorem deriveTick_view (document : QueueState) (lastFinished : Option JobOutcomeSummary) :
    (deriveTick document lastFinished).view = tickView document := by
  have loop : ∀ (jobs : List QueueJob) (first second : QueueTick), first.view = second.view →
      (jobs.foldl countJob first).view = (jobs.foldl countJob second).view := by
    intro jobs
    induction jobs with
    | nil => exact fun _ _ same => same
    | cons job rest ih => exact fun _ _ same => ih _ _ (countJob_view same job)
  exact loop document.jobs _ _ rfl

theorem tickView_jobs {first second : QueueState} (same : first.jobs = second.jobs) :
    tickView first = tickView second := by
  unfold tickView deriveTick
  rw [same]

/-- The last tick published shows the saved document. -/
def TickCurrent (daemon : Daemon) : Prop :=
  ∀ tick, daemon.lastTick = some tick → tick.view = tickView daemon.disk

/-- **What the run should look like**: with nothing in flight the last tick shows the saved
document. -/
def TickCurrentAtRest (daemon : Daemon) : Prop := daemon.calls = [] → TickCurrent daemon

/-- Letting the calls in flight finish ends with a current tick. -/
def TickSettles (daemon : Daemon) : Prop :=
  ∀ trace, Finishes daemon trace → TickCurrent (finish daemon trace)

/-! ### The condition -/

/-- No handler publishes the newest tick ahead of an older one that shows something else. -/
def TicksInOrder (before : Daemon) (event : Event) : Prop :=
  ∀ older call, event = .resumeCall older.length → before.calls = older ++ [call] →
    call.store = none → ∀ last, older.getLast? = some last → last.tick.view = call.tick.view

/-- The document a worker step saves, when it pulls, records an outcome or recovers. -/
def workerDocument (before : Daemon) : Event → Option QueueState
  | .recover .ok => some (crashRecoveryReset before.queue)
  | .pull now .ok =>
    match pullPending before.queue now with
    | (some _, queue) => some queue
    | (none, _) => none
  | .finish result now .ok =>
    match before.worker with
    | .executing job => some (recordedQueue before.queue job result now)
    | _ => none
  | _ => none

/-- The worker publishes while the newest tick still to come, if any, shows the document the worker
saves. -/
def WorkerTickClear (before : Daemon) (event : Event) : Prop :=
  ∀ document, workerDocument before event = some document →
    ∀ last, before.calls.getLast? = some last → last.tick.view = tickView document

/-- **The condition on the steps of a run.** -/
def TickOrderly (before : Daemon) (label : Event × Effect) (_ : Daemon) : Prop :=
  TicksInOrder before label.1 ∧ WorkerTickClear before label.1

/-! ### The invariant -/

/-- What the ticks still to be published show, oldest first. -/
def pendingViews (calls : List Call) : List (Option String × Nat × Nat) :=
  (pendingTicks calls).map QueueTick.view

/-- The ticks still to come end at what the saved document shows. -/
def TickInvariant (daemon : Daemon) : Prop :=
  Agrees (tickView daemon.disk) (pendingViews daemon.calls) (daemon.lastTick.map QueueTick.view)

theorem pendingViews_append (first second : List Call) :
    pendingViews (first ++ second) = pendingViews first ++ pendingViews second := by
  simp [pendingViews, pendingTicks]

theorem pendingViews_getLast? (calls : List Call) :
    (pendingViews calls).getLast? = calls.getLast?.map fun call => call.tick.view := by
  simp [pendingViews, pendingTicks, List.getLast?_map, Function.comp_def]

theorem lastView_iff {calls : List Call} {view : Option String × Nat × Nat} :
    (∀ last, (pendingViews calls).getLast? = some last → last = view) ↔
      ∀ last, calls.getLast? = some last → last.tick.view = view := by
  rw [pendingViews_getLast?]
  cases calls.getLast? <;> simp

/-- A handler's commit queues a tick that shows what it saved. -/
theorem tickInvariant_commit (daemon : Daemon) (receipt : Receipt) (store : Option Bool)
    (mutated : QueueState) : TickInvariant (daemon.commit receipt store mutated) := by
  show Agrees (tickView _) (pendingViews (daemon.calls ++ [_])) _
  rw [pendingViews_append]
  exact agrees_commit _ _ _

/-- A reply publishes the call's tick: it keeps the invariant exactly when the tick overtakes none
that shows something else. -/
theorem tickInvariant_replied {daemon : Daemon} (holds : TickInvariant daemon)
    {older newer : List Call} {call : Call} (calls : daemon.calls = older ++ call :: newer)
    (settled : call.store = none) :
    TickInvariant { daemon with lastTick := some call.tick, calls := older ++ newer } ↔
      TicksInOrder daemon (.resumeCall older.length) := by
  have agrees : Agrees (tickView daemon.disk)
      (pendingViews older ++ call.tick.view :: pendingViews newer)
      (daemon.lastTick.map QueueTick.view) := by
    have holdsAgrees := holds
    rwa [TickInvariant, calls, pendingViews_append] at holdsAgrees
  have survives := agrees_publish_iff agrees
  rw [lastView_iff] at survives
  unfold TickInvariant
  rw [pendingViews_append, show (some call.tick).map QueueTick.view = some call.tick.view from rfl,
    survives]
  have newest : pendingViews newer = [] ↔ newer = [] := by simp [pendingViews, pendingTicks]
  rw [newest]
  constructor
  · intro inOrder older' call' isResume calls' _
    obtain ⟨rfl, rfl, rfl⟩ := pick_unique (calls.symm.trans calls') (Event.resumeCall.inj isResume)
    exact inOrder rfl
  · rintro inOrder rfl
    exact inOrder older call rfl calls settled

/-- A worker step that saves and publishes keeps the invariant exactly when the newest tick still to
come shows the same. -/
theorem tickInvariant_announced {before after : Daemon} {event : Event} (document : QueueState)
    {lastFinished : Option JobOutcomeSummary} (notResumed : ∀ index, event ≠ .resumeCall index)
    (saves : workerDocument before event = some document)
    (disk : after.disk.jobs = document.jobs) (calls : after.calls = before.calls)
    (published : after.lastTick = some (deriveTick after.disk lastFinished)) :
    TickInvariant after ↔ TicksInOrder before event ∧ WorkerTickClear before event := by
  have agrees : TickInvariant after ↔
      ∀ last, before.calls.getLast? = some last → last.tick.view = tickView document := by
    unfold TickInvariant
    rw [calls, published, Option.map_some, deriveTick_view, agrees_announce_iff, lastView_iff,
      tickView_jobs disk]
  rw [agrees]
  constructor
  · intro clear
    refine ⟨fun older _ isResume => absurd isResume (notResumed older.length), ?_⟩
    intro saved saves'
    rw [saves, Option.some.injEq] at saves'
    rw [← saves']
    exact clear
  · intro met
    exact met.2 document saves

/-- A step that saves nothing and publishes nothing keeps the invariant. -/
theorem tickInvariant_of_same {daemon after : Daemon} (holds : TickInvariant daemon)
    (disk : after.disk = daemon.disk) (calls : pendingTicks after.calls = pendingTicks daemon.calls)
    (lastTick : after.lastTick = daemon.lastTick) : TickInvariant after := by
  unfold TickInvariant pendingViews
  rw [disk, calls, lastTick]
  exact holds

/-- Only a resumed call and a worker step that saves are subject to the condition. -/
theorem tickOrderly_of_other {before : Daemon} {event : Event}
    (notResumed : ∀ index, event ≠ .resumeCall index)
    (unsaved : workerDocument before event = none) :
    TicksInOrder before event ∧ WorkerTickClear before event := by
  refine ⟨fun older _ isResume => absurd isResume (notResumed older.length), ?_⟩
  intro document saves
  rw [unsaved] at saves
  cases saves

/-- **One step** keeps the invariant exactly when it meets the condition. -/
theorem tickInvariant_step_iff {before after : Daemon} {label : Event × Effect}
    (holds : TickInvariant before) (steps : Step before label after) :
    TickInvariant after ↔ TickOrderly before label after := by
  obtain ⟨event, effect⟩ := label
  unfold TickOrderly
  cases step_transition steps with
  | refused event error isRequest =>
    refine iff_of_true holds (tickOrderly_of_other ?_ ?_)
    · rintro index rfl
      cases isRequest
    · cases event <;> first | rfl | cases isRequest
  | wrote request receipt mutated fresh mutates =>
    exact iff_of_true (tickInvariant_commit before receipt request.store mutated)
      (tickOrderly_of_other (by simp) rfl)
  | stored older newer call value calls owed =>
    refine iff_of_true (tickInvariant_of_same holds rfl ?_ rfl)
      ⟨?_, fun _ saves => absurd saves.symm (Option.some_ne_none _)⟩
    · rw [calls]
      simp [Daemon.storeFlag, pendingTicks]
    · intro older' call' isResume calls' settled
      obtain ⟨rfl, rfl, rfl⟩ := pick_unique (calls.symm.trans calls') (Event.resumeCall.inj isResume)
      rw [owed] at settled
      cases settled
  | replied older newer call calls settled =>
    rw [tickInvariant_replied holds calls settled]
    exact ⟨fun inOrder => ⟨inOrder, fun _ saves => absurd saves.symm (Option.some_ne_none _)⟩, And.left⟩
  | mounted | unmounted | polled =>
    exact iff_of_true (tickInvariant_of_same holds rfl rfl rfl) (tickOrderly_of_other (by simp) rfl)
  | recovered written starting =>
    cases written with
    | ok => exact tickInvariant_announced (crashRecoveryReset before.queue) (by simp) rfl rfl rfl rfl
    | failed error =>
      exact iff_of_true (tickInvariant_of_same holds rfl rfl rfl) (tickOrderly_of_other (by simp) rfl)
  | pulledNothing now written armed pulls =>
    refine iff_of_true (tickInvariant_of_same holds rfl rfl rfl) (tickOrderly_of_other (by simp) ?_)
    cases written with
    | ok => simp only [workerDocument, pulls]
    | failed error => rfl
  | pulled now written job index armed unpaused next found pending pulls =>
    cases written with
    | ok =>
      refine tickInvariant_announced
        { before.queue with jobs := before.queue.jobs.modify index (startJob now) }
        (by simp) ?_ rfl rfl rfl
      simp only [workerDocument, pulls]
    | failed error =>
      exact iff_of_true (tickInvariant_of_same holds rfl rfl rfl) (tickOrderly_of_other (by simp) rfl)
  | recorded job result now written executing =>
    cases written with
    | ok =>
      refine tickInvariant_announced (recordedQueue before.queue job result now) (by simp) ?_ rfl
        rfl rfl
      simp only [workerDocument, executing]
    | failed error =>
      refine iff_of_true (tickInvariant_of_same holds ?_ ?_ ?_) (tickOrderly_of_other (by simp) rfl)
      all_goals
        simp only [Daemon.recordOutcome]
        split <;> rfl

/-! ### Whole runs -/

/-- The invariant is what settling on a current tick means. -/
theorem tickInvariant_iff_settles {daemon : Daemon} :
    TickInvariant daemon ↔ TickSettles daemon := by
  constructor
  · intro holds trace finishes
    -- The oldest call overtakes nothing, so finishing in order keeps the invariant.
    have atRest : TickInvariant (finish daemon trace) := by
      have steps := finishes.run.and (Along.of_forall
        (Q := fun label _ => label.1 = .resumeCall 0) finishes.inOrder daemon)
      refine steps.finish_invariant TickInvariant ?_ holds
      rintro before ⟨event, effect⟩ after invariant ⟨step, isOldest⟩
      obtain rfl : event = .resumeCall 0 := isOldest
      refine (tickInvariant_step_iff invariant step).mpr ⟨?_, fun _ saves => nomatch saves⟩
      intro older call isResume calls settled last isLast
      have none : older = [] := List.length_eq_zero_iff.mp (Event.resumeCall.inj isResume).symm
      rw [none] at isLast
      cases isLast
    intro tick published
    rw [TickInvariant, finishes.done, published] at atRest
    exact atRest _ rfl
  · intro settles
    obtain ⟨trace, finishes, -, disk, -, lastTick⟩ := finishes_exists daemon
    have current := settles trace finishes
    rw [TickCurrent, disk, lastTick] at current
    intro view isNewest
    have newestView : (newest daemon.lastTick (pendingTicks daemon.calls)).map QueueTick.view =
        some view := by
      rw [← isNewest, newest, newest, pendingViews, List.getLast?_map]
      cases (pendingTicks daemon.calls).getLast? <;> rfl
    obtain ⟨tick, isLast, rfl⟩ := Option.map_eq_some_iff.mp newestView
    exact current tick isLast

/-- **The last tick.** In a run whose steps meet the condition, the last tick published shows the
saved document whenever nothing is in flight; and the steps meet the condition exactly when every
state of the run settles on a current tick. -/
theorem ticks_current_iff {start : Daemon} {trace : Trace} (atRest : start.calls = [])
    (current : TickCurrent start) (run : Along Step start trace) :
    (Along TickOrderly start trace → ∀ entry ∈ trace, TickCurrentAtRest entry.2) ∧
      (Along TickOrderly start trace ↔ ∀ entry ∈ trace, TickSettles entry.2) := by
  have initial : TickInvariant start := by
    intro view isNewest
    rw [atRest] at isNewest
    obtain ⟨tick, published, rfl⟩ := Option.map_eq_some_iff.mp isNewest
    exact current tick published
  have settles : Along TickOrderly start trace → ∀ entry ∈ trace, TickSettles entry.2 := by
    intro orderly entry member
    exact tickInvariant_iff_settles.mp ((run.and orderly).held TickInvariant
      (fun _ _ _ holds met => (tickInvariant_step_iff holds met.1).mpr met.2) initial entry member)
  refine ⟨fun orderly entry member rest => ?_, settles, fun settled => ?_⟩
  · exact settles orderly entry member [] ⟨trivial, by simp, rest⟩
  · clear settles atRest current
    induction trace generalizing start with
    | nil => exact trivial
    | cons entry rest ih =>
      have next := tickInvariant_iff_settles.mpr (settled entry List.mem_cons_self)
      exact ⟨(tickInvariant_step_iff initial run.1).mp next,
        ih run.2 next fun later member => settled later (List.mem_cons_of_mem _ member)⟩

theorem oneJobDaemon_tickCurrent : TickCurrent oneJobDaemon := by
  intro tick published
  cases published

/-- A submit of one more file. -/
def submitSecond : Request :=
  .ingestSubmit [("b.epub", { id := "job-2", now := 1 })] "main" .normal false false none

/-- A submit from its locked section to its reply. -/
def submitFrom (daemon : Daemon) : Trace :=
  let saved := (Request.run daemon .ok submitSecond).2
  [((.handle submitSecond .ok, .wrote (.submitted ["job-2"])), saved),
    ((.resumeCall 0, .replied (.submitted ["job-2"])),
      { saved with lastTick := some (deriveTick saved.queue none), calls := [] })]

theorem ticks_current_iff_submitFrom : Along TickOrderly oneJobDaemon (submitFrom oneJobDaemon) ∧
    ∀ entry ∈ submitFrom oneJobDaemon, TickCurrentAtRest entry.2 := by
  have run : Along Step oneJobDaemon (submitFrom oneJobDaemon) := ⟨rfl, rfl, trivial⟩
  have orderly : Along TickOrderly oneJobDaemon (submitFrom oneJobDaemon) := by
    refine ⟨tickOrderly_of_other (by simp) rfl, ⟨?_, fun _ saves => nomatch saves⟩, trivial⟩
    intro older call isResume calls settled last isLast
    have none : older = [] := List.length_eq_zero_iff.mp (Event.resumeCall.inj isResume).symm
    rw [none] at isLast
    cases isLast
  exact ⟨orderly, (ticks_current_iff rfl oneJobDaemon_tickCurrent run).1 orderly⟩

/-- A submit and a clear save in that order and publish in the other. -/
def submitAndClear : Trace :=
  let submitted := (Request.run oneJobDaemon .ok submitSecond).2
  let cleared := (Request.run submitted .ok (.queueClear 2)).2
  let clearPublished :=
    { cleared with lastTick := some (deriveTick cleared.queue none), calls := submitted.calls }
  [((.handle submitSecond .ok, .wrote (.submitted ["job-2"])), submitted),
    ((.handle (.queueClear 2) .ok, .wrote (.cleared 2)), cleared),
    ((.resumeCall 1, .replied (.cleared 2 false)), clearPublished),
    ((.resumeCall 0, .replied (.submitted ["job-2"])),
      { clearPublished with lastTick := some (deriveTick submitted.queue none), calls := [] })]

/-- **A stale tick is published last**: the clear's tick overtakes the submit's, and with nothing in
flight the last tick shows two pending rows where the saved document has none. -/
theorem stale_tick_published :
    ¬ ∀ (start : Daemon) (trace : Trace), start.calls = [] → TickCurrent start →
      Along Step start trace → ∀ entry ∈ trace, TickCurrentAtRest entry.2 := by
  intro claim
  have run : Along Step oneJobDaemon submitAndClear := ⟨rfl, rfl, rfl, rfl, trivial⟩
  have current := claim oneJobDaemon submitAndClear rfl oneJobDaemon_tickCurrent run _
    (List.mem_cons_of_mem _ (List.mem_cons_of_mem _ (List.mem_cons_of_mem _
      (List.mem_singleton_self _)))) rfl
  exact absurd (current _ rfl) (by decide)

end Bookrack.Runtime
