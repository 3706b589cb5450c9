/-
Which row the worker pulls, and how many it has running.

* `nextPending_first` — the next row is pending, no pending row has a higher priority, and none of
  its own priority stands before it.
* `singleFlight_step` — what links the worker's phase to the running rows is kept by every step:
  none runs while it rests, and only the row of its job while it executes.
* **`pull_order_and_single_flight`** — both for every daemon a run can reach, restarts included.
  Cancels are not excluded: a cancelled row is not running, and a retried one waits for the worker.
-/

import Bookrack.Runtime.RowStep

namespace Bookrack.Runtime

open Queue Registry

/-! ### The order of the pulls -/

/-- The priorities in the order the pull tries them, the highest last. -/
def rank : Priority → Nat
  | .low => 0
  | .normal => 1
  | .high => 2

/-- The row at `index` is the next one: pending, no pending row above it, none of its priority
before it. -/
def IsNext (jobs : List QueueJob) (index : Nat) (job : QueueJob) : Prop :=
  jobs[index]? = some job ∧ job.state = .pending ∧
    ∀ position other, jobs[position]? = some other → other.state = .pending →
      rank other.priority ≤ rank job.priority ∧ (other.priority = job.priority → index ≤ position)

theorem firstPending_eq_some {jobs : List QueueJob} {priority : Priority} {index : Nat}
    (first : firstPending jobs priority = some index) :
    ∃ job, jobs[index]? = some job ∧ job.state = .pending ∧ job.priority = priority ∧
      ∀ position other, jobs[position]? = some other → other.state = .pending →
        other.priority = priority → index ≤ position := by
  obtain ⟨inside, isHere, before⟩ := List.findIdx?_eq_some_iff_getElem.mp first
  simp only [Bool.and_eq_true, beq_iff_eq] at isHere
  refine ⟨jobs[index], List.getElem?_eq_getElem inside, isHere.1, isHere.2, ?_⟩
  intro position other present isPending isPriority
  by_contra earlier
  obtain ⟨isInside, rfl⟩ := List.getElem?_eq_some_iff.mp present
  exact before position (Nat.lt_of_not_le earlier) (by simp [isPending, isPriority])

theorem firstPending_eq_none {jobs : List QueueJob} {priority : Priority}
    (none : firstPending jobs priority = none) {position : Nat} {other : QueueJob}
    (present : jobs[position]? = some other) (isPending : other.state = .pending) :
    other.priority ≠ priority := by
  intro isPriority
  have misses := List.findIdx?_eq_none_iff.mp none other (List.mem_of_getElem? present)
  simp [isPending, isPriority] at misses

/-- **The next row of a queue.** -/
theorem nextPending_first {jobs : List QueueJob} {index : Nat}
    (next : nextPending jobs = some index) : ∃ job, IsNext jobs index job := by
  simp only [nextPending, List.findSome?_cons] at next
  -- One case for each priority; those tried before it have no pending row.
  cases high : firstPending jobs .high with
  | some first =>
    rw [high] at next
    obtain rfl := Option.some.inj next
    obtain ⟨job, found, isPending, isHigh, before⟩ := firstPending_eq_some high
    refine ⟨job, found, isPending, fun position other present waits => ⟨?_, ?_⟩⟩
    · rw [isHigh]
      cases other.priority <;> decide
    · exact fun same => before position other present waits (same.trans isHigh)
  | none =>
    rw [high] at next
    cases normal : firstPending jobs .normal with
    | some first =>
      rw [normal] at next
      obtain rfl := Option.some.inj next
      obtain ⟨job, found, isPending, isNormal, before⟩ := firstPending_eq_some normal
      refine ⟨job, found, isPending, fun position other present waits => ⟨?_, ?_⟩⟩
      · have notHigh := firstPending_eq_none high present waits
        rw [isNormal]
        revert notHigh
        cases other.priority <;> decide
      · exact fun same => before position other present waits (same.trans isNormal)
    | none =>
      rw [normal] at next
      cases low : firstPending jobs .low with
      | some first =>
        rw [low] at next
        obtain rfl := Option.some.inj next
        obtain ⟨job, found, isPending, isLow, before⟩ := firstPending_eq_some low
        refine ⟨job, found, isPending, fun position other present waits => ⟨?_, ?_⟩⟩
        · have notHigh := firstPending_eq_none high present waits
          have notNormal := firstPending_eq_none normal present waits
          rw [isLow]
          revert notHigh notNormal
          cases other.priority <;> decide
        · exact fun same => before position other present waits (same.trans isLow)
      | none =>
        rw [low] at next
        cases next

/-- Where a row is pending there is a next one. -/
theorem nextPending_isSome {jobs : List QueueJob} {job : QueueJob} (isJob : job ∈ jobs)
    (isPending : job.state = .pending) : nextPending jobs ≠ none := by
  intro none
  have misses := List.findSome?_eq_none_iff.mp none job.priority (by cases job.priority <;> decide)
  obtain ⟨position, present⟩ := List.mem_iff_getElem?.mp isJob
  exact firstPending_eq_none misses present isPending rfl

/-- A pull that is not paused hands out a row where one is pending. -/
theorem pull_some {daemon after : Daemon} {now : Timestamp} {written : SaveResult} {effect : Effect}
    {job : QueueJob} (steps : Step daemon (.pull now written, effect) after)
    (unpaused : daemon.queue.paused = false) (isJob : job ∈ daemon.queue.jobs)
    (isPending : job.state = .pending) : ∃ pulled, effect = .pulled pulled := by
  cases step_transition steps with
  | refused event error isRequest => cases isRequest
  | pulled now written job index => exact ⟨_, rfl⟩
  | pulledNothing now written armed pulls =>
    unfold pullPending at pulls
    rw [unpaused, if_neg Bool.false_ne_true] at pulls
    obtain ⟨index, next⟩ := Option.ne_none_iff_exists'.mp (nextPending_isSome isJob isPending)
    obtain ⟨first, isNext⟩ := nextPending_first next
    simp [next, isNext.1] at pulls

/-- A pull hands out the next row, marked running, and that is all it does to the rows. -/
def PullsNext (before : QueueState) (now : Timestamp) (pulled : QueueJob) (after : QueueState) :
    Prop :=
  ∃ index job, IsNext before.jobs index job ∧ pulled = startJob now job ∧
    after.jobs = before.jobs.set index pulled

theorem pull_next {daemon after : Daemon} {now : Timestamp} {written : SaveResult} {pulled : QueueJob}
    (steps : Step daemon (.pull now written, .pulled pulled) after) :
    PullsNext daemon.queue now pulled after.queue := by
  cases step_transition steps with
  | pulled now written job index armed unpaused next found pending pulls =>
    obtain ⟨first, isNext⟩ := nextPending_first next
    obtain rfl : job = first := Option.some.inj (found.symm.trans isNext.1)
    refine ⟨index, job, isNext, rfl, ?_⟩
    rw [publishSaved_queue, saveAtomic_jobs]
    refine List.ext_getElem? fun position => ?_
    rw [List.getElem?_modify, List.getElem?_set]
    by_cases isHere : index = position
    · obtain ⟨inside, rfl⟩ := List.getElem?_eq_some_iff.mp found
      subst isHere
      simp [inside]
    · simp [isHere]

/-! ### Single flight -/

/-- Any two running rows have the same id. -/
def OneRunning (jobs : List QueueJob) : Prop :=
  ∀ row ∈ jobs, ∀ other ∈ jobs, row.state = .running → other.state = .running → row.id = other.id

/-- The running rows the worker's phase allows. -/
def FitsWorker (jobs : List QueueJob) : Worker → Prop
  | .starting => OneRunning jobs
  | .idle | .armed => ∀ row ∈ jobs, row.state ≠ .running
  | .executing job => ∀ row ∈ jobs, row.state = .running → row.id = job.id

/-- The invariant. The document on disk is the one a later process starts from. -/
structure SingleFlight (daemon : Daemon) : Prop where
  distinct : DistinctIds daemon
  phase : FitsWorker daemon.queue.jobs daemon.worker
  diskDistinct : (daemon.disk.jobs.map QueueJob.id).Nodup
  disk : OneRunning daemon.disk.jobs

theorem FitsWorker.oneRunning {jobs : List QueueJob} {worker : Worker}
    (fits : FitsWorker jobs worker) : OneRunning jobs := by
  intro row member other otherMember running otherRunning
  cases worker with
  | starting => exact fits row member other otherMember running otherRunning
  | idle | armed => exact absurd running (fits row member)
  | executing job => exact (fits row member running).trans (fits other otherMember otherRunning).symm

/-- A table whose running rows were all running before fits the same phase. -/
theorem FitsWorker.of_origin {before after : List QueueJob} {worker : Worker}
    (fits : FitsWorker before worker)
    (origin : ∀ row ∈ after, row.state = .running → ∃ old ∈ before, old.state = .running ∧ old.id = row.id) :
    FitsWorker after worker := by
  cases worker with
  | starting =>
    intro row member other otherMember running otherRunning
    obtain ⟨old, isOld, oldRunning, sameId⟩ := origin row member running
    obtain ⟨old', isOld', oldRunning', sameId'⟩ := origin other otherMember otherRunning
    rw [← sameId, ← sameId']
    exact fits old isOld old' isOld' oldRunning oldRunning'
  | idle | armed =>
    intro row member running
    obtain ⟨old, isOld, oldRunning, -⟩ := origin row member running
    exact fits old isOld oldRunning
  | executing job =>
    intro row member running
    obtain ⟨old, isOld, oldRunning, sameId⟩ := origin row member running
    rw [← sameId]
    exact fits old isOld oldRunning

/-- Only a pull sets a row running. -/
theorem running_origin {daemon after : Daemon} {event : Event} {effect : Effect}
    (steps : Transition daemon event effect after) (notPulled : ∀ job, effect ≠ .pulled job) :
    ∀ row ∈ after.queue.jobs, row.state = .running →
      ∃ old ∈ daemon.queue.jobs, old.state = .running ∧ old.id = row.id := by
  intro row member running
  rcases rows_origin steps member with ⟨old, isOld, moved⟩ | ⟨pending, -⟩
  · cases moved with
    | kept => exact ⟨_, isOld, running, rfl⟩
    | started now written job pending => exact absurd rfl (notPulled _)
    | recorded executed result now written job executing isExecuted =>
      cases outcome : result.outcome <;> simp [outcome, recordOutcome] at running
    | cancelled | cleared => simp [cancelJob] at running
    | retried => simp [resetForRetry] at running
    | requeued => simp [requeueJob] at running
  · simp [running] at pending

/-- The document on disk after a step is the one in memory, or the one that was there. -/
theorem transition_disk {daemon after : Daemon} {event : Event} {effect : Effect}
    (steps : Transition daemon event effect after) :
    after.disk = daemon.disk ∨ after.disk.jobs = after.queue.jobs := by
  cases steps with
  | refused | stored | replied | mounted | unmounted | polled | pulledNothing => exact .inl rfl
  | wrote => exact .inr rfl
  | recovered written => cases written <;> first | exact .inr rfl | exact .inl rfl
  | pulled now written => cases written <;> first | exact .inr rfl | exact .inl rfl
  | recorded job result now written executing =>
    cases written with
    | ok => exact .inr rfl
    | failed error =>
      refine .inl ?_
      simp only [Daemon.recordOutcome]
      split <;> rfl

/-- An outcome marks a row with its id, where there is one. -/
theorem applyOutcome_marks (queue : QueueState) {id : String} (outcome : JobOutcome)
    (now : Timestamp) {old : QueueJob} (isOld : old ∈ queue.jobs) (sameId : old.id = id) :
    ∃ marked ∈ (applyOutcome queue id outcome now).jobs, marked.id = id ∧
      marked.state ≠ .running := by
  unfold applyOutcome
  cases located : queue.jobs.findIdx? fun job => job.id == id with
  | none =>
    have misses := List.findIdx?_eq_none_iff.mp located old isOld
    simp [sameId] at misses
  | some index =>
    obtain ⟨inside, isHere, -⟩ := List.findIdx?_eq_some_iff_getElem.mp located
    have present : (queue.jobs.modify index (recordOutcome now outcome))[index]? =
        some (recordOutcome now outcome queue.jobs[index]) := by
      simp [inside]
    refine ⟨_, List.mem_of_getElem? present, ?_, ?_⟩
    · have isId : queue.jobs[index].id = id := by simpa using isHere
      cases outcome <;> exact isId
    · cases outcome <;> simp [recordOutcome]

theorem fitsWorker_step {daemon after : Daemon} {event : Event} {effect : Effect}
    (holds : SingleFlight daemon) (steps : Transition daemon event effect after) :
    FitsWorker after.queue.jobs after.worker := by
  cases steps with
  | refused | stored | replied | mounted | unmounted => exact holds.phase
  | wrote request receipt mutated fresh mutates =>
    exact holds.phase.of_origin
      (running_origin (.wrote request receipt mutated fresh mutates) (fun job => by simp))
  | recovered written starting =>
    rw [Daemon.recover, publishSaved_worker, saveAtomic_worker, publishSaved_queue, saveAtomic_jobs]
    intro row member running
    obtain ⟨old, -, rfl⟩ := List.mem_map.mp member
    split_ifs at running with isRunning
    · cases running
    · exact isRunning running
  | polled idle =>
    have rests := holds.phase
    rw [idle] at rests
    simp only [Daemon.poll]
    split <;> exact rests
  | pulledNothing now written armed =>
    have rests := holds.phase
    rw [armed] at rests
    exact rests
  | pulled now written job index armed unpaused next found pending pulls =>
    have rests := holds.phase
    rw [armed] at rests
    rw [publishSaved_worker, saveAtomic_worker, publishSaved_queue, saveAtomic_jobs]
    intro row member running
    obtain ⟨position, present⟩ := List.mem_iff_getElem?.mp member
    rw [List.getElem?_modify] at present
    by_cases isHere : index = position
    · subst isHere
      simp only [found, if_true, Option.map_eq_map, Option.map_some] at present
      exact Option.some.inj present ▸ rfl
    · simp only [if_neg isHere, Option.map_eq_map, Option.map_id'] at present
      exact absurd running (rests row (List.mem_of_getElem? present))
  | recorded job result now written executing =>
    have flies := holds.phase
    rw [executing] at flies
    have recorded := Transition.recorded job result now written executing
    rw [recordOutcome_worker]
    intro row member running
    obtain ⟨old, isOld, oldRunning, sameId⟩ :=
      running_origin recorded (fun job => by simp) row member running
    -- Its id is the job's, and the row with that id got an outcome.
    have isJob : old.id = job.id := flies old isOld oldRunning
    obtain ⟨marked, isMarked, markedId, rests⟩ :=
      applyOutcome_marks daemon.queue result.outcome now isOld isJob
    rw [← recordOutcome_jobs daemon job result now written] at isMarked
    have same : row = marked := List.inj_on_of_nodup_map (transition_distinctIds holds.distinct recorded)
      member isMarked (sameId.symm.trans (isJob.trans markedId.symm))
    exact rests (same ▸ running)

/-- **One step keeps the invariant.** -/
theorem singleFlight_step {before after : Daemon} {label : Event × Effect}
    (holds : SingleFlight before) (steps : Step before label after) : SingleFlight after := by
  have transition := step_transition steps
  have distinct := transition_distinctIds holds.distinct transition
  have phase := fitsWorker_step holds transition
  rcases transition_disk transition with unsaved | saved
  · exact ⟨distinct, phase, unsaved ▸ holds.diskDistinct, unsaved ▸ holds.disk⟩
  · exact ⟨distinct, phase, saved ▸ distinct, saved ▸ phase.oneRunning⟩

/-! ### Restarts -/

/-- What a start of the daemon reads from outside the queue document. -/
structure BringUp where
  registry : LibraryRegistry
  libraryName : String
  pinTarget : String
  /-- The libraries bring-up skipped, each with the failure its rows get and the instants. -/
  skips : List (String × JobFailure × (String → Timestamp))

/-- The loaded document with its unnamed rows pinned and the rows against skipped libraries failed,
and the number of rows changed. -/
def BringUp.adjust (bringUp : BringUp) (document : QueueState) : Nat × QueueState :=
  bringUp.skips.foldl
    (fun adjusted skip =>
      let failed := failJobsAgainst adjusted.2 skip.1 skip.2.1 skip.2.2
      (adjusted.1 + failed.1, failed.2))
    (pinUnnamedJobs document bringUp.pinTarget)

/-- A new process: it loads the document the last one left on disk. -/
def Daemon.restart (daemon : Daemon) (bringUp : BringUp) (written : SaveResult) : Daemon :=
  let adjusted := bringUp.adjust daemon.disk
  let booted :=
    { Daemon.boot adjusted.2 bringUp.registry bringUp.libraryName with disk := daemon.disk }
  if 0 < adjusted.1 then booted.saveAtomic written else booted

/-- The daemons a history can reach, from no queue document on. -/
inductive Reachable : Daemon → Prop
  | first (registry : LibraryRegistry) (libraryName : String) :
      Reachable (Daemon.boot .empty registry libraryName)
  | step {daemon after : Daemon} (label : Event × Effect) :
      Reachable daemon → Step daemon label after → Reachable after
  | restart {daemon : Daemon} (bringUp : BringUp) (written : SaveResult) :
      Reachable daemon → Reachable (daemon.restart bringUp written)

/-- The same row, running only if it was. -/
def Subdued (old row : QueueJob) : Prop :=
  row.id = old.id ∧ (row.state = .running → old.state = .running)

theorem Subdued.trans {first second third : QueueJob} (early : Subdued first second)
    (late : Subdued second third) : Subdued first third :=
  ⟨late.1.trans early.1, fun running => early.2 (late.2 running)⟩

/-- Rows that stay in place, each subdued. -/
abbrev AllSubdued (before after : QueueState) : Prop := List.Forall₂ Subdued before.jobs after.jobs

theorem AllSubdued.refl (queue : QueueState) : AllSubdued queue queue :=
  List.forall₂_same.mpr fun _ _ => ⟨rfl, fun running => running⟩

theorem AllSubdued.trans {first second third : QueueState} (early : AllSubdued first second)
    (late : AllSubdued second third) : AllSubdued first third := by
  have length := early.length_eq
  refine List.forall₂_iff_get.mpr ⟨length.trans late.length_eq, fun index low high => ?_⟩
  exact (early.get low (by omega)).trans (late.get (by omega) high)

theorem pinUnnamedJobs_subdued (queue : QueueState) (target : String) :
    AllSubdued queue (pinUnnamedJobs queue target).2 := by
  refine List.forall₂_map_right_iff.mpr (List.forall₂_same.mpr fun job _ => ?_)
  split <;> exact ⟨rfl, fun running => running⟩

theorem applyOutcome_subdued (queue : QueueState) (id : String) (outcome : JobOutcome)
    (now : Timestamp) : AllSubdued queue (applyOutcome queue id outcome now) := by
  unfold applyOutcome
  split
  · exact .refl queue
  · refine Rows.forall₂_modify (fun row => ⟨rfl, fun running => running⟩) _ _ _ fun row _ => ?_
    cases outcome <;> exact ⟨rfl, fun running => by simp [recordOutcome] at running⟩

theorem failJobsAgainst_subdued (queue : QueueState) (library : String) (failure : JobFailure)
    (clock : String → Timestamp) :
    AllSubdued queue (failJobsAgainst queue library failure clock).2 := by
  show AllSubdued queue (((queue.jobs.filter (isLiveAgainst library)).map (·.id)).foldl
    (fun state id => applyOutcome state id (.failed failure) (clock id)) queue)
  generalize (queue.jobs.filter (isLiveAgainst library)).map (·.id) = ids
  induction ids generalizing queue with
  | nil => exact .refl queue
  | cons id rest ih => exact (applyOutcome_subdued queue id (.failed failure) (clock id)).trans (ih _)

/-- **Bring-up sets no row running.** -/
theorem adjust_subdued (bringUp : BringUp) (document : QueueState) :
    AllSubdued document (bringUp.adjust document).2 := by
  unfold BringUp.adjust
  have pinned := pinUnnamedJobs_subdued document bringUp.pinTarget
  generalize pinUnnamedJobs document bringUp.pinTarget = adjusted at pinned ⊢
  induction bringUp.skips generalizing adjusted with
  | nil => exact pinned
  | cons skip rest ih => exact ih _ (pinned.trans (failJobsAgainst_subdued _ _ _ _))

theorem AllSubdued.oneRunning {before after : QueueState} (rows : AllSubdued before after)
    (one : OneRunning before.jobs) : OneRunning after.jobs := by
  have fits : FitsWorker before.jobs .starting := one
  refine fits.of_origin fun row member running => ?_
  obtain ⟨index, inside, rfl⟩ := List.mem_iff_getElem.mp member
  have length := rows.length_eq
  obtain ⟨sameId, isRunning⟩ := rows.get (by omega) inside
  exact ⟨_, List.getElem_mem (by omega), isRunning running, sameId.symm⟩

/-- A restart starts from what is on disk. -/
theorem singleFlight_restart {daemon : Daemon} (holds : SingleFlight daemon) (bringUp : BringUp)
    (written : SaveResult) : SingleFlight (daemon.restart bringUp written) := by
  have rows := adjust_subdued bringUp daemon.disk
  have distinct : ((bringUp.adjust daemon.disk).2.jobs.map QueueJob.id).Nodup := by
    rw [Rows.map_forall₂ (fun _ _ subdued => subdued.1) rows]
    exact holds.diskDistinct
  have one := rows.oneRunning holds.disk
  unfold Daemon.restart
  dsimp only
  split
  · cases written with
    | ok => exact ⟨distinct, one, distinct, one⟩
    | failed => exact ⟨distinct, one, holds.diskDistinct, holds.disk⟩
  · exact ⟨distinct, one, holds.diskDistinct, holds.disk⟩

theorem Reachable.singleFlight {daemon : Daemon} (reachable : Reachable daemon) :
    SingleFlight daemon := by
  induction reachable with
  | first registry libraryName =>
    have noRow : OneRunning ([] : List QueueJob) := fun _ member => by cases member
    exact ⟨List.nodup_nil, noRow, List.nodup_nil, noRow⟩
  | step _ _ steps ih => exact singleFlight_step ih steps
  | restart bringUp written _ ih => exact singleFlight_restart ih bringUp written

/-- The running rows of a queue with distinct ids are at most one. -/
theorem OneRunning.length_le {jobs : List QueueJob} (one : OneRunning jobs)
    (distinct : (jobs.map QueueJob.id).Nodup) :
    (jobs.filter fun job => job.state == .running).length ≤ 1 := by
  have ids : ((jobs.filter fun job => job.state == .running).map QueueJob.id).Nodup :=
    distinct.sublist (List.filter_sublist.map _)
  have same : ∀ row ∈ jobs.filter (fun job => job.state == .running),
      ∀ other ∈ jobs.filter (fun job => job.state == .running), row.id = other.id := by
    intro row isRow other isOther
    obtain ⟨member, running⟩ := List.mem_filter.mp isRow
    obtain ⟨otherMember, otherRunning⟩ := List.mem_filter.mp isOther
    exact one row member other otherMember (beq_iff_eq.mp running) (beq_iff_eq.mp otherRunning)
  generalize jobs.filter (fun job => job.state == .running) = flying at ids same ⊢
  cases flying with
  | nil => simp
  | cons first rest =>
    cases rest with
    | nil => simp
    | cons second rest => simp [same first (by simp) second (by simp)] at ids

/-- **The pull order and the single flight** of every reachable daemon: a pull hands out the next
pending row and changes no other, it hands one out where one is pending and the queue is not paused, and
at most one row is running. -/
theorem pull_order_and_single_flight {daemon : Daemon} (reachable : Reachable daemon) :
    (∀ now written pulled after, Step daemon (.pull now written, .pulled pulled) after →
      PullsNext daemon.queue now pulled after.queue) ∧
    (∀ now written effect after, Step daemon (.pull now written, effect) after →
      daemon.queue.paused = false → (∃ job ∈ daemon.queue.jobs, job.state = .pending) →
      ∃ pulled, effect = .pulled pulled) ∧
    (daemon.queue.jobs.filter fun job => job.state == .running).length ≤ 1 := by
  refine ⟨fun now written pulled after steps => pull_next steps, ?_, ?_⟩
  · intro now written effect after steps unpaused ⟨job, isJob, isPending⟩
    exact pull_some steps unpaused isJob isPending
  · have holds := reachable.singleFlight
    exact holds.phase.oneRunning.length_le holds.distinct

/-- A first start, and a submit of low priority, then one of high priority. -/
def twoSubmits : Daemon :=
  let armed := ((Daemon.boot .empty twoLibraries "main").recover .ok).poll
  let low := (Request.run armed .ok
    (.ingestSubmit [("a.epub", { id := "job-1", now := 1 })] "main" .low false false none)).2
  (Request.run low .ok
    (.ingestSubmit [("b.epub", { id := "job-2", now := 2 })] "main" .high false false none)).2

theorem twoSubmits_reachable : Reachable twoSubmits := by
  have recovered : Reachable ((Daemon.boot .empty twoLibraries "main").recover .ok) :=
    (Reachable.first twoLibraries "main").step (.recover .ok, .quiet) rfl
  have armed := recovered.step (.poll, .quiet) rfl
  have low := armed.step (.handle (.ingestSubmit [("a.epub", { id := "job-1", now := 1 })]
    "main" .low false false none) .ok, .wrote (.submitted ["job-1"])) rfl
  exact low.step (.handle (.ingestSubmit [("b.epub", { id := "job-2", now := 2 })]
    "main" .high false false none) .ok, .wrote (.submitted ["job-2"])) rfl

/-- The row of high priority is pulled, though it came second. -/
theorem pull_order_and_single_flight_twoSubmits :
    PullsNext twoSubmits.queue 3 (startJob 3 (submittedJob { id := "job-2", now := 2 } "b.epub"
      { library := "main", kind := .book, priority := .high, force := false,
        holdForMetadata := false, bookAuditProfile := none } none)) (twoSubmits.pull 3 .ok).2.queue ∧
      (∃ pulled, (twoSubmits.pull 3 .ok).1 = .pulled pulled) ∧
        (twoSubmits.queue.jobs.filter fun job => job.state == .running).length ≤ 1 := by
  obtain ⟨next, some, one⟩ := pull_order_and_single_flight twoSubmits_reachable
  have isPending : ∃ job ∈ twoSubmits.queue.jobs, job.state = .pending := ⟨_, List.mem_cons_self, rfl⟩
  exact ⟨next 3 .ok _ _ rfl, some 3 .ok _ _ rfl rfl isPending, one⟩

end Bookrack.Runtime
