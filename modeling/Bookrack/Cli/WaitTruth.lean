/-
A wait on queue jobs beside the daemon it waits on: the subscription, the listing it attaches with,
the buffered event stream, which may lose events behind a lag marker, and the listings it reconciles
with, in any interleaving with the worker and the handlers.

* `published_held` — the outcome a tick carries is one the job's row holds as the tick is published.
* `attach_selects` — the selected jobs are those of the rows named in the attaching listing.
* `moves_kept` — what every step keeps of a wait.
* **`wait_truth`** — however a wait ends, it accounts for each selected job exactly once, and every
  record is an outcome the job's row held since the attaching listing, or held between subscribing
  and that listing, which shows the job live again. `stale_outcome_recorded` is a run of the second
  kind.
-/

import Bookrack.Base.Run
import Bookrack.Cli.JobWait
import Bookrack.Runtime.RowStep

namespace Bookrack.Cli

open Queue Bookrack.Runtime Registry Rows Run

/-! ### What the daemon publishes -/

/-- The tick a step publishes. -/
def published (label : Event × Effect) (after : Daemon) : Option QueueTick :=
  match label with
  | (.resumeCall _, .replied _) | (.recover .ok, _) | (.pull _ .ok, .pulled _)
  | (.finish _ _ .ok, _) => after.lastTick
  | _ => none

/-- The ticks of the calls in flight close out no job. -/
def QuietCalls (daemon : Daemon) : Prop := ∀ call ∈ daemon.calls, call.tick.lastFinished = none

theorem deriveTick_lastFinished (document : QueueState) (last : Option JobOutcomeSummary) :
    (deriveTick document last).lastFinished = last := by
  have loop : ∀ (jobs : List QueueJob) (tick : QueueTick),
      (jobs.foldl countJob tick).lastFinished = tick.lastFinished := by
    intro jobs
    induction jobs with
    | nil => exact fun _ => rfl
    | cons job rest ih =>
      intro tick
      rw [List.foldl_cons, ih]
      unfold countJob
      cases job.state <;> rfl
  exact loop document.jobs _

/-- The row an outcome lands on. -/
theorem applyOutcome_lookup {queue : QueueState} (distinct : (queue.jobs.map QueueJob.id).Nodup)
    (id : String) (outcome : JobOutcome) (now : Timestamp) {job : QueueJob}
    (found : lookup QueueJob.id id (applyOutcome queue id outcome now).jobs = some job) :
    job.finishedAt = some now := by
  unfold applyOutcome at found
  split at found
  · rename_i missing
    obtain ⟨member, named⟩ := lookup_key found
    have absent := List.findIdx?_eq_none_iff.mp missing job member
    rw [named] at absent
    simp at absent
  · rename_i index located
    obtain ⟨inside, holds, -⟩ := List.findIdx?_eq_some_iff_getElem.mp located
    have named : queue.jobs[index].id = id := by simpa using holds
    have kept : (recordOutcome now outcome queue.jobs[index]).id = queue.jobs[index].id := by
      cases outcome <;> rfl
    have here := lookup_modified distinct (List.getElem?_eq_getElem inside) kept
    rw [named] at here
    replace found : lookup QueueJob.id id (queue.jobs.modify index (recordOutcome now outcome)) =
      some job := found
    rw [here] at found
    cases found
    cases outcome <;> rfl

/-- **A published outcome is held**: as the tick goes out, the job's row reads as its record. -/
theorem published_held {before after : Daemon} {label : Event × Effect} {tick : QueueTick}
    {summary : JobOutcomeSummary} {record : JobOutcomeRecord} (distinct : DistinctIds before)
    (quiet : QuietCalls before) (steps : Step before label after)
    (shows : published label after = some tick) (closes : tick.lastFinished = some summary)
    (reads : summaryRecord summary = some record) :
    ∃ job, after.row record.jobId = some job ∧ endedRecord job = .ok record := by
  obtain ⟨event, effect⟩ := label
  have steps := step_transition steps
  cases steps with
  | refused event error request => cases event <;> first | cases shows | cases request
  | wrote | stored | mounted | unmounted | polled => cases shows
  | pulledNothing now written => cases written <;> cases shows
  | replied older newer call calls =>
    cases shows
    rw [quiet call (by rw [calls]; simp)] at closes
    cases closes
  | recovered written =>
    cases written with
    | failed => cases shows
    | ok =>
      cases shows
      rw [deriveTick_lastFinished] at closes
      cases closes
  | pulled now written =>
    cases written with
    | failed => cases shows
    | ok =>
      cases shows
      rw [deriveTick_lastFinished] at closes
      cases closes
  | recorded job result now written executing =>
    cases written with
    | failed => cases shows
    | ok =>
      cases shows
      rw [deriveTick_lastFinished] at closes
      obtain ⟨row, found, rfl⟩ := Option.map_eq_some_iff.mp closes
      have named := row_id found
      have there : lookup QueueJob.id job.id
          (applyOutcome before.queue job.id result.outcome now).jobs = some row := by
        rw [← recordedQueue_jobs]
        exact found
      have stamped := applyOutcome_lookup distinct job.id result.outcome now there
      have ended := summaryRecord_eq stamped reads
      refine ⟨row, ?_, ended⟩
      rw [endedRecord_jobId ended, named]
      exact found

/-- No step puts an outcome on a call's tick. -/
theorem quietCalls_step {before after : Daemon} {label : Event × Effect}
    (quiet : QuietCalls before) (steps : Step before label after) : QuietCalls after := by
  obtain ⟨event, effect⟩ := label
  have steps := step_transition steps
  cases steps with
  | refused | mounted | unmounted | polled | pulledNothing => exact quiet
  | wrote request receipt mutated =>
    intro call member
    rcases List.mem_append.mp member with old | new
    · exact quiet call old
    · rw [List.mem_singleton] at new
      rw [new, deriveTick_lastFinished]
  | stored older newer call value calls =>
    intro other member
    have same : ∀ flight ∈ older ++ call :: newer, flight.tick.lastFinished = none := by
      rw [← calls]
      exact quiet
    simp only [Daemon.storeFlag, List.mem_append, List.mem_cons] at member
    rcases member with old | rfl | new
    · exact same other (by simp [old])
    · exact same call (by simp)
    · exact same other (by simp [new])
  | replied older newer call calls =>
    intro other member
    refine quiet other ?_
    rw [calls]
    rcases List.mem_append.mp member with old | new <;> simp [*]
  | recovered written | pulled now written =>
    cases written <;> exact quiet
  | recorded job result now written =>
    cases written with
    | ok => exact quiet
    | failed error =>
      show QuietCalls (Daemon.recordOutcome _ _ _ _ _)
      simp only [Daemon.recordOutcome]
      split <;> exact quiet

/-! ### The wait beside the daemon -/

/-- `queue.list`. -/
def listingOf (daemon : Daemon) : Listing :=
  { jobs := daemon.queue.jobs, paused := daemon.queue.paused }

/-- An event in the subscriber's buffer, and whether it was published after the attaching listing. -/
structure Sent where
  event : StreamEvent
  since : Bool
  deriving DecidableEq, Repr

/-- Where the wait is. A listing that was taken is read in a later step. -/
inductive Client
  | idle
  | subscribed
  | attaching (listing : Listing)
  | waiting (wait : Wait)
  | asking (wait : Wait)
  | listed (listing : Listing) (wait : Wait)
  | nothing
  | ended (waitEnd : WaitEnd)
  | failed (fault : WaitFault)
  deriving DecidableEq, Repr

/-- The daemon, the buffer, and the wait. `earlier` and `since` are the states the daemon went
through from the subscription to the attaching listing, and from there on; `selected` are the ids of
the rows the wait covers. -/
structure System where
  daemon : Daemon
  stream : List Sent
  client : Client
  earlier : List Daemon
  since : List Daemon
  selected : List String

def System.start (daemon : Daemon) : System where
  daemon := daemon
  stream := []
  client := .idle
  earlier := []
  since := []
  selected := []

/-- The attaching listing was taken. -/
def System.isListed (system : System) : Bool := !system.since.isEmpty

/-- An event is put into the buffer. -/
def System.send (system : System) (event : StreamEvent) : System :=
  { system with stream := system.stream ++ [{ event := event, since := system.isListed }] }

/-- The daemon goes on to a state. -/
def System.goOn (system : System) (daemon : Daemon) : System :=
  { system with
    daemon := daemon
    earlier := if system.isListed then system.earlier else system.earlier ++ [daemon]
    since := if system.isListed then system.since ++ [daemon] else [] }

/-- Attaching: the selection, the split, and the judgement (`wait_on_ids`, `wait_on`, `wait`). -/
def attachClient (choice : Choice) (workerEnabled : Bool) (listing : Listing) :
    List String × Client :=
  match choice.indices listing with
  | .error fault => ([], .failed fault)
  | .ok indices =>
    match choice, indices with
    | .fragments _, [] => ([], .nothing)
    | _, _ =>
      match attach listing indices with
      | .error text => ([], .failed (.error text))
      | .ok attached =>
        (selectedIds listing indices,
          match judge workerEnabled listing attached with
          | some problem =>
            .ended (.refused { jobs := attached.settled, unfinished := attached.live } problem)
          | none =>
            .waiting
              { records := attached.settled
                live := attached.live
                pending := attached.live.dedup })

/-- Reading a reconciling listing. -/
def readListing (listing : Listing) (wait : Wait) : Client :=
  match reconcile listing wait.live wait with
  | .error text => .failed (.error text)
  | .ok read =>
    if read.pending = [] then .ended (.complete { jobs := read.records, unfinished := [] })
    else if listing.paused && decide (0 < pendingAmong listing read.unfinished) then
      .ended (.refused { jobs := read.records, unfinished := read.unfinished }
        (pausedProblem (pendingAmong listing read.unfinished)))
    else .waiting read

/-- `disconnected_end`. -/
def disconnectedEnd (wait : Wait) (detail : String) : WaitEnd :=
  .refused { jobs := wait.records, unfinished := wait.unfinished }
    (disconnected wait.unfinished.length detail)

inductive Move
  | daemon (label : Event × Effect)
  | other (event : StreamEvent)
  | drop
  | subscribe
  | list
  | attach (choice : Choice) (workerEnabled : Bool)
  | deliver
  | stall
  | ask
  | askFails (text : String)
  | read
  | close (detail : String)
  | complete
  deriving DecidableEq, Repr

/-- What can happen next. The daemon publishes as it steps; other publishers and the transport put
in what is no tick, and may drop any stretch of the buffer behind a lag marker. The deadline can
pass at any time (`stall`). -/
inductive Moves (system : System) : Move → System → Prop
  | daemon {label : Event × Effect} {after : Daemon} : Step system.daemon label after →
      Moves system (.daemon label)
        (match published label after with
          | some tick => (system.goOn after).send (.tick tick)
          | none => system.goOn after)
  | other {event : StreamEvent} : (∀ tick, event ≠ .tick tick) →
      Moves system (.other event) (system.send event)
  | drop {front lost back : List Sent} : system.stream = front ++ lost ++ back →
      Moves system .drop
        { system with stream := front ++ { event := .lag, since := true } :: back }
  | subscribe : system.client = .idle →
      Moves system .subscribe
        { system with client := .subscribed, stream := [], earlier := [system.daemon], since := [] }
  | list : system.client = .subscribed →
      Moves system .list
        { system with client := .attaching (listingOf system.daemon), since := [system.daemon] }
  | attach {listing : Listing} (choice : Choice) (workerEnabled : Bool) :
      system.client = .attaching listing →
        Moves system (.attach choice workerEnabled)
          { system with
            selected := (attachClient choice workerEnabled listing).1
            client := (attachClient choice workerEnabled listing).2 }
  | deliver {wait : Wait} {sent : Sent} {rest : List Sent} : system.client = .waiting wait →
      wait.pending ≠ [] → system.stream = sent :: rest →
        Moves system .deliver
          { system with
            stream := rest
            client := if sent.event.asks then .asking wait
              else .waiting (sent.event.apply wait) }
  | stall {wait : Wait} : system.client = .waiting wait → wait.pending ≠ [] →
      Moves system .stall { system with client := .asking wait }
  | ask {wait : Wait} : system.client = .asking wait →
      Moves system .ask { system with client := .listed (listingOf system.daemon) wait }
  | askFails {wait : Wait} {text : String} : system.client = .asking wait →
      Moves system (.askFails text) { system with client := .failed (.error text) }
  | read {listing : Listing} {wait : Wait} : system.client = .listed listing wait →
      Moves system .read { system with client := readListing listing wait }
  | closeWaiting {wait : Wait} {detail : String} : system.client = .waiting wait →
      wait.pending ≠ [] →
        Moves system (.close detail) { system with client := .ended (disconnectedEnd wait detail) }
  | closeAsking {wait : Wait} {detail : String} : system.client = .asking wait →
      Moves system (.close detail) { system with client := .ended (disconnectedEnd wait detail) }
  | complete {wait : Wait} : system.client = .waiting wait → wait.pending = [] →
      Moves system .complete
        { system with client := .ended (.complete { jobs := wait.records, unfinished := [] }) }

/-! ### What is true of a wait -/

/-- A record is an outcome its row held in one of the states. -/
def Held (states : List Daemon) (record : JobOutcomeRecord) : Prop :=
  ∃ daemon ∈ states, ∃ job, daemon.row record.jobId = some job ∧ endedRecord job = .ok record

/-- The attaching listing shows a job live. -/
def System.ListsLive (system : System) (id : String) : Prop :=
  ∃ daemon job, system.since.head? = some daemon ∧ daemon.row id = some job ∧
    job.state.isLive = true

/-- **What a record tells**: an outcome held since the attaching listing, or one from between the
subscription and that listing of a job that the listing shows live again. -/
def System.Tells (system : System) (record : JobOutcomeRecord) : Prop :=
  Held system.since record ∨ (Held system.earlier record ∧ system.ListsLive record.jobId)

/-- What is true of a wait on its way. -/
structure System.Sound (system : System) (wait : Wait) : Prop where
  parted : wait.Parted system.selected
  tells : ∀ record ∈ wait.records, system.Tells record
  live : ∀ id ∈ wait.live, system.ListsLive id

/-- What is true of a report: every selected job is in it exactly once, and its records tell. -/
structure System.Accounts (system : System) (report : JobOutcomeReport) : Prop where
  parts : (report.jobs.map JobOutcomeRecord.jobId ++ report.unfinished).Perm system.selected
  distinct : system.selected.Nodup
  tells : ∀ record ∈ report.jobs, system.Tells record

/-- What is true of the client. -/
def System.ClientSound (system : System) : Prop :=
  match system.client with
  | .idle | .subscribed => system.since = []
  | .attaching listing => ∃ daemon, system.since.head? = some daemon ∧
      listing = listingOf daemon ∧ DistinctIds daemon
  | .waiting wait | .asking wait => system.since ≠ [] ∧ system.Sound wait
  | .listed listing wait => system.since ≠ [] ∧ system.Sound wait ∧
      ∃ daemon ∈ system.since, listing = listingOf daemon
  | .nothing | .failed _ => True
  | .ended waitEnd => system.since ≠ [] ∧ system.Accounts waitEnd.report ∧
      ∀ report, waitEnd = .complete report → report.unfinished = []

/-- The invariant of the composed system. -/
structure Invariant (system : System) : Prop where
  distinct : DistinctIds system.daemon
  quiet : QuietCalls system.daemon
  current : system.since ≠ [] → system.daemon ∈ system.since
  stream : ∀ sent ∈ system.stream, ∀ tick summary record, sent.event = .tick tick →
    tick.lastFinished = some summary → summaryRecord summary = some record →
      Held (if sent.since then system.since else system.earlier) record
  client : system.ClientSound

/-! ### What a step adds -/

/-- The daemon went through more states since the listing; nothing else that a record tells of
changed. -/
structure Grows (before after : System) : Prop where
  selected : after.selected = before.selected
  earlier : after.earlier = before.earlier
  since : ∃ more, after.since = before.since ++ more

section Growth

variable {before after : System} (grows : Grows before after) (listed : before.since ≠ [])

include grows listed

theorem Grows.head : after.since.head? = before.since.head? := by
  obtain ⟨more, since⟩ := grows.since
  rw [since, List.head?_append_of_ne_nil _ listed]

theorem Grows.still : after.since ≠ [] := by
  obtain ⟨more, since⟩ := grows.since
  rw [since]
  exact List.append_ne_nil_of_left_ne_nil listed more

theorem Grows.listsLive {id : String} (lists : before.ListsLive id) : after.ListsLive id := by
  obtain ⟨daemon, job, head, row, live⟩ := lists
  exact ⟨daemon, job, by rwa [grows.head listed], row, live⟩

theorem Grows.tells {record : JobOutcomeRecord} (tells : before.Tells record) :
    after.Tells record := by
  obtain ⟨more, since⟩ := grows.since
  rcases tells with ⟨daemon, member, holds⟩ | ⟨holds, lists⟩
  · exact .inl ⟨daemon, by rw [since]; exact List.mem_append_left _ member, holds⟩
  · exact .inr ⟨by rwa [grows.earlier], grows.listsLive listed lists⟩

theorem Grows.sound {wait : Wait} (sound : before.Sound wait) : after.Sound wait where
  parted := by
    rw [grows.selected]
    exact sound.parted
  tells record member := grows.tells listed (sound.tells record member)
  live id member := grows.listsLive listed (sound.live id member)

theorem Grows.accounts {report : JobOutcomeReport} (accounts : before.Accounts report) :
    after.Accounts report where
  parts := by
    rw [grows.selected]
    exact accounts.parts
  distinct := by
    rw [grows.selected]
    exact accounts.distinct
  tells record member := grows.tells listed (accounts.tells record member)

end Growth

/-- What was sent is still held when the daemon has gone on. -/
theorem held_mono {states more : List Daemon} {record : JobOutcomeRecord}
    (holds : Held states record) : Held (states ++ more) record := by
  obtain ⟨daemon, member, reads⟩ := holds
  exact ⟨daemon, List.mem_append_left _ member, reads⟩

theorem isListed_iff {system : System} : system.isListed = true ↔ system.since ≠ [] := by
  cases since : system.since <;> simp [System.isListed, since]

/-- A wait's report, however it ends. -/
theorem System.Sound.accounts {system : System} {wait : Wait} (sound : system.Sound wait) :
    system.Accounts { jobs := wait.records, unfinished := wait.unfinished } where
  parts := (sound.parted.unfinished.append_left _).trans sound.parted.parts
  distinct := sound.parted.distinct
  tells := sound.tells

theorem System.Sound.complete {system : System} {wait : Wait} (sound : system.Sound wait)
    (done : wait.pending = []) : system.Accounts { jobs := wait.records, unfinished := [] } where
  parts := by
    have parts := sound.parted.parts
    rwa [done] at parts
  distinct := sound.parted.distinct
  tells := sound.tells

/-- How attaching ends: without a report, refused, or with a wait on the live rows. -/
theorem attachClient_cases (choice : Choice) (workerEnabled : Bool) (listing : Listing) :
    ((attachClient choice workerEnabled listing).2 = .nothing ∨
      ∃ fault, (attachClient choice workerEnabled listing).2 = .failed fault) ∨
    ∃ indices attached, choice.indices listing = .ok indices ∧
      attach listing indices = .ok attached ∧
        (attachClient choice workerEnabled listing).1 = selectedIds listing indices ∧
          ((∃ problem, (attachClient choice workerEnabled listing).2 = .ended
              (.refused { jobs := attached.settled, unfinished := attached.live } problem)) ∨
            (attachClient choice workerEnabled listing).2 = .waiting
              { records := attached.settled
                live := attached.live
                pending := attached.live.dedup }) := by
  unfold attachClient
  split
  · exact .inl (.inr ⟨_, rfl⟩)
  · rename_i indices chosen
    split
    · exact .inl (.inl rfl)
    · split
      · exact .inl (.inr ⟨_, rfl⟩)
      · rename_i attached attaches
        refine .inr ⟨indices, attached, chosen, attaches, rfl, ?_⟩
        split
        · exact .inl ⟨_, rfl⟩
        · exact .inr rfl

/-- **The selected jobs** of a wait are those of the rows its choice names in the attaching listing. -/
theorem attach_selects {system after : System} {choice : Choice} {workerEnabled : Bool}
    (moves : Moves system (.attach choice workerEnabled) after) :
    (after.client = .nothing ∨ ∃ fault, after.client = .failed fault) ∨
    ∃ listing, system.client = .attaching listing ∧ ∀ id, id ∈ after.selected ↔
      ∃ index job, choice.Names listing index ∧ listing.jobs[index]? = some job ∧ job.id = id := by
  cases moves with
  | attach choice workerEnabled attaching =>
    rename_i listing
    rcases attachClient_cases choice workerEnabled listing with
      ended | ⟨indices, attached, chosen, -, ids, -⟩
    · exact .inl ended
    · refine .inr ⟨listing, attaching, fun id => ?_⟩
      show id ∈ (attachClient choice workerEnabled listing).1 ↔ _
      rw [ids]
      exact mem_selectedIds chosen

/-- **Attaching**: the wait starts with every selected row, ended or live. -/
theorem attach_sound {system : System} {daemon : Daemon} (head : system.since.head? = some daemon)
    (distinct : DistinctIds daemon) (choice : Choice) (workerEnabled : Bool) :
    System.ClientSound
      { system with
        selected := (attachClient choice workerEnabled (listingOf daemon)).1
        client := (attachClient choice workerEnabled (listingOf daemon)).2 } := by
  have listed : system.since ≠ [] := by
    rintro none
    rw [none] at head
    cases head
  have first : daemon ∈ system.since := List.mem_of_head? head
  rcases attachClient_cases choice workerEnabled (listingOf daemon) with
    (nothing | ⟨fault, failed⟩) | ⟨indices, attached, chosen, attaches, ids, ends⟩
  · rw [nothing]
    trivial
  · rw [failed]
    trivial
  rw [ids]
  obtain ⟨parts, settled, live⟩ := attach_spec attaches
  have apart : (selectedIds (listingOf daemon) indices).Nodup :=
    @nodup_selectedIds (listingOf daemon) distinct _ (nodup_indices chosen)
  have livesApart : attached.live.Nodup :=
    (List.nodup_append.mp (parts.nodup_iff.mpr apart)).2.1
  have tells : ∀ record ∈ attached.settled, Held system.since record := by
    intro record member
    obtain ⟨job, inside, ended⟩ := settled record member
    refine ⟨daemon, first, job, ?_, ended⟩
    rw [endedRecord_jobId ended]
    exact (lookup_eq_some distinct).mpr ⟨inside, rfl⟩
  have lists : ∀ id ∈ attached.live, ∃ job, daemon.row id = some job ∧ job.state.isLive = true := by
    intro id member
    obtain ⟨job, inside, rfl, isLive⟩ := live id member
    exact ⟨job, (lookup_eq_some distinct).mpr ⟨inside, rfl⟩, isLive⟩
  rcases ends with ⟨problem, ends⟩ | ends
  · rw [ends]
    refine ⟨listed, ⟨parts, apart, fun record member => .inl (tells record member)⟩, ?_⟩
    intro report eq
    cases eq
  · rw [ends]
    refine ⟨listed, ⟨⟨?_, apart, fun id member => List.mem_dedup.mp member, livesApart⟩,
      fun record member => .inl (tells record member), ?_⟩⟩
    · show (attached.settled.map JobOutcomeRecord.jobId ++ attached.live.dedup).Perm _
      rw [livesApart.dedup]
      exact parts
    · intro id member
      obtain ⟨job, row, isLive⟩ := lists id member
      exact ⟨daemon, job, head, row, isLive⟩

/-- **Reading a listing**: what it settles was held in the state it was taken from. -/
theorem read_sound {system : System} {wait : Wait} {daemon : Daemon} (listed : system.since ≠ [])
    (sound : system.Sound wait) (taken : daemon ∈ system.since) :
    System.ClientSound { system with client := readListing (listingOf daemon) wait } := by
  unfold readListing
  cases reads : reconcile (listingOf daemon) wait.live wait with
  | error text => trivial
  | ok read =>
    obtain ⟨parted, live, records⟩ := reconcile_spec sound.parted reads
    have soundRead : ∀ client, System.Sound { system with client := client } read := by
      intro client
      refine ⟨parted, fun record member => ?_, ?_⟩
      · rcases records record member with old | ⟨job, row, ended⟩
        · exact sound.tells record old
        · exact .inl ⟨daemon, taken, job, row, ended⟩
      · rw [live]
        exact sound.live
    show System.ClientSound { system with client := if _ then _ else _ }
    split
    · rename_i done
      refine ⟨listed, ?_, ?_⟩
      · exact (soundRead _).complete done
      · rintro report ⟨⟩
        rfl
    · split
      · refine ⟨listed, ?_, fun report eq => by cases eq⟩
        exact (soundRead _).accounts
      · exact ⟨listed, soundRead _⟩

/-! ### Every step -/

/-- A record of the buffer's next event tells, where it is of an awaited job. -/
theorem Invariant.tells {system : System} (invariant : Invariant system) {wait : Wait}
    (sound : system.Sound wait) {sent : Sent} (member : sent ∈ system.stream) {tick : QueueTick}
    {summary : JobOutcomeSummary} {record : JobOutcomeRecord} (event : sent.event = .tick tick)
    (closes : tick.lastFinished = some summary) (reads : summaryRecord summary = some record)
    (awaited : record.jobId ∈ wait.pending) : system.Tells record := by
  have held := invariant.stream sent member tick summary record event closes reads
  split at held
  · exact .inl held
  · exact .inr ⟨held, sound.live _ (sound.parted.within _ awaited)⟩

/-- A step of the client alone. -/
theorem Invariant.client_step {system : System} (invariant : Invariant system) {client : Client}
    {selected : List String} {stream : List Sent} (kept : stream ⊆ system.stream)
    (sound : System.ClientSound
      { system with client := client, selected := selected, stream := stream }) :
    Invariant { system with client := client, selected := selected, stream := stream } where
  distinct := invariant.distinct
  quiet := invariant.quiet
  current := invariant.current
  stream sent member := invariant.stream sent (kept member)
  client := sound

/-- What is true of the client stays true while the daemon goes on and events are sent. -/
theorem clientSound_grows {before after : System} (sound : before.ClientSound)
    (same : after.client = before.client) (grows : before.since ≠ [] → Grows before after)
    (unlisted : before.since = [] → after.since = []) : after.ClientSound := by
  unfold System.ClientSound at sound ⊢
  rw [same]
  cases client : before.client with
  | idle | subscribed =>
    rw [client] at sound
    exact unlisted sound
  | nothing | failed => trivial
  | attaching listing =>
    rw [client] at sound
    obtain ⟨daemon, head, facts⟩ := sound
    have listed : before.since ≠ [] := by
      rintro none
      rw [none] at head
      cases head
    exact ⟨daemon, by rwa [(grows listed).head listed], facts⟩
  | waiting wait | asking wait =>
    rw [client] at sound
    obtain ⟨listed, sound⟩ := sound
    exact ⟨(grows listed).still listed, (grows listed).sound listed sound⟩
  | listed listing wait =>
    rw [client] at sound
    obtain ⟨listed, sound, daemon, taken, reply⟩ := sound
    obtain ⟨more, since⟩ := (grows listed).since
    exact ⟨(grows listed).still listed, (grows listed).sound listed sound, daemon,
      by rw [since]; exact List.mem_append_left _ taken, reply⟩
  | ended waitEnd =>
    rw [client] at sound
    obtain ⟨listed, accounts, complete⟩ := sound
    exact ⟨(grows listed).still listed, (grows listed).accounts listed accounts, complete⟩

/-- An event sent is held as it is sent. -/
theorem Invariant.send {system : System} (invariant : Invariant system) {event : StreamEvent}
    (holds : ∀ tick summary record, event = .tick tick → tick.lastFinished = some summary →
      summaryRecord summary = some record →
        Held (if system.isListed then system.since else system.earlier) record) :
    Invariant (system.send event) where
  distinct := invariant.distinct
  quiet := invariant.quiet
  current := invariant.current
  stream sent member := by
    rcases List.mem_append.mp member with old | new
    · exact invariant.stream sent old
    · rw [List.mem_singleton] at new
      subst new
      exact holds
  client := clientSound_grows invariant.client rfl
    (fun _ => ⟨rfl, rfl, [], (List.append_nil _).symm⟩) id

/-- The daemon goes on. -/
theorem Invariant.goOn {system : System} (invariant : Invariant system) {daemon : Daemon}
    (distinct : DistinctIds daemon) (quiet : QuietCalls daemon) :
    Invariant (system.goOn daemon) where
  distinct := distinct
  quiet := quiet
  current := by
    intro still
    replace still : (if system.isListed then system.since ++ [daemon] else []) ≠ [] := still
    show daemon ∈ if system.isListed then system.since ++ [daemon] else []
    split
    · simp
    · rename_i unlisted
      rw [if_neg unlisted] at still
      exact absurd rfl still
  stream sent member tick summary record event closes reads := by
    have held := invariant.stream sent member tick summary record event closes reads
    cases isSince : sent.since with
    | true =>
      rw [isSince, if_pos rfl] at held
      have listed : system.isListed = true := by
        obtain ⟨first, inside, -⟩ := held
        exact isListed_iff.mpr (List.ne_nil_of_mem inside)
      show Held (if system.isListed then system.since ++ [daemon] else []) record
      rw [if_pos listed]
      exact held_mono held
    | false =>
      rw [isSince, if_neg Bool.false_ne_true] at held
      show Held (if system.isListed then system.earlier else system.earlier ++ [daemon]) record
      split
      · exact held
      · exact held_mono held
  client := by
    refine clientSound_grows invariant.client rfl (fun listed => ⟨rfl, ?_, [daemon], ?_⟩)
      fun unlisted => ?_
    · exact if_pos (isListed_iff.mpr listed)
    · exact if_pos (isListed_iff.mpr listed)
    · exact if_neg fun listed => isListed_iff.mp listed unlisted

/-- A tick goes out as the daemon goes on: its outcome is held there. -/
theorem goOn_holds {system : System} {daemon : Daemon} {record : JobOutcomeRecord}
    (reads : ∃ job, daemon.row record.jobId = some job ∧ endedRecord job = .ok record) :
    Held (if (system.goOn daemon).isListed then (system.goOn daemon).since
      else (system.goOn daemon).earlier) record := by
  have same : (system.goOn daemon).isListed = system.isListed := by
    show (!(if system.isListed then system.since ++ [daemon] else []).isEmpty) = system.isListed
    cases system.isListed <;> simp
  rw [same]
  cases listed : system.isListed with
  | true =>
    rw [if_pos rfl]
    show Held (if system.isListed then system.since ++ [daemon] else []) record
    rw [if_pos listed]
    exact ⟨daemon, by simp, reads⟩
  | false =>
    rw [if_neg Bool.false_ne_true]
    show Held (if system.isListed then system.earlier else system.earlier ++ [daemon]) record
    rw [if_neg (by simp [listed])]
    exact ⟨daemon, by simp, reads⟩

/-- **Every step keeps the invariant.** -/
theorem moves_kept {before after : System} {move : Move} (invariant : Invariant before)
    (moves : Moves before move after) : Invariant after := by
  have sound := invariant.client
  unfold System.ClientSound at sound
  cases moves with
  | daemon steps =>
    rename_i label daemon
    have transition := step_transition steps
    have onward := invariant.goOn (transition_distinctIds invariant.distinct transition)
      (quietCalls_step invariant.quiet steps)
    cases shows : published label daemon with
    | none => exact onward
    | some tick =>
      refine onward.send ?_
      rintro _ summary record ⟨⟩ closes reads
      exact goOn_holds (published_held invariant.distinct invariant.quiet steps shows closes reads)
  | other notTick =>
    exact invariant.send fun tick _ _ event => absurd event (notTick tick)
  | @drop front lost back split =>
    refine ⟨invariant.distinct, invariant.quiet, invariant.current, ?_,
      clientSound_grows invariant.client rfl
        (fun _ => ⟨rfl, rfl, [], (List.append_nil _).symm⟩) id⟩
    intro sent member tick summary record event
    rcases List.mem_append.mp member with inFront | inBack
    · exact invariant.stream sent (by rw [split]; simp [inFront]) tick summary record event
    · rcases List.mem_cons.mp inBack with rfl | inBack
      · cases event
      · exact invariant.stream sent (by rw [split]; simp [inBack]) tick summary record event
  | subscribe =>
    exact ⟨invariant.distinct, invariant.quiet, fun listed => absurd rfl listed,
      (fun sent member => by cases member), rfl⟩
  | list at' =>
    refine ⟨invariant.distinct, invariant.quiet, fun _ => by simp, ?_,
      ⟨before.daemon, rfl, rfl, invariant.distinct⟩⟩
    intro sent member tick summary record event closes reads
    have held := invariant.stream sent member tick summary record event closes reads
    rw [at'] at sound
    cases isSince : sent.since with
    | true =>
      rw [isSince, if_pos rfl, sound] at held
      obtain ⟨_, inside, -⟩ := held
      cases inside
    | false => simpa [isSince] using held
  | attach choice workerEnabled at' =>
    rw [at'] at sound
    obtain ⟨daemon, head, rfl, distinct⟩ := sound
    exact invariant.client_step (List.Subset.refl _)
      (attach_sound head distinct choice workerEnabled)
  | @deliver wait sent rest at' awaits split =>
    rw [at'] at sound
    obtain ⟨listed, sound⟩ := sound
    have member : sent ∈ before.stream := by rw [split]; exact List.mem_cons_self
    refine invariant.client_step (by rw [split]; exact List.subset_cons_self _ _) ?_
    show System.ClientSound { before with client := if _ then _ else _, stream := rest }
    split
    · exact ⟨listed, sound.parted, sound.tells, sound.live⟩
    · refine ⟨listed, ?_⟩
      rcases apply_spec sent.event wait with same | ⟨tick, summary, record, event, closes, reads,
        awaited, finished⟩
      · rw [same]
        exact ⟨sound.parted, sound.tells, sound.live⟩
      · rw [finished]
        refine ⟨sound.parted.finish awaited, ?_, sound.live⟩
        intro other inside
        rcases List.mem_append.mp inside with old | new
        · exact sound.tells other old
        · rw [List.mem_singleton] at new
          subst new
          exact invariant.tells sound member event closes reads awaited
  | stall at' _ =>
    rw [at'] at sound
    obtain ⟨listed, sound⟩ := sound
    exact invariant.client_step (List.Subset.refl _)
      ⟨listed, sound.parted, sound.tells, sound.live⟩
  | ask at' =>
    rw [at'] at sound
    obtain ⟨listed, sound⟩ := sound
    exact invariant.client_step (List.Subset.refl _)
      ⟨listed, ⟨sound.parted, sound.tells, sound.live⟩, before.daemon, invariant.current listed, rfl⟩
  | askFails => exact invariant.client_step (List.Subset.refl _) trivial
  | read at' =>
    rw [at'] at sound
    obtain ⟨listed, sound, daemon, taken, rfl⟩ := sound
    exact invariant.client_step (List.Subset.refl _) (read_sound listed sound taken)
  | closeWaiting at' _ | closeAsking at' =>
    rw [at'] at sound
    obtain ⟨listed, sound⟩ := sound
    refine invariant.client_step (List.Subset.refl _) ⟨listed, ?_, fun report eq => by cases eq⟩
    have accounts := sound.accounts
    exact ⟨accounts.parts, accounts.distinct, accounts.tells⟩
  | complete at' done =>
    rw [at'] at sound
    obtain ⟨listed, sound⟩ := sound
    have accounts := sound.complete done
    refine invariant.client_step (List.Subset.refl _)
      ⟨listed, ⟨accounts.parts, accounts.distinct, accounts.tells⟩, ?_⟩
    rintro report ⟨⟩
    rfl

theorem invariant_start {queue : QueueState} (distinct : (queue.jobs.map QueueJob.id).Nodup)
    (registry : LibraryRegistry) (libraryName : String) :
    Invariant (.start (.boot queue registry libraryName)) where
  distinct := distinct
  quiet := fun call member => by cases member
  current := fun listed => absurd rfl listed
  stream := fun sent member => by cases member
  client := rfl

/-- **A wait tells the truth, up to one gap.** In every interleaving of a wait with the daemon,
from a loaded queue whose ids differ: however the wait ends, its records and its unfinished ids are
together exactly the selected jobs, each once, and a complete wait leaves none unfinished. Every
record is an outcome, in all its fields, that the job's row held at some moment since the attaching
listing, or that it held between the subscription and that listing, in which case the listing
showed the job live again. -/
theorem wait_truth {queue : QueueState} (distinct : (queue.jobs.map QueueJob.id).Nodup)
    (registry : LibraryRegistry) (libraryName : String) {trace : List (Move × System)}
    (moves : Along Moves (.start (.boot queue registry libraryName)) trace) {waitEnd : WaitEnd}
    (ended : (finish (.start (.boot queue registry libraryName)) trace).client = .ended waitEnd) :
    (waitEnd.report.jobs.map JobOutcomeRecord.jobId ++ waitEnd.report.unfinished).Perm
        (finish (.start (.boot queue registry libraryName)) trace).selected ∧
      (waitEnd.report.jobs.map JobOutcomeRecord.jobId ++ waitEnd.report.unfinished).Nodup ∧
      (∀ report, waitEnd = .complete report → report.unfinished = []) ∧
      ∀ record ∈ waitEnd.report.jobs,
        (finish (.start (.boot queue registry libraryName)) trace).Tells record := by
  have invariant := moves.finish_invariant Invariant
    (fun _ _ _ invariant move => moves_kept invariant move)
    (invariant_start distinct registry libraryName)
  have sound := invariant.client
  unfold System.ClientSound at sound
  rw [ended] at sound
  obtain ⟨-, accounts, complete⟩ := sound
  exact ⟨accounts.parts, accounts.parts.nodup_iff.mpr accounts.distinct, complete, accounts.tells⟩

/-- A queue of one row. -/
def oneRow : QueueState := { QueueState.empty with jobs := [betaJob] }

/-- The daemon with that row pulled. -/
def pulledDaemon : Daemon :=
  (((Daemon.boot oneRow twoLibraries "main").recover .ok).poll.pull 1 .ok).2

/-- The run that fails. -/
def failedRun : RunResult := .error (.book { message := "bad archive", problem := none })

/-- The daemon with that run recorded. -/
def failedDaemon : Daemon := pulledDaemon.recordOutcome (startJob 1 betaJob) failedRun 2 .ok

/-- The daemon with the row put back. -/
def retriedDaemon : Daemon := (Request.run failedDaemon .ok (.queueRetry none (some "job-1"))).2

/-- What the failure reads as. -/
def failedRecord : JobOutcomeRecord where
  jobId := "job-1"
  kind := .book
  state := .failed
  error := some "bad archive"
  problem := none
  finishedAt := 2

/-- **The gap is there**: a job fails and is retried between the subscription and the attaching
listing, and the wait reports the buffered failure of a row that has been pending since it attached. -/
theorem stale_outcome_recorded : ∃ trace record,
    Along Moves (.start (.boot oneRow twoLibraries "main")) trace ∧
      (finish (.start (.boot oneRow twoLibraries "main")) trace).client =
        .ended (.complete { jobs := [record], unfinished := [] }) ∧
      ¬ Held (finish (.start (.boot oneRow twoLibraries "main")) trace).since record ∧
      Held (finish (.start (.boot oneRow twoLibraries "main")) trace).earlier record ∧
      (finish (.start (.boot oneRow twoLibraries "main")) trace).ListsLive record.jobId := by
  have steps : Along Moves (.start (.boot oneRow twoLibraries "main")) _ :=
    along_cons.mpr ⟨.subscribe rfl,
      along_cons.mpr ⟨@Moves.daemon _ (.recover .ok, .quiet) _ rfl,
      along_cons.mpr ⟨@Moves.daemon _ (.poll, .quiet) _ rfl,
      along_cons.mpr ⟨@Moves.daemon _ (.pull 1 .ok, .pulled (startJob 1 betaJob)) pulledDaemon rfl,
      along_cons.mpr ⟨@Moves.daemon _ (.finish failedRun 2 .ok, .recorded "job-1" failedRun.outcome)
        failedDaemon rfl,
      along_cons.mpr ⟨@Moves.daemon _ (.handle (.queueRetry none (some "job-1")) .ok,
        .wrote (.retried { retried := ["job-1"], held := [] })) retriedDaemon rfl,
      along_cons.mpr ⟨.list rfl,
      along_cons.mpr ⟨.attach (.ids ["job-1"]) true rfl,
      along_cons.mpr ⟨.deliver rfl (by decide) rfl,
      along_cons.mpr ⟨.deliver rfl (by decide) rfl,
      along_cons.mpr ⟨.deliver rfl (by decide) rfl,
      along_cons.mpr ⟨.complete rfl rfl, along_nil⟩⟩⟩⟩⟩⟩⟩⟩⟩⟩⟩⟩
  have distinct : (oneRow.jobs.map QueueJob.id).Nodup := List.nodup_singleton _
  have truth := wait_truth distinct twoLibraries "main" steps rfl
  have notHeld : ¬ Held [retriedDaemon] failedRecord := by
    rintro ⟨daemon, inside, job, row, ended⟩
    rw [List.mem_singleton] at inside
    subst inside
    have pending : job = betaJob := Option.some.inj (row.symm.trans rfl)
    rw [pending] at ended
    exact absurd ended (by decide)
  have tells := truth.2.2.2 failedRecord (List.mem_singleton_self _)
  exact ⟨_, failedRecord, steps, rfl, notHeld, (tells.resolve_left notHeld).1,
    (tells.resolve_left notHeld).2⟩

end Bookrack.Cli
