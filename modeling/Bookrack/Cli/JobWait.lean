/-
The wait of the command line on queue jobs (`cli/src/cmd/cli_client/job_wait.rs`, the selection of
`queue_wait.rs` and the folding of events in `progress_view.rs`).

Nothing here knows the daemon: a wait reads listings of its rows and the events it publishes.

* `mem_indices`, `mem_selectedIds` — the rows a wait covers.
* `attach` / `attach_spec` — those rows, split into ended records and live ids.
* `reconcile` / `reconcile_spec` — what a listing settles of the jobs still awaited.
* `StreamEvent.apply` / `apply_spec` — what an event settles.
-/

import Bookrack.Base.Rows
import Bookrack.Runtime.RowStep
import Mathlib.Data.List.Dedup
import Mathlib.Data.List.Perm.Basic

namespace Bookrack.Cli

open Queue Bookrack.Runtime Rows

/-! ### Records -/

inductive JobOutcomeState
  | done
  | skippedDuplicate
  | needsOcr
  | failed
  | cancelled
  deriving DecidableEq, Repr

/-- `JobOutcomeState::from_wire`. -/
def JobOutcomeState.fromWire (state : String) : Option JobOutcomeState :=
  if state = "done" ∨ state = "Done" then some .done
  else if state = "skipped_duplicate" ∨ state = "SkippedDuplicate" then some .skippedDuplicate
  else if state = "needs_ocr" ∨ state = "NeedsOcr" then some .needsOcr
  else if state = "failed" ∨ state = "Failed" then some .failed
  else if state = "cancelled" ∨ state = "Cancelled" then some .cancelled
  else none

/-- `JobOutcomeRecord`. -/
structure JobOutcomeRecord where
  jobId : String
  kind : ItemKind
  state : JobOutcomeState
  error : Option String
  problem : Option Problem
  finishedAt : Timestamp
  deriving DecidableEq, Repr

/-- `JobOutcomeReport`, without what it counts of the records and the time it took. -/
structure JobOutcomeReport where
  jobs : List JobOutcomeRecord
  unfinished : List String
  deriving DecidableEq, Repr

/-- `ended_record`. -/
def endedRecord (job : QueueJob) : Except String JobOutcomeRecord :=
  match JobOutcomeState.fromWire job.state.asWireStr with
  | none =>
    .error ("job " ++ job.id ++ " is " ++ job.state.asWireStr ++ ", not an ended state")
  | some state =>
    match job.finishedAt with
    | none =>
      .error ("queue.list reported job " ++ job.id ++ " as " ++ job.state.asWireStr ++
        " without a finished_at")
    | some finishedAt =>
      .ok
        { jobId := job.id
          kind := job.kind
          state := state
          error := job.error
          problem := job.problem
          finishedAt := finishedAt }

/-- The record a tick's outcome reads as. -/
def summaryRecord (summary : JobOutcomeSummary) : Option JobOutcomeRecord :=
  (JobOutcomeState.fromWire summary.state.asWireStr).map fun state =>
    { jobId := summary.jobId
      kind := summary.kind
      state := state
      error := summary.error
      problem := summary.problem
      finishedAt := summary.finishedAt }

theorem endedRecord_jobId {job : QueueJob} {record : JobOutcomeRecord}
    (reads : endedRecord job = .ok record) : record.jobId = job.id := by
  unfold endedRecord at reads
  split at reads
  · cases reads
  · split at reads
    · cases reads
    · cases reads
      rfl

/-- A tick that closes out a job and the row it was taken from read as one record. -/
theorem summaryRecord_eq {job : QueueJob} {now finished : Timestamp} {record : JobOutcomeRecord}
    (stamped : job.finishedAt = some finished)
    (reads : summaryRecord (summarizeOutcome now job) = some record) :
    endedRecord job = .ok record := by
  unfold summaryRecord at reads
  obtain ⟨state, wire, rfl⟩ := Option.map_eq_some_iff.mp reads
  replace wire : JobOutcomeState.fromWire job.state.asWireStr = some state := wire
  simp [endedRecord, wire, stamped, summarizeOutcome]

/-! ### Listings and what a wait covers -/

/-- A `queue.list` reply. -/
structure Listing where
  jobs : List QueueJob
  paused : Bool
  deriving DecidableEq, Repr

/-- Why a wait ends without a report. -/
inductive WaitFault
  | error (text : String)
  | refused (problem : Problem)
  deriving DecidableEq, Repr

/-- `listing.jobs.iter().position(|job| &job.id == id)`, as the row found there. -/
def Listing.row (listing : Listing) (id : String) : Option QueueJob :=
  lookup QueueJob.id id listing.jobs

def noRow (id : String) : String := "queue.list carries no row for job " ++ id

/-- `rows_for_ids`, from the rows picked so far. -/
def rowsForIds (listing : Listing) (picked : List Nat) : List String → Except String (List Nat)
  | [] => .ok picked
  | id :: rest =>
    match listing.jobs.findIdx? fun job => decide (job.id = id) with
    | none => .error (noRow id)
    | some index => rowsForIds listing (if index ∈ picked then picked else picked ++ [index]) rest

/-- `FULL_ID_HINT`. -/
def fullIdHint : String := "`bookrack queue list --long` prints every job\x27s full id."

/-- `fragment_refusal`. -/
def fragmentRefusal (fragment : String) : FragmentMiss → Problem
  | .empty => Problem.new "a job id fragment must not be empty"
  | .noMatch => (Problem.new ("no job matches " ++ debugText fragment)).hint fullIdHint
  | .ambiguous count =>
    (Problem.new (debugText fragment ++ " is ambiguous, matches " ++ toString count ++
      " jobs")).hint ("Pass more of the id; " ++ fullIdHint)

/-- The rows `select` picks for fragments, from the rows picked so far. -/
def rowsForFragments (listing : Listing) (picked : List Nat) :
    List String → Except Problem (List Nat)
  | [] => .ok picked
  | fragment :: rest =>
    match matchIdFragment listing.jobs fragment fun _ => true with
    | .error miss => .error (fragmentRefusal fragment miss)
    | .ok index =>
      rowsForFragments listing (if index ∈ picked then picked else picked ++ [index]) rest

/-- `select`. -/
def select (listing : Listing) (fragments : List String) : Except Problem (List Nat) :=
  if fragments = [] then
    .ok ((List.range listing.jobs.length).filter fun index =>
      (listing.jobs[index]?.map fun job => job.state.isLive).getD false)
  else rowsForFragments listing [] fragments

/-- What a wait covers: the ids a submission was answered with, or what `queue wait` names. -/
inductive Choice
  | ids (ids : List String)
  | fragments (fragments : List String)
  deriving DecidableEq, Repr

def Choice.indices (listing : Listing) : Choice → Except WaitFault (List Nat)
  | .ids wanted => (rowsForIds listing [] wanted).mapError .error
  | .fragments named => (select listing named).mapError .refused

/-- `Attached`. -/
structure Attached where
  settled : List JobOutcomeRecord
  live : List String
  deriving DecidableEq, Repr

/-- `attach`; an index past the rows is a panic of the source, which no selection yields. -/
def attach (listing : Listing) : List Nat → Except String Attached
  | [] => .ok { settled := [], live := [] }
  | index :: rest =>
    match listing.jobs[index]? with
    | none => .error "index out of bounds"
    | some job =>
      if job.state.isLive then do
        let attached ← attach listing rest
        return { attached with live := job.id :: attached.live }
      else do
        let record ← endedRecord job
        let attached ← attach listing rest
        return { attached with settled := record :: attached.settled }

/-- The ids of the selected rows. -/
def selectedIds (listing : Listing) (indices : List Nat) : List String :=
  indices.filterMap fun index => listing.jobs[index]?.map QueueJob.id

/-- `pending_among`. -/
def pendingAmong (listing : Listing) (ids : List String) : Nat :=
  (listing.jobs.filter fun job => job.state == .pending && decide (job.id ∈ ids)).length

/-- The hint of the paused refusal. -/
def resumeHint : String :=
  "Run `bookrack queue resume`, then `bookrack queue wait` to pick up what is still queued."

/-- `no_worker`. -/
def noWorker (live : Nat) : Problem :=
  ((Problem.new "cannot wait on queue jobs: the daemon has no queue worker").detail
    (if live = 1 then "1 selected job is pending or running, and nothing will run it."
     else toString live ++ " selected jobs are pending or running, and nothing will run them.")).hint
    "Restart the daemon with a queue worker: `bookrack run`."

/-- `paused`. -/
def pausedProblem (pending : Nat) : Problem :=
  ((Problem.new "cannot wait on pending jobs while the queue is paused").detail
    (if pending = 1 then "1 selected job is pending; a paused worker pulls no job."
     else toString pending ++ " selected jobs are pending; a paused worker pulls no job.")).hint
    resumeHint

/-- `disconnected`. -/
def disconnected (awaited : Nat) (detail : String) : Problem :=
  ((Problem.new ("the daemon disconnected while " ++
      (if awaited = 1 then "1 job was" else toString awaited ++ " jobs were") ++
      " still awaited")).detail detail).hint
    ("The queue keeps them: start the daemon again with `bookrack run`, then run " ++
      "`bookrack queue wait` to follow them.")

/-- `judge`. -/
def judge (workerEnabled : Bool) (listing : Listing) (attached : Attached) : Option Problem :=
  if attached.live = [] then none
  else if !workerEnabled then some (noWorker attached.live.length)
  else if listing.paused && decide (0 < pendingAmong listing attached.live) then
    some (pausedProblem (pendingAmong listing attached.live))
  else none

/-! ### The await loop -/

/-- What a subscriber can receive, as far as the wait looks at it. -/
inductive StreamEvent
  | tick (tick : QueueTick)
  | progress (jobId : String)
  | state (degraded : Bool)
  | lag
  deriving DecidableEq, Repr

/-- The events behind which the wait reads the queue. -/
def StreamEvent.asks : StreamEvent → Bool
  | .lag => true
  | .state degraded => degraded
  | .tick _ | .progress _ => false

/-- A wait on its way: what it has collected, the live ids it attached to, and those of them its
view still awaits. -/
structure Wait where
  records : List JobOutcomeRecord
  live : List String
  pending : List String
  deriving DecidableEq, Repr

/-- `finish`, and the push that follows it. -/
def Wait.finish (wait : Wait) (record : JobOutcomeRecord) : Wait :=
  { wait with
    records := wait.records ++ [record]
    pending := wait.pending.filter (· != record.jobId) }

/-- `extract_finished`. -/
def extractFinished (tick : QueueTick) (pending : List String) : Option JobOutcomeRecord :=
  match tick.lastFinished with
  | none => none
  | some summary => if summary.jobId ∈ pending then summaryRecord summary else none

/-- `ViewState::apply`, and the push of what it finished. -/
def StreamEvent.apply (event : StreamEvent) (wait : Wait) : Wait :=
  match event with
  | .tick shown =>
    match extractFinished shown wait.pending with
    | some record => wait.finish record
    | none => wait
  | .progress _ | .state _ | .lag => wait

/-- `ViewState::settle`, and the push of what it settled. -/
def Wait.settle (wait : Wait) (record : JobOutcomeRecord) : Wait :=
  if record.jobId ∈ wait.pending then wait.finish record else wait

/-- The loop of a reconciliation over the live ids. -/
def reconcile (listing : Listing) : List String → Wait → Except String Wait
  | [], wait => .ok wait
  | id :: rest, wait =>
    if id ∈ wait.pending then
      match listing.row id with
      | none => .error (noRow id)
      | some job =>
        if job.state.isLive then reconcile listing rest wait
        else do
          let record ← endedRecord job
          reconcile listing rest (wait.settle record)
    else reconcile listing rest wait

/-- The ids a report names as unfinished. -/
def Wait.unfinished (wait : Wait) : List String := wait.live.filter fun id => decide (id ∈ wait.pending)

/-- `WaitEnd`. -/
inductive WaitEnd
  | complete (report : JobOutcomeReport)
  | refused (report : JobOutcomeReport) (problem : Problem)
  deriving DecidableEq, Repr

def WaitEnd.report : WaitEnd → JobOutcomeReport
  | .complete report | .refused report _ => report

/-! ### The selection -/

theorem nodup_picked {picked : List Nat} {index : Nat} (distinct : picked.Nodup) :
    (if index ∈ picked then picked else picked ++ [index]).Nodup := by
  split
  · exact distinct
  · rename_i new
    exact distinct.append (List.nodup_singleton index) (by simpa using new)

theorem nodup_rowsForIds {listing : Listing} {ids : List String} {picked indices : List Nat}
    (distinct : picked.Nodup) (picks : rowsForIds listing picked ids = .ok indices) :
    indices.Nodup := by
  induction ids generalizing picked with
  | nil =>
    cases picks
    exact distinct
  | cons id rest ih =>
    unfold rowsForIds at picks
    split at picks
    · cases picks
    · exact ih (nodup_picked distinct) picks

theorem nodup_rowsForFragments {listing : Listing} {fragments : List String}
    {picked indices : List Nat} (distinct : picked.Nodup)
    (picks : rowsForFragments listing picked fragments = .ok indices) : indices.Nodup := by
  induction fragments generalizing picked with
  | nil =>
    cases picks
    exact distinct
  | cons fragment rest ih =>
    unfold rowsForFragments at picks
    split at picks
    · cases picks
    · exact ih (nodup_picked distinct) picks

/-- No row is selected twice. -/
theorem nodup_indices {listing : Listing} {choice : Choice} {indices : List Nat}
    (chosen : choice.indices listing = .ok indices) : indices.Nodup := by
  cases choice with
  | ids wanted =>
    replace chosen : (rowsForIds listing [] wanted).mapError WaitFault.error = .ok indices := chosen
    cases picks : rowsForIds listing [] wanted with
    | error text =>
      rw [picks] at chosen
      cases chosen
    | ok picked =>
      rw [picks] at chosen
      cases chosen
      exact nodup_rowsForIds List.nodup_nil picks
  | fragments named =>
    replace chosen : (select listing named).mapError WaitFault.refused = .ok indices := chosen
    cases picks : select listing named with
    | error problem =>
      rw [picks] at chosen
      cases chosen
    | ok picked =>
      rw [picks] at chosen
      cases chosen
      unfold select at picks
      split at picks
      · cases picks
        exact List.nodup_range.filter _
      · exact nodup_rowsForFragments List.nodup_nil picks

/-- What a choice names a row by: its id, its being live where nothing is asked for, or a fragment that
matches no other row. -/
def Choice.Names (listing : Listing) (index : Nat) : Choice → Prop
  | .ids wanted =>
    ∃ id ∈ wanted, (listing.jobs.findIdx? fun job => decide (job.id = id)) = some index
  | .fragments [] => ∃ job, listing.jobs[index]? = some job ∧ job.state.isLive = true
  | .fragments (fragment :: rest) => ∃ named ∈ fragment :: rest,
    matchIdFragment listing.jobs named (fun _ => true) = .ok index

theorem mem_picked {picked : List Nat} {index found : Nat} :
    index ∈ (if found ∈ picked then picked else picked ++ [found]) ↔ index ∈ picked ∨ found = index := by
  split
  · rename_i old
    refine ⟨.inl, ?_⟩
    rintro (before | rfl)
    · exact before
    · exact old
  · rw [List.mem_append, List.mem_singleton, eq_comm]

theorem mem_rowsForIds {listing : Listing} {ids : List String} {picked indices : List Nat}
    (picks : rowsForIds listing picked ids = .ok indices) {index : Nat} :
    index ∈ indices ↔ index ∈ picked ∨
      ∃ id ∈ ids, (listing.jobs.findIdx? fun job => decide (job.id = id)) = some index := by
  induction ids generalizing picked with
  | nil =>
    cases picks
    simp
  | cons id rest ih =>
    unfold rowsForIds at picks
    split at picks
    · cases picks
    · rename_i found isFound
      rw [ih picks, mem_picked, or_assoc]
      simp [isFound]

theorem mem_rowsForFragments {listing : Listing} {fragments : List String}
    {picked indices : List Nat} (picks : rowsForFragments listing picked fragments = .ok indices)
    {index : Nat} : index ∈ indices ↔ index ∈ picked ∨
      ∃ named ∈ fragments, matchIdFragment listing.jobs named (fun _ => true) = .ok index := by
  induction fragments generalizing picked with
  | nil =>
    cases picks
    simp
  | cons fragment rest ih =>
    unfold rowsForFragments at picks
    split at picks
    · cases picks
    · rename_i found isFound
      rw [ih picks, mem_picked, or_assoc]
      simp [isFound]

/-- **The rows a choice picks** are the rows it names. -/
theorem mem_indices {listing : Listing} {choice : Choice} {indices : List Nat}
    (chosen : choice.indices listing = .ok indices) {index : Nat} :
    index ∈ indices ↔ choice.Names listing index := by
  cases choice with
  | ids wanted =>
    replace chosen : (rowsForIds listing [] wanted).mapError WaitFault.error = .ok indices := chosen
    cases picks : rowsForIds listing [] wanted with
    | error text =>
      rw [picks] at chosen
      cases chosen
    | ok picked =>
      rw [picks] at chosen
      cases chosen
      exact (mem_rowsForIds picks).trans (or_iff_right List.not_mem_nil)
  | fragments named =>
    replace chosen : (select listing named).mapError WaitFault.refused = .ok indices := chosen
    cases picks : select listing named with
    | error problem =>
      rw [picks] at chosen
      cases chosen
    | ok picked =>
      rw [picks] at chosen
      cases chosen
      cases named with
      | nil =>
        cases picks
        rw [List.mem_filter, List.mem_range]
        show _ ↔ ∃ job, listing.jobs[index]? = some job ∧ job.state.isLive = true
        cases isRow : listing.jobs[index]? with
        | none => simp
        | some job =>
          have inside := (List.getElem?_eq_some_iff.mp isRow).1
          simp [inside]
      | cons fragment rest =>
        have found : rowsForFragments listing [] (fragment :: rest) = .ok indices := picks
        exact (mem_rowsForFragments found).trans (or_iff_right List.not_mem_nil)

/-- The ids picked are those of the rows the choice names. -/
theorem mem_selectedIds {listing : Listing} {choice : Choice} {indices : List Nat}
    (chosen : choice.indices listing = .ok indices) {id : String} :
    id ∈ selectedIds listing indices ↔
      ∃ index job, choice.Names listing index ∧ listing.jobs[index]? = some job ∧ job.id = id := by
  rw [selectedIds, List.mem_filterMap]
  refine exists_congr fun index => ?_
  rw [mem_indices chosen, Option.map_eq_some_iff, exists_and_left]

theorem found_of_rowsForIds {listing : Listing} {ids : List String} {picked indices : List Nat}
    (picks : rowsForIds listing picked ids = .ok indices) :
    ∀ id ∈ ids, ∃ index, (listing.jobs.findIdx? fun job => decide (job.id = id)) = some index := by
  induction ids generalizing picked with
  | nil => exact List.forall_mem_nil _
  | cons id rest ih =>
    unfold rowsForIds at picks
    split at picks
    · cases picks
    · rename_i found isFound
      exact List.forall_mem_cons.mpr ⟨⟨found, isFound⟩, ih picks⟩

/-- A submission's wait covers the ids it was answered with. -/
theorem mem_selectedIds_ids {listing : Listing} {wanted : List String} {indices : List Nat}
    (picks : rowsForIds listing [] wanted = .ok indices) {id : String} :
    id ∈ selectedIds listing indices ↔ id ∈ wanted := by
  have chosen : (Choice.ids wanted).indices listing = .ok indices := by
    show (rowsForIds listing [] wanted).mapError WaitFault.error = .ok indices
    rw [picks]
    rfl
  rw [mem_selectedIds chosen]
  constructor
  · rintro ⟨index, job, ⟨named, member, isFirst⟩, isRow, rfl⟩
    obtain ⟨inside, same, -⟩ := List.findIdx?_eq_some_iff_getElem.mp isFirst
    rw [List.getElem?_eq_getElem inside] at isRow
    rw [← Option.some.inj isRow, of_decide_eq_true same]
    exact member
  · intro member
    obtain ⟨index, isFirst⟩ := found_of_rowsForIds picks id member
    obtain ⟨inside, same, -⟩ := List.findIdx?_eq_some_iff_getElem.mp isFirst
    exact ⟨index, listing.jobs[index], ⟨id, member, isFirst⟩, List.getElem?_eq_getElem inside,
      of_decide_eq_true same⟩

/-- Rows of different indices have different ids. -/
theorem nodup_selectedIds {listing : Listing} (distinct : (listing.jobs.map QueueJob.id).Nodup)
    {indices : List Nat} (apart : indices.Nodup) : (selectedIds listing indices).Nodup := by
  refine apart.filterMap ?_
  intro first second id firstIs secondIs
  simp only [Option.mem_def, Option.map_eq_some_iff] at firstIs secondIs
  obtain ⟨firstRow, firstAt, rfl⟩ := firstIs
  obtain ⟨secondRow, secondAt, same⟩ := secondIs
  have inside : first < (listing.jobs.map QueueJob.id).length := by
    rw [List.length_map]
    exact (List.getElem?_eq_some_iff.mp firstAt).1
  refine (List.getElem?_inj inside distinct).mp ?_
  rw [List.getElem?_map, List.getElem?_map, firstAt, secondAt, Option.map_some, Option.map_some,
    same]

/-! ### Attaching -/

/-- **Attaching splits the selected rows**: every one of them is a record read off its ended row, or
live in the listing. -/
theorem attach_spec {listing : Listing} {indices : List Nat} {attached : Attached}
    (attaches : attach listing indices = .ok attached) :
    (attached.settled.map JobOutcomeRecord.jobId ++ attached.live).Perm
        (selectedIds listing indices) ∧
      (∀ record ∈ attached.settled, ∃ job ∈ listing.jobs, endedRecord job = .ok record) ∧
        ∀ id ∈ attached.live, ∃ job ∈ listing.jobs, job.id = id ∧ job.state.isLive = true := by
  induction indices generalizing attached with
  | nil =>
    cases attaches
    exact ⟨.refl _, (fun record member => by cases member), fun id member => by cases member⟩
  | cons index rest ih =>
    unfold attach at attaches
    cases found : listing.jobs[index]? with
    | none =>
      rw [found] at attaches
      cases attaches
    | some job =>
      rw [found] at attaches
      have ids : selectedIds listing (index :: rest) = job.id :: selectedIds listing rest := by
        simp [selectedIds, found]
      have member : job ∈ listing.jobs := List.mem_of_getElem? found
      rw [ids]
      by_cases live : job.state.isLive
      · simp only [live, if_true] at attaches
        cases behind : attach listing rest with
        | error text =>
          rw [behind] at attaches
          cases attaches
        | ok later =>
          rw [behind] at attaches
          cases attaches
          obtain ⟨parts, ended, lives⟩ := ih behind
          refine ⟨?_, ended, ?_⟩
          · exact List.perm_middle.trans (parts.cons job.id)
          · intro id inside
            rcases List.mem_cons.mp inside with rfl | inside
            · exact ⟨job, member, rfl, live⟩
            · exact lives id inside
      · simp only [live] at attaches
        cases reads : endedRecord job with
        | error text =>
          rw [reads] at attaches
          cases attaches
        | ok record =>
          rw [reads] at attaches
          cases behind : attach listing rest with
          | error text =>
            rw [behind] at attaches
            cases attaches
          | ok later =>
            rw [behind] at attaches
            cases attaches
            obtain ⟨parts, ended, lives⟩ := ih behind
            refine ⟨?_, ?_, lives⟩
            · rw [List.map_cons, List.cons_append, endedRecord_jobId reads]
              exact parts.cons job.id
            · intro other inside
              rcases List.mem_cons.mp inside with rfl | inside
              · exact ⟨job, member, reads⟩
              · exact ended other inside

/-! ### What a wait has collected -/

/-- **Every selected job is recorded once or still awaited**, and what is awaited was live. -/
structure Wait.Parted (selected : List String) (wait : Wait) : Prop where
  parts : (wait.records.map JobOutcomeRecord.jobId ++ wait.pending).Perm selected
  distinct : selected.Nodup
  within : ∀ id ∈ wait.pending, id ∈ wait.live
  live : wait.live.Nodup

theorem Wait.Parted.pending_nodup {selected : List String} {wait : Wait}
    (parted : wait.Parted selected) : wait.pending.Nodup :=
  (List.nodup_append.mp (parted.parts.nodup_iff.mpr parted.distinct)).2.1

/-- Recording an awaited job keeps the parts. -/
theorem Wait.Parted.finish {selected : List String} {wait : Wait} (parted : wait.Parted selected)
    {record : JobOutcomeRecord} (awaited : record.jobId ∈ wait.pending) :
    (wait.finish record).Parted selected where
  parts := by
    show ((wait.records ++ [record]).map JobOutcomeRecord.jobId ++
      wait.pending.filter (· != record.jobId)).Perm selected
    rw [← parted.pending_nodup.erase_eq_filter, List.map_append, List.append_assoc]
    exact ((List.perm_cons_erase awaited).symm.append_left _).trans parted.parts
  distinct := parted.distinct
  within id member := parted.within id (List.mem_of_mem_filter member)
  live := parted.live

/-- What a report of the wait names as unfinished is what it still awaits. -/
theorem Wait.Parted.unfinished {selected : List String} {wait : Wait}
    (parted : wait.Parted selected) : wait.unfinished.Perm wait.pending := by
  refine (List.perm_ext_iff_of_nodup (parted.live.filter _) parted.pending_nodup).mpr fun id => ?_
  rw [List.mem_filter, decide_eq_true_eq]
  exact ⟨And.right, fun awaited => ⟨parted.within id awaited, awaited⟩⟩

/-- **What an event settles** is awaited and reads as the event's outcome; nothing else changes. -/
theorem apply_spec (event : StreamEvent) (wait : Wait) :
    event.apply wait = wait ∨ ∃ tick summary record, event = .tick tick ∧
      tick.lastFinished = some summary ∧ summaryRecord summary = some record ∧
        record.jobId ∈ wait.pending ∧ event.apply wait = wait.finish record := by
  cases event with
  | progress | state | lag => exact .inl rfl
  | tick shown =>
    have applied : StreamEvent.apply (.tick shown) wait =
        match extractFinished shown wait.pending with
        | some record => wait.finish record
        | none => wait := rfl
    rw [applied]
    cases extracts : extractFinished shown wait.pending with
    | none => exact .inl rfl
    | some record =>
      right
      unfold extractFinished at extracts
      split at extracts
      · cases extracts
      · rename_i summary closes
        split at extracts
        · rename_i awaited
          refine ⟨shown, summary, record, rfl, closes, extracts, ?_, rfl⟩
          obtain ⟨state, -, rfl⟩ := Option.map_eq_some_iff.mp extracts
          exact awaited
        · cases extracts

/-- **What a reconciliation settles**: the parts are kept, the live ids stay, and every new record is
read off its row of the listing. -/
theorem reconcile_spec {listing : Listing} {selected ids : List String} {wait after : Wait}
    (parted : wait.Parted selected) (reads : reconcile listing ids wait = .ok after) :
    after.Parted selected ∧ after.live = wait.live ∧ ∀ record ∈ after.records,
      record ∈ wait.records ∨ ∃ job, listing.row record.jobId = some job ∧
        endedRecord job = .ok record := by
  induction ids generalizing wait with
  | nil =>
    cases reads
    exact ⟨parted, rfl, fun record member => .inl member⟩
  | cons id rest ih =>
    unfold reconcile at reads
    split at reads
    · rename_i awaited
      cases found : listing.row id with
      | none =>
        rw [found] at reads
        cases reads
      | some job =>
        rw [found] at reads
        have named : job.id = id := (lookup_key found).2
        by_cases live : job.state.isLive
        · simp only [live, if_true] at reads
          exact ih parted reads
        · simp only [live] at reads
          cases ended : endedRecord job with
          | error text =>
            rw [ended] at reads
            cases reads
          | ok record =>
            rw [ended] at reads
            have jobId : record.jobId = id := (endedRecord_jobId ended).trans named
            have settles : wait.settle record = wait.finish record := by
              rw [Wait.settle, jobId, if_pos awaited]
            replace reads : reconcile listing rest (wait.settle record) = .ok after := reads
            rw [settles] at reads
            obtain ⟨parts, lives, records⟩ := ih (parted.finish (by rwa [jobId])) reads
            refine ⟨parts, lives, fun other member => ?_⟩
            rcases records other member with old | new
            · rcases List.mem_append.mp old with old | new
              · exact .inl old
              · rw [List.mem_singleton] at new
                subst new
                exact .inr ⟨job, by rwa [jobId], ended⟩
            · exact .inr new
    · exact ih parted reads

end Bookrack.Cli
