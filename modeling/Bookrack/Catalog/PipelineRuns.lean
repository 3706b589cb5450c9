/-
The run registry (`catalog/src/pipeline_runs.rs`) and the names of the liveness records kept beside
it (`catalog/src/run_lock.rs`).

* `RunId` — what `open_pipeline_run` makes of a command, SQLite's instant and the hash: the parts
  carry their formats, so every value is an id the registry can hold.
* `runLockName_injective` — **the record's name tells runs apart**: the colons of the instant are
  the only characters of an id that the name replaces.
* `RunTable` — the rows, under their primary key; `statusOf_closePipelineRun` and `mem_listOpen` are
  what the operations do to them.
-/

import Bookrack.Base.Rows
import Bookrack.Core.Patterns

namespace Bookrack.Catalog

open Rows

/-! ### The ids -/

/-- The catalog a command registers its runs in. -/
inductive Registry
  | books
  | papers
  deriving DecidableEq, Repr

/-- The registered commands. -/
inductive Command
  | ingest
  | dryrun
  | papersDryrun
  | distillBuild
  | distillDryrun
  | glean
  | reembed
  | reset
  | papersReembed
  | papersReset
  deriving DecidableEq, Repr

def Command.word : Command → String
  | .ingest => "ingest"
  | .dryrun => "dryrun"
  | .papersDryrun => "papers_dryrun"
  | .distillBuild => "distill_build"
  | .distillDryrun => "distill_dryrun"
  | .glean => "glean"
  | .reembed => "reembed"
  | .reset => "reset"
  | .papersReembed => "papers_reembed"
  | .papersReset => "papers_reset"

def Command.registry : Command → Registry
  | .ingest | .dryrun | .distillBuild | .distillDryrun | .reembed | .reset => .books
  | .papersDryrun | .glean | .papersReembed | .papersReset => .papers

/-- The characters of `strftime('%Y-%m-%dT%H:%M:%SZ', 'now')`. -/
def isStampChar (c : Char) : Bool := c.isDigit || c == '-' || c == 'T' || c == ':' || c == 'Z'

/-- The digits of `format!("{b:02x}")`. -/
def isHexChar (c : Char) : Bool :=
  c.isDigit || (decide ('a'.toNat ≤ c.toNat) && decide (c.toNat ≤ 'f'.toNat))

/-- A composite id: the command, the start instant, and the first four bytes of the hash. -/
structure RunId where
  command : Command
  startedAt : List Char
  sha8 : List Char
  stamped : startedAt.length = 20 ∧ ∀ c ∈ startedAt, isStampChar c = true
  hashed : sha8.length = 8 ∧ ∀ c ∈ sha8, isHexChar c = true
  deriving DecidableEq, Repr

/-- `format!("{command}-{started_at}-{sha8}")`. -/
def RunId.text (run : RunId) : List Char :=
  run.command.word.toList ++ '-' :: (run.startedAt ++ '-' :: run.sha8)

/-! ### The records' names -/

/-- One character of `run_lock_path`. -/
def portable (c : Char) : Char :=
  if c.isAlphanum || c == '.' || c == '_' || c == '-' then c else '_'

/-- The file name of `run_lock_path`. -/
def runLockName (run : RunId) : List Char := run.text.map portable ++ ".lock".toList

theorem portable_of_alphanum {c : Char} (plain : c.isAlphanum = true) : portable c = c := by
  simp [portable, plain]

theorem portable_word (command : Command) :
    command.word.toList.map portable = command.word.toList := by
  cases command <;> decide

theorem word_injective {first second : Command} (same : first.word.toList = second.word.toList) :
    first = second := by
  revert same
  cases first <;> cases second <;> decide

theorem portable_hex {c : Char} (hex : isHexChar c = true) : portable c = c := by
  apply portable_of_alphanum
  simp only [isHexChar, Bool.or_eq_true, Bool.and_eq_true, decide_eq_true_eq] at hex
  rcases hex with digit | ⟨low, high⟩
  · simp [Char.isAlphanum, digit]
  · have letter : c.isAlpha = true := isAlpha_iff_toNat.mpr (.inr ⟨low, le_trans high (by decide)⟩)
    simp [Char.isAlphanum, letter]

/-- What an instant's character was before the name replaced it. -/
def restored (c : Char) : Char := if c = '_' then ':' else c

theorem restored_portable {c : Char} (stamp : isStampChar c = true) : restored (portable c) = c := by
  simp only [isStampChar, Bool.or_eq_true, beq_iff_eq] at stamp
  rcases stamp with (((digit | rfl) | rfl) | rfl) | rfl
  · have other : c ≠ '_' := by
      rintro rfl
      exact absurd digit (by decide)
    rw [portable_of_alphanum (by simp [Char.isAlphanum, digit]), restored, if_neg other]
  all_goals decide

/-- The portable form of an instant still tells it. -/
theorem portable_stamp_injective {first second : List Char}
    (left : ∀ c ∈ first, isStampChar c = true) (right : ∀ c ∈ second, isStampChar c = true)
    (same : first.map portable = second.map portable) : first = second := by
  have back : ∀ {stamp : List Char}, (∀ c ∈ stamp, isStampChar c = true) →
      (stamp.map portable).map restored = stamp := by
    intro stamp chars
    rw [List.map_map]
    calc stamp.map (restored ∘ portable) = stamp.map id :=
          List.map_congr_left fun c member => restored_portable (chars c member)
      _ = stamp := List.map_id stamp
  rw [← back left, same, back right]

theorem portable_hash {sha8 : List Char} (hex : ∀ c ∈ sha8, isHexChar c = true) :
    sha8.map portable = sha8 := by
  calc sha8.map portable = sha8.map id :=
        List.map_congr_left fun c member => portable_hex (hex c member)
    _ = sha8 := List.map_id sha8

theorem text_portable (run : RunId) :
    run.text.map portable =
      run.command.word.toList ++ '-' :: (run.startedAt.map portable ++ '-' :: run.sha8) := by
  simp only [RunId.text, List.map_append, List.map_cons, portable_word, portable_hash run.hashed.2]
  rfl

/-- **Two runs share a record's name only if they are one run.** -/
theorem runLockName_injective : Function.Injective runLockName := by
  intro first second same
  have texts := List.append_cancel_right same
  rw [text_portable, text_portable] at texts
  obtain ⟨words, tails⟩ := List.append_inj' texts (by
    simp [first.stamped.1, second.stamped.1, first.hashed.1, second.hashed.1])
  obtain ⟨stamps, hashes⟩ := List.append_inj (List.cons.inj tails).2 (by
    simp [first.stamped.1, second.stamped.1])
  have command := word_injective words
  have startedAt := portable_stamp_injective first.stamped.2 second.stamped.2 stamps
  have sha8 := (List.cons.inj hashes).2
  cases first
  cases second
  cases command
  cases startedAt
  cases sha8
  rfl

/-! ### The rows -/

inductive RunStatus
  | running
  | ok
  | error
  | abandoned
  deriving DecidableEq, Repr

/-- One `pipeline_runs` row. -/
structure PipelineRun where
  run : RunId
  status : RunStatus
  finishedAt : Option String
  deriving DecidableEq, Repr

/-- The rows of the catalogs, in the order they were written, under their primary key. -/
structure RunTable where
  rows : List PipelineRun
  distinct : (rows.map PipelineRun.run).Nodup

/-- What the table says of a run, if it knows it. -/
def RunTable.statusOf (table : RunTable) (run : RunId) : Option RunStatus :=
  (lookup PipelineRun.run run table.rows).map PipelineRun.status

def RunTable.empty : RunTable := ⟨[], List.nodup_nil⟩

/-- `open_pipeline_run`: an id that is taken violates the key, and no run is opened. -/
def openPipelineRun (table : RunTable) (run : RunId) : Option RunTable :=
  if absent : run ∈ table.rows.map PipelineRun.run then none
  else some
    { rows := table.rows ++ [{ run := run, status := .running, finishedAt := none }]
      distinct := by
        rw [List.map_append, List.nodup_append]
        refine ⟨table.distinct, List.nodup_singleton _, ?_⟩
        rintro key member other last rfl
        rw [List.map_singleton, List.mem_singleton] at last
        subst last
        exact absent member }

/-- The row `close_pipeline_run` leaves of one row. -/
def PipelineRun.closed (run : RunId) (status : RunStatus) (now : String) (row : PipelineRun) :
    PipelineRun :=
  if row.run = run then { row with status := status, finishedAt := some now } else row

theorem closed_run (run : RunId) (status : RunStatus) (now : String) (row : PipelineRun) :
    (row.closed run status now).run = row.run := by
  unfold PipelineRun.closed
  split <;> rfl

/-- `close_pipeline_run`: whatever the row said, and nothing where there is no row. -/
def closePipelineRun (table : RunTable) (run : RunId) (status : RunStatus) (now : String) :
    RunTable where
  rows := table.rows.map (PipelineRun.closed run status now)
  distinct := by
    rw [List.map_map, show PipelineRun.run ∘ PipelineRun.closed run status now = PipelineRun.run from
      funext (closed_run run status now)]
    exact table.distinct

/-- The order of two texts in a column, character by character. -/
def textBefore (first second : List Char) : Bool :=
  first.lex second fun c d => decide (c.toNat < d.toNat)

/-- `ORDER BY started_at DESC, pipeline_run_id DESC`. -/
def newestFirst (first second : PipelineRun) : Bool :=
  textBefore second.run.startedAt first.run.startedAt ||
    (first.run.startedAt == second.run.startedAt && !textBefore first.run.text second.run.text)

/-- `list_open_pipeline_runs` on one catalog. -/
def listOpenPipelineRuns (table : RunTable) (registry : Registry) : List RunId :=
  ((table.rows.filter fun row =>
    row.status == .running && row.run.command.registry == registry).mergeSort newestFirst).map
      PipelineRun.run

/-! ### What the operations do -/

theorem statusOf_eq_some {table : RunTable} {run : RunId} {status : RunStatus} :
    table.statusOf run = some status ↔
      ∃ row ∈ table.rows, row.run = run ∧ row.status = status := by
  simp only [RunTable.statusOf, Option.map_eq_some_iff, lookup_eq_some table.distinct]
  constructor
  · rintro ⟨row, ⟨member, key⟩, reads⟩
    exact ⟨row, member, key, reads⟩
  · rintro ⟨row, member, key, reads⟩
    exact ⟨row, ⟨member, key⟩, reads⟩

theorem statusOf_eq_none {table : RunTable} {run : RunId} :
    table.statusOf run = none ↔ run ∉ table.rows.map PipelineRun.run := by
  constructor
  · intro unknown member
    obtain ⟨row, inside, key⟩ := List.mem_map.mp member
    rw [statusOf_eq_some.mpr ⟨row, inside, key, rfl⟩] at unknown
    cases unknown
  · intro absent
    rw [RunTable.statusOf, lookup_absent absent, Option.map_none]

theorem statusOf_openPipelineRun {table opened : RunTable} {run : RunId}
    (opens : openPipelineRun table run = some opened) (other : RunId) :
    opened.statusOf other = if other = run then some .running else table.statusOf other := by
  unfold openPipelineRun at opens
  split at opens
  · cases opens
  cases opens
  rename_i absent
  by_cases here : other = run
  · rw [if_pos here]
    exact statusOf_eq_some.mpr ⟨_, List.mem_append_right _ (List.mem_singleton_self _), here.symm, rfl⟩
  · rw [if_neg here]
    apply Option.ext
    intro status
    show RunTable.statusOf _ other = some status ↔ table.statusOf other = some status
    rw [statusOf_eq_some, statusOf_eq_some]
    constructor
    · rintro ⟨row, member, rfl, reads⟩
      rcases List.mem_append.mp member with old | new
      · exact ⟨row, old, rfl, reads⟩
      · exact absurd (congrArg PipelineRun.run (List.mem_singleton.mp new)) here
    · rintro ⟨row, member, key, reads⟩
      exact ⟨row, List.mem_append_left _ member, key, reads⟩

theorem statusOf_closePipelineRun (table : RunTable) (run : RunId) (status : RunStatus)
    (now : String) (other : RunId) :
    (closePipelineRun table run status now).statusOf other =
      if other = run then (table.statusOf other).map fun _ => status else table.statusOf other := by
  have found : lookup PipelineRun.run other (closePipelineRun table run status now).rows =
      (lookup PipelineRun.run other table.rows).map (PipelineRun.closed run status now) := by
    show List.find? _ (table.rows.map _) = (List.find? _ table.rows).map _
    rw [List.find?_map]
    refine congrArg (fun test => (List.find? test table.rows).map _) (funext fun row => ?_)
    simp only [Function.comp_apply, closed_run]
  unfold RunTable.statusOf
  rw [found, Option.map_map]
  cases held : lookup PipelineRun.run other table.rows with
  | none => simp
  | some row =>
    have key : row.run = other := (lookup_key held).2
    by_cases here : other = run
    · simp [PipelineRun.closed, key, here]
    · simp [PipelineRun.closed, key, here]

/-- The listing holds exactly the catalog's rows that read `running`. -/
theorem mem_listOpen {table : RunTable} {registry : Registry} {run : RunId} :
    run ∈ listOpenPipelineRuns table registry ↔
      table.statusOf run = some .running ∧ run.command.registry = registry := by
  simp only [listOpenPipelineRuns, List.mem_map, List.mem_mergeSort, List.mem_filter,
    Bool.and_eq_true, beq_iff_eq, statusOf_eq_some]
  constructor
  · rintro ⟨row, ⟨member, reads, kept⟩, rfl⟩
    exact ⟨⟨row, member, rfl, reads⟩, kept⟩
  · rintro ⟨⟨row, member, rfl, reads⟩, kept⟩
    exact ⟨row, ⟨member, reads, kept⟩, rfl⟩

end Bookrack.Catalog
