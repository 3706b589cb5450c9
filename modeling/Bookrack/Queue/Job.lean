/-
The value types of the persistent ingest queue (`core/src/queue.rs`): the row, the document, and
the id-fragment matcher that both `ingest.cancel` and `queue.retry` locate a row with.

Instants are read off one clock the handlers never compare, so `Timestamp` is a bare number; a
path is the string it was submitted as.
-/

import Bookrack.Core.Problem
import Mathlib.Data.List.Infix

namespace Bookrack.Queue

/-- An instant of the wall clock. -/
abbrev Timestamp := Nat

/-! ### The row -/

/-- Which pipeline owns an item. -/
inductive ItemKind
  | book
  | paper
  | reference
  deriving DecidableEq, Repr

/-- The pull-order hint of a row. -/
inductive Priority
  | low
  | normal
  | high
  deriving DecidableEq, Repr

/-- The lifecycle of a row. -/
inductive JobState
  | pending
  | running
  | done
  | skippedDuplicate
  | needsOcr
  | failed
  | cancelled
  deriving DecidableEq, Repr

/-- `JobState::as_wire_str`. -/
def JobState.asWireStr : JobState → String
  | .pending => "pending"
  | .running => "running"
  | .done => "done"
  | .skippedDuplicate => "skipped_duplicate"
  | .needsOcr => "needs_ocr"
  | .failed => "failed"
  | .cancelled => "cancelled"

/-- `matches!(state, JobState::Pending | JobState::Running)`, the test the cancel, the bring-up
sweep and the unmount count share. -/
def JobState.isLive : JobState → Bool
  | .pending | .running => true
  | _ => false

/-- The side data of an OCR-intake row. -/
structure IntakeOcrInfo where
  fromPdf : String
  expectedPages : Option Nat
  allowPartial : Bool
  deriving DecidableEq, Repr

/-- One row of the queue. -/
structure QueueJob where
  id : String
  library : String
  path : String
  priority : Priority
  force : Bool
  holdForMetadata : Bool
  kind : ItemKind
  intakeOcr : Option IntakeOcrInfo
  auditProfile : Option String
  state : JobState
  queuedAt : Timestamp
  startedAt : Option Timestamp
  finishedAt : Option Timestamp
  error : Option String
  problem : Option Problem
  mergedInto : Option Int
  deriving DecidableEq, Repr

/-! ### The document -/

/-- `QUEUE_SCHEMA_VERSION`. -/
def queueSchemaVersion : Nat := 7

/-- The document persisted to disk; `jobs` is in insertion order. -/
structure QueueState where
  schemaVersion : Nat
  paused : Bool
  jobs : List QueueJob
  deriving DecidableEq, Repr

/-- `QueueState::default`. -/
def QueueState.empty : QueueState where
  schemaVersion := queueSchemaVersion
  paused := false
  jobs := []

/-! ### Locating a row by a fragment of its id -/

/-- Why a fragment did not locate exactly one row. -/
inductive FragmentMiss
  | empty
  | noMatch
  | ambiguous (count : Nat)
  deriving DecidableEq, Repr

/-- `str::contains`: `fragment` occurs in `id` as a contiguous run. -/
def containsFragment (id fragment : String) : Bool :=
  decide (fragment.toList <:+: id.toList)

/-- The indices of the rows `eligible` admits and whose id contains `fragment`, in order. -/
def fragmentCandidates (jobs : List QueueJob) (fragment : String) (eligible : QueueJob → Bool) :
    List Nat :=
  (jobs.zipIdx.filter fun entry => eligible entry.1 && containsFragment entry.1.id fragment).map
    Prod.snd

/-- `match_id_fragment`. An empty fragment is refused before any row is looked at. -/
def matchIdFragment (jobs : List QueueJob) (fragment : String) (eligible : QueueJob → Bool) :
    Except FragmentMiss Nat :=
  if fragment = "" then .error .empty
  else
    match fragmentCandidates jobs fragment eligible with
    | [] => .error .noMatch
    | first :: rest =>
      if rest.length = 0 then .ok first else .error (.ambiguous (rest.length + 1))

/-- **A located row**: the index the matcher returns is in range, its row is admitted, and its id
contains the fragment. -/
theorem matchIdFragment_ok {jobs : List QueueJob} {fragment : String} {eligible : QueueJob → Bool}
    {index : Nat} (located : matchIdFragment jobs fragment eligible = .ok index) :
    ∃ job, jobs[index]? = some job ∧ eligible job = true ∧
      containsFragment job.id fragment = true := by
  have member : index ∈ fragmentCandidates jobs fragment eligible := by
    unfold matchIdFragment at located
    split at located
    · cases located
    · split at located
      · cases located
      · rename_i first rest candidates
        split at located
        · cases located
          rw [candidates]
          exact List.mem_cons_self
        · cases located
  unfold fragmentCandidates at member
  rw [List.mem_map] at member
  obtain ⟨⟨job, position⟩, kept, rfl⟩ := member
  rw [List.mem_filter, Bool.and_eq_true] at kept
  exact ⟨job, List.mem_zipIdx_iff_getElem?.mp kept.1, kept.2⟩

end Bookrack.Queue
