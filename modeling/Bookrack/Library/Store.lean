/-
The stores of one library — the catalog (`catalog/src/{intake,item_state}.rs`), the corpus with its
`index_meta` (`corpus/src/index_meta.rs`), the chunks table (`vectors/src/lib.rs`) and the opaque store of
extraction envelopes (`extract/src/envelope.rs`) — and the single writes to them.

* `Library` — what is on disk.
* `tree`, `rowsOf`, `modelOf`: the view of one book.
* `rows_perm`, `rowsOf_rewritten_ne`: the rows of a book and of the others.
-/

import Bookrack.Base.Prog
import Bookrack.Chunk.Plan
import Bookrack.Corpus.Placed

namespace Bookrack

open Chunk (ChunkPlan)
open Corpus (CorpusDb Node NewNode)

/-! ### Catalog -/

/-- `IntakeStatus`. -/
inductive IntakeStatus
  | pending
  | extracted
  | dedupHold
  | embedded
  | aborted
  | needsOcr
  deriving DecidableEq, Repr

/-- A name in the opaque store: an envelope under its kinded or its unprefixed name, or the archived
source. -/
inductive StoreName
  | envelope (intakeId : Int)
  | legacyEnvelope (intakeId : Int)
  | source (intakeId : Int)
  deriving DecidableEq, Repr

/-- The intake a name belongs to. -/
def StoreName.intakeId : StoreName → Int
  | .envelope id | .legacyEnvelope id | .source id => id

/-- One row of `intake`. -/
structure Intake where
  intakeId : Int
  sourceSha256 : String
  status : IntakeStatus
  adapter : Option String
  extractorVersion : Nat
  storedPath : Option StoreName
  derivedFrom : Option String
  deriving DecidableEq, Repr

/-- One row of `item_state`. -/
structure ItemState where
  currentStage : String
  embedModel : Option String
  deriving DecidableEq, Repr

/-! ### Envelopes -/

/-- An `Extraction` with its provenance; `rest` is every field that only an equality test reads. -/
structure Extracted where
  content : Structure.Extraction
  abstractText : Option String
  adapter : String
  extractorVersion : Nat
  partialPages : Option (List Nat)
  rest : String
  deriving DecidableEq, Repr

/-- `ExtractionEnvelope`. -/
structure Envelope where
  intakeId : Int
  sourceSha256 : String
  extraction : Extracted
  deriving DecidableEq, Repr

/-- A file of the opaque store: an envelope of the current schema, or bytes that do not parse as one. -/
inductive StoreFile
  | envelope (envelope : Envelope)
  | other
  deriving DecidableEq, Repr

/-! ### Chunks -/

/-- A vector, as the bits of its `f32` components. -/
abbrev Vector := List UInt32

/-- `ChunkRow`: the columns of a plan, and a vector. -/
structure ChunkRow where
  plan : ChunkPlan
  vector : Vector
  deriving DecidableEq, Repr

/-- The chunks table; its schema fixes the vectors' dimension. -/
structure ChunkTable where
  dim : Nat
  rows : List ChunkRow
  deriving DecidableEq, Repr

/-- `IndexStamps`: the four build parameters of `index_meta`, written and cleared as a set. -/
structure IndexStamps where
  embedModel : String
  vectorDim : Nat
  chunkVersion : Nat
  normalizeVersion : Nat
  deriving DecidableEq, Repr

/-- The `start_node_id` range of a partition (`partition_bounds`). -/
def inBounds (idx : PartitionIdx) (plan : ChunkPlan) : Bool :=
  decide (idx.root.get ≤ plan.startNodeId.get ∧
    plan.startNodeId.get ≤ idx.get * nodePartitionFactor + nodeCapacity)

theorem inBounds_iff {idx : PartitionIdx} (fits : idx.Fits) {plan : ChunkPlan} :
    inBounds idx plan = true ↔ ∃ localOffset, idx.At localOffset plan.startNodeId := by
  obtain ⟨_, _, isRoot⟩ := PartitionIdx.root_at fits
  rw [inBounds, decide_eq_true_iff, isRoot]
  constructor
  · rintro ⟨low, high⟩
    exact ⟨plan.startNodeId.get - idx.get * nodePartitionFactor, by omega, by omega, by omega⟩
  · rintro ⟨localOffset, first, last, isSum⟩
    omega

/-- A plan lies in the range of one partition only. -/
theorem inBounds_unique {one other : PartitionIdx} (fits : one.Fits) (fits' : other.Fits)
    {plan : ChunkPlan} (isOne : inBounds one plan = true) (isOther : inBounds other plan = true) :
    one = other := by
  obtain ⟨_, at_⟩ := (inBounds_iff fits).mp isOne
  obtain ⟨_, at'⟩ := (inBounds_iff fits').mp isOther
  rw [← (at_.divides fits).1, (at'.divides fits').1]

theorem partition_of_inBounds {idx : PartitionIdx} (fits : idx.Fits) {plan : ChunkPlan}
    (isIn : inBounds idx plan = true) : plan.startNodeId.partition = idx := by
  obtain ⟨_, isAt⟩ := (inBounds_iff fits).mp isIn
  exact (isAt.divides fits).1

/-! ### The library -/

/-- What is on disk. `states` and `attrs` are keyed by the intake whose root or id keys the row; `attrs`
is the abstract column of the publication attributes. -/
structure Library where
  intakes : List Intake
  states : Int → Option ItemState
  attrs : Int → Option (Option String)
  corpus : CorpusDb
  stamps : Option IndexStamps
  table : Option ChunkTable
  files : StoreName → Option StoreFile

namespace Library

/-- A library with nothing in it. -/
def empty : Library where
  intakes := []
  states := fun _ => none
  attrs := fun _ => none
  corpus := .empty
  stamps := none
  table := none
  files := fun _ => none

/-- `intake_by_sha`. -/
def intakeBySha (library : Library) (sha : String) : Option Intake :=
  library.intakes.find? fun intake => decide (intake.sourceSha256 = sha)

/-- `intake_by_id`. -/
def intakeById (library : Library) (id : Int) : Option Intake :=
  library.intakes.find? fun intake => decide (intake.intakeId = id)

/-- `intakes_with_status`. -/
def intakesWithStatus (library : Library) (status : IntakeStatus) : List Intake :=
  (library.intakes.filter fun intake => decide (intake.status = status)).insertionSort
    fun one other => one.intakeId ≤ other.intakeId

/-- The tree of a book: `book_nodes` at the root of its intake. -/
def tree (library : Library) (id : Int) : List Node := library.corpus.bookNodes (PartitionIdx.root ⟨id⟩)

/-- Every row of the chunks table. -/
def rows (library : Library) : List ChunkRow := (library.table.map (·.rows)).getD []

/-- `scan_partition`. -/
def rowsOf (library : Library) (id : Int) : List ChunkRow :=
  library.rows.filter fun row => inBounds ⟨id⟩ row.plan

/-- The plans of a book's rows: `row_to_plan` over `scan_partition`. -/
def plansOf (library : Library) (id : Int) : List ChunkPlan := (library.rowsOf id).map (·.plan)

/-- The rows of every other book. -/
def rowsOutside (library : Library) (idx : PartitionIdx) : List ChunkRow :=
  library.rows.filter fun row => !inBounds idx row.plan

/-- The dimension of the chunks table, or the one it is created with. -/
def tableDim (library : Library) (dim : Nat) : Nat := (library.table.map (·.dim)).getD dim

/-- The embedding model on a book's state row. -/
def modelOf (library : Library) (id : Int) : Option String := (library.states id).bind (·.embedModel)

/-- `read_envelope_with_fallback` at the kinded name. -/
def readEnvelope (library : Library) (id : Int) : Option StoreFile :=
  (library.files (.envelope id)).or (library.files (.legacyEnvelope id))

/-- `read_envelope_with_fallback` at any name. -/
def readWithFallback (library : Library) : StoreName → Option StoreFile
  | .envelope id => library.readEnvelope id
  | .legacyEnvelope id => (library.files (.legacyEnvelope id)).or (library.files (.envelope id))
  | .source id => library.files (.source id)

/-! ### Writes -/

/-- An `UPDATE intake … WHERE intake_id`. -/
def updateIntake (id : Int) (change : Intake → Intake) (library : Library) : Library :=
  { library with
    intakes := library.intakes.map fun intake => if intake.intakeId = id then change intake else intake }

/-- `set_intake_status`. -/
def setIntakeStatus (id : Int) (status : IntakeStatus) : Library → Library :=
  updateIntake id fun intake => { intake with status }

/-- `set_extraction`. -/
def setExtraction (id : Int) (adapter : String) (extractorVersion : Nat) : Library → Library :=
  updateIntake id fun intake => { intake with adapter := some adapter, extractorVersion }

/-- `set_stored_path`. -/
def setStoredPath (id : Int) (path : StoreName) : Library → Library :=
  updateIntake id fun intake => { intake with storedPath := some path }

/-- The `UPDATE` of `set_derived_from`. -/
def setDerivedFrom (id : Int) (sha : String) : Library → Library :=
  updateIntake id fun intake => { intake with derivedFrom := some sha }

/-- The `INSERT` of `register_intake`. -/
def insertIntake (id : Int) (sha : String) (library : Library) : Library :=
  { library with intakes := library.intakes ++ [⟨id, sha, .pending, none, 1, none, none⟩] }

/-- `upsert_book_state`: the row is replaced whole. -/
def setState (id : Int) (state : ItemState) (library : Library) : Library :=
  { library with states := Function.update library.states id (some state) }

/-- The abstract column of `upsert_publication_attrs`. -/
def setAttrs (id : Int) (abstractText : Option String) (library : Library) : Library :=
  { library with attrs := Function.update library.attrs id (some abstractText) }

/-- A file written or replaced (a temporary file persisted under the name). -/
def putFile (name : StoreName) (file : StoreFile) (library : Library) : Library :=
  { library with files := Function.update library.files name (some file) }

/-- `remove_file`; a missing file is no error. -/
def removeFile (name : StoreName) (library : Library) : Library :=
  { library with files := Function.update library.files name none }

def setCorpus (corpus : CorpusDb) (library : Library) : Library := { library with corpus }

/-- `write_index_stamps`, `clear_index_stamps`. -/
def setStamps (stamps : Option IndexStamps) (library : Library) : Library := { library with stamps }

/-- `drop_chunks_table`. -/
def dropTable (library : Library) : Library := { library with table := none }

/-- The empty table `ChunkStore::open` creates where there is none. -/
def openTable (dim : Nat) (library : Library) : Library :=
  { library with table := some (library.table.getD ⟨dim, []⟩) }

/-- `delete_partition` of the chunks table. -/
def deleteRows (idx : PartitionIdx) (library : Library) : Library :=
  { library with
    table := library.table.map fun table =>
      { table with rows := table.rows.filter fun row => !inBounds idx row.plan } }

/-- `append`. -/
def appendRows (rows : List ChunkRow) (library : Library) : Library :=
  { library with table := library.table.map fun table => { table with rows := table.rows ++ rows } }

/-- The library with other stamps and another chunks table. -/
def withVectors (stamps : IndexStamps) (dim : Nat) (rows : List ChunkRow) (library : Library) : Library :=
  { library with stamps := some stamps, table := some ⟨dim, rows⟩ }

/-- The intake of a file: the one on file, or the new one. -/
def targetId (library : Library) (sourceSha : String) (newId : Int) : Int :=
  ((library.intakeBySha sourceSha).map (·.intakeId)).getD newId

/-- The catalog once the file is registered. -/
def registered (library : Library) (sourceSha : String) (newId : Int) : Library :=
  match library.intakeBySha sourceSha with
  | some _ => library
  | none => library.insertIntake newId sourceSha

@[simp] theorem modelOf_setState (library : Library) (id : Int) (state : ItemState) :
    (library.setState id state).modelOf id = state.embedModel := by
  show (Function.update library.states id (some state) id).bind (·.embedModel) = state.embedModel
  rw [Function.update_self, Option.bind_some]

/-! ### What the writes leave of the files -/

section Files

variable (library : Library) (name : StoreName) (file : StoreFile)

@[simp] theorem files_putFile_self : (library.putFile name file).files name = some file :=
  Function.update_self _ _ _

@[simp] theorem files_removeFile_self : (library.removeFile name).files name = none :=
  Function.update_self _ _ _

variable {name} {other : StoreName}

theorem files_putFile_ne (isOther : other ≠ name) :
    (library.putFile name file).files other = library.files other :=
  Function.update_of_ne isOther _ _

theorem files_removeFile_ne (isOther : other ≠ name) :
    (library.removeFile name).files other = library.files other :=
  Function.update_of_ne isOther _ _

end Files

/-! ### What the writes leave of the chunks -/

variable {library : Library}

theorem rows_openTable (dim : Nat) : (library.openTable dim).rows = library.rows := by
  unfold openTable rows
  cases library.table <;> rfl

theorem rows_of_rowsOf {id : Int} (isCons : library.plansOf id ≠ []) : library.rows ≠ [] := by
  intro isNil
  exact isCons (by rw [plansOf, rowsOf, isNil]; rfl)

theorem openTable_eq (dim : Nat) :
    library.openTable dim = { library with table := some ⟨library.tableDim dim, library.rows⟩ } := by
  unfold openTable tableDim rows
  cases library.table <;> rfl

section WithVectors

variable (stamps : IndexStamps) (dim : Nat) (rows : List ChunkRow)

@[simp] theorem rows_withVectors : (library.withVectors stamps dim rows).rows = rows := rfl

end WithVectors

/-- A table is the rows of other books and the book's own. -/
theorem rows_perm (id : Int) :
    (library.rowsOutside ⟨id⟩ ++ library.rowsOf id).Perm library.rows := by
  refine List.perm_append_comm.trans ?_
  exact List.filter_append_perm _ _

theorem length_rows (id : Int) :
    library.rows.length = (library.rowsOutside ⟨id⟩).length + (library.plansOf id).length := by
  rw [← (library.rows_perm id).length_eq, List.length_append, plansOf, List.length_map]

section Rewritten

variable {id other : Int} {written : List ChunkRow}

/-- After a rewrite, the book's rows are those written. -/
theorem rowsOf_rewritten_self (inside : ∀ row ∈ written, inBounds ⟨id⟩ row.plan = true) :
    ((library.rowsOutside ⟨id⟩ ++ written).filter fun row => inBounds ⟨id⟩ row.plan) = written := by
  rw [List.filter_append, List.filter_eq_self.mpr inside, rowsOutside, List.filter_filter]
  simp

/-- After a rewrite, the rows of another book are those it had. -/
theorem rowsOf_rewritten_ne (fits : PartitionIdx.Fits ⟨id⟩) (fits' : PartitionIdx.Fits ⟨other⟩)
    (isOther : other ≠ id) (inside : ∀ row ∈ written, inBounds ⟨id⟩ row.plan = true) :
    ((library.rowsOutside ⟨id⟩ ++ written).filter fun row => inBounds ⟨other⟩ row.plan) =
      library.rowsOf other := by
  have apart : ∀ {plan : ChunkPlan}, inBounds ⟨other⟩ plan = true → inBounds ⟨id⟩ plan = false := by
    intro plan isIn
    by_contra isIn'
    rw [Bool.not_eq_false] at isIn'
    exact isOther (PartitionIdx.mk.inj (inBounds_unique fits' fits isIn isIn'))
  have none : (written.filter fun row => inBounds ⟨other⟩ row.plan) = [] := by
    refine List.filter_eq_nil_iff.mpr fun row isRow isIn => ?_
    exact Bool.false_ne_true ((apart isIn).symm.trans (inside row isRow))
  rw [List.filter_append, none, List.append_nil, rowsOutside, List.filter_filter, rowsOf]
  refine List.filter_congr fun row _ => ?_
  cases isIn : inBounds ⟨other⟩ row.plan with
  | false => rfl
  | true => rw [apart isIn]; rfl

end Rewritten

end Library

end Bookrack
