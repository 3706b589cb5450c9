/-
The parts of an EMBED stage that the book and the paper pipeline share: the embedder, the index stamps
(`corpus/src/index_meta.rs`) and the chunk store (`vectors/src/lib.rs`), as programs over a `Library`.

* `Embedder` — the answers of one embedder over one run, request by request.
* `reconcileIndexStamps_ends`, `append_ends`: what each program does to the library, over every fate.
-/

import Bookrack.Library.Store

namespace Bookrack

open Chunk (ChunkPlan TextSplitter ChunkParams)
open Structure (TextFns)
open Prog

/-! ### Binaries -/

/-- The version constants a binary is compiled with. -/
structure Binary where
  extractorVersion : Nat
  chunkVersion : Nat
  normalizeVersion : Nat
  deriving DecidableEq, Repr

/-- What the crates outside do, by version: the normalizer and hash, the splitter, and the test that a
vector can be stored. -/
structure Toolchain where
  fns : Nat → TextFns
  splitterFor : Nat → ChunkParams → Option TextSplitter
  usable : Vector → Bool

/-! ### Errors -/

/-- `EmbedError`: overload is the one a caller reacts to. -/
inductive EmbedError
  | overloaded
  | refused (reason : String)
  deriving DecidableEq, Repr

/-- `EmbedError::is_overload`. -/
def EmbedError.isOverload : EmbedError → Bool
  | .overloaded => true
  | .refused _ => false

/-- `IngestError` and `GleanError`, as far as the drivers below raise them. -/
inductive PipelineError
  | catalog
  | corpus
  | vectors
  | io
  | extract
  | emptyExtraction
  | needsOcr (reason : String) (intakeId : Option Int)
  | embed (reason : EmbedError)
  | emptyEmbedding
  | indexStampMismatch (key : String)
  | unknownIntake (intakeId : Int)
  | intakeNotEmbedded (intakeId : Int)
  | intakeNotRebuildable (intakeId : Int)
  | envelope
  | ocrSourceStatusMismatch (intakeId : Int) (status : IntakeStatus)
  | ocrPagesExcess (excess : List Nat)
  | ocrPagesMissing (missing : List Nat)
  deriving DecidableEq, Repr

/-! ### The embedder -/

/-- `EmbedConfig`, without the transport's settings. -/
structure EmbedConfig where
  model : String
  batchMaxChunks : Nat
  batchCharBudget : Nat
  deriving DecidableEq, Repr

/-- An embedder over one run. A request is named by its place: the dimension probe, or a batch with the
halves taken on overload (`false` left, `true` right). An answer has one vector for each text. -/
structure Embedder where
  probe : List String → Except EmbedError (List Vector)
  embedBatch : Nat → List Bool → List String → Except EmbedError (List Vector)
  onePerText : ∀ {batch path texts vectors}, embedBatch batch path texts = .ok vectors →
    vectors.length = texts.length

/-- The embedder returned the row's vector for the row's text, in some request. -/
def Embedder.Answered (embedder : Embedder) (row : ChunkRow) : Prop :=
  ∃ batch path texts vectors, embedder.embedBatch batch path texts = .ok vectors ∧
    (row.plan.text, row.vector) ∈ texts.zip vectors

/-- An embedder that gives every text one answer. -/
def Embedder.always (answer : Except EmbedError Vector) : Embedder where
  probe texts := .ok (texts.map fun _ => [0])
  embedBatch _ _ texts := answer.map fun vector => texts.map fun _ => vector
  onePerText := by
    intro _ _ texts vectors answered
    cases answer with
    | error reason => cases answered
    | ok vector =>
      cases answered
      exact List.length_map _

/-! ### Index stamps -/

/-- `current_index_stamps`. -/
def currentIndexStamps (binary : Binary) (embedModel : String) (vectorDim : Nat) : IndexStamps :=
  ⟨embedModel, vectorDim, binary.chunkVersion, binary.normalizeVersion⟩

/-- The first key in which two sets of stamps differ (`check_index_stamps`). -/
def IndexStamps.mismatch (found expected : IndexStamps) : Option String :=
  if found.embedModel ≠ expected.embedModel then some "embed_model"
  else if found.vectorDim ≠ expected.vectorDim then some "vector_dim"
  else if found.chunkVersion ≠ expected.chunkVersion then some "chunk_version"
  else if found.normalizeVersion ≠ expected.normalizeVersion then some "normalize_version"
  else none

theorem IndexStamps.mismatch_eq_none {found expected : IndexStamps} :
    found.mismatch expected = none ↔ found = expected := by
  obtain ⟨_, _, _, _⟩ := found
  obtain ⟨_, _, _, _⟩ := expected
  unfold mismatch
  split_ifs <;> simp_all

/-- `reconcile_index_stamps`. -/
def reconcileIndexStamps (fate : Fate) (expected : IndexStamps) : Prog Library PipelineError Unit := do
  match ← read (·.stamps) with
  | none => write fate .corpus (Library.setStamps (some expected))
  | some found =>
    match found.mismatch expected with
    | some key => throw (.indexStampMismatch key)
    | none => pure ()

/-- The stamps are the expected ones afterwards, or nothing is written. -/
theorem reconcileIndexStamps_ends {fate : Fate} {expected : IndexStamps} {library : Library}
    {post : Unit → Library → Prop} {fail : PipelineError → Library → Prop} {cut : Library → Prop}
    (fresh : library.stamps = none → fate = .done → post () (library.setStamps (some expected)))
    (same : library.stamps = some expected → post () library)
    (failed : ¬ (library.stamps = none ∧ fate = .done ∨ library.stamps = some expected) →
      ∀ reason, fail reason library)
    (isCut : fate = .cut → cut library) :
    Ends (reconcileIndexStamps fate expected) library post fail cut := by
  unfold reconcileIndexStamps
  rw [ends_bind, ends_read]
  cases isStamps : library.stamps with
  | none =>
    refine Ends.write (fresh isStamps) (fun isFailed => failed ?_ _) isCut
    simp [isStamps, isFailed]
  | some found =>
    dsimp only
    cases differs : found.mismatch expected with
    | some key =>
      refine failed ?_ _
      rintro (⟨isNone, _⟩ | isSame)
      · cases isStamps.symm.trans isNone
      · rw [Option.some.inj (isStamps.symm.trans isSame), IndexStamps.mismatch_eq_none.mpr rfl] at differs
        cases differs
    | none =>
      obtain rfl := IndexStamps.mismatch_eq_none.mp differs
      exact same isStamps

/-! ### The chunk store -/

/-- `ChunkStore::open`; the table's own dimension is returned. -/
def openChunkStore (fate : Fate) (dim : Nat) : Prog Library PipelineError Nat := do
  write fate .vectors (Library.openTable dim)
  read (·.tableDim dim)

theorem openChunkStore_ends {fate : Fate} {dim : Nat} {library : Library}
    {post : Nat → Library → Prop} {fail : PipelineError → Library → Prop} {cut : Library → Prop}
    (done : fate = .done → post (library.tableDim dim)
      { library with table := some ⟨library.tableDim dim, library.rows⟩ })
    (failed : fate = .failed → fail .vectors library) (isCut : fate = .cut → cut library) :
    Ends (openChunkStore fate dim) library post fail cut := by
  unfold openChunkStore
  rw [ends_bind]
  refine Ends.write (fun isDone => ?_) failed isCut
  rw [ends_read, Library.openTable_eq]
  exact done isDone

/-- `ChunkStore::append`: a batch is refused whole before any write. -/
def append (tools : Toolchain) (fate : Fate) (dim : Nat) (rows : List ChunkRow) :
    Prog Library PipelineError Nat := do
  if rows.isEmpty then pure 0
  else if rows.any fun row => decide (row.vector.length ≠ dim) || !tools.usable row.vector then
    throw .vectors
  else
    write fate .vectors (Library.appendRows rows)
    pure rows.length

/-- A batch the store takes: every vector of its dimension and usable. -/
def Toolchain.Takes (tools : Toolchain) (dim : Nat) (rows : List ChunkRow) : Prop :=
  ∀ row ∈ rows, row.vector.length = dim ∧ tools.usable row.vector = true

instance (tools : Toolchain) (dim : Nat) (rows : List ChunkRow) : Decidable (tools.Takes dim rows) :=
  inferInstanceAs (Decidable (∀ row ∈ rows, _))

theorem append_ends {tools : Toolchain} {fate : Fate} {dim : Nat} {rows : List ChunkRow}
    {library : Library} {post : Nat → Library → Prop} {fail : PipelineError → Library → Prop}
    {cut : Library → Prop} (isCons : rows ≠ [])
    (done : tools.Takes dim rows → fate = .done → post rows.length (library.appendRows rows))
    (failed : ¬ (tools.Takes dim rows ∧ fate = .done) → fail .vectors library)
    (isCut : tools.Takes dim rows → fate = .cut → cut library) :
    Ends (append tools fate dim rows) library post fail cut := by
  unfold append
  rw [if_neg (by simpa using isCons)]
  split_ifs with refused
  · refine failed fun ⟨takes, _⟩ => ?_
    obtain ⟨row, isRow, bad⟩ := List.any_eq_true.mp refused
    have fits := takes row isRow
    simp [fits.1, fits.2] at bad
  · have takes : tools.Takes dim rows := by
      intro row isRow
      rw [List.any_eq_true] at refused
      by_contra bad
      refine refused ⟨row, isRow, ?_⟩
      by_cases fits : row.vector.length = dim
      · simpa [fits] using bad
      · simp [fits]
    rw [ends_bind]
    exact Ends.write (done takes) (fun isFailed => failed (by simp [isFailed])) (isCut takes)

/-! ### Embedding runs -/

/-- A run that ended before it deleted anything: the rows are those found, and so are the stamps unless
the run put the first ones on. -/
def Untouched (before after : Library) : Prop :=
  ∃ stamps table, after = { before with stamps, table } ∧ after.rows = before.rows ∧
    (stamps = before.stamps ∨ before.stamps = none)

end Bookrack
