/-
When the embed run builds the approximate index, and with how many partitions
(`ingest/src/embed_run.rs`, `vectors/src/lib.rs`).

A build stores the configuration it used in the sidecar file, and a retrain starts from the stored
one, which was already clamped to the rows of the time.

* `embedRun_cases` — what a run can do to the sidecar: nothing but count churn, remove it, or replace
  it by the configuration of a build, whose partition count is the template's, clamped.
* **`index_grows_iff`** — along every run from no sidecar, each build uses the default count clamped
  to its rows exactly when each retrain finds a count in the sidecar that is large enough.
* `sidecar_never_grows` — and while it is there, that count only ever falls.
-/

import Bookrack.Base.Run
import Mathlib.Algebra.Group.Nat.Defs
import Mathlib.Order.Lattice
import Mathlib.Tactic.Common

namespace Bookrack.Ann

open Run

/-! ### Configurations -/

/-- `AnnKind`. -/
inductive AnnKind
  | ivfFlat
  | ivfSq
  | ivfPq
  | ivfHnswFlat
  | ivfHnswSq
  | ivfHnswPq
  | bruteForce
  deriving DecidableEq, Repr

/-- `AnnKind::as_str`. -/
def AnnKind.asStr : AnnKind → String
  | .ivfFlat => "ivf-flat"
  | .ivfSq => "ivf-sq"
  | .ivfPq => "ivf-pq"
  | .ivfHnswFlat => "ivf-hnsw-flat"
  | .ivfHnswSq => "ivf-hnsw-sq"
  | .ivfHnswPq => "ivf-hnsw-pq"
  | .bruteForce => "brute-force"

/-- `VectorsError`, as far as a build raises it. -/
inductive VectorsError
  | unknownAnnKind (kind : String)
  | invalidAnnConfig (field reason : String)
  | missingPqParam (name : String)
  | ivfPqQuantizationTooCoarse (dim numSubVectors : Nat)
  | tooFewVectors (kind : AnnKind) (rows required : Nat)
  | buildOnBruteForceKind
  deriving DecidableEq, Repr

/-- `AnnKind::from_str`. -/
def AnnKind.fromStr (s : String) : Except VectorsError AnnKind :=
  match s with
  | "ivf-flat" => .ok .ivfFlat
  | "ivf-sq" => .ok .ivfSq
  | "ivf-pq" => .ok .ivfPq
  | "ivf-hnsw-flat" => .ok .ivfHnswFlat
  | "ivf-hnsw-sq" => .ok .ivfHnswSq
  | "ivf-hnsw-pq" => .ok .ivfHnswPq
  | "brute-force" => .ok .bruteForce
  | _ => .error (.unknownAnnKind s)

/-- `AnnConfig`. -/
structure AnnConfig where
  kind : AnnKind
  numPartitions : Nat
  numSubVectors : Option Nat
  numBits : Option Nat
  nprobes : Nat
  refineFactor : Option Nat
  deriving DecidableEq, Repr

/-- `VectorsMeta`, as far as the embed run reads it. -/
structure VectorsMeta where
  kind : String
  numPartitions : Nat
  numSubVectors : Option Nat
  numBits : Option Nat
  defaultNprobes : Nat
  defaultRefineFactor : Option Nat
  builtAtChunkCount : Nat
  churnSinceRebuild : Nat
  deriving DecidableEq, Repr

namespace AnnConfig

/-- `AnnConfig::default_for`. -/
def defaultFor (kind : AnnKind) : AnnConfig :=
  match kind with
  | .ivfFlat | .ivfSq => ⟨kind, 64, none, none, 40, none⟩
  | .ivfPq => ⟨kind, 64, some 128, some 8, 40, none⟩
  | .ivfHnswFlat | .ivfHnswSq | .ivfHnswPq => ⟨kind, 64, none, none, 40, some 5⟩
  | .bruteForce => ⟨kind, 0, none, none, 0, none⟩

/-- `AnnConfig::from_meta`. -/
def fromMeta (stored : VectorsMeta) : Except VectorsError AnnConfig :=
  match AnnKind.fromStr stored.kind with
  | .error unknown => .error unknown
  | .ok kind =>
    .ok ⟨kind, stored.numPartitions, stored.numSubVectors, stored.numBits, stored.defaultNprobes,
      stored.defaultRefineFactor⟩

/-- `AnnConfig::to_meta`. -/
def toMeta (cfg : AnnConfig) (builtAtChunkCount churnSinceRebuild : Nat) : VectorsMeta :=
  ⟨cfg.kind.asStr, cfg.numPartitions, cfg.numSubVectors, cfg.numBits, cfg.nprobes, cfg.refineFactor,
    builtAtChunkCount, churnSinceRebuild⟩

/-- `AnnConfig::is_pq`. -/
def isPq (cfg : AnnConfig) : Bool := cfg.kind == .ivfPq || cfg.kind == .ivfHnswPq

/-- `AnnConfig::pq_num_bits`. -/
def pqNumBits (cfg : AnnConfig) : Nat := cfg.numBits.getD 8

/-- `invalid_num_bits`. -/
def invalidNumBits (numBits : Nat) : VectorsError :=
  .invalidAnnConfig "num_bits" ("must be 4 or 8, got " ++ toString numBits)

/-- The part of `AnnConfig::validate` for the PQ kinds. -/
def validatePq (cfg : AnnConfig) (dim : Nat) : Except VectorsError Unit :=
  match cfg.numSubVectors with
  | none => .error (.missingPqParam "num_sub_vectors")
  | some nsv =>
    if nsv = 0 then .error (.invalidAnnConfig "num_sub_vectors" "must be greater than 0, got 0")
    else if dim % nsv ≠ 0 then
      .error (.invalidAnnConfig "num_sub_vectors"
        ("must divide the dimension " ++ toString dim ++ ", got " ++ toString nsv))
    else if 8 < dim / nsv then .error (.ivfPqQuantizationTooCoarse dim nsv)
    else if cfg.pqNumBits ≠ 4 ∧ cfg.pqNumBits ≠ 8 then .error (invalidNumBits cfg.pqNumBits)
    else if cfg.pqNumBits = 4 ∧ nsv % 2 ≠ 0 then
      .error (.invalidAnnConfig "num_sub_vectors"
        ("must be even with 4-bit codes, got " ++ toString nsv))
    else .ok ()

/-- `AnnConfig::validate`. -/
def validate (cfg : AnnConfig) (dim : Nat) : Except VectorsError Unit :=
  if cfg.kind = .bruteForce then .ok ()
  else if cfg.numPartitions = 0 then
    .error (.invalidAnnConfig "num_partitions" "must be greater than 0, got 0")
  else
    match (if cfg.isPq then cfg.validatePq dim else .ok ()) with
    | .error refused => .error refused
    | .ok () =>
      if cfg.nprobes = 0 then
        .error (.invalidAnnConfig "nprobes" "must be greater than 0, got 0")
      else if cfg.refineFactor = some 0 then
        .error (.invalidAnnConfig "refine_factor" "must be greater than 0 when set, got 0")
      else .ok ()

/-- `AnnConfig::check_trainable`: of the two floors the higher is reported. -/
def checkTrainable (cfg : AnnConfig) (rows : Nat) : Except VectorsError Unit :=
  if cfg.kind = .bruteForce then .ok ()
  else if cfg.isPq ∧ cfg.pqNumBits ≠ 4 ∧ cfg.pqNumBits ≠ 8 then .error (invalidNumBits cfg.pqNumBits)
  else
    let codebook := if cfg.isPq ∧ rows < 2 ^ cfg.pqNumBits then 2 ^ cfg.pqNumBits else 0
    let required := if rows < cfg.numPartitions then max codebook cfg.numPartitions else codebook
    if required = 0 then .ok () else .error (.tooFewVectors cfg.kind rows required)

end AnnConfig

/-! ### The store and its sidecar -/

/-- The chunk store, as far as the index is concerned: the rows, the index built over them, and the
sidecar file. -/
structure AnnStore where
  dim : Nat
  rows : Nat
  index : Option AnnConfig
  sidecar : Option VectorsMeta
  deriving DecidableEq, Repr

/-- Which of the calls of one run fail. -/
structure Faults where
  optimize : Bool := false
  bump : Bool := false
  load : Bool := false
  count : Bool := false
  countAgain : Bool := false
  dropIndex : Bool := false
  createIndex : Bool := false
  countBuilt : Bool := false
  storeMeta : Bool := false
  deriving DecidableEq, Repr

/-- `ChunkStore::build_ann_index`: the index it built, if it built one, and the store it leaves. -/
def buildAnnIndex (store : AnnStore) (cfg : AnnConfig) (faults : Faults) :
    Option AnnConfig × AnnStore :=
  if cfg.kind = .bruteForce then (none, store)
  else if (cfg.validate store.dim).isOk = false then (none, store)
  else if faults.countAgain then (none, store)
  else if (cfg.checkTrainable store.rows).isOk = false then (none, store)
  else if faults.dropIndex then (none, store)
  else if faults.createIndex then (none, { store with index := none })
  else if faults.countBuilt || faults.storeMeta then (some cfg, { store with index := some cfg })
  else (some cfg, { store with index := some cfg, sidecar := some (cfg.toMeta store.rows 0) })

/-- `L2_ABSOLUTE_FLOOR`. -/
def l2AbsoluteFloor : Nat := 20000

/-- The largest `u64`. -/
def maxU64 : Nat := 2 ^ 64 - 1

/-- `bump_churn`. -/
def bumpChurn (store : AnnStore) (delta : Nat) (faults : Faults) : AnnStore :=
  if faults.bump then store
  else
    { store with
      sidecar := store.sidecar.map fun stored =>
        { stored with churnSinceRebuild := min (stored.churnSinceRebuild + delta) maxU64 } }

/-- The partitions the rows can train: `u32::try_from(chunk_count / 256).unwrap_or(u32::MAX).max(1)`. -/
def maxPartitions (chunkCount : Nat) : Nat :=
  max (if chunkCount / 256 < 2 ^ 32 then chunkCount / 256 else 2 ^ 32 - 1) 1

/-- `scale_to_corpus`. -/
def scaleToCorpus (cfg : AnnConfig) (chunkCount : Nat) : AnnConfig :=
  if cfg.kind = .bruteForce then cfg
  else if maxPartitions chunkCount < cfg.numPartitions then
    { cfg with numPartitions := maxPartitions chunkCount }
  else cfg

/-- The template `maybe_build_ann_index` starts from, if it builds at all. -/
def template (sidecar : Option VectorsMeta) : Option AnnConfig :=
  match sidecar with
  | none => some (.defaultFor .ivfFlat)
  | some stored =>
    match AnnConfig.fromMeta stored with
    | .error _ => none
    | .ok parsed =>
      if parsed.kind = .bruteForce then none
      else if stored.churnSinceRebuild <
          max (min (stored.builtAtChunkCount * 2) maxU64) l2AbsoluteFloor then none
      else some parsed

/-- `maybe_build_ann_index`. -/
def maybeBuildAnnIndex (store : AnnStore) (faults : Faults) : Option AnnConfig × AnnStore :=
  if faults.load then (none, store)
  else
    match template store.sidecar with
    | none => (none, store)
    | some cfg =>
      if faults.count then (none, store)
      else buildAnnIndex store (scaleToCorpus cfg store.rows) faults

/-! ### Runs -/

/-- One run of `embed_book_chunks`, as far as it touches the index. -/
inductive EmbedRun
  /-- No plans, or a failure before the stamps are compared. -/
  | idle
  /-- The index was built by another model or version; whether the sidecar could be removed. -/
  | mismatched (removed : Bool)
  /-- A failure after rows were deleted or appended. -/
  | stopped (deleting writing : Nat)
  /-- The rows of the book replaced. -/
  | whole (deleting writing : Nat) (faults : Faults)
  deriving DecidableEq, Repr

/-- The rows of a book deleted, and others appended. -/
def AnnStore.replaceRows (store : AnnStore) (deleting writing : Nat) : AnnStore :=
  { store with rows := store.rows - deleting + writing }

/-- The rows replaced, and the churn counted: what `maybe_build_ann_index` finds. -/
def churned (store : AnnStore) (deleting writing : Nat) (faults : Faults) : AnnStore :=
  let deleted := store.rows - (store.rows - deleting)
  let replaced := store.replaceRows deleting writing
  if 0 < deleted + writing then bumpChurn replaced (deleted + writing) faults else replaced

/-- What a run builds, and the store it leaves. -/
def embedRun (store : AnnStore) : EmbedRun → Option AnnConfig × AnnStore
  | .idle => (none, store)
  | .mismatched removed => (none, if removed then { store with sidecar := none } else store)
  | .stopped deleting writing => (none, store.replaceRows deleting writing)
  | .whole deleting writing faults =>
    if faults.optimize then (none, churned store deleting writing faults)
    else maybeBuildAnnIndex (churned store deleting writing faults) faults

/-- One run as a step: its label is the run and what it built. -/
def Step (before : AnnStore) (label : EmbedRun × Option AnnConfig) (after : AnnStore) : Prop :=
  embedRun before label.1 = (label.2, after)

/-! ### What is claimed of a build, and when it holds -/

/-- The partition count of the default configuration. -/
def requested : Nat := (AnnConfig.defaultFor .ivfFlat).numPartitions

/-- The partitions an index over this many rows should have. -/
def wanted (rows : Nat) : Nat := min requested (max 1 (rows / 256))

/-- A build uses the requested partitions, as far as its rows can train them. -/
def Grown (_ : AnnStore) (label : EmbedRun × Option AnnConfig) (after : AnnStore) : Prop :=
  ∀ cfg ∈ label.2, cfg.numPartitions = wanted after.rows

/-- None of the calls up to the new index fails. -/
def Faults.Smooth (faults : Faults) : Prop :=
  faults.optimize = false ∧ faults.load = false ∧ faults.count = false ∧
    faults.countAgain = false ∧ faults.dropIndex = false ∧ faults.createIndex = false

/-- The churn since the last build has reached the threshold of a retrain. -/
def VectorsMeta.Due (stored : VectorsMeta) : Prop :=
  max (min (stored.builtAtChunkCount * 2) maxU64) l2AbsoluteFloor ≤ stored.churnSinceRebuild

/-- A run that is to retrain the index finds a count in the sidecar that is large enough for the rows
there are. -/
def FromLargeEnough (before : AnnStore) (label : EmbedRun × Option AnnConfig) (_ : AnnStore) : Prop :=
  ∀ deleting writing faults, label.1 = .whole deleting writing faults → faults.Smooth →
    ∀ stored ∈ (churned before deleting writing faults).sidecar, stored.Due →
      0 < (churned before deleting writing faults).rows →
        wanted (churned before deleting writing faults).rows ≤ stored.numPartitions

/-! ### The default configuration and its clamps -/

/-- The default configuration with this many partitions. -/
def flat (p : Nat) : AnnConfig := { AnnConfig.defaultFor .ivfFlat with numPartitions := p }

@[simp] theorem flat_kind (p : Nat) : (flat p).kind = .ivfFlat := rfl

@[simp] theorem flat_numPartitions (p : Nat) : (flat p).numPartitions = p := rfl

/-- Storing a configuration and reading it back. -/
theorem fromMeta_toMeta (cfg : AnnConfig) (builtAt churn : Nat) :
    AnnConfig.fromMeta (cfg.toMeta builtAt churn) = .ok cfg := by
  obtain ⟨kind, partitions, vectors, bits, nprobes, refine⟩ := cfg
  cases kind <;> rfl

/-- It is valid, whatever the dimension of the vectors. -/
theorem flat_valid {p : Nat} (positive : 0 < p) (dim : Nat) : (flat p).validate dim = .ok () := by
  have nonzero : p ≠ 0 := by omega
  simp [AnnConfig.validate, flat, AnnConfig.defaultFor, AnnConfig.isPq, nonzero]

/-- It can be trained on as many rows as it has partitions. -/
theorem flat_trainable {p : Nat} (positive : 0 < p) (rows : Nat) :
    ((flat p).checkTrainable rows).isOk = true ↔ p ≤ rows := by
  have nonzero : p ≠ 0 := by omega
  by_cases few : rows < p
  · simp [AnnConfig.checkTrainable, flat, AnnConfig.defaultFor, AnnConfig.isPq, few, nonzero,
      Except.isOk, Except.toBool]
  · simp [AnnConfig.checkTrainable, flat, AnnConfig.defaultFor, AnnConfig.isPq, few, Except.isOk,
      Except.toBool]
    omega

theorem maxPartitions_pos (rows : Nat) : 0 < maxPartitions rows := by
  unfold maxPartitions
  omega

theorem wanted_eq (rows : Nat) : wanted rows = min requested (maxPartitions rows) := by
  unfold wanted requested AnnConfig.defaultFor maxPartitions
  dsimp only
  split_ifs <;> omega

theorem scaleToCorpus_flat (p rows : Nat) :
    scaleToCorpus (flat p) rows = flat (min p (maxPartitions rows)) := by
  have clustered : (flat p).kind ≠ .bruteForce := by simp
  unfold scaleToCorpus
  rw [if_neg clustered, flat_numPartitions]
  by_cases clamped : maxPartitions rows < p
  · rw [if_pos clamped, Nat.min_eq_right (by omega)]
    rfl
  · rw [if_neg clamped, Nat.min_eq_left (by omega)]

/-! ### One build -/

/-- Whether a build of the default configuration over the rows takes place. -/
def Faults.Trains (faults : Faults) : Prop :=
  faults.countAgain = false ∧ faults.dropIndex = false ∧ faults.createIndex = false

/-- What a build of a clamped default configuration does. -/
theorem buildAnnIndex_flat {p : Nat} (positive : 0 < p) (store : AnnStore) (faults : Faults) :
    (∀ cfg, (buildAnnIndex store (flat p) faults).1 = some cfg ↔
      cfg = flat p ∧ p ≤ store.rows ∧ faults.Trains) ∧
    (buildAnnIndex store (flat p) faults).2.rows = store.rows ∧
    ((buildAnnIndex store (flat p) faults).2.sidecar = store.sidecar ∨
      (buildAnnIndex store (flat p) faults).2.sidecar = some ((flat p).toMeta store.rows 0)) := by
  have clustered : (flat p).kind ≠ .bruteForce := by simp
  have valid : ((flat p).validate store.dim).isOk = true := by rw [flat_valid positive]; rfl
  unfold buildAnnIndex Faults.Trains
  rw [if_neg clustered, valid, if_neg (by decide)]
  by_cases recount : faults.countAgain = true
  · simp [recount]
  rw [if_neg recount]
  by_cases enough : p ≤ store.rows
  · rw [(flat_trainable positive store.rows).mpr enough, if_neg (by decide)]
    by_cases dropped : faults.dropIndex = true
    · simp [dropped]
    rw [if_neg dropped]
    by_cases created : faults.createIndex = true
    · simp [created]
    rw [if_neg created]
    by_cases stored : (faults.countBuilt || faults.storeMeta) = true
    · simp [stored, enough, recount, dropped, created, eq_comm]
    · simp [stored, enough, recount, dropped, created, eq_comm]
  · have untrainable : ((flat p).checkTrainable store.rows).isOk = false := by
      simpa [enough] using (flat_trainable positive store.rows).not
    simp [untrainable, enough]

/-! ### The run -/

/-- **The invariant**: a sidecar holds the default configuration with a clamped count. -/
def Clamped (store : AnnStore) : Prop :=
  ∀ stored ∈ store.sidecar, ∃ p builtAt churn, 0 < p ∧ p ≤ requested ∧
    stored = (flat p).toMeta builtAt churn

/-- The template a store with such a sidecar yields. -/
theorem template_clamped {store : AnnStore} (clamped : Clamped store) :
    (store.sidecar = none ∧ template store.sidecar = some (flat requested)) ∨
    ∃ p stored, store.sidecar = some stored ∧ 0 < p ∧ p ≤ requested ∧ stored.numPartitions = p ∧
      ((stored.Due ∧ template store.sidecar = some (flat p)) ∨
        (¬ stored.Due ∧ template store.sidecar = none)) := by
  cases sidecar : store.sidecar with
  | none => exact Or.inl ⟨rfl, rfl⟩
  | some stored =>
    obtain ⟨p, builtAt, churn, positive, bounded, rfl⟩ := clamped stored sidecar
    refine Or.inr ⟨p, _, rfl, positive, bounded, rfl, ?_⟩
    have clustered : (flat p).kind ≠ .bruteForce := by simp
    unfold template VectorsMeta.Due
    simp only [fromMeta_toMeta, if_neg clustered]
    by_cases due : max (min (((flat p).toMeta builtAt churn).builtAtChunkCount * 2) maxU64)
        l2AbsoluteFloor ≤ ((flat p).toMeta builtAt churn).churnSinceRebuild
    · exact Or.inl ⟨due, if_neg (Nat.not_lt.mpr due)⟩
    · exact Or.inr ⟨due, if_pos (Nat.not_le.mp due)⟩

/-- **One call of `maybe_build_ann_index`**: it keeps the rows and the invariant, and what it builds
is the clamped count of its template. -/
theorem maybeBuildAnnIndex_cases {store : AnnStore} (clamped : Clamped store) (faults : Faults) :
    Clamped (maybeBuildAnnIndex store faults).2 ∧
    (maybeBuildAnnIndex store faults).2.rows = store.rows ∧
    ∀ cfg, (maybeBuildAnnIndex store faults).1 = some cfg ↔
      0 < store.rows ∧ faults.load = false ∧ faults.count = false ∧ faults.Trains ∧
      ((store.sidecar = none ∧ cfg = flat (wanted store.rows)) ∨
        ∃ stored, store.sidecar = some stored ∧ stored.Due ∧
          cfg = flat (min stored.numPartitions (maxPartitions store.rows))) := by
  unfold maybeBuildAnnIndex
  by_cases load : faults.load = true
  · simp [load, clamped]
  rw [if_neg load]
  have built : ∀ p, 0 < p → p ≤ requested →
      Clamped (buildAnnIndex store (scaleToCorpus (flat p) store.rows) faults).2 ∧
      (buildAnnIndex store (scaleToCorpus (flat p) store.rows) faults).2.rows = store.rows ∧
      ∀ cfg, (buildAnnIndex store (scaleToCorpus (flat p) store.rows) faults).1 = some cfg ↔
        0 < store.rows ∧ faults.Trains ∧ cfg = flat (min p (maxPartitions store.rows)) := by
    intro p positive bounded
    have some_partition := maxPartitions_pos store.rows
    have scaled : 0 < min p (maxPartitions store.rows) := by omega
    rw [scaleToCorpus_flat]
    obtain ⟨builds, rows, sidecar⟩ := buildAnnIndex_flat scaled store faults
    refine ⟨?_, rows, fun cfg => ?_⟩
    · intro stored found
      rcases sidecar with same | replaced
      · exact clamped stored (same ▸ found)
      · rw [replaced] at found
        obtain rfl := Option.some.inj found
        exact ⟨_, _, _, scaled, by omega, rfl⟩
    · rw [builds cfg]
      have trainable : min p (maxPartitions store.rows) ≤ store.rows ↔ 0 < store.rows := by
        unfold maxPartitions
        split_ifs <;> omega
      rw [trainable]
      tauto
  have loaded : faults.load = false := by simpa using load
  rcases template_clamped clamped with ⟨sidecar, fresh⟩ | ⟨p, stored, sidecar, positive, bounded,
    partitions, due | idle⟩
  · rw [fresh]
    by_cases count : faults.count = true
    · simp [count, clamped]
    · obtain ⟨kept, rows, builds⟩ := built requested (by decide) le_rfl
      simp only [if_neg count]
      refine ⟨kept, rows, fun cfg => ?_⟩
      rw [builds cfg, wanted_eq]
      simp [sidecar, loaded, count]
  · rw [due.2]
    by_cases count : faults.count = true
    · simp [count, clamped]
    · obtain ⟨kept, rows, builds⟩ := built p positive bounded
      simp only [if_neg count]
      refine ⟨kept, rows, fun cfg => ?_⟩
      rw [builds cfg]
      simp [sidecar, loaded, count, due.1, partitions]
  · rw [idle.2]
    refine ⟨clamped, rfl, fun cfg => ?_⟩
    simp [sidecar, idle.1]

/-- Counting churn keeps the invariant. -/
theorem churned_clamped {store : AnnStore} (clamped : Clamped store) (deleting writing : Nat)
    (faults : Faults) : Clamped (churned store deleting writing faults) := by
  intro stored found
  unfold churned bumpChurn at found
  dsimp only at found
  split_ifs at found
  · exact clamped stored found
  · obtain ⟨before, same, rfl⟩ := Option.map_eq_some_iff.mp found
    obtain ⟨p, builtAt, churn, positive, bounded, rfl⟩ := clamped before same
    exact ⟨p, builtAt, _, positive, bounded, rfl⟩
  · exact clamped stored found

/-- **One run** keeps the invariant, and builds the wanted count exactly when the one it finds is
large enough. -/
theorem embedRun_cases {before after : AnnStore} {label : EmbedRun × Option AnnConfig}
    (clamped : Clamped before) (step : Step before label after) :
    Clamped after ∧ (Grown before label after ↔ FromLargeEnough before label after) := by
  obtain ⟨run, built⟩ := label
  unfold Step at step
  cases run with
  | idle =>
    cases step
    exact ⟨clamped, by simp [Grown, FromLargeEnough]⟩
  | mismatched removed =>
    cases step
    refine ⟨?_, by simp [Grown, FromLargeEnough]⟩
    cases removed with
    | true => exact fun stored found => absurd found (by simp)
    | false => exact clamped
  | stopped deleting writing =>
    cases step
    exact ⟨clamped, by simp [Grown, FromLargeEnough]⟩
  | whole deleting writing faults =>
    have counted := churned_clamped clamped deleting writing faults
    by_cases optimized : faults.optimize = true
    · simp only [embedRun, if_pos optimized] at step
      cases step
      exact ⟨counted, by simp [Grown, FromLargeEnough, Faults.Smooth, optimized]⟩
    simp only [embedRun, if_neg optimized] at step
    obtain ⟨kept, rows, builds⟩ := maybeBuildAnnIndex_cases counted faults
    rw [step] at kept rows builds
    refine ⟨kept, ?_⟩
    dsimp only at rows builds
    constructor
    · intro grown deleting' writing' faults' same smooth stored found due some_row
      cases same
      obtain ⟨-, load, count, recount, dropped, created⟩ := smooth
      have uses := grown _ ((builds _).mpr ⟨some_row, load, count, ⟨recount, dropped, created⟩,
        Or.inr ⟨stored, found, due, rfl⟩⟩)
      rw [flat_numPartitions, rows] at uses
      omega
    · intro enough cfg member
      obtain ⟨some_row, load, count, ⟨recount, dropped, created⟩, first | again⟩ :=
        (builds cfg).mp member
      · rw [first.2, flat_numPartitions, rows]
      · obtain ⟨stored, found, due, rfl⟩ := again
        have large := enough _ _ _ rfl ⟨by simpa using optimized, load, count, recount, dropped,
          created⟩ stored found due some_row
        obtain ⟨p, builtAt, churn, -, bounded, rfl⟩ := counted stored found
        have partitions : ((flat p).toMeta builtAt churn).numPartitions = p := rfl
        rw [flat_numPartitions, rows]
        rw [partitions] at large ⊢
        rw [wanted_eq] at large ⊢
        omega

/-- **Along every run from no sidecar**, each build uses the default count, clamped to its rows,
exactly when each retrain finds a count that is large enough. -/
theorem index_grows_iff {start : AnnStore} (fresh : start.sidecar = none)
    {trace : List ((EmbedRun × Option AnnConfig) × AnnStore)} (run : Along Step start trace) :
    Along Grown start trace ↔ Along FromLargeEnough start trace := by
  have initial : Clamped start := by
    intro stored found
    rw [fresh] at found
    cases found
  have steps := run.invariant Clamped (fun _ _ _ => embedRun_cases) initial
  constructor
  · intro grown
    exact (steps.and grown).mono fun _ _ _ both => both.1.2.2.mp both.2
  · intro enough
    exact (steps.and enough).mono fun _ _ _ both => both.1.2.2.mpr both.2

/-- A book of 20 000 chunks embedded from scratch, and one of 50 000 that is due for a retrain. -/
def largeFromTheStart : List ((EmbedRun × Option AnnConfig) × AnnStore) :=
  [((.whole 0 20000 {}, some (flat 64)),
    ⟨1024, 20000, some (flat 64), some ((flat 64).toMeta 20000 0)⟩),
   ((.whole 0 50000 {}, some (flat 64)),
    ⟨1024, 70000, some (flat 64), some ((flat 64).toMeta 70000 0)⟩)]

/-- Both runs build with the count that is asked for. -/
theorem index_grows_iff_largeFromTheStart :
    Along Grown ⟨1024, 0, none, none⟩ largeFromTheStart := by
  have run : Along Step ⟨1024, 0, none, none⟩ largeFromTheStart :=
    ⟨by unfold Step; decide, by unfold Step; decide, trivial⟩
  refine (index_grows_iff rfl run).mpr ⟨?_, ?_, trivial⟩
  · intro deleting writing faults same _ stored found
    obtain ⟨rfl, rfl, rfl⟩ := EmbedRun.whole.inj same
    exact absurd found (by simp [churned, bumpChurn, AnnStore.replaceRows])
  · intro deleting writing faults same _ stored found _ _
    obtain ⟨rfl, rfl, rfl⟩ := EmbedRun.whole.inj same
    have partitions : stored.numPartitions = 64 := by
      rw [Option.mem_def, churned, if_pos (by decide), bumpChurn, if_neg (by decide)] at found
      rw [← Option.some.inj found]
      rfl
    rw [partitions]
    decide

/-- A hundred chunks first, then a book of thirty thousand: the index of the second run is trained
from the sidecar of the first. -/
def smallThenLarge : List ((EmbedRun × Option AnnConfig) × AnnStore) :=
  [((.whole 0 100 {}, some (flat 1)),
    ⟨1024, 100, some (flat 1), some ((flat 1).toMeta 100 0)⟩),
   ((.whole 0 30000 {}, some (flat 1)),
    ⟨1024, 30100, some (flat 1), some ((flat 1).toMeta 30100 0)⟩)]

/-- **The library that started small keeps one partition**: over 30 100 rows, where 64 are asked
for. -/
theorem started_small_stays_small :
    ¬ ∀ (start : AnnStore) (trace : List ((EmbedRun × Option AnnConfig) × AnnStore)),
      start.sidecar = none → Along Step start trace → Along Grown start trace := by
  intro claim
  have run : Along Step ⟨1024, 0, none, none⟩ smallThenLarge :=
    ⟨by unfold Step; decide, by unfold Step; decide, trivial⟩
  have grown := claim ⟨1024, 0, none, none⟩ smallThenLarge rfl run
  have uses : (flat 1).numPartitions = wanted 30100 := grown.2.1 (flat 1) rfl
  exact absurd uses (by decide)

/-! ### The count never rises -/

theorem buildAnnIndex_sidecar (store : AnnStore) (cfg : AnnConfig) (faults : Faults) :
    (buildAnnIndex store cfg faults).2.sidecar = store.sidecar ∨
      (buildAnnIndex store cfg faults).2.sidecar = some (cfg.toMeta store.rows 0) := by
  unfold buildAnnIndex
  split_ifs <;> simp

theorem scaleToCorpus_le (cfg : AnnConfig) (rows : Nat) :
    (scaleToCorpus cfg rows).numPartitions ≤ cfg.numPartitions := by
  unfold scaleToCorpus
  split_ifs with brute clamped
  · exact le_rfl
  · exact Nat.le_of_lt clamped
  · exact le_rfl

/-- The template of a retrain has the stored count. -/
theorem template_partitions {stored : VectorsMeta} {cfg : AnnConfig}
    (found : template (some stored) = some cfg) : cfg.numPartitions = stored.numPartitions := by
  unfold template at found
  simp only at found
  cases parsed : AnnConfig.fromMeta stored with
  | error unknown => simp [parsed] at found
  | ok config =>
    simp only [parsed] at found
    split_ifs at found
    obtain rfl := Option.some.inj found
    unfold AnnConfig.fromMeta at parsed
    cases kind : AnnKind.fromStr stored.kind with
    | error unknown => simp [kind] at parsed
    | ok clustered =>
      simp only [kind, Except.ok.injEq] at parsed
      rw [← parsed]

/-- Counting churn leaves the count alone. -/
theorem churned_partitions (store : AnnStore) (deleting writing : Nat) (faults : Faults) :
    (churned store deleting writing faults).sidecar.map VectorsMeta.numPartitions =
      store.sidecar.map VectorsMeta.numPartitions := by
  unfold churned bumpChurn
  dsimp only
  split_ifs
  · rfl
  · simp [AnnStore.replaceRows, Function.comp_def]
  · rfl

theorem maybeBuildAnnIndex_falls {store : AnnStore} {faults : Faults} {old new : VectorsMeta}
    (before : store.sidecar = some old)
    (after : (maybeBuildAnnIndex store faults).2.sidecar = some new) :
    new.numPartitions ≤ old.numPartitions := by
  have kept : ∀ {sidecar : Option VectorsMeta}, sidecar = store.sidecar → sidecar = some new →
      new.numPartitions ≤ old.numPartitions := by
    intro sidecar same found
    rw [same, before] at found
    exact (Option.some.inj found) ▸ le_rfl
  unfold maybeBuildAnnIndex at after
  by_cases load : faults.load = true
  · exact kept rfl (by simpa [load] using after)
  rw [if_neg load] at after
  cases cfg : template store.sidecar with
  | none => exact kept rfl (by simpa [cfg] using after)
  | some cfg' =>
    rw [cfg] at after
    by_cases count : faults.count = true
    · exact kept rfl (by simpa [count] using after)
    simp only [if_neg count] at after
    rcases buildAnnIndex_sidecar store (scaleToCorpus cfg' store.rows) faults with same | replaced
    · exact kept same after
    · rw [replaced] at after
      obtain rfl := Option.some.inj after
      rw [before] at cfg
      exact (scaleToCorpus_le cfg' store.rows).trans_eq (template_partitions cfg)

/-- **The count in the sidecar never rises**: whatever it was clamped to, later runs leave it there
or clamp it further, until the sidecar is removed. -/
theorem sidecar_never_grows {start : AnnStore}
    {trace : List ((EmbedRun × Option AnnConfig) × AnnStore)} (run : Along Step start trace) :
    Along (fun before _ after => ∀ old ∈ before.sidecar, ∀ new ∈ after.sidecar,
      new.numPartitions ≤ old.numPartitions) start trace := by
  refine run.mono fun before label after step old found new kept => ?_
  obtain ⟨run, built⟩ := label
  have same : ∀ {sidecar : Option VectorsMeta},
      sidecar.map VectorsMeta.numPartitions = before.sidecar.map VectorsMeta.numPartitions →
      ∀ other, sidecar = some other → other.numPartitions = old.numPartitions := by
    intro sidecar count other isOther
    rw [isOther, found] at count
    exact Option.some.inj count
  unfold Step at step
  cases run with
  | idle =>
    cases step
    exact (same rfl new kept).le
  | mismatched removed =>
    cases step
    cases removed with
    | true => cases kept
    | false => exact (same rfl new kept).le
  | stopped deleting writing =>
    cases step
    exact (same rfl new kept).le
  | whole deleting writing faults =>
    by_cases optimized : faults.optimize = true
    · simp only [embedRun, if_pos optimized] at step
      cases step
      exact (same (churned_partitions before deleting writing faults) new kept).le
    · simp only [embedRun, if_neg optimized] at step
      have after' : after = (maybeBuildAnnIndex (churned before deleting writing faults) faults).2 := by
        rw [step]
      have counted := churned_partitions before deleting writing faults
      obtain ⟨middle, isMiddle, -⟩ := Option.map_eq_some_iff.mp
        (counted.trans (by rw [found]; rfl))
      rw [after'] at kept
      exact (maybeBuildAnnIndex_falls isMiddle kept).trans_eq (same counted middle isMiddle)

end Bookrack.Ann
