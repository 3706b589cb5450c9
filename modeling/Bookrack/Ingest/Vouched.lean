/-
Whose vectors an index holds (`corpus/src/index_meta.rs`, `ingest/src/embed_run.rs`,
`ingest/src/{lib,reembed,rebuild}.rs`).

The stamps name one model, one width and two versions for the whole chunks table; they are checked before
the first vector of a run is written, "so the index is never mixed".

* `Vouched` — every stored vector is what the stamps say, and there is none without stamps.
* **`embedBookChunks_vouched`** — an EMBED run keeps that, wherever it ends.
* `vouchedRules`: and so do the drivers.
-/

import Bookrack.Ingest.IndexRules

namespace Bookrack.Ingest

open Chunk (ChunkPlan)
open Prog

/-! ### What the stamps say of a row -/

/-- What the embedding models answer for a text, and how wide their vectors are. -/
structure Backend where
  answers : String → String → Vector → Prop
  width : String → Nat
  sameWidth : ∀ {model text vector}, answers model text vector → vector.length = width model

/-- The embedder of a run answers as the run's model. -/
structure EmbedRun.Speaks (backend : Backend) (run : EmbedRun) : Prop where
  probed : ∀ {texts vectors}, run.embedder.probe texts = .ok vectors → ∀ vector ∈ vectors,
    vector.length = backend.width run.config.model
  answered : ∀ {row}, run.embedder.Answered row →
    backend.answers run.config.model row.plan.text row.vector

section Definitions

variable (tools : Toolchain) (backend : Backend)

/-- A chunk of some tree, planned by a binary of these versions. -/
def Planned (chunkVersion normalizeVersion : Nat) (plan : ChunkPlan) : Prop :=
  ∃ extractorVersion nodes plans,
    planBookChunks tools ⟨extractorVersion, chunkVersion, normalizeVersion⟩ nodes = some plans ∧ plan ∈ plans

/-- The row is what the stamps say. -/
structure VouchedBy (stamps : IndexStamps) (row : ChunkRow) : Prop where
  answered : backend.answers stamps.embedModel row.plan.text row.vector
  width : row.vector.length = stamps.vectorDim
  planned : Planned tools stamps.chunkVersion stamps.normalizeVersion row.plan

/-- Every stored row is what the stamps say. -/
def Vouched (library : Library) : Prop :=
  ∀ row ∈ library.rows, ∃ stamps, library.stamps = some stamps ∧ VouchedBy tools backend stamps row

end Definitions

section Vouching

variable {tools : Toolchain} {binary : Binary} {backend : Backend} {library before after : Library}

/-- An index without stamps has no vectors. -/
theorem Vouched.rows_nil (vouched : Vouched tools backend library) (unstamped : library.stamps = none) :
    library.rows = [] := by
  apply List.eq_nil_iff_forall_not_mem.mpr
  intro row isRow
  obtain ⟨stamps, isStamps, _⟩ := vouched row isRow
  rw [unstamped] at isStamps
  cases isStamps

theorem vouched_of_nil (isNil : library.rows = []) : Vouched tools backend library := by
  intro row isRow
  rw [isNil] at isRow
  cases isRow

/-- Fewer rows under the same stamps. -/
theorem Vouched.of_fewer (vouched : Vouched tools backend before) (stamps : after.stamps = before.stamps)
    (rows : ∀ row ∈ after.rows, row ∈ before.rows) : Vouched tools backend after := by
  intro row isRow
  rw [stamps]
  exact vouched row (rows row isRow)

theorem Vouched.untouched (vouched : Vouched tools backend before) (untouched : Untouched before after) :
    Vouched tools backend after := by
  obtain ⟨stamps, table, rfl, sameRows, sameStamps | wasNone⟩ := untouched
  · refine vouched.of_fewer sameStamps fun row isRow => ?_
    rwa [← sameRows]
  · exact vouched_of_nil (sameRows.trans (vouched.rows_nil wasNone))

/-- **The build-side gate.** Stamps are put on an index without vectors only. -/
theorem reconcile_vouched (fate : Fate) (expected : IndexStamps) :
    Moves (Keeps (Vouched tools backend)) (reconcileIndexStamps fate expected) := by
  intro library vouched
  have ends : Ends (reconcileIndexStamps fate expected) library (fun _ => Vouched tools backend)
      (fun _ => Vouched tools backend) (Vouched tools backend) := by
    refine reconcileIndexStamps_ends ?_ (fun _ => vouched) (fun _ _ => vouched) fun _ => vouched
    exact fun isNone _ => vouched_of_nil (vouched.rows_nil isNone)
  exact ends.left

/-! ### EMBED -/

/-- The width a run probes is its model's. -/
theorem probe_width {run : EmbedRun} {first : ChunkPlan} {probed : Nat} (speaks : run.Speaks backend)
    (isProbe : run.probe first = .ok probed) : probed = backend.width run.config.model := by
  unfold EmbedRun.probe at isProbe
  split at isProbe
  · cases isProbe
  · rename_i vectors answered
    split at isProbe
    · cases isProbe
    · rename_i dim isDim
      cases isProbe
      obtain ⟨isHead, _⟩ := Option.filter_eq_some_iff.mp isDim
      obtain ⟨vector, isFirst, rfl⟩ := Option.map_eq_some_iff.mp isHead
      exact speaks.probed answered vector (List.mem_of_mem_head? isFirst)

/-- The rows a run writes are what the stamps say that it has put on or found. -/
theorem Rewrote.vouched {run : EmbedRun} {first : ChunkPlan} {others : List ChunkPlan} {probed : Nat}
    {written : List ChunkRow} (vouched : Vouched tools backend before) (speaks : run.Speaks backend)
    (planned : ∀ plan ∈ first :: others, Planned tools binary.chunkVersion binary.normalizeVersion plan)
    (rewrote : run.Rewrote binary first others probed written before after) :
    Vouched tools backend after := by
  obtain ⟨deletes, rfl, appended⟩ := rewrote
  intro row isRow
  refine ⟨_, rfl, ?_⟩
  rw [Library.rows_withVectors, List.mem_append] at isRow
  rcases isRow with isOld | isNew
  · have wasHere : row ∈ before.rows := List.mem_of_mem_filter isOld
    obtain ⟨stamps, isStamps, byStamps⟩ := vouched row wasHere
    rcases deletes.reconcile with ⟨isNone, _⟩ | isSame
    · rw [isNone] at isStamps
      cases isStamps
    · rw [isSame] at isStamps
      rw [Option.some.inj isStamps]
      exact byStamps
  · have answered := speaks.answered (appended.answered row isNew)
    refine ⟨answered, ?_, ?_⟩
    · show row.vector.length = probed
      rw [probe_width speaks deletes.probe]
      exact backend.sameWidth answered
    · exact planned _ (appended.isPrefix.subset (List.mem_map_of_mem isNew))

/-- **An EMBED run keeps the index vouched for**, wherever it ends; its plans need to be of this binary's
versions only where the gate lets it pass. -/
theorem embedBookChunks_vouched {plans : List ChunkPlan} {run : EmbedRun} (speaks : run.Speaks backend)
    (vouched : Vouched tools backend library)
    (planned : ∀ first probed, first ∈ plans → run.Deletes binary library.stamps first probed →
      ∀ plan ∈ plans, Planned tools binary.chunkVersion binary.normalizeVersion plan) :
    Ends (embedBookChunks tools binary plans run) library (fun _ => Vouched tools backend)
      (fun _ => Vouched tools backend) (Vouched tools backend) := by
  cases plans with
  | nil => exact vouched
  | cons first others =>
    have rewrote : ∀ {probed written after},
        run.Rewrote binary first others probed written library after → Vouched tools backend after :=
      fun isRewrote => Rewrote.vouched vouched speaks
        (planned first _ List.mem_cons_self isRewrote.deletes) isRewrote
    refine (embedBookChunks_ends first others library).mono ?_ ?_ ?_
    · rintro _ after ⟨⟨probed, written, isRewrote, _⟩, _⟩
      exact rewrote isRewrote
    · rintro _ after (⟨_, untouched⟩ | ⟨probed, written, isRewrote, _⟩)
      · exact vouched.untouched untouched
      · exact rewrote isRewrote
    · rintro after (untouched | ⟨probed, written, isRewrote, _⟩)
      · exact vouched.untouched untouched
      · exact rewrote isRewrote

/-- The plans read back from the rows are of the stamps' versions, and the gate compares those. -/
theorem reembedBook_vouched {intakeId : Int} {run : ReembedRun} (speaks : run.embed.Speaks backend) :
    Moves (Keeps (Vouched tools backend)) (reembedBook tools binary intakeId run) := by
  intro library vouched
  let opened : Library := { library with table := some ⟨library.tableDim 0, library.rows⟩ }
  have still : Vouched tools backend opened := vouched
  have ends : Ends (reembedBook tools binary intakeId run) library (fun _ => Vouched tools backend)
      (fun _ => Vouched tools backend) (Vouched tools backend) := by
    unfold reembedBook readChunkPlans
    rw [bind_bind, ends_bind]
    refine openChunkStore_ends (fun _ => ?_) (fun _ => vouched) fun _ => vouched
    rw [bind_bind, ends_bind]
    refine Ends.write (fun _ => ?_) (fun _ => still) fun _ => still
    rw [ends_bind, ends_read]
    split_ifs
    · exact still
    refine embedBookChunks_vouched speaks still fun first probed _ deletes plan isPlan => ?_
    obtain ⟨row, isRow, rfl⟩ := List.mem_map.mp isPlan
    obtain ⟨stamps, isStamps, byStamps⟩ := still row (List.mem_of_mem_filter isRow)
    rcases deletes.reconcile with ⟨isNone, _⟩ | isSame
    · rw [isNone] at isStamps
      cases isStamps
    · rw [isSame] at isStamps
      cases isStamps
      exact byStamps.planned
  exact ends.left

variable (tools backend) in
/-- **The drivers keep the index vouched for**, with embedders that answer as their runs' models. -/
theorem vouchedRules : IndexRules tools (fun _ run => run.Speaks backend) (Vouched tools backend) where
  fewer := fun vouched stamps rows => vouched.of_fewer stamps rows
  reconcile := reconcile_vouched
  tree := fun {binary nodes plans _} speaks isPlans _ vouched =>
    (embedBookChunks_vouched speaks vouched fun _ _ _ _ _ isPlan =>
      ⟨binary.extractorVersion, nodes, plans, isPlans, isPlan⟩).left
  reembed := reembedBook_vouched

end Vouching

end Bookrack.Ingest
