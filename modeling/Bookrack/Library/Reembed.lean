/-
Reembedding, as the book and the paper pipeline share it (`ingest/src/reembed.rs`,
`glean/src/reembed.rs`): which intakes a maintenance run takes, and the loop over them.

* `targetsOf` — `collect_targets`, `collect_pinned_targets` and the staleness filter.
* `readChunkPlans`, `reembedEach` — the rows of a target as plans, and the loop of `reembed_all`.
* `TargetLaw` — what the embedding of one target's rows does: it deletes them under a condition, and
  writes them all again under another. `Keeps` puts the conditions of a run's targets together.
* **`reembedAll_ends`**, `reembedOne_ends` — a run that returns has kept every chunk exactly when `Keeps`
  holds.
-/

import Bookrack.Library.Vectors

namespace Bookrack

open Chunk (ChunkPlan)
open Prog

/-! ### Targets -/

/-- `only`, `only_ids` and `stale_only` of the maintenance drivers. -/
structure TargetParams where
  only : Option Int
  onlyIds : Option (List Int)
  staleOnly : Bool
  deriving DecidableEq, Repr

/-- The adapter of OCR products, whose staleness is another dimension (`ocr::ADAPTER`). -/
def ocrAdapter : String := "ocr-pages"

/-- The `WHERE` clause of `stale_partitions`. -/
def Intake.isStale (current : Nat) (intake : Intake) : Bool :=
  decide (intake.extractorVersion ≠ current ∧ intake.adapter ≠ some ocrAdapter)

/-- `collect_pinned_targets`, for one id. -/
def pinnedTarget (accepts : IntakeStatus → Bool) (rejection : Int → PipelineError) (library : Library)
    (id : Int) : Except PipelineError Intake :=
  match library.intakeById id with
  | none => .error (.unknownIntake id)
  | some intake => if accepts intake.status then .ok intake else .error (rejection id)

/-- The targets of a run: the pinned ids as given, else `collect_targets`, of which `stale_only` retains
the stale ones. `every` is what the run takes without `only`. -/
def targetsOf (accepts : IntakeStatus → Bool) (rejection : Int → PipelineError)
    (every : Library → List Intake) (binary : Binary) (params : TargetParams) (library : Library) :
    Except PipelineError (List Intake) :=
  match params.onlyIds with
  | some ids => ids.mapM (pinnedTarget accepts rejection library)
  | none => do
    let targets ← match params.only with
      | some id => (pinnedTarget accepts rejection library id).map ([·])
      | none => .ok (every library)
    .ok (if params.staleOnly then targets.filter (·.isStale binary.extractorVersion) else targets)

section Targets

variable {accepts : IntakeStatus → Bool} {rejection : Int → PipelineError} {library : Library}
  {targets : List Intake}

theorem pinnedTarget_ok {id : Int} {intake : Intake}
    (pinned : pinnedTarget accepts rejection library id = .ok intake) :
    intake ∈ library.intakes ∧ accepts intake.status = true := by
  unfold pinnedTarget at pinned
  cases found : library.intakeById id with
  | none =>
    rw [found] at pinned
    cases pinned
  | some known =>
    rw [found] at pinned
    dsimp only at pinned
    split_ifs at pinned with isAccepted
    obtain rfl := Except.ok.inj pinned
    exact ⟨List.mem_of_find?_eq_some found, isAccepted⟩

theorem pinnedTargets_ok {ids : List Int} : ∀ {targets : List Intake},
    ids.mapM (pinnedTarget accepts rejection library) = .ok targets →
    ∀ intake ∈ targets, intake ∈ library.intakes ∧ accepts intake.status = true := by
  induction ids with
  | nil =>
    intro targets returned intake member
    obtain rfl := Except.ok.inj returned
    cases member
  | cons id rest ih =>
    intro targets returned
    rw [List.mapM_cons] at returned
    cases first : pinnedTarget accepts rejection library id with
    | error reason =>
      rw [first] at returned
      cases returned
    | ok one =>
      cases others : rest.mapM (pinnedTarget accepts rejection library) with
      | error reason =>
        rw [first, others] at returned
        cases returned
      | ok intakes =>
        rw [first, others] at returned
        obtain rfl := Except.ok.inj returned
        exact List.forall_mem_cons.mpr ⟨pinnedTarget_ok first, ih others⟩

/-- A target is an intake on file, with a status the run accepts. -/
theorem targetsOf_ok {every : Library → List Intake} {binary : Binary} {params : TargetParams}
    (onFile : ∀ intake ∈ every library, intake ∈ library.intakes ∧ accepts intake.status = true)
    (returned : targetsOf accepts rejection every binary params library = .ok targets) :
    ∀ intake ∈ targets, intake ∈ library.intakes ∧ accepts intake.status = true := by
  unfold targetsOf at returned
  split at returned
  · exact pinnedTargets_ok returned
  · have isTarget : ∀ {intakes : List Intake},
        (∀ intake ∈ intakes, intake ∈ library.intakes ∧ accepts intake.status = true) →
        (Except.ok (if params.staleOnly then intakes.filter (·.isStale binary.extractorVersion) else intakes) :
          Except PipelineError (List Intake)) = .ok targets →
        ∀ intake ∈ targets, intake ∈ library.intakes ∧ accepts intake.status = true := by
      intro intakes each isTargets intake member
      obtain rfl := Except.ok.inj isTargets
      split_ifs at member
      · exact each intake (List.mem_of_mem_filter member)
      · exact each intake member
    cases only : params.only with
    | none =>
      rw [only] at returned
      exact isTarget onFile returned
    | some id =>
      rw [only] at returned
      dsimp only at returned
      cases pinned : pinnedTarget accepts rejection library id with
      | error reason =>
        rw [pinned] at returned
        cases returned
      | ok one =>
        rw [pinned] at returned
        exact isTarget (List.forall_mem_singleton.mpr (pinnedTarget_ok pinned)) returned

end Targets

/-- The targets of a reembed run: `Embedded` intakes. -/
def reembedTargets (rejection : Int → PipelineError) : Binary → TargetParams → Library →
    Except PipelineError (List Intake) :=
  targetsOf (fun status => decide (status = .embedded)) rejection (·.intakesWithStatus .embedded)

/-! ### The loop -/

/-- `read_chunk_plans`; an absent table is created, with no dimension. -/
def readChunkPlans (openStore scan : Fate) (id : Int) : Prog Library PipelineError (List ChunkPlan) := do
  let _ ← openChunkStore openStore 0
  write scan .vectors fun library => library
  read (·.plansOf id)

/-- `ReembedReport`: the rows written by intake, and the intakes with none. -/
structure ReembedReport where
  intakes : List (Int × Nat)
  skippedEmpty : List Int
  deriving DecidableEq, Repr

/-- The loop of `reembed_all`; `one` returns the number of rows written, and the first failure aborts it. -/
def reembedEach (one : Nat → Int → Prog Library PipelineError Nat) :
    Nat → ReembedReport → List Int → Prog Library PipelineError ReembedReport
  | _, report, [] => pure report
  | position, report, id :: rest => do
    let written ← one position id
    if written = 0 then
      reembedEach one (position + 1) { report with skippedEmpty := report.skippedEmpty ++ [id] } rest
    else
      reembedEach one (position + 1) { report with intakes := report.intakes ++ [(id, written)] } rest

/-- `reembed_all` over the targets of a pipeline and its way to embed one. -/
def reembedAll (targets : Library → Except PipelineError (List Intake)) (collect : Fate)
    (one : Nat → Int → Prog Library PipelineError Nat) : Prog Library PipelineError ReembedReport := do
  write collect .catalog fun library => library
  match ← read targets with
  | .error reason => throw reason
  | .ok intakes => reembedEach one 0 ⟨[], []⟩ (intakes.map (·.intakeId))

/-- The ids of the targets; none where a target is rejected. -/
def targetIds (targets : Library → Except PipelineError (List Intake)) (library : Library) : List Int :=
  match targets library with
  | .error _ => []
  | .ok intakes => intakes.map (·.intakeId)

/-! ### What one target's embedding does -/

/-- When the embedding of a target's rows deletes them, and the stamps it then finds or puts on; and when
it writes them all again, in a table of this dimension. -/
structure TargetLaw where
  deletes : List ChunkPlan → Option IndexStamps → IndexStamps → Prop
  writes : List ChunkPlan → Nat → Prop
  unique : ∀ {plans stamps one other}, deletes plans stamps one → deletes plans stamps other → one = other

/-- The rows of one book are deleted and all written again. -/
structure Rewritten (law : TargetLaw) (answers : ChunkRow → Prop) (id : Int) (expected : IndexStamps)
    (before after : Library) : Prop where
  isCons : before.plansOf id ≠ []
  deletes : law.deletes (before.plansOf id) before.stamps expected
  writes : law.writes (before.plansOf id) (before.tableDim 0)
  rows : ∃ written, after =
      before.withVectors expected (before.tableDim 0) (before.rowsOutside ⟨id⟩ ++ written) ∧
    written.map (·.plan) = before.plansOf id ∧ ∀ row ∈ written, answers row

/-- A book with no rows is skipped; the rows of another are deleted and all written again. -/
def TargetLaw.Returned (law : TargetLaw) (scans : Prop) (answers : ChunkRow → Prop) (id : Int)
    (before after : Library) : Prop :=
  scans ∧
    (before.plansOf id = [] ∧ after.rows = before.rows ∧ after.stamps = before.stamps ∧
        (before.rows ≠ [] → after.tableDim 0 = before.tableDim 0) ∨
      ∃ expected, Rewritten law answers id expected before after)

/-- A failure comes before the deletion, with every row in place, or after it, with some row lost. -/
def TargetLaw.Refused (law : TargetLaw) (scans : Prop) (id : Int) (before after : Library) : Prop :=
  (¬ scans ∨ before.plansOf id ≠ [] ∧
      ∀ expected, ¬ law.deletes (before.plansOf id) before.stamps expected) ∧
    after.rows = before.rows ∨
  scans ∧ before.plansOf id ≠ [] ∧
    (∃ expected, law.deletes (before.plansOf id) before.stamps expected) ∧
    ¬ law.writes (before.plansOf id) (before.tableDim 0) ∧ after.rows.length < before.rows.length

/-- A program embeds the rows of one book by a law. -/
def TargetLaw.Governs (law : TargetLaw) (scans : Prop) (answers : ChunkRow → Prop) (id : Int)
    (one : Prog Library PipelineError Nat) : Prop :=
  ∀ library, Ends one library (fun _ => law.Returned scans answers id library)
    (fun _ => law.Refused scans id library) (fun _ => True)

theorem TargetLaw.Governs.answers_mono {law : TargetLaw} {scans : Prop} {answers answers' : ChunkRow → Prop}
    {id : Int} {one : Prog Library PipelineError Nat} (governs : law.Governs scans answers id one)
    (imp : ∀ row, answers row → answers' row) : law.Governs scans answers' id one := by
  intro library
  refine (governs library).mono ?_ (fun _ _ refused => refused) fun _ _ => trivial
  rintro _ after ⟨isScan, skipped | ⟨expected, isCons, deletes, writes, written, isAfter, isWritten, answered⟩⟩
  · exact ⟨isScan, .inl skipped⟩
  · exact ⟨isScan, .inr ⟨expected, isCons, deletes, writes, written, isAfter, isWritten,
      fun row member => imp row (answered row member)⟩⟩

/-- From the deletion of each target's rows on, nothing is refused: every target that is reached, scanned
and gets to the deletion writes all its rows again. -/
def Keeps (laws : Nat → TargetLaw) (scans : Nat → Prop) (library : Library) :
    Option IndexStamps → Nat → List Int → Prop
  | _, _, [] => True
  | stamps, position, id :: rest => scans position →
    (library.plansOf id = [] → Keeps laws scans library stamps (position + 1) rest) ∧
    (library.plansOf id ≠ [] → ∀ expected, (laws position).deletes (library.plansOf id) stamps expected →
      (laws position).writes (library.plansOf id) (library.tableDim 0) ∧
        Keeps laws scans library (some expected) (position + 1) rest)

/-! ### What a run keeps -/

/-- Every chunk is still in the table, as often as before. -/
def SameChunks (before after : Library) : Prop :=
  (after.rows.map (·.plan)).Perm (before.rows.map (·.plan))

/-- The rows of no book among these. -/
def rowsOutsideAll (ids : List Int) (library : Library) : List ChunkRow :=
  library.rows.filter fun row => ids.all fun id => !inBounds ⟨id⟩ row.plan

theorem SameChunks.length {before after : Library} (same : SameChunks before after) :
    after.rows.length = before.rows.length := by
  simpa using same.length_eq

/-- On success: the rows of the targets are answered for, and those of other books are as they were. -/
structure Reembedded (answers : ChunkRow → Prop) (targets : List Int) (before after : Library) : Prop where
  answered : ∀ id ∈ targets, ∀ row ∈ after.rowsOf id, answers row
  outside : rowsOutsideAll targets after = rowsOutsideAll targets before

section Rows

variable {ids : List Int} {id : Int} {library : Library} {law : TargetLaw} {answers : ChunkRow → Prop}
  {expected : IndexStamps} {after : Library}

theorem inside_of_plans {written : List ChunkRow} (isWritten : written.map (·.plan) = library.plansOf id) :
    ∀ row ∈ written, inBounds ⟨id⟩ row.plan = true := by
  intro row member
  have isPlan : row.plan ∈ library.plansOf id := by
    rw [← isWritten]
    exact List.mem_map_of_mem member
  obtain ⟨old, isOld, same⟩ := List.mem_map.mp isPlan
  rw [← same]
  exact (List.mem_filter.mp isOld).2

/-- The rows written are the book's. -/
theorem Rewritten.self (rewritten : Rewritten law answers id expected library after) :
    after.plansOf id = library.plansOf id ∧ ∀ row ∈ after.rowsOf id, answers row := by
  obtain ⟨written, rfl, isWritten, answered⟩ := rewritten.rows
  have isRows : (library.withVectors expected (library.tableDim 0)
      (library.rowsOutside ⟨id⟩ ++ written)).rowsOf id = written :=
    Library.rowsOf_rewritten_self (inside_of_plans isWritten)
  rw [Library.plansOf, isRows]
  exact ⟨isWritten, answered⟩

theorem Rewritten.other (rewritten : Rewritten law answers id expected library after) {other : Int}
    (fits : PartitionIdx.Fits ⟨id⟩) (fits' : PartitionIdx.Fits ⟨other⟩) (isOther : other ≠ id) :
    after.rowsOf other = library.rowsOf other := by
  obtain ⟨written, rfl, isWritten, _⟩ := rewritten.rows
  exact Library.rowsOf_rewritten_ne fits fits' isOther (inside_of_plans isWritten)

theorem Rewritten.chunks (rewritten : Rewritten law answers id expected library after) :
    SameChunks library after := by
  obtain ⟨written, rfl, isWritten, _⟩ := rewritten.rows
  rw [SameChunks, Library.rows_withVectors, List.map_append, isWritten, Library.plansOf, ← List.map_append]
  exact (library.rows_perm id).map _

theorem Rewritten.outside (rewritten : Rewritten law answers id expected library after)
    (member : id ∈ ids) : rowsOutsideAll ids after = rowsOutsideAll ids library := by
  obtain ⟨written, rfl, isWritten, _⟩ := rewritten.rows
  have none : (written.filter fun row => ids.all fun id => !inBounds ⟨id⟩ row.plan) = [] := by
    refine List.filter_eq_nil_iff.mpr fun row isRow isOut => ?_
    have isOut' := List.all_eq_true.mp isOut id member
    rw [inside_of_plans isWritten row isRow] at isOut'
    exact Bool.false_ne_true isOut'
  rw [rowsOutsideAll, Library.rows_withVectors, List.filter_append, none, List.append_nil,
    Library.rowsOutside, List.filter_filter, rowsOutsideAll]
  refine List.filter_congr fun row _ => ?_
  cases isOut : ids.all fun id => !inBounds ⟨id⟩ row.plan with
  | false => rfl
  | true => rw [List.all_eq_true.mp isOut id member]; rfl

end Rows

section Loop

variable {laws : Nat → TargetLaw} {scans : Nat → Prop} {answers : ChunkRow → Prop}
  {one : Nat → Int → Prog Library PipelineError Nat} {before : Library} {targets : List Int}

/-- What the loop keeps: `done` are the targets it has come past. -/
structure Midway (before : Library) (targets done : List Int) (answers : ChunkRow → Prop)
    (library : Library) : Prop where
  chunks : SameChunks before library
  plans : ∀ id ∈ targets, library.plansOf id = before.plansOf id
  dim : before.rows ≠ [] → library.tableDim 0 = before.tableDim 0
  answered : ∀ id ∈ done, ∀ row ∈ library.rowsOf id, answers row
  outside : rowsOutsideAll targets library = rowsOutsideAll targets before

theorem Midway.initial : Midway before targets [] answers before where
  chunks := List.Perm.refl _
  plans := fun _ _ => rfl
  dim := fun _ => rfl
  answered := fun _ member => absurd member List.not_mem_nil
  outside := rfl

/-- A book with no rows is skipped. -/
theorem Midway.skip {done : List Int} {library after : Library} {id : Int}
    (midway : Midway before targets done answers library) (isNil : library.plansOf id = [])
    (sameRows : after.rows = library.rows)
    (sameDim : library.rows ≠ [] → after.tableDim 0 = library.tableDim 0) :
    Midway before targets (done ++ [id]) answers after where
  chunks := by
    rw [SameChunks, sameRows]
    exact midway.chunks
  plans := by
    intro other member
    rw [← midway.plans other member, Library.plansOf, Library.rowsOf, sameRows]
    rfl
  dim := by
    intro isCons
    refine (sameDim fun isEmpty => isCons ?_).trans (midway.dim isCons)
    rw [← List.length_eq_zero_iff, ← midway.chunks.length, isEmpty, List.length_nil]
  answered := by
    intro other member row isRow
    rw [Library.rowsOf, sameRows] at isRow
    rcases List.mem_append.mp member with isDone | isHere
    · exact midway.answered other isDone row isRow
    · rw [List.mem_singleton.mp isHere] at isRow
      rw [Library.plansOf, List.map_eq_nil_iff] at isNil
      rw [Library.rowsOf] at isNil
      rw [isNil] at isRow
      exact absurd isRow List.not_mem_nil
  outside := by
    rw [rowsOutsideAll, sameRows]
    exact midway.outside

/-- A book with rows is rewritten. -/
theorem Midway.rewrite {done : List Int} {library after : Library} {id : Int} {law : TargetLaw}
    {expected : IndexStamps} (midway : Midway before targets done answers library)
    (fits : ∀ id ∈ targets, PartitionIdx.Fits ⟨id⟩) (isTarget : id ∈ targets) (isDone : done ⊆ targets)
    (rewritten : Rewritten law answers id expected library after) :
    Midway before targets (done ++ [id]) answers after where
  chunks := rewritten.chunks.trans midway.chunks
  plans := by
    intro other member
    rw [← midway.plans other member]
    by_cases isOther : other = id
    · rw [isOther]
      exact rewritten.self.1
    · rw [Library.plansOf, rewritten.other (fits id isTarget) (fits other member) isOther]
      rfl
  dim := by
    intro isCons
    obtain ⟨_, rfl, _⟩ := rewritten.rows
    exact midway.dim isCons
  answered := by
    intro other member row isRow
    by_cases isOther : other = id
    · exact rewritten.self.2 row (isOther ▸ isRow)
    · rcases List.mem_append.mp member with isBefore | isHere
      · rw [rewritten.other (fits id isTarget) (fits other (isDone isBefore)) isOther] at isRow
        exact midway.answered other isBefore row isRow
      · exact absurd (List.mem_singleton.mp isHere) isOther
  outside := (rewritten.outside isTarget).trans midway.outside

/-- The loop, from any of its turns. -/
theorem reembedEach_midway (fits : ∀ id ∈ targets, PartitionIdx.Fits ⟨id⟩)
    (governs : ∀ position, ∀ id ∈ targets,
      (laws position).Governs (scans position) answers id (one position id)) :
    ∀ {ids done : List Int} {position : Nat} {report : ReembedReport} {library : Library},
    Midway before targets done answers library → done ++ ids = targets →
    Ends (reembedEach one position report ids) library
      (fun _ after => Keeps laws scans before library.stamps position ids ∧
        Midway before targets targets answers after)
      (fun _ after => SameChunks before after ↔ Keeps laws scans before library.stamps position ids)
      (fun _ => True) := by
  intro ids
  induction ids with
  | nil =>
    intro done position report library midway isAll
    rw [List.append_nil] at isAll
    exact ⟨trivial, isAll ▸ midway⟩
  | cons id rest ih =>
    intro done position report library midway isAll
    have isTarget : id ∈ targets := by
      rw [← isAll]
      exact List.mem_append_right _ List.mem_cons_self
    have isDone : done ⊆ targets := by
      rw [← isAll]
      exact List.subset_append_left _ _
    have isAll' : (done ++ [id]) ++ rest = targets := by
      rw [List.append_assoc]
      exact isAll
    have samePlans := midway.plans id isTarget
    have sameDim : library.plansOf id ≠ [] → library.tableDim 0 = before.tableDim 0 :=
      fun isCons => midway.dim (Library.rows_of_rowsOf (samePlans ▸ isCons))
    have first : Ends (one position id) library
        (fun _ => (laws position).Returned (scans position) answers id library)
        (fun _ after => SameChunks before after ↔
          Keeps laws scans before library.stamps position (id :: rest)) (fun _ => True) := by
      refine (governs position id isTarget library).mono (fun _ _ returned => returned) ?_ fun _ _ => trivial
      rintro _ after (⟨refused, sameRows⟩ | ⟨isScan, isCons, ⟨expected, deletes⟩, refused, isShort⟩)
      · refine iff_of_true ?_ fun isScan => ?_
        · rw [SameChunks, sameRows]
          exact midway.chunks
        · rcases refused with noScan | ⟨isCons, refused⟩
          · exact absurd isScan noScan
          · rw [samePlans] at isCons refused
            exact ⟨fun isNil => absurd isNil isCons, fun _ expected deletes => absurd deletes (refused expected)⟩
      · refine iff_of_false (fun same => ?_) fun keeps => ?_
        · exact absurd (same.length.trans midway.chunks.length.symm) (Nat.ne_of_lt isShort)
        · rw [sameDim isCons, samePlans] at refused
          rw [samePlans] at isCons deletes
          exact refused ((keeps isScan).2 isCons expected deletes).1
    unfold reembedEach
    refine first.bind fun count after step => ?_
    rcases step with ⟨isScan, ⟨isNil, sameRows, sameStamps, keptDim⟩ | ⟨expected, rewritten⟩⟩
    · have isNil' : before.plansOf id = [] := samePlans ▸ isNil
      have keeps : Keeps laws scans before library.stamps position (id :: rest) ↔
          Keeps laws scans before after.stamps (position + 1) rest := by
        rw [sameStamps]
        exact ⟨fun keeps => (keeps isScan).1 isNil',
          fun keeps _ => ⟨fun _ => keeps, fun isCons => absurd isNil' isCons⟩⟩
      rw [keeps]
      have midway' := midway.skip isNil sameRows keptDim
      split
      · exact ih midway' isAll'
      · exact ih midway' isAll'
    · have isCons : before.plansOf id ≠ [] := samePlans ▸ rewritten.isCons
      have isStamps : after.stamps = some expected := by
        obtain ⟨_, rfl, _⟩ := rewritten.rows
        rfl
      have deletes := samePlans ▸ rewritten.deletes
      have keeps : Keeps laws scans before library.stamps position (id :: rest) ↔
          Keeps laws scans before after.stamps (position + 1) rest := by
        rw [isStamps]
        refine ⟨fun keeps => ((keeps isScan).2 isCons expected deletes).2, fun keeps _ =>
          ⟨fun isNil => absurd isNil isCons, fun _ other deletes' => ?_⟩⟩
        rw [(laws position).unique deletes' deletes]
        have writes := rewritten.writes
        rw [sameDim rewritten.isCons, samePlans] at writes
        exact ⟨writes, keeps⟩
      rw [keeps]
      have midway' := midway.rewrite fits isTarget isDone rewritten
      split
      · exact ih midway' isAll'
      · exact ih midway' isAll'

/-- **What the loop leaves.** On success every chunk is in the table, the targets' with the embedder's
answers, the rows of other books as they were. On failure every chunk is in the table exactly when every
target that was reached and whose rows were deleted had them all written again. -/
theorem reembedEach_ends (fits : ∀ id ∈ targets, PartitionIdx.Fits ⟨id⟩)
    (governs : ∀ position, ∀ id ∈ targets,
      (laws position).Governs (scans position) answers id (one position id)) (library : Library) :
    Ends (reembedEach one 0 ⟨[], []⟩ targets) library
      (fun _ after => Keeps laws scans library library.stamps 0 targets ∧ SameChunks library after ∧
        Reembedded answers targets library after)
      (fun _ after => SameChunks library after ↔ Keeps laws scans library library.stamps 0 targets)
      (fun _ => True) := by
  refine (reembedEach_midway fits governs Midway.initial (List.nil_append _)).mono ?_
    (fun _ _ same => same) fun _ _ => trivial
  rintro _ after ⟨keeps, midway⟩
  exact ⟨keeps, midway.chunks, midway.answered, midway.outside⟩

/-- The chunks are kept, and on success reembedded, exactly when nothing is refused from the deletions on. -/
theorem reembedAll_ends {resolve : Library → Except PipelineError (List Intake)} {collect : Fate}
    {library : Library} (fits : ∀ id ∈ targetIds resolve library, PartitionIdx.Fits ⟨id⟩)
    (governs : ∀ position, ∀ id ∈ targetIds resolve library,
      (laws position).Governs (scans position) answers id (one position id)) :
    Ends (reembedAll resolve collect one) library
      (fun _ after =>
        (collect = .done → Keeps laws scans library library.stamps 0 (targetIds resolve library)) ∧
        SameChunks library after ∧ Reembedded answers (targetIds resolve library) library after)
      (fun _ after => SameChunks library after ↔
        (collect = .done → Keeps laws scans library library.stamps 0 (targetIds resolve library)))
      (fun _ => True) := by
  unfold reembedAll
  rw [ends_bind]
  refine Ends.write (fun isDone => ?_) (fun isFailed => ?_) fun _ => trivial
  · rw [ends_bind, ends_read]
    cases isTargets : resolve library with
    | error reason =>
      have isNil : targetIds resolve library = [] := by rw [targetIds, isTargets]
      rw [isNil]
      exact iff_of_true (List.Perm.refl _) fun _ => trivial
    | ok intakes =>
      have isIds : targetIds resolve library = intakes.map (·.intakeId) := by rw [targetIds, isTargets]
      rw [isIds] at fits governs ⊢
      refine (reembedEach_ends fits governs library).mono ?_ ?_ fun _ _ => trivial
      · rintro _ after ⟨keeps, chunks, reembedded⟩
        exact ⟨fun _ => keeps, chunks, reembedded⟩
      · intro _ after same
        rw [same]
        exact ⟨fun keeps _ => keeps, fun keeps => keeps isDone⟩
  · exact iff_of_true (List.Perm.refl _) fun isDone => Fate.noConfusion (isFailed.symm.trans isDone)

/-- The same for one target. -/
theorem reembedOne_ends {id : Int} {law : TargetLaw} {scan : Prop} {prog : Prog Library PipelineError Nat}
    (fits : PartitionIdx.Fits ⟨id⟩) (governs : law.Governs scan answers id prog) (library : Library) :
    Ends prog library
      (fun _ after => Keeps (fun _ => law) (fun _ => scan) library library.stamps 0 [id] ∧
        SameChunks library after ∧ Reembedded answers [id] library after)
      (fun _ after => SameChunks library after ↔
        Keeps (fun _ => law) (fun _ => scan) library library.stamps 0 [id])
      (fun _ => True) := by
  have looped : Ends (reembedEach (fun _ _ => prog) 0 ⟨[], []⟩ [id]) library
      (fun _ after => Keeps (fun _ => law) (fun _ => scan) library library.stamps 0 [id] ∧
        SameChunks library after ∧ Reembedded answers [id] library after)
      (fun _ after => SameChunks library after ↔
        Keeps (fun _ => law) (fun _ => scan) library library.stamps 0 [id])
      (fun _ => True) := by
    refine reembedEach_ends (by simpa using fits) (fun _ other member => ?_) library
    rw [List.mem_singleton.mp member]
    exact governs
  rw [reembedEach, ends_bind] at looped
  refine looped.mono (fun count after ends => ?_) (fun _ _ same => same) fun _ _ => trivial
  split at ends
  · exact ends
  · exact ends

end Loop

/-! ### Reading the rows back -/

theorem readChunkPlans_ends {openStore scan : Fate} {id : Int} {library : Library}
    {post : List ChunkPlan → Library → Prop} {fail : PipelineError → Library → Prop} {cut : Library → Prop}
    (done : openStore = .done ∧ scan = .done → post (library.plansOf id)
      { library with table := some ⟨library.tableDim 0, library.rows⟩ })
    (failed : ¬ (openStore = .done ∧ scan = .done) → ∀ reason after, after.rows = library.rows →
      fail reason after) (isCut : ∀ after, cut after) :
    Ends (readChunkPlans openStore scan id) library post fail cut := by
  unfold readChunkPlans
  rw [ends_bind]
  refine openChunkStore_ends (fun isOpen => ?_) (fun isFailed => ?_) fun _ => isCut _
  · rw [ends_bind]
    refine Ends.write (fun isScan => ?_) (fun isFailed => ?_) fun _ => isCut _
    · exact done ⟨isOpen, isScan⟩
    · exact failed (fun both => Fate.noConfusion (isFailed.symm.trans both.2)) _ _ rfl
  · exact failed (fun both => Fate.noConfusion (isFailed.symm.trans both.1)) _ _ rfl

end Bookrack
