/-
Histories of an index: resets, which clear the stamps before they drop the table
(`ingest/src/reset.rs`), the commands that put stamps on (`runtime/src/cmd/stamps.rs`,
`ingest/src/rebuild.rs`), removals (`runtime/src/cmd/remove.rs`), and all the drivers over them.

* `reset_vouched_iff` — a reset leaves the index vouched for exactly when it strands no vectors.
* **`index_vouched_iff`** — over every history of every driver, the stamps vouch for every vector in every
  state exactly when no reset ends between its first two steps on a table with rows.
-/

import Bookrack.Ingest.Vouched

namespace Bookrack.Ingest

open Prog

/-! ### Reset -/

section Reset

variable {tools : Toolchain} {binary : Binary} {backend : Backend} {run : ResetRun}

/-- A fresh reset clears the stamps of a table with rows, and does not drop the table. -/
def ResetRun.Strands (run : ResetRun) (library : Library) : Prop :=
  run.clearStamps = .done ∧ run.dropTable ≠ .done ∧ library.rows ≠ []

theorem dropVectors_vouched {library : Library} (vouched : Vouched tools backend library)
    (safe : ¬ run.Strands library) :
    Ends (dropVectors run) library (fun _ => Vouched tools backend) (fun _ => Vouched tools backend)
      (Vouched tools backend) := by
  unfold dropVectors
  rw [ends_bind]
  refine Ends.write (fun isCleared => ?_) (fun _ => vouched) fun _ => vouched
  have empty : run.dropTable ≠ .done → Vouched tools backend (library.setStamps none) := by
    intro notDropped
    by_contra stranded
    refine safe ⟨isCleared, notDropped, fun isNil => stranded ?_⟩
    exact vouched_of_nil isNil
  rw [ends_bind]
  refine Ends.write (fun _ => ?_) (fun isFailed => empty ?_) fun isCut => empty ?_
  · have bare : Vouched tools backend (bareLibrary library) := vouched_of_nil rfl
    exact ((vouchedRules tools backend).demotions.ends (bareLibrary library)).mono (fun _ _ moved => moved bare)
      (fun _ _ moved => moved bare) fun _ moved => moved bare
  · simp [isFailed]
  · simp [isCut]

/-- What a fresh reset leaves that stops between its first two steps. -/
theorem resetAndRechunk_stops {library : Library} (isCleared : run.clearStamps = .done)
    (notDropped : run.dropTable ≠ .done) :
    (resetAndRechunk tools binary false run).left library = library.setStamps none := by
  have stops : Ends (resetAndRechunk tools binary false run) library
      (fun _ after => after = library.setStamps none) (fun _ after => after = library.setStamps none)
      (fun after => after = library.setStamps none) := by
    unfold resetAndRechunk dropVectors
    rw [if_neg Bool.false_ne_true, ends_bind, ends_bind]
    refine Ends.write (fun _ => ?_) (fun isFailed => ?_) fun isCut => ?_
    · rw [ends_bind]
      exact Ends.write (fun isDone => absurd isDone notDropped) (fun _ => rfl) fun _ => rfl
    · rw [isCleared] at isFailed
      cases isFailed
    · rw [isCleared] at isCut
      cases isCut
  exact stops.left

/-- **A reset leaves the index vouched for exactly when it strands no vectors.** -/
theorem reset_vouched_iff {library : Library} (isResume : Bool) (vouched : Vouched tools backend library)
    (speaks : ∀ position, (run.embed position).Speaks backend) :
    Vouched tools backend ((resetAndRechunk tools binary isResume run).left library) ↔
      ¬ (isResume = false ∧ run.Strands library) := by
  constructor
  · rintro kept ⟨rfl, isCleared, notDropped, isCons⟩
    rw [resetAndRechunk_stops isCleared notDropped] at kept
    exact isCons (kept.rows_nil rfl)
  · intro safe
    have ends : Ends (resetAndRechunk tools binary isResume run) library (fun _ => Vouched tools backend)
        (fun _ => Vouched tools backend) (Vouched tools backend) := by
      have rest : ∀ {after : Library}, Vouched tools backend after →
          Ends (do
            write run.listExtracted .catalog fun library => library
            let targets ← read (·.intakesWithStatus .extracted)
            loop targets ⟨0, 0, []⟩ (rechunkOne tools binary run)) after (fun _ => Vouched tools backend)
            (fun _ => Vouched tools backend) (Vouched tools backend) :=
        fun {after} kept => (((vouchedRules tools backend).rechunk speaks).ends after).mono
          (fun _ _ moved => moved kept)
          (fun _ _ moved => moved kept) fun _ moved => moved kept
      unfold resetAndRechunk
      cases isResume with
      | true => exact rest vouched
      | false =>
        rw [if_neg Bool.false_ne_true]
        exact (dropVectors_vouched vouched fun strands => safe ⟨rfl, strands⟩).bind fun _ _ => rest
    exact ends.left

end Reset

/-! ### Histories -/

/-- One call of the drivers that can meet the vectors of a book library. -/
inductive IndexCall
  | book (call : BookCall)
  | reembedAll (params : TargetParams) (collect : Fate) (runs : Nat → ReembedRun)
  | reembed (intakeId : Int) (run : ReembedRun)
  | reconcile (model : String) (probe : Except PipelineError Nat) (openCorpus fate : Fate)
  | stampExisting (model : String) (tryOpen countRows fate : Fate)
  | curate (derived : DerivedTable → List DerivedRow)
  | remove (id : Int) (expected : Option String) (fates : RemoveFates)

namespace IndexCall

/-- Every EMBED run of the call by this binary is allowed. -/
def Allows (allowed : Binary → EmbedRun → Prop) (binary : Binary) : IndexCall → Prop
  | book (.ingest call) => allowed binary call.run
  | book (.resume _ run _) => allowed binary run
  | book (.reset _ run) => ∀ position, allowed binary (run.embed position)
  | book (.rebuild _) => True
  | reembedAll _ _ runs => ∀ position, allowed binary (runs position).embed
  | reembed _ run => allowed binary run.embed
  | reconcile .. | stampExisting .. | curate _ | remove .. => True

/-- The shelf a call of a binary leaves. -/
def left (tools : Toolchain) (fingerprint : RemovePlan → String) (binary : Binary) :
    IndexCall → Shelf → Shelf
  | book call, shelf => shelf.change (call.left tools binary)
  | reembedAll params collect runs, shelf =>
    shelf.change (reembedAllBooks tools binary params collect runs).left
  | reembed intakeId run, shelf => shelf.change (reembedBook tools binary intakeId run).left
  | reconcile model probe openCorpus fate, shelf =>
    shelf.change (reconcileStamps binary model probe openCorpus fate).left
  | stampExisting model tryOpen countRows fate, shelf =>
    shelf.change (stampIndexFromExistingChunks binary model tryOpen countRows fate).left
  | curate derived, shelf => { shelf with derived }
  | remove id expected fates, shelf => (executeRemoveFromPlan fingerprint id expected fates).left shelf

variable {tools : Toolchain} {allowed : Binary → EmbedRun → Prop} {P : Library → Prop}
  {fingerprint : RemovePlan → String}

/-- A call that is no reset keeps an invariant of the index. -/
theorem kept {binary : Binary} {call : IndexCall} (rules : IndexRules tools allowed P)
    (isAllowed : call.Allows allowed binary) (noReset : ∀ isResume run, call ≠ book (.reset isResume run))
    {shelf : Shelf} (holds : P shelf.library) : P (call.left tools fingerprint binary shelf).library := by
  cases call with
  | book call =>
    cases call with
    | ingest call => exact rules.ingestBook isAllowed shelf.library holds
    | resume intakeId run fates => exact rules.resumeFromChunk isAllowed shelf.library holds
    | reset isResume run => exact absurd rfl (noReset isResume run)
    | rebuild run => exact rules.rebuild run shelf.library holds
  | reembedAll params collect runs => exact rules.reembedAll isAllowed shelf.library holds
  | reembed intakeId run => exact rules.reembed isAllowed shelf.library holds
  | reconcile model probe openCorpus fate =>
    exact rules.reconcileStamps model probe openCorpus fate shelf.library holds
  | stampExisting model tryOpen countRows fate =>
    exact rules.stampExisting model tryOpen countRows fate shelf.library holds
  | curate derived => exact holds
  | remove id expected fates => exact rules.remove fingerprint id expected fates shelf holds

/-- One call of some binary, from the shelf it finds to the one it leaves; every embedder answers as the
model its run is configured with. -/
def Step (tools : Toolchain) (backend : Backend) (fingerprint : RemovePlan → String) (before : Shelf)
    (label : Binary × IndexCall) (after : Shelf) : Prop :=
  label.2.Allows (fun _ run => run.Speaks backend) label.1 ∧
    after = label.2.left tools fingerprint label.1 before

/-- The call is a fresh reset that clears the stamps of a table with rows, and does not drop the table. -/
def Strands (shelf : Shelf) : IndexCall → Prop
  | book (.reset isResume run) => isResume = false ∧ run.Strands shelf.library
  | _ => False

variable {backend : Backend}

/-- **One call.** -/
theorem vouched_iff {before after : Shelf} {label : Binary × IndexCall}
    (vouched : Vouched tools backend before.library)
    (step : Step tools backend fingerprint before label after) :
    Vouched tools backend after.library ↔ ¬ label.2.Strands before := by
  obtain ⟨binary, call⟩ := label
  obtain ⟨speaks, rfl⟩ := step
  by_cases isReset : ∃ isResume run, call = book (.reset isResume run)
  · obtain ⟨isResume, run, rfl⟩ := isReset
    exact reset_vouched_iff isResume vouched speaks
  · have noReset : ∀ isResume run, call ≠ book (.reset isResume run) :=
      fun isResume run same => isReset ⟨isResume, run, same⟩
    refine iff_of_true (kept (vouchedRules tools backend) speaks noReset vouched) fun strands => ?_
    cases call with
    | book call =>
      cases call with
      | reset isResume run => exact noReset isResume run rfl
      | _ => exact strands
    | _ => exact strands

end IndexCall

/-- **Every vector an index ever holds is what its stamps say — the model, the width, the versions of the
planner — along exactly those histories in which no fresh reset ends between clearing the stamps and
dropping a table with rows.** -/
theorem index_vouched_iff (tools : Toolchain) (backend : Backend) (fingerprint : RemovePlan → String)
    {trace : List ((Binary × IndexCall) × Shelf)}
    (along : Run.Along (IndexCall.Step tools backend fingerprint) Shelf.empty trace) :
    Run.Along (fun _ _ after => Vouched tools backend after.library) Shelf.empty trace ↔
      Run.Along (fun before label _ => ¬ label.2.Strands before) Shelf.empty trace := by
  have start : Vouched tools backend Shelf.empty.library := vouched_of_nil rfl
  generalize Shelf.empty = shelf at along start ⊢
  induction trace generalizing shelf with
  | nil => exact Iff.rfl
  | cons entry rest ih =>
    obtain ⟨label, after⟩ := entry
    have here := IndexCall.vouched_iff start along.1
    constructor
    · exact fun ⟨holds, later⟩ => ⟨here.mp holds, (ih after along.2 holds).mp later⟩
    · intro ⟨safe, later⟩
      have holds := here.mpr safe
      exact ⟨holds, (ih after along.2 holds).mpr later⟩

/-- One model that gives every text one vector. -/
def oneAnswer : Backend where
  answers _ _ vector := vector = [1]
  width _ := 1
  sameWidth := fun isOne => congrArg List.length isOne

theorem smoothRun_speaks (model : String) : (smoothRun model).Speaks oneAnswer where
  probed := by
    intro texts vectors answered vector isVector
    cases answered
    obtain ⟨_, _, rfl⟩ := List.mem_map.mp isVector
    rfl
  answered := by
    rintro row ⟨batch, path, texts, vectors, answered, isPair⟩
    cases answered
    obtain ⟨_, _, isOne⟩ := List.mem_map.mp (List.of_mem_zip isPair).2
    exact isOne.symm

/-- A book is ingested, and a reset cut off behind its first step. -/
def cutHistory : List ((Binary × IndexCall) × Shelf) :=
  [((⟨1, 1, 1⟩, .book (.ingest ingestOne)), ingestedShelf),
    ((⟨1, 1, 1⟩, .book (.reset false cutAfterClear)), unstampedShelf)]

/-- The vectors it leaves are not vouched for. -/
theorem index_vouched_iff_cut :
    ¬ Run.Along (fun _ _ after => Vouched wholeTools oneAnswer after.library) Shelf.empty cutHistory := by
  intro vouched
  have along : Run.Along (IndexCall.Step wholeTools oneAnswer fun _ => "") Shelf.empty cutHistory :=
    ⟨⟨smoothRun_speaks "model", rfl⟩, ⟨fun _ => smoothRun_speaks "model", rfl⟩, trivial⟩
  have safe := (index_vouched_iff wholeTools oneAnswer (fun _ => "") along).mp vouched
  have isCons : ingestedShelf.library.rows ≠ [] := by decide
  exact safe.2.1 ⟨rfl, rfl, by decide, isCons⟩

end Bookrack.Ingest
