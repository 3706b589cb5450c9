/-
The tree a dry run predicts for a paper: `predict_structure` (`glean/src/dryrun.rs`).

* `Predicts`: the flag and the counts of the prediction, next to the planner of `build_structure`.
* `planBlock_predicts`: a block keeps them together.
* **`predictStructure_counts`**: the counts are those of the rows that are written.
-/

import Bookrack.Glean.Build

namespace Bookrack.Glean

open Corpus (NewNode)
open Prog
open Structure (Block TextFns plainFns)

/-! ### The prediction -/

/-- `StructurePreview`. -/
@[ext]
structure StructurePreview where
  nodes : Nat
  sections : Nat
  subsections : Nat
  headingLeaves : Nat
  bodyLeaves : Nat
  captionLeaves : Nat
  deriving DecidableEq, Repr

/-- The variables of the loop of `predict_structure`. -/
structure Predictor where
  preview : StructurePreview
  currentSection : Bool
  deriving DecidableEq, Repr

/-- `Heading { level }` with `level <= 1`: the organizer and its heading leaf. -/
def predictSection (predictor : Predictor) : Predictor :=
  let preview := predictor.preview
  ⟨{ preview with
    sections := preview.sections + 1
    headingLeaves := preview.headingLeaves + 1
    nodes := preview.nodes + 2 }, true⟩

/-- The section that a subsection without one opens. -/
def predictAutoSection (predictor : Predictor) : Predictor :=
  let preview := predictor.preview
  if predictor.currentSection then predictor
  else ⟨{ preview with sections := preview.sections + 1, nodes := preview.nodes + 1 }, true⟩

/-- `Heading { level: 2 }`. -/
def predictSubsection (predictor : Predictor) : Predictor :=
  let opened := predictAutoSection predictor
  let preview := opened.preview
  { opened with preview := { preview with
    subsections := preview.subsections + 1
    headingLeaves := preview.headingLeaves + 1
    nodes := preview.nodes + 2 } }

/-- The body of the loop. -/
def predictBlock (predictor : Predictor) (block : Block) : Predictor :=
  let preview := predictor.preview
  if trimmed block.text = "" then predictor
  else
    match block.kind with
    | .abstract => predictor
    | .heading level =>
      if level ≤ 1 then predictSection predictor
      else if level = 2 then predictSubsection predictor
      else { predictor with preview := { preview with
        headingLeaves := preview.headingLeaves + 1, nodes := preview.nodes + 1 } }
    | .body =>
      { predictor with preview := { preview with
        bodyLeaves := preview.bodyLeaves + 1, nodes := preview.nodes + 1 } }
    | .caption => { predictor with preview := { preview with
        captionLeaves := preview.captionLeaves + 1, nodes := preview.nodes + 1 } }
    | .footnote | .other => predictor

/-- The variables before the loop: the work, and the abstract when it is not blank. -/
def predictStart (abstractText : Option String) : Predictor :=
  ⟨⟨if (abstractText.map fun text => decide (trimmed text ≠ "")).getD false then 2 else 1, 0, 0, 0, 0, 0⟩, false⟩

/-- `predict_structure`. -/
def predictStructure (blocks : List Block) (abstractText : Option String) : StructurePreview :=
  (blocks.foldl predictBlock (predictStart abstractText)).preview

/-! ### The counts of a tree -/

/-- The namespace of the abstract's leaf. -/
def abstractNamespace (intakeId : Int) : String := intakePart intakeId ++ "abstract"

/-- What is counted of a node: its kind, and its namespace. -/
def previewOf (intakeId : Int) (nodes : List (NodeType × Option String)) : StructurePreview where
  nodes := nodes.length
  sections := nodes.countP fun node => node.1 = .section
  subsections := nodes.countP fun node => node.1 = .subsection
  headingLeaves := nodes.countP fun node => node.1 = .heading
  bodyLeaves := nodes.countP fun node => node.1 = .paragraph ∧ node.2 ≠ some (abstractNamespace intakeId)
  captionLeaves := nodes.countP fun node => node.1 = .figureCaption

/-- The counts of the rows of a tree: all of them, and each kind. The abstract's leaf is a paragraph, and is
told apart from the body leaves by its anchor. -/
def rowsPreview (intakeId : Int) (rows : List NewNode) : StructurePreview :=
  previewOf intakeId (rows.map fun row => (row.nodeType, row.stableAnchor))

/-- The counts of the work and the planned nodes. -/
def plansPreview (intakeId : Int) (plans : List PendingNode) : StructurePreview :=
  previewOf intakeId ((.work, none) :: plans.map fun plan => (plan.nodeType, plan.contentNamespace))

/-! ### The prediction follows the plan -/

section Plan

variable {intakeId : Int} {planner : Planner} {predictor : Predictor} {text : String} {sourceUnit : Nat}

/-- What one more node of a kind adds. -/
def StructurePreview.count (preview : StructurePreview) (nodeType : NodeType) (isBody : Bool) :
    StructurePreview where
  nodes := preview.nodes + 1
  sections := preview.sections + if nodeType = .section then 1 else 0
  subsections := preview.subsections + if nodeType = .subsection then 1 else 0
  headingLeaves := preview.headingLeaves + if nodeType = .heading then 1 else 0
  bodyLeaves := preview.bodyLeaves + if nodeType = .paragraph ∧ isBody then 1 else 0
  captionLeaves := preview.captionLeaves + if nodeType = .figureCaption then 1 else 0

theorem plansPreview_push (plans : List PendingNode) (node : PendingNode) :
    plansPreview intakeId (plans ++ [node]) = (plansPreview intakeId plans).count node.nodeType
      (node.contentNamespace ≠ some (abstractNamespace intakeId)) := by
  rw [plansPreview, List.map_append, ← List.cons_append]
  simp [plansPreview, previewOf, StructurePreview.count, List.countP_append, List.countP_singleton]

/-- The prediction stands where the planner does. -/
structure Predicts (intakeId : Int) (planner : Planner) (predictor : Predictor) : Prop where
  preview : plansPreview intakeId planner.plans = predictor.preview
  flag : predictor.currentSection = planner.currentSection.isSome

/-- A body leaf does not have the abstract's namespace. -/
theorem body_ne_abstract (seq : Nat) :
    some (intakePart intakeId ++ "body:" ++ toString seq) ≠ some (abstractNamespace intakeId) := by
  intro same
  have names : LeafName.namespaceIn intakeId (.body seq) = LeafName.namespaceIn intakeId .abstract := by
    rw [LeafName.namespaceIn, LeafName.text, ← String.append_assoc]
    exact same
  cases namespaceIn_injective names

theorem planSection_predicts (predicts : Predicts intakeId planner predictor) :
    Predicts intakeId (planSection intakeId planner text sourceUnit) (predictSection predictor) where
  preview := by
    show plansPreview intakeId (planner.plans ++ [.organizer none .section 1] ++ [_]) = _
    rw [plansPreview_push, plansPreview_push, predicts.preview]
    rfl
  flag := rfl

/-- A subsection without a section opens one in both. -/
theorem sectionFor_predicts (predicts : Predicts intakeId planner predictor) :
    Predicts intakeId (sectionFor planner).1 (predictAutoSection predictor) := by
  have flag := predicts.flag
  unfold sectionFor predictAutoSection
  cases isOpen : planner.currentSection with
  | some idx =>
    rw [isOpen] at flag
    rw [if_pos (by rw [flag]; rfl)]
    exact predicts
  | none =>
    rw [isOpen] at flag
    rw [if_neg (by rw [flag]; exact Bool.false_ne_true)]
    refine ⟨?_, rfl⟩
    show plansPreview intakeId (planner.plans ++ [_]) = _
    rw [plansPreview_push, predicts.preview]
    rfl

theorem planSubsection_predicts (predicts : Predicts intakeId planner predictor) :
    Predicts intakeId (planSubsection intakeId planner text sourceUnit) (predictSubsection predictor) := by
  have opened := sectionFor_predicts predicts
  refine ⟨?_, opened.flag⟩
  show plansPreview intakeId ((sectionFor planner).1.plans ++ [.organizer _ .subsection 2] ++ [_]) = _
  rw [plansPreview_push, plansPreview_push, opened.preview]
  rfl

/-- **A block keeps the prediction together with the plan.** -/
theorem planBlock_predicts (predicts : Predicts intakeId planner predictor) (block : Block) :
    Predicts intakeId (planBlock intakeId planner block) (predictBlock predictor block) := by
  have leaf (nodeType : NodeType) (text contentNamespace : String) :
      plansPreview intakeId (planner.pushLeaf nodeType text block.sourceUnit contentNamespace).plans =
        predictor.preview.count nodeType (some contentNamespace ≠ some (abstractNamespace intakeId)) := by
    show plansPreview intakeId (planner.plans ++ [_]) = _
    rw [plansPreview_push, predicts.preview]
    rfl
  unfold planBlock predictBlock
  by_cases blank : trimmed block.text = ""
  · rw [if_pos blank, if_pos blank]
    exact predicts
  rw [if_neg blank, if_neg blank]
  cases block.kind with
  | heading level =>
    by_cases isSection : level ≤ 1
    · simp only [if_pos isSection]
      exact planSection_predicts predicts
    by_cases isSubsection : level = 2
    · simp only [if_neg isSection, if_pos isSubsection]
      exact planSubsection_predicts predicts
    · simp only [if_neg isSection, if_neg isSubsection]
      exact ⟨leaf .heading _ _, predicts.flag⟩
  | body =>
    refine ⟨(leaf .paragraph _ _).trans ?_, predicts.flag⟩
    simp only [StructurePreview.count, decide_eq_true_iff, body_ne_abstract, ne_eq, not_false_eq_true, and_self,
      if_true, reduceCtorEq, if_false, Nat.add_zero]
  | caption => exact ⟨leaf .figureCaption _ _, predicts.flag⟩
  | abstract => exact predicts
  | footnote => exact predicts
  | other => exact predicts

theorem start_predicts (intakeId : Int) (abstractText : Option String) :
    Predicts intakeId (.start (abstractPlans intakeId abstractText)) (predictStart abstractText) := by
  refine ⟨?_, rfl⟩
  show plansPreview intakeId (abstractPlans intakeId abstractText) = _
  cases abstractText with
  | none => rfl
  | some text =>
    by_cases blank : trimmed text = ""
    · have isTrimmed : abstractTrimmed (some text) = none := by
        rw [abstractTrimmed, Option.map_some, Option.filter_some, if_neg (by simp [blank])]
      rw [abstractPlans, isTrimmed]
      simp [predictStart, blank, plansPreview, previewOf]
    · have isTrimmed : abstractTrimmed (some text) = some (trimmed text) := by
        rw [abstractTrimmed, Option.map_some, Option.filter_some, if_pos (by simp [blank])]
      rw [abstractPlans, isTrimmed]
      simp [predictStart, blank, plansPreview, previewOf, PendingNode.abstractLeaf, abstractNamespace]

/-- **The prediction is the count of the plan.** -/
theorem predictStructure_plans (intakeId : Int) (abstractText : Option String) (blocks : List Block) :
    plansPreview intakeId (planPaper intakeId abstractText blocks).plans = predictStructure blocks
      abstractText := by
  suffices follows : ∀ {planner : Planner} {predictor : Predictor}, Predicts intakeId planner predictor →
      Predicts intakeId (blocks.foldl (planBlock intakeId) planner) (blocks.foldl predictBlock predictor) from
    (follows (start_predicts intakeId abstractText)).preview
  induction blocks with
  | nil => exact id
  | cons block rest ih => exact fun predicts => ih (planBlock_predicts predicts block)

end Plan

/-! ### The prediction is the count of the rows -/

section Rows

variable {intakeId : Int} {plans : List PendingNode} {workNodeId : NodeId} {ids : List NodeId}
  {rows : List NewNode}
  {rowAt : Nat → NewNode}

/-- Counting rows is counting what they are rows of. -/
theorem BoundPaper.countP (bound : BoundPaper plans workNodeId ids rows rowAt) {picks : NewNode → Bool}
    {chosen : PendingNode → Bool} (work : picks (rowAt 0) = false)
    (each : ∀ place plan, plans[place]? = some plan → picks (rowAt (place + 1)) = chosen plan) :
    rows.countP picks = plans.countP chosen := by
  have counted := congrArg List.length
    (@filter_map_range _ _ _ picks chosen (fun _ => ()) (fun _ => ()) plans (fun place => rowAt (place + 1))
      fun place plan isPlan => ⟨each place plan isPlan, fun _ => rfl⟩)
  rw [bound.rows_eq, List.countP_cons_of_neg (by rw [work]; exact Bool.false_ne_true)]
  simpa [List.countP_eq_length_filter] using counted

/-- **The rows are counted as the plan is.** -/
theorem BoundPaper.preview (planned : Planned plans) (bound : BoundPaper plans workNodeId ids rows rowAt) :
    rowsPreview intakeId rows = plansPreview intakeId plans := by
  have isKind {place : Nat} {plan : PendingNode} (isPlan : plans[place]? = some plan) :
      (rowAt (place + 1)).nodeType = plan.nodeType := (bound.isRow isPlan).1.nodeType
  have kinds (nodeType : NodeType) (notWork : nodeType ≠ .work) :
      rows.countP (fun row => row.nodeType = nodeType) = plans.countP fun plan => plan.nodeType = nodeType := by
    refine bound.countP ?_ fun place plan isPlan => ?_
    · rw [bound.work_nodeType]
      exact decide_eq_false notWork.symm
    · rw [isKind isPlan]
  have bodies : rows.countP (fun row => row.nodeType = .paragraph ∧
    row.stableAnchor ≠ some (abstractNamespace intakeId)) =
      plans.countP fun plan =>
        plan.nodeType = .paragraph ∧ plan.contentNamespace ≠ some (abstractNamespace intakeId) := by
    refine bound.countP ?_ fun place plan isPlan => ?_
    · rw [bound.work_nodeType]
      rfl
    · rw [isKind isPlan]
      by_cases isParagraph : plan.nodeType = .paragraph
      · rw [(bound.prose_anchor planned isPlan (by rw [isParagraph]; rfl)).1]
      · simp [isParagraph]
  have total : rows.length = plans.length + 1 := by
    rw [bound.all, List.length_map, List.length_range]
  have counted {picks : NodeType × Option String → Bool} (notWork : picks (.work, none) = false)
      (same : rows.countP (fun row => picks (row.nodeType, row.stableAnchor)) =
        plans.countP fun plan => picks (plan.nodeType, plan.contentNamespace)) :
      (rows.map fun row => (row.nodeType, row.stableAnchor)).countP picks =
        ((NodeType.work, none) :: plans.map fun plan =>
          (plan.nodeType, plan.contentNamespace)).countP picks := by
    rw [List.countP_map, List.countP_cons_of_neg (by rw [notWork]; exact Bool.false_ne_true), List.countP_map]
    exact same
  ext
  · simp [rowsPreview, plansPreview, previewOf, total]
  · exact counted rfl (kinds .section nofun)
  · exact counted rfl (kinds .subsection nofun)
  · exact counted rfl (kinds .heading nofun)
  · exact counted rfl bodies
  · exact counted rfl (kinds .figureCaption nofun)

end Rows

/-! ### The run -/

/-- The batch's rows are counted as the plan is. -/
theorem paperBatch_preview {fns : TextFns} {call : BuildCall} (fits : PartitionIdx.Fits ⟨call.intakeId⟩)
    {tree : List NewNode} (built : (paperBatch fns call).built ⟨call.intakeId⟩ = some tree) :
    rowsPreview call.intakeId tree = predictStructure call.bodyBlocks call.abstractText := by
  obtain ⟨workNodeId, ids, rowAt, bound, -⟩ := paperBatch_bound fits built
  have planned : Planned call.planner.plans :=
    (planPaper_sound call.intakeId call.abstractText call.bodyBlocks).1.isOpen.planned
  exact (bound.preview planned).trans (predictStructure_plans call.intakeId call.abstractText call.bodyBlocks)

/-- **The dry run predicts the tree**: what `build_structure` leaves of the same blocks and abstract has as many
nodes of each kind. -/
theorem predictStructure_counts {fns : TextFns} {call : BuildCall} (fits : PartitionIdx.Fits ⟨call.intakeId⟩)
    {library : Library} (placed : library.corpus.Placed) :
    Ends (buildStructure fns call) library
      (fun _ after => rowsPreview call.intakeId (after.tree call.intakeId) =
        predictStructure call.bodyBlocks call.abstractText)
      (fun _ _ => ¬ call.Writes) (fun _ => ¬ call.Writes) := by
  refine (buildStructure_built fits placed).mono ?_ (fun _ _ => id) fun _ => id
  intro _ after ⟨tree, built, retree⟩
  rw [retree.self]
  exact paperBatch_preview fits built

/-- Seven nodes: the work, its abstract, a body, a section that its subsection opens, and a caption. -/
theorem plainPaper_preview : predictStructure plainPaper.bodyBlocks plainPaper.abstractText = ⟨7, 1, 1, 1, 1,
    1⟩ ∧
    ∃ result after, buildStructure plainFns plainPaper .empty = (.value result, after) ∧
      rowsPreview 7 (after.tree 7) = ⟨7, 1, 1, 1, 1, 1⟩ := by
  have predicted : predictStructure plainPaper.bodyBlocks plainPaper.abstractText = ⟨7, 1, 1, 1, 1, 1⟩ := by
    decide
  have placed : Library.empty.corpus.Placed := Corpus.CorpusDb.empty_placed
  have fits : PartitionIdx.Fits ⟨plainPaper.intakeId⟩ := by decide
  have ends := @predictStructure_counts plainFns plainPaper fits .empty placed
  have writes : plainPaper.Writes := by decide
  refine ⟨predicted, ?_⟩
  unfold Ends at ends
  split at ends
  · rename_i result after isValue
    exact ⟨result, after, isValue, ends.trans predicted⟩
  · exact absurd writes ends
  · exact absurd writes ends

end Bookrack.Glean
