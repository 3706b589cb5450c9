/-
STRUCTURE for papers (`glean/src/lib.rs`): the heading-colored blocks of a paper as a tree of nodes.

* `planPaper` walks the blocks with the open section and subsection and lists the `PendingNode`s;
  `paperNodes` numbers them, measures their spans and binds them to node ids; `buildStructure` writes
  them.
* The plan's parents are indices into the plan; `upIndex` counts them with the work at 0.
-/

import Bookrack.Base.Preorder
import Bookrack.Library.Tree
import Bookrack.Normalize.Pipeline
import Bookrack.Structure.Plan

namespace Bookrack.Glean

open Corpus (CorpusDb NewNode Partition)
open Forest
open Prog
open Structure (Block BlockKind TextFns)

/-! ### Planned nodes -/

/-- `PendingNode`. -/
structure PendingNode where
  parentIdx : Option Nat
  nodeType : NodeType
  depth : Int
  text : Option String
  sourceUnit : Option Nat
  contentNamespace : Option String
  isLeaf : Bool
  deriving DecidableEq, Repr

namespace PendingNode

/-- `PendingNode::leaf`. -/
def leaf (parentIdx : Option Nat) (nodeType : NodeType) (depth : Int) (text : String) (sourceUnit : Nat)
    (contentNamespace : String) : PendingNode :=
  ⟨parentIdx, nodeType, depth, some text, some sourceUnit, some contentNamespace, true⟩

/-- `PendingNode::abstract_leaf`: the abstract is bound to no page. -/
def abstractLeaf (text contentNamespace : String) : PendingNode :=
  ⟨none, .paragraph, 1, some text, none, some contentNamespace, true⟩

/-- `PendingNode::organizer`. -/
def organizer (parentIdx : Option Nat) (nodeType : NodeType) (depth : Int) : PendingNode :=
  ⟨parentIdx, nodeType, depth, none, none, none, false⟩

end PendingNode

/-- `current_parent`. -/
def currentParent (subsectionIdx sectionIdx : Option Nat) : Option Nat × Int :=
  match subsectionIdx with
  | some idx => (some idx, 2)
  | none =>
    match sectionIdx with
    | some idx => (some idx, 1)
    | none => (none, 0)

/-! ### The plan -/

/-- The variables of the planning loop of `build_structure`. -/
structure Planner where
  plans : List PendingNode
  currentSection : Option Nat
  currentSubsection : Option Nat
  sectionSeq : Nat
  subsectionWithinSection : Nat
  bodySeq : Nat
  captionSeq : Nat
  headingLeafSeq : Nat
  sectionCount : Nat
  subsectionCount : Nat
  headingLeaves : Nat
  bodyLeaves : Nat
  deriving DecidableEq, Repr

namespace Planner

/-- The variables before the loop, with the abstract leaf when there is one. -/
def start (plans : List PendingNode) : Planner := ⟨plans, none, none, 0, 0, 0, 0, 0, 0, 0, 0, 0⟩

/-- `plans.push`. -/
def push (planner : Planner) (node : PendingNode) : Planner :=
  { planner with plans := planner.plans ++ [node] }

/-- A section is pushed under the work and becomes the current one. -/
def openSection (planner : Planner) : Planner :=
  { planner.push (.organizer none .section 1) with
    currentSection := some planner.plans.length
    sectionSeq := planner.sectionSeq + 1
    subsectionWithinSection := 0
    sectionCount := planner.sectionCount + 1 }

/-- A subsection is pushed under a section and becomes the current one. -/
def openSubsection (planner : Planner) (sectionIdx : Nat) : Planner :=
  { planner.push (.organizer (some sectionIdx) .subsection 2) with
    currentSubsection := some planner.plans.length
    subsectionWithinSection := planner.subsectionWithinSection + 1
    subsectionCount := planner.subsectionCount + 1 }

/-- A leaf is pushed under the deepest open organizer. -/
def pushLeaf (planner : Planner) (nodeType : NodeType) (text : String) (sourceUnit : Nat)
    (contentNamespace : String) : Planner :=
  let (parent, depth) := currentParent planner.currentSubsection planner.currentSection
  planner.push (.leaf parent nodeType (depth + 1) text sourceUnit contentNamespace)

end Planner

/-- The part of a namespace that all nodes of an intake share. -/
def intakePart (intakeId : Int) : String := "intake:" ++ toString intakeId ++ ":"

/-- `Heading { level }` with `level <= 1`. -/
def planSection (intakeId : Int) (planner : Planner) (text : String) (sourceUnit : Nat) : Planner :=
  let sectionIdx := planner.plans.length
  let planner := { planner.openSection with currentSubsection := none }
  { planner.push (.leaf (some sectionIdx) .heading 2 text sourceUnit
      (intakePart intakeId ++ "heading:" ++ toString planner.sectionSeq)) with
    headingLeaves := planner.headingLeaves + 1 }

/-- The section a subsection goes under: the current one, or a new one without a heading. -/
def sectionFor (planner : Planner) : Planner × Nat :=
  match planner.currentSection with
  | some idx => (planner, idx)
  | none => (planner.openSection, planner.plans.length)

/-- `Heading { level: 2 }`. -/
def planSubsection (intakeId : Int) (planner : Planner) (text : String) (sourceUnit : Nat) : Planner :=
  let (planner, sectionIdx) := sectionFor planner
  let subsectionIdx := planner.plans.length
  let planner := planner.openSubsection sectionIdx
  { planner.push (.leaf (some subsectionIdx) .heading 3 text sourceUnit
      (intakePart intakeId ++ "heading:" ++ toString planner.sectionSeq ++ "." ++
        toString planner.subsectionWithinSection)) with
    headingLeaves := planner.headingLeaves + 1 }

/-- `Heading { .. }` of a deeper level. -/
def planHeadingLeaf (intakeId : Int) (planner : Planner) (text : String) (sourceUnit : Nat) : Planner :=
  let planner := { planner with headingLeafSeq := planner.headingLeafSeq + 1 }
  { planner.pushLeaf .heading text sourceUnit
      (intakePart intakeId ++ "heading-leaf:" ++ toString planner.headingLeafSeq) with
    headingLeaves := planner.headingLeaves + 1 }

/-- `Body`. -/
def planBody (intakeId : Int) (planner : Planner) (text : String) (sourceUnit : Nat) : Planner :=
  { planner.pushLeaf .paragraph text sourceUnit
      (intakePart intakeId ++ "body:" ++ toString planner.bodySeq) with
    bodySeq := planner.bodySeq + 1
    bodyLeaves := planner.bodyLeaves + 1 }

/-- `Caption`. -/
def planCaption (intakeId : Int) (planner : Planner) (text : String) (sourceUnit : Nat) : Planner :=
  let planner := { planner with captionSeq := planner.captionSeq + 1 }
  planner.pushLeaf .figureCaption text sourceUnit
    (intakePart intakeId ++ "caption:" ++ toString planner.captionSeq)

/-- `str::trim`. -/
def trimmed (text : String) : String := String.ofList (Normalize.trim text.toList)

/-- The body of the planning loop. -/
def planBlock (intakeId : Int) (planner : Planner) (block : Block) : Planner :=
  let text := trimmed block.text
  if text = "" then planner
  else
    match block.kind with
    | .heading level =>
      if level ≤ 1 then planSection intakeId planner text block.sourceUnit
      else if level = 2 then planSubsection intakeId planner text block.sourceUnit
      else planHeadingLeaf intakeId planner text block.sourceUnit
    | .body => planBody intakeId planner text block.sourceUnit
    | .caption => planCaption intakeId planner text block.sourceUnit
    | .abstract | .footnote | .other => planner

/-- `abstract_trimmed`. -/
def abstractTrimmed (abstractText : Option String) : Option String :=
  (abstractText.map trimmed).filter fun text => text ≠ ""

/-- The plans before the loop. -/
def abstractPlans (intakeId : Int) (abstractText : Option String) : List PendingNode :=
  match abstractTrimmed abstractText with
  | some text => [.abstractLeaf text (intakePart intakeId ++ "abstract")]
  | none => []

/-- The planning loop of `build_structure`. -/
def planPaper (intakeId : Int) (abstractText : Option String) (bodyBlocks : List Block) : Planner :=
  bodyBlocks.foldl (planBlock intakeId) (.start (abstractPlans intakeId abstractText))

/-! ### Numbers and spans -/

/-- `child_index_of`: earlier siblings under the same parent. -/
def childIndexes : (Option Nat → Int) → List PendingNode → List Int
  | _, [] => []
  | counts, plan :: rest =>
    counts plan.parentIdx ::
      childIndexes (fun parent => if parent = plan.parentIdx then counts parent + 1 else counts parent) rest

/-- `leaf_position`: the running index over the leaves. -/
def leafPosition : Int → List PendingNode → List (Option Int)
  | _, [] => []
  | cursor, plan :: rest =>
    if plan.isLeaf then some cursor :: leafPosition (cursor + 1) rest else none :: leafPosition cursor rest

/-- `total_leaves`. -/
def totalLeaves (plans : List PendingNode) : Int := plans.countP (·.isLeaf)

/-- The parent of a planned node. -/
def parentIn (plans : List PendingNode) (idx : Nat) : Option Nat := plans[idx]?.bind (·.parentIdx)

/-- `children_of`. -/
def childrenOf (plans : List PendingNode) : List (List Nat) :=
  (List.range plans.length).foldl (attach (parentIn plans)) (List.replicate plans.length [])

/-- A span of leaf positions and the pages they are on. -/
structure PaperSpan where
  tocLo : Int
  tocHi : Int
  pageLo : Nat
  pageHi : Nat
  deriving DecidableEq, Repr

/-- Two spans in one. -/
def mergeSpans : Option PaperSpan → Option PaperSpan → Option PaperSpan
  | span, none => span
  | none, some other => some other
  | some span, some other =>
    some ⟨min span.tocLo other.tocLo, max span.tocHi other.tocHi, min span.pageLo other.pageLo,
      max span.pageHi other.pageHi⟩

/-- The span of a leaf itself. -/
def ownSpan (plans : List PendingNode) (idx : Nat) : Option PaperSpan := do
  let position ← (leafPosition 0 plans)[idx]?.join
  let plan ← plans[idx]?
  let page := plan.sourceUnit.getD 0
  some ⟨position, position, page, page⟩

/-- `subtree_spans`. -/
def subtreeSpans (plans : List PendingNode) (idx : Nat) : Option PaperSpan :=
  gather mergeSpans (ownSpan plans) (fun up => (childrenOf plans).getD up []) plans.length idx

/-! ### The nodes -/

/-- The page bounds of a leaf: both are its source unit. -/
def withSourceUnit (node : NewNode) : Option Nat → NewNode
  | some page => node.withPages page page
  | none => node

/-- The columns of a leaf; `none` is a panic of `expect`. -/
def leafNode (fns : TextFns) (plans : List PendingNode) (idx : Nat) (plan : PendingNode) (node : NewNode) :
    Option NewNode := do
  let text ← plan.text
  let position ← (leafPosition 0 plans)[idx]?.join
  let node := ((node.withText text).withTextStats text.length 0).withTocSpan position position
  let node := withSourceUnit node plan.sourceUnit
  if plan.nodeType.isProseLeaf then
    plan.contentNamespace.map fun contentNamespace =>
      node.withContentHashes contentNamespace (fns.sha256Hex (asBytes text)) (fns.normTextSha256 text)
  else some node

/-- The columns of an organizing node. -/
def organizerNode (plans : List PendingNode) (idx : Nat) (node : NewNode) : NewNode :=
  match subtreeSpans plans idx with
  | some span => (node.withTocSpan span.tocLo span.tocHi).withPages span.pageLo span.pageHi
  | none => node

/-- The id of a node's parent; `none` is an index out of bounds. -/
def parentIdOf (workNodeId : NodeId) (ids : List NodeId) (plan : PendingNode) : Option NodeId :=
  match plan.parentIdx with
  | some up => ids[up]?
  | none => some workNodeId

/-- One turn of the loop that makes the nodes. -/
def bindPaperNode (fns : TextFns) (workNodeId : NodeId) (ids : List NodeId) (plans : List PendingNode)
    (entry : PendingNode × Nat) : Option NewNode := do
  let (plan, idx) := entry
  let nodeId ← ids[idx]?
  let parentId ← parentIdOf workNodeId ids plan
  let ordinal ← (childIndexes (fun _ => 0) plans)[idx]?
  let node := NewNode.child nodeId parentId workNodeId ordinal plan.depth plan.nodeType
  if plan.isLeaf then leafNode fns plans idx plan node else some (organizerNode plans idx node)

/-- The work: it spans every leaf when there is one. -/
def workNode (workNodeId : NodeId) (plans : List PendingNode) : NewNode :=
  let root := NewNode.root workNodeId .work
  if 0 < totalLeaves plans then root.withTocSpan 0 (totalLeaves plans - 1) else root

/-- The nodes handed to `insert_nodes`. -/
def paperNodes (fns : TextFns) (plans : List PendingNode) (workNodeId : NodeId) (ids : List NodeId) :
    Option (List NewNode) :=
  (plans.zipIdx.mapM (bindPaperNode fns workNodeId ids plans)).map (workNode workNodeId plans :: ·)

/-! ### Writing them -/

/-- `StructureResult`. -/
structure StructureResult where
  workNodeId : NodeId
  leafNodeId : Option NodeId
  leafText : Option String
  nodesWritten : Nat
  hasLeaf : Bool
  bodyLeaves : Nat
  sectionCount : Nat
  subsectionCount : Nat
  headingLeaves : Nat
  deriving DecidableEq, Repr

/-- What `build_structure` returns: the abstract leaf is the first planned node. -/
def structureResult (planner : Planner) (abstractText : Option String) (workNodeId : NodeId)
    (ids : List NodeId) (nodesWritten : Nat) : StructureResult where
  workNodeId := workNodeId
  leafNodeId := (abstractTrimmed abstractText).bind fun _ => ids[0]?
  leafText := abstractTrimmed abstractText
  nodesWritten := nodesWritten
  hasLeaf := (abstractTrimmed abstractText).isSome
  bodyLeaves := planner.bodyLeaves
  sectionCount := planner.sectionCount
  subsectionCount := planner.subsectionCount
  headingLeaves := planner.headingLeaves

/-- One call of `build_structure`. `now` is SQLite's timestamp. -/
structure BuildCall where
  intakeId : Int
  abstractText : Option String
  bodyBlocks : List Block
  now : String
  fates : TreeFates

/-- The plan of a call. -/
def BuildCall.planner (call : BuildCall) : Planner :=
  planPaper call.intakeId call.abstractText call.bodyBlocks

/-- One id for each planned node. With nothing planned the corpus is not asked. -/
def allocateFor (idx : PartitionIdx) (plans : List PendingNode) (fate : Fate) :
    Prog Library PipelineError (Except Corpus.PartitionError (List NodeId)) :=
  if plans.isEmpty then pure (.ok [])
  else corpusCall fate (·.allocateNodeIds idx (UInt32.ofNat plans.length))

/-- `build_structure`. -/
def buildStructure (fns : TextFns) (call : BuildCall) : Prog Library PipelineError StructureResult := do
  let idx : PartitionIdx := ⟨call.intakeId⟩
  write call.fates.drop .corpus fun library => library.setCorpus (library.corpus.dropPartition idx)
  match ← corpusCall call.fates.allocatePartition (·.allocatePartition call.intakeId call.now) with
  | .error _ => throw .corpus
  | .ok partition =>
    match ← allocateFor idx call.planner.plans call.fates.allocateIds with
    | .error .offsetOutOfRange => halt
    | .error _ => throw .corpus
    | .ok ids =>
      let nodes ← unwrap (paperNodes fns call.planner.plans partition.bookRootId ids)
      match ← corpusCall call.fates.insert (·.insertNodes nodes) with
      | .error _ => throw .corpus
      | .ok () =>
        pure (structureResult call.planner call.abstractText partition.bookRootId ids nodes.length)

end Bookrack.Glean
