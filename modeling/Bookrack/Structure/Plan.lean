/-
STRUCTURE: lifting one extraction into a corpus node tree (`ingest/src/structure.rs`).

`planTree` turns the flat blocks and the flattened, depth-tagged table of contents into an ordered
list of `PlannedNode`s (the root, the organizing nodes in TOC order, the leaves in reading order)
with the spans and signatures over it; `TreePlan.intoNewNodes` binds plan indices to node ids.

`bookrack_normalize::normalize` and the SHA-256 of the `sha2` crate are parameters (`TextFns`).
-/

import Bookrack.Base.Forest
import Bookrack.Core.Text
import Bookrack.Corpus.Node

namespace Bookrack.Structure

open Corpus Forest

/-! ### The extraction -/

/-- Coarse extraction-time classification of a block. -/
inductive BlockKind
  | body
  | heading (level : Nat)
  | footnote
  | caption
  | abstract
  | other
  deriving DecidableEq, Repr

/-- One content block. -/
structure Block where
  kind : BlockKind
  text : String
  sourceUnit : Nat
  deriving DecidableEq, Repr

/-- One TOC entry, anchored to the block where its content begins. -/
structure TocEntry where
  label : String
  depth : Nat
  startBlock : Option Nat
  deriving DecidableEq, Repr

/-- Blocks in reading order, the flattened table of contents, and the title the file carries. -/
structure Extraction where
  blocks : List Block
  toc : List TocEntry
  title : Option String
  deriving DecidableEq, Repr

/-- `StructureParams`. -/
structure StructureParams where
  stableAnchorLen : Nat
  deriving DecidableEq, Repr

/-- Why structuring failed. -/
inductive IngestError
  | emptyExtraction
  deriving DecidableEq, Repr

/-- What structuring takes from the normalizer and the hash crate. -/
structure TextFns where
  normalize : String → String
  sha256 : List UInt8 → List UInt8

/-- `norm_text_sha256`. -/
def TextFns.normTextSha256 (fns : TextFns) (text : String) : String :=
  hex (fns.sha256 (asBytes (fns.normalize text)))

/-- `sha256_hex`. -/
def TextFns.sha256Hex (fns : TextFns) (bytes : List UInt8) : String := hex (fns.sha256 bytes)

/-! ### Sentences (`ingest/src/sentences.rs`) -/

/-- `is_terminator`. -/
def isTerminator (c : Char) : Bool :=
  c == '.' || c == '!' || c == '?' || c == ';' || c.toNat == 0x3002 || c.toNat == 0xFF01 ||
    c.toNat == 0xFF1F || c.toNat == 0xFF1B || c.toNat == 0x2026

/-- The loop of `count_sentences`: runs so far, inside a run, content seen. -/
def sentenceRuns (state : Int × Bool × Bool) (c : Char) : Int × Bool × Bool :=
  let (runs, inRun, hasContent) := state
  if isTerminator c then (if inRun then runs else runs + 1, true, true)
  else (runs, false, hasContent || !isWhitespace c)

/-- `count_sentences`. -/
def countSentences (text : String) : Int :=
  let (runs, _, hasContent) := text.toList.foldl sentenceRuns (0, false, false)
  if !hasContent then 0 else max runs 1

/-! ### Planned nodes -/

/-- `ROOT`. -/
def rootIndex : Nat := 0

/-- One node staged for insertion, its parent held as a plan index. -/
structure PlannedNode where
  parent : Option Nat
  depth : Int
  ordinal : Int
  nodeType : NodeType
  title : Option String
  text : Option String
  charCount : Option Int
  sentenceCount : Option Int
  leafPage : Option Int
  docOrder : Option Int
  stableAnchor : Option String
  textSha256 : Option String
  normSha256 : Option String
  deriving DecidableEq, Repr

/-- `PlannedNode::root`. -/
def PlannedNode.root (nodeType : NodeType) (title : Option String) : PlannedNode where
  parent := none
  depth := 0
  ordinal := 0
  nodeType := nodeType
  title := title
  text := none
  charCount := none
  sentenceCount := none
  leafPage := none
  docOrder := none
  stableAnchor := none
  textSha256 := none
  normSha256 := none

/-- `PlannedNode::organizing`. -/
def PlannedNode.organizing (parent : Nat) (depth : Int) (nodeType : NodeType) (title : String) :
    PlannedNode :=
  { PlannedNode.root nodeType (some title) with parent := some parent, depth := depth }

/-- A planned tree: the nodes and the aggregates over them, in parallel vectors. -/
structure TreePlan where
  nodes : List PlannedNode
  docSpan : List (Option (Int × Int))
  pageSpan : List (Option (Int × Int))
  subtreeSig : List (Option String)
  proseLeaves : Nat
  deriving DecidableEq, Repr

/-- `org_type`. -/
def orgType : Nat → NodeType
  | 0 => .chapter
  | 1 => .section
  | _ => .subsection

/-- `leaf_type`. -/
def leafType : BlockKind → NodeType
  | .body | .other => .paragraph
  | .heading _ => .heading
  | .footnote => .footnote
  | .caption => .figureCaption
  | .abstract => .paragraph

/-! ### Suppressed headings and owners -/

/-- `labels_at[start]`: the normalized labels anchored at a block. -/
def labelsAt (fns : TextFns) (entries : List TocEntry) (start : Nat) : List String :=
  (entries.filter (·.startBlock = some start)).map (fns.normalize ·.label)

/-- `suppressed[i]`: a heading that re-states the label of an entry anchored at it. -/
def suppressed (fns : TextFns) (entries : List TocEntry) (i : Nat) (block : Block) : Bool :=
  match block.kind with
  | .heading _ => (labelsAt fns entries i).contains (fns.normalize block.text)
  | _ => false

/-- The blocks that yield a leaf, with their indices. -/
def survivors (fns : TextFns) (extraction : Extraction) : List (Block × Nat) :=
  extraction.blocks.zipIdx.filter fun block => !suppressed fns extraction.toc block.2 block.1

/-- The order of `(usize, usize)`. -/
def StartLe (one other : Nat × Nat) : Prop :=
  one.1 < other.1 ∨ one.1 = other.1 ∧ one.2 ≤ other.2

instance : DecidableRel StartLe := fun _ _ => inferInstanceAs (Decidable (_ ∨ _))

/-- `resolved`: the anchored entries as `(start, entry)`, sorted. -/
def resolved (entries : List TocEntry) : List (Nat × Nat) :=
  (entries.zipIdx.filterMap fun entry => entry.1.startBlock.map (·, entry.2)).insertionSort StartLe

/-- The inner loop of the owner sweep at block `i`: what stays ahead of `ptr`, and `current`. -/
def advance (i : Nat) : List (Nat × Nat) → Option Nat → List (Nat × Nat) × Option Nat
  | [], current => ([], current)
  | (start, entry) :: ahead, current =>
    if start ≤ i then advance i ahead (some entry) else ((start, entry) :: ahead, current)

/-- The owner sweep over `count` blocks from block `i` on. -/
def ownerSweep (ahead : List (Nat × Nat)) (current : Option Nat) (i : Nat) :
    Nat → List (Option Nat)
  | 0 => []
  | count + 1 =>
    let (ahead, current) := advance i ahead current
    current :: ownerSweep ahead current (i + 1) count

/-- `owner_per_block`. -/
def ownerPerBlock (extraction : Extraction) : List (Option Nat) :=
  ownerSweep (resolved extraction.toc) none 0 extraction.blocks.length

/-! ### The organizing skeleton -/

/-- `org_index`. -/
def orgIndex (entry : Nat) : Nat := 1 + entry

/-- The depth stack (top first) and the parents and depths of the entries passed. -/
structure OrgState where
  stack : List (Nat × Nat)
  parents : List Nat
  depths : List Int
  deriving DecidableEq, Repr

/-- One entry of the depth-stack loop. -/
def orgStep (state : OrgState) (entry : TocEntry × Nat) : OrgState :=
  let stack := state.stack.dropWhile fun top => entry.1.depth ≤ top.2
  let (parent, parentDepth) := match stack.head? with
    | some (above, _) => (orgIndex above, state.depths.getD above 0)
    | none => (rootIndex, 0)
  { stack := (entry.2, entry.1.depth) :: stack
    parents := state.parents ++ [parent]
    depths := state.depths ++ [parentDepth + 1] }

/-- The depth-stack loop. -/
def orgSkeleton (entries : List TocEntry) : OrgState :=
  entries.zipIdx.foldl orgStep { stack := [], parents := [], depths := [] }

/-! ### The node list -/

/-- The organizing node of an entry. -/
def plannedOrg (skeleton : OrgState) (entry : TocEntry × Nat) : PlannedNode :=
  .organizing (skeleton.parents.getD entry.2 rootIndex) (skeleton.depths.getD entry.2 1)
    (orgType entry.1.depth) entry.1.label

/-- The root, then the organizing nodes in TOC order. -/
def organizingNodes (bookRootType : NodeType) (extraction : Extraction) : List PlannedNode :=
  .root bookRootType extraction.title ::
    extraction.toc.zipIdx.map (plannedOrg (orgSkeleton extraction.toc))

/-- `parent` of a leaf: its owner, or the root. -/
def leafParent (extraction : Extraction) (i : Nat) : Nat :=
  match (ownerPerBlock extraction).getD i none with
  | some entry => orgIndex entry
  | none => rootIndex

/-- The leaf of a surviving block, `docOrder` survivors after the first. -/
def plannedLeaf (fns : TextFns) (params : StructureParams) (bookRootType : NodeType)
    (extraction : Extraction) (survivor : (Block × Nat) × Nat) : PlannedNode :=
  let ((block, i), docOrder) := survivor
  let nodeType := leafType block.kind
  let parent := leafParent extraction i
  let parentDepth := ((organizingNodes bookRootType extraction)[parent]?.map (·.depth)).getD 0
  let norm := fns.normTextSha256 block.text
  let isProse := nodeType.isProseLeaf
  { parent := some parent
    depth := parentDepth + 1
    ordinal := 0
    nodeType := nodeType
    title := none
    text := some block.text
    charCount := some block.text.length
    sentenceCount := some (countSentences block.text)
    leafPage := some block.sourceUnit
    docOrder := some docOrder
    stableAnchor :=
      if isProse then some (String.ofList (norm.toList.take params.stableAnchorLen)) else none
    textSha256 := if isProse then some (fns.sha256Hex (asBytes block.text)) else none
    normSha256 := if isProse then some norm else none }

/-- The leaves in reading order. -/
def plannedLeaves (fns : TextFns) (params : StructureParams) (bookRootType : NodeType)
    (extraction : Extraction) : List PlannedNode :=
  (survivors fns extraction).zipIdx.map (plannedLeaf fns params bookRootType extraction)

/-! ### Ordinals, spans, signatures -/

/-- The parent index of a planned node. -/
def parentOf (nodes : List PlannedNode) (idx : Nat) : Option Nat := nodes[idx]?.bind (·.parent)

/-- `children`: each node's leaves, then its organizing children. -/
def childrenOf (numOrgs : Nat) (nodes : List PlannedNode) : List (List Nat) :=
  let firstLeaf := 1 + numOrgs
  let leaves := (List.range' firstLeaf (nodes.length - firstLeaf)).foldl (attach (parentOf nodes))
    (List.replicate nodes.length [])
  (List.range' 1 numOrgs).foldl (attach (parentOf nodes)) leaves

/-- `nodes[c].ordinal = ord`. -/
def PlannedNode.setOrdinal (ordinal : Nat) (node : PlannedNode) : PlannedNode :=
  { node with ordinal := ordinal }

/-- Number every node among its siblings. -/
def numbered (children : List (List Nat)) (nodes : List PlannedNode) : List PlannedNode :=
  children.foldl (fun nodes kids =>
    kids.zipIdx.foldl (fun nodes kid => nodes.modify kid.1 (.setOrdinal kid.2)) nodes) nodes

/-- `merge_span`. -/
def mergeSpan : Option (Int × Int) → Option (Int × Int) → Option (Int × Int)
  | none, x => x
  | x, none => x
  | some (alo, ahi), some (blo, bhi) => some (min alo blo, max ahi bhi)

/-- One of the two span vectors: a leaf spans its own position, and the reverse pass folds each
node's span into its parent. The source's loop runs both vectors at once; neither reads the
other. -/
def spansOf (position : PlannedNode → Option Int) (nodes : List PlannedNode) :
    List (Option (Int × Int)) :=
  (List.range' 1 (nodes.length - 1)).reverse.foldl (passUp (parentOf nodes) mergeSpan none)
    (nodes.map fun node => (position node).map fun p => (p, p))

/-- The signature over a node's descendant hashes. -/
def signature (fns : TextFns) (hashes : List String) : String :=
  hex (fns.sha256 (hashes.flatMap asBytes))

/-- `subtree_hashes`, down to `fuel` levels: the descendant prose-leaf hashes, and `sig` with the
signatures of the organizing nodes met written into it. -/
def subtreeHashes (fns : TextFns) (nodes : List PlannedNode) (children : List (List Nat)) :
    Nat → Nat → List (Option String) → List String × List (Option String)
  | 0, _, sig => ([], sig)
  | fuel + 1, idx, sig =>
    match nodes[idx]? with
    | none => ([], sig)
    | some node =>
      if !node.nodeType.isOrganizing then (node.normSha256.toList, sig)
      else
        let (hashes, sig) := (children.getD idx []).foldl (fun (hashes, sig) child =>
          let (more, sig) := subtreeHashes fns nodes children fuel child sig
          (hashes ++ more, sig)) ([], sig)
        (hashes, sig.set idx (some (signature fns hashes)))

/-! ### The plan -/

/-- The node list before siblings are numbered. -/
def unnumbered (fns : TextFns) (params : StructureParams) (bookRootType : NodeType)
    (extraction : Extraction) : List PlannedNode :=
  organizingNodes bookRootType extraction ++ plannedLeaves fns params bookRootType extraction

/-- `plan_tree`. -/
def planTree (fns : TextFns) (bookRootType : NodeType) (extraction : Extraction)
    (params : StructureParams) : Except IngestError TreePlan :=
  let staged := unnumbered fns params bookRootType extraction
  let proseLeaves := (plannedLeaves fns params bookRootType extraction).countP
    (·.nodeType.isProseLeaf)
  if proseLeaves = 0 then .error .emptyExtraction
  else
    let children := childrenOf extraction.toc.length staged
    let nodes := numbered children staged
    .ok {
      nodes := nodes
      docSpan := spansOf (·.docOrder) nodes
      pageSpan := spansOf (·.leafPage) nodes
      subtreeSig := (subtreeHashes fns nodes children nodes.length rootIndex
        (List.replicate nodes.length none)).2
      proseLeaves := proseLeaves }

/-- `TreePlan::child_count`; the cast to `u32` wraps. -/
def TreePlan.childCount (plan : TreePlan) : Nat := (plan.nodes.length - 1) % 2 ^ 32

/-- The fields a node takes from its group. -/
def bindGroup (node : PlannedNode) (sig : Option String) (nn : NewNode) : NewNode :=
  if node.nodeType.isOrganizing then
    let nn := match node.title with
      | some title => nn.withTitle title
      | none => nn
    match sig with
    | some sig => nn.withSubtreeSignature sig
    | none => nn
  else
    let nn := match node.text with
      | some text => nn.withText text
      | none => nn
    let nn := nn.withTextStats (node.charCount.getD 0) (node.sentenceCount.getD 0)
    match node.stableAnchor, node.textSha256, node.normSha256 with
    | some anchor, some raw, some norm => nn.withContentHashes anchor raw norm
    | _, _, _ => nn

/-- The two spans of a node. -/
def bindSpans (docSpan pageSpan : Option (Int × Int)) (nn : NewNode) : NewNode :=
  let nn := match docSpan with
    | some (lo, hi) => nn.withTocSpan lo hi
    | none => nn
  match pageSpan with
  | some (lo, hi) => nn.withPages lo hi
  | none => nn

/-- `id_of`; `none` is the index panic. -/
def idOf (bookRootId : NodeId) (ids : List NodeId) (idx : Nat) : Option NodeId :=
  if idx = rootIndex then some bookRootId else ids[idx - 1]?

/-- One turn of the loop of `into_new_nodes`. -/
def TreePlan.bindNode (plan : TreePlan) (bookRootId : NodeId) (ids : List NodeId)
    (node : PlannedNode × Nat) : Option NewNode := do
  let (node, idx) := node
  let nn ← match node.parent with
    | none => some (NewNode.root bookRootId node.nodeType)
    | some parent => do
      let id ← idOf bookRootId ids idx
      let parentId ← idOf bookRootId ids parent
      some (NewNode.child id parentId bookRootId node.ordinal node.depth node.nodeType)
  some (bindSpans (plan.docSpan.getD idx none) (plan.pageSpan.getD idx none)
    (bindGroup node (plan.subtreeSig.getD idx none) nn))

/-- `TreePlan::into_new_nodes`; `none` is the index panic. -/
def TreePlan.intoNewNodes (plan : TreePlan) (bookRootId : NodeId) (ids : List NodeId) :
    Option (List NewNode) :=
  plan.nodes.zipIdx.mapM (plan.bindNode bookRootId ids)

end Bookrack.Structure
