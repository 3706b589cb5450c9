/-
CHUNK: grouping a book's prose leaves and splitting them into retrieval units
(`ingest/src/chunk.rs`).

`planChunks` groups the leaves into runs that share a parent, joins each group, splits the join, and
maps every chunk's byte span back to leaves. `textAt` is the oracle of its tests.

The `text-splitter` crate is a parameter (`TextSplitter`).
-/

import Bookrack.Core.NodeId
import Bookrack.Structure.Plan

namespace Bookrack.Chunk

open Structure (TextFns)

/-! ### Leaves, segments, plans -/

/-- `GROUP_SEPARATOR`. -/
def groupSeparator : String := "\n\n"

/-- `ChunkParams`. -/
structure ChunkParams where
  targetChars : Nat
  overlapChars : Nat
  deriving DecidableEq, Repr

/-- The frozen, versioned values. -/
def ChunkParams.default : ChunkParams := ⟨1000, 100⟩

/-- One planned chunk: the text to embed and the source span it covers. -/
structure ChunkPlan where
  startNodeId : NodeId
  startCharOffset : Int
  endNodeId : NodeId
  endCharOffset : Int
  text : String
  normChunkSha256 : String
  deriving DecidableEq, Repr

/-- One prose leaf, in document order. -/
structure ChunkLeaf where
  nodeId : NodeId
  parentId : Option NodeId
  text : String
  deriving DecidableEq, Repr

/-- A leaf's text and where it sits in the group concatenation. -/
structure Segment where
  nodeId : NodeId
  byteStart : Nat
  text : String
  charLen : Int
  deriving DecidableEq, Repr

/-- Which way a position in a separator gap snaps: `Start` to the next leaf, `End` back. -/
inductive Snap
  | start
  | stop
  deriving DecidableEq, Repr

/-- A configured splitter: the chunks of a text with their byte offsets. -/
structure TextSplitter where
  chunkIndices : String → List (Nat × String)

/-! ### Grouping -/

/-- `&leaves[low..high]`. -/
def slice (leaves : List ChunkLeaf) (low high : Nat) : List ChunkLeaf := (leaves.take high).drop low

/-- `leaves[i].parent_id`. -/
def parentAt (leaves : List ChunkLeaf) (i : Nat) : Option (Option NodeId) :=
  leaves[i]?.map (·.parentId)

/-- One turn of the loop of `group_by_parent`: the groups so far and the start of the open one. -/
def groupStep (leaves : List ChunkLeaf) (state : List (List ChunkLeaf) × Nat) (i : Nat) :
    List (List ChunkLeaf) × Nat :=
  let (groups, start) := state
  if parentAt leaves i ≠ parentAt leaves start then (groups ++ [slice leaves start i], i)
  else (groups, start)

/-- `group_by_parent`. -/
def groupByParent (leaves : List ChunkLeaf) : List (List ChunkLeaf) :=
  let (groups, start) := (List.range' 1 (leaves.length - 1)).foldl (groupStep leaves) ([], 0)
  if leaves.isEmpty then groups else groups ++ [slice leaves start leaves.length]

/-- The segment of a leaf whose text begins at `byteStart`. -/
def ChunkLeaf.segment (leaf : ChunkLeaf) (byteStart : Nat) : Segment :=
  { nodeId := leaf.nodeId, byteStart, text := leaf.text, charLen := asI32 leaf.text.length }

/-- One leaf of a group: the concatenation and the segments, empty leaves skipped. -/
def gatherStep (state : String × List Segment) (leaf : ChunkLeaf) : String × List Segment :=
  let (concat, segments) := state
  if leaf.text = "" then state
  else
    let concat := if concat = "" then concat else concat ++ groupSeparator
    (concat ++ leaf.text, segments ++ [leaf.segment concat.utf8ByteSize])

/-- A group's concatenation and segments. -/
def gather (group : List ChunkLeaf) : String × List Segment := group.foldl gatherStep ("", [])

/-! ### Locating -/

/-- Whether a position at or after a segment's start is in the segment. -/
def Snap.within (snap : Snap) (bytePos segEnd : Nat) : Bool :=
  match snap with
  | .start => bytePos < segEnd
  | .stop => bytePos ≤ segEnd

/-- Where a position before a segment's start snaps to. -/
def Snap.toward (snap : Snap) (seg : Segment) (prev : Option Segment) : NodeId × Int :=
  match snap, prev with
  | .start, _ => (seg.nodeId, 0)
  | .stop, some p => (p.nodeId, p.charLen)
  | .stop, none => (seg.nodeId, 0)

/-- The loop of `locate` with the fall-through after it; `none` is a panic. -/
def locateFrom (segments : List Segment) (bytePos : Nat) (snap : Snap) :
    Option Segment → List Segment → Option (NodeId × Int)
  | _, [] => segments.getLast?.map fun last => (last.nodeId, last.charLen)
  | prev, seg :: rest =>
    let segEnd := seg.byteStart + seg.text.utf8ByteSize
    if bytePos < seg.byteStart then some (snap.toward seg prev)
    else if snap.within bytePos segEnd then
      (sliceTo seg.text (bytePos - seg.byteStart)).map fun part => (seg.nodeId, asI32 part.length)
    else locateFrom segments bytePos snap (some seg) rest

/-- `locate`. -/
def locate (segments : List Segment) (bytePos : Nat) (snap : Snap) : Option (NodeId × Int) :=
  locateFrom segments bytePos snap none segments

/-! ### Planning -/

variable (fns : TextFns)

/-- The plan of one chunk. -/
def planChunk (segments : List Segment) (byteStart : Nat) (chunk : String) : Option ChunkPlan := do
  let byteEnd := byteStart + chunk.utf8ByteSize
  let (startNodeId, startCharOffset) ← locate segments byteStart .start
  let (endNodeId, endCharOffset) ← locate segments byteEnd .stop
  some
    { startNodeId, startCharOffset, endNodeId, endCharOffset
      normChunkSha256 := fns.normTextSha256 chunk
      text := chunk }

/-- The plans of one group; an empty group and empty chunks are skipped. -/
def planGroup (splitter : TextSplitter) (group : List ChunkLeaf) : Option (List ChunkPlan) :=
  let (concat, segments) := gather group
  if segments.isEmpty then some []
  else ((splitter.chunkIndices concat).filter fun (_, chunk) => chunk ≠ "").mapM
    fun (byteStart, chunk) => planChunk fns segments byteStart chunk

/-- `plan_chunks`; `none` is a panic. `splitterFor` builds the splitter, `none` when the crate
refuses the overlap. -/
def planChunks (splitterFor : ChunkParams → Option TextSplitter) (leaves : List ChunkLeaf)
    (params : ChunkParams) : Option (List ChunkPlan) := do
  let splitter ← splitterFor params
  let plans ← (groupByParent leaves).mapM (planGroup fns splitter)
  some plans.flatten

/-! ### The text a plan's coordinates select -/

/-- The part of a leaf that a plan covers; `none` where `to - from` underflows. -/
def coveredPart (plan : ChunkPlan) (leaf : ChunkLeaf) : Option String :=
  let fromChar := if leaf.nodeId = plan.startNodeId then asUsize plan.startCharOffset else 0
  let toChar := if leaf.nodeId = plan.endNodeId then asUsize plan.endCharOffset
    else leaf.text.length
  if toChar < fromChar then none
  else some (String.ofList ((leaf.text.toList.drop fromChar).take (toChar - fromChar)))

/-- `text_at`: the covered part of every non-empty leaf from the start node to the end node, joined
the way the group was. -/
def textAt (leaves : List ChunkLeaf) (plan : ChunkPlan) : Option String := do
  let first ← leaves.findIdx? (·.nodeId = plan.startNodeId)
  let last ← leaves.findIdx? (·.nodeId = plan.endNodeId)
  if last + 1 < first then none
  else
    let parts ← ((slice leaves first (last + 1)).filter (·.text ≠ "")).mapM (coveredPart plan)
    some (groupSeparator.intercalate parts)

end Bookrack.Chunk
