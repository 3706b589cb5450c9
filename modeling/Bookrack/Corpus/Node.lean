/-
The node tree's write payload and the batch insert (`corpus/src/node.rs`).

* `NewNode` with its two constructors and the builder methods; `NewNode.validate` with its reasons.
* `validate_ok_iff`: a node passes exactly when it is `NewNode.WellFormed`.
* `insertNodes`: all nodes are validated, then written in one transaction whose foreign keys are
  checked at commit. `insertNodes_ok`: a batch that is written is appended whole, under new ids;
  `insertNodes_wellFormed`: and each of its nodes is well formed.
-/

import Bookrack.Core.NodeId
import Mathlib.Data.List.Basic
import Mathlib.Data.List.Nodup

namespace Bookrack.Corpus

/-- A node about to be written. -/
structure NewNode where
  nodeId : NodeId
  parentId : Option NodeId
  bookRootId : NodeId
  ordinal : Int
  depth : Int
  nodeType : NodeType
  title : Option String
  textContent : Option String
  charCount : Option Int
  sentenceCount : Option Int
  tocLo : Option Int
  tocHi : Option Int
  pageIndexStart : Option Int
  pageIndexEnd : Option Int
  stableAnchor : Option String
  textSha256 : Option String
  normTextSha256 : Option String
  subtreeContentSha256 : Option String
  deriving DecidableEq, Repr

/-- A row of `nodes` read back: `INSERT_NODE_SQL` and `Node::from_row` bind the same columns. -/
abbrev Node := NewNode

/-- Why a write failed. -/
inductive CorpusError
  | invalidNode (nodeId : Int) (reason : String)
  | uniqueViolation
  | foreignKeyViolation
  deriving DecidableEq, Repr

namespace NewNode

/-- `NewNode::bare`: required fields set, every optional cleared. -/
def bare (nodeId : NodeId) (parentId : Option NodeId) (bookRootId : NodeId) (ordinal depth : Int)
    (nodeType : NodeType) : NewNode where
  nodeId := nodeId
  parentId := parentId
  bookRootId := bookRootId
  ordinal := ordinal
  depth := depth
  nodeType := nodeType
  title := none
  textContent := none
  charCount := none
  sentenceCount := none
  tocLo := none
  tocHi := none
  pageIndexStart := none
  pageIndexEnd := none
  stableAnchor := none
  textSha256 := none
  normTextSha256 := none
  subtreeContentSha256 := none

/-- `NewNode::root`. -/
def root (bookRootId : NodeId) (nodeType : NodeType) : NewNode :=
  bare bookRootId none bookRootId 0 0 nodeType

/-- `NewNode::child`. -/
def child (nodeId parentId bookRootId : NodeId) (ordinal depth : Int) (nodeType : NodeType) :
    NewNode :=
  bare nodeId (some parentId) bookRootId ordinal depth nodeType

/-- `NewNode::title`. -/
def withTitle (node : NewNode) (title : String) : NewNode := { node with title := some title }

/-- `NewNode::text`. -/
def withText (node : NewNode) (text : String) : NewNode := { node with textContent := some text }

/-- `NewNode::text_stats`. -/
def withTextStats (node : NewNode) (charCount sentenceCount : Int) : NewNode :=
  { node with charCount := some charCount, sentenceCount := some sentenceCount }

/-- `NewNode::toc_span`. -/
def withTocSpan (node : NewNode) (lo hi : Int) : NewNode :=
  { node with tocLo := some lo, tocHi := some hi }

/-- `NewNode::pages`. -/
def withPages (node : NewNode) (start stop : Int) : NewNode :=
  { node with pageIndexStart := some start, pageIndexEnd := some stop }

/-- `NewNode::content_hashes`. -/
def withContentHashes (node : NewNode) (stableAnchor textSha256 normTextSha256 : String) :
    NewNode :=
  { node with
    stableAnchor := some stableAnchor
    textSha256 := some textSha256
    normTextSha256 := some normTextSha256 }

/-- `NewNode::subtree_signature`. -/
def withSubtreeSignature (node : NewNode) (signature : String) : NewNode :=
  { node with subtreeContentSha256 := some signature }

/-- The nodes a caller can build: the fields are private to the module. -/
inductive Built : NewNode → Prop
  | root (bookRootId : NodeId) (nodeType : NodeType) : Built (root bookRootId nodeType)
  | child (nodeId parentId bookRootId : NodeId) (ordinal depth : Int) (nodeType : NodeType) :
    Built (child nodeId parentId bookRootId ordinal depth nodeType)
  | withTitle {node : NewNode} (built : Built node) (title : String) : Built (node.withTitle title)
  | withText {node : NewNode} (built : Built node) (text : String) : Built (node.withText text)
  | withTextStats {node : NewNode} (built : Built node) (charCount sentenceCount : Int) :
    Built (node.withTextStats charCount sentenceCount)
  | withTocSpan {node : NewNode} (built : Built node) (lo hi : Int) : Built (node.withTocSpan lo hi)
  | withPages {node : NewNode} (built : Built node) (start stop : Int) :
    Built (node.withPages start stop)
  | withContentHashes {node : NewNode} (built : Built node)
    (stableAnchor textSha256 normTextSha256 : String) :
    Built (node.withContentHashes stableAnchor textSha256 normTextSha256)
  | withSubtreeSignature {node : NewNode} (built : Built node) (signature : String) :
    Built (node.withSubtreeSignature signature)

/-- A parentless node's own id is its book's root id. -/
theorem Built.ownRoot {node : NewNode} (built : Built node) :
    node.parentId = none → node.nodeId = node.bookRootId := by
  induction built with
  | root => exact fun _ => rfl
  | child => exact fun parentless => absurd parentless (Option.some_ne_none _)
  | withTitle _ _ ih | withText _ _ ih | withTextStats _ _ _ ih | withTocSpan _ _ _ ih
  | withPages _ _ _ ih | withContentHashes _ _ _ _ ih | withSubtreeSignature _ _ ih => exact ih

/-- Any of the three content hashes is set. -/
def hasContentHash (node : NewNode) : Bool :=
  node.stableAnchor.isSome || node.textSha256.isSome || node.normTextSha256.isSome

/-- Body text or a statistic of it is set. -/
def hasBodyText (node : NewNode) : Bool :=
  node.textContent.isSome || node.charCount.isSome || node.sentenceCount.isSome

/-- The span runs backwards. -/
def tocInverted (node : NewNode) : Bool :=
  match node.tocLo, node.tocHi with
  | some lo, some hi => lo > hi
  | _, _ => false

/-- `NewNode::validate`. -/
def validate (node : NewNode) : Except CorpusError Unit :=
  let reject (reason : String) : Except CorpusError Unit :=
    .error (.invalidNode node.nodeId.get reason)
  let organizing := node.nodeType.isOrganizing
  let proseLeaf := node.nodeType.isProseLeaf
  if node.depth < 0 ∨ node.ordinal < 0 then
    reject "depth and ordinal must be non-negative"
  else if node.nodeId.partition ≠ node.bookRootId.partition then
    reject "node id lies outside its book's partition"
  else if ∃ parent ∈ node.parentId, parent.partition ≠ node.bookRootId.partition then
    reject "parent lies outside the node's book partition"
  else if node.parentId.isNone ≠ decide (node.depth = 0) then
    reject "only the depth-0 root may be parentless"
  else if node.title.isSome ∧ ¬organizing then
    reject "title is reserved for organizing nodes"
  else if node.subtreeContentSha256.isSome ∧ ¬organizing then
    reject "subtree content signature is reserved for organizing nodes"
  else if organizing ∧ node.hasBodyText then
    reject "organizing nodes carry no body text"
  else if node.hasContentHash ∧ ¬proseLeaf then
    reject "content hashes are reserved for prose leaves"
  else if node.tocInverted then
    reject "toc span is inverted"
  else .ok ()

/-- What the write boundary asks of a node. -/
structure WellFormed (node : NewNode) : Prop where
  nonnegative : 0 ≤ node.depth ∧ 0 ≤ node.ordinal
  ownPartition : node.nodeId.partition = node.bookRootId.partition
  parentPartition : ∀ parent ∈ node.parentId, parent.partition = node.bookRootId.partition
  parentless : node.parentId = none ↔ node.depth = 0
  titled : node.title.isSome → node.nodeType.isOrganizing
  signed : node.subtreeContentSha256.isSome → node.nodeType.isOrganizing
  bodiless : node.nodeType.isOrganizing → node.hasBodyText = false
  hashed : node.hasContentHash → node.nodeType.isProseLeaf
  upright : node.tocInverted = false

/-- **A node passes exactly when it is well formed.** -/
theorem validate_ok_iff (node : NewNode) : node.validate = .ok () ↔ node.WellFormed := by
  constructor
  · intro passes
    dsimp only [validate] at passes
    split_ifs at passes with negative own parent parentless titled signed bodiless hashed inverted
    refine ⟨by omega, not_not.mp own, ?_, ?_, ?_, ?_, ?_, ?_, ?_⟩
    · intro up isUp
      by_contra outside
      exact parent ⟨up, isUp, outside⟩
    · rw [not_not] at parentless
      rw [← Option.isNone_iff_eq_none, parentless, decide_eq_true_iff]
    · intro isTitled
      by_contra other
      exact titled ⟨isTitled, other⟩
    · intro isSigned
      by_contra other
      exact signed ⟨isSigned, other⟩
    · intro isOrganizing
      by_contra other
      exact bodiless ⟨isOrganizing, by simpa using other⟩
    · intro isHashed
      by_contra other
      exact hashed ⟨isHashed, other⟩
    · simpa using inverted
  · intro ok
    dsimp only [validate]
    rw [if_neg (by have := ok.nonnegative; omega), if_neg (not_not.mpr ok.ownPartition),
      if_neg (fun ⟨up, isUp, outside⟩ => outside (ok.parentPartition up isUp)), if_neg,
      if_neg (fun ⟨isTitled, other⟩ => other (ok.titled isTitled)),
      if_neg (fun ⟨isSigned, other⟩ => other (ok.signed isSigned)),
      if_neg (fun ⟨isOrganizing, other⟩ => by simp [ok.bodiless isOrganizing] at other),
      if_neg (fun ⟨isHashed, other⟩ => other (ok.hashed isHashed)), if_neg (by simp [ok.upright])]
    rw [not_not, Bool.eq_iff_iff, decide_eq_true_iff, Option.isNone_iff_eq_none]
    exact ok.parentless

end NewNode

/-! ### The batch insert -/

/-- Validate the nodes in order; the first refusal is returned. -/
def validateAll : List NewNode → Except CorpusError Unit
  | [] => .ok ()
  | node :: rest =>
    match node.validate with
    | .error refused => .error refused
    | .ok () => validateAll rest

/-- `insert_one` over the batch: `node_id` is the primary key. -/
def insertAll (table : List Node) : List NewNode → Except CorpusError (List Node)
  | [] => .ok table
  | node :: rest =>
    if ∃ row ∈ table, row.nodeId = node.nodeId then .error .uniqueViolation
    else insertAll (table ++ [node]) rest

/-- `Corpus::insert_nodes`: a failed batch leaves the table (the transaction rolls back). -/
def insertNodes (table : List Node) (nodes : List NewNode) : Except CorpusError (List Node) :=
  match validateAll nodes with
  | .error refused => .error refused
  | .ok () =>
    match insertAll table nodes with
    | .error refused => .error refused
    | .ok written =>
      if ∃ node ∈ nodes, ∃ parent ∈ node.parentId, ∀ row ∈ written, row.nodeId ≠ parent then
        .error .foreignKeyViolation
      else .ok written

theorem insertAll_ok {nodes : List NewNode} : ∀ {table written : List Node},
    insertAll table nodes = .ok written → written = table ++ nodes ∧
      (nodes.map (·.nodeId)).Nodup ∧ ∀ node ∈ nodes, ∀ row ∈ table, row.nodeId ≠ node.nodeId := by
  induction nodes with
  | nil =>
    intro table written inserts
    obtain rfl := Except.ok.inj inserts
    exact ⟨(List.append_nil _).symm, .nil, fun _ member => absurd member List.not_mem_nil⟩
  | cons node rest ih =>
    intro table written inserts
    rw [insertAll] at inserts
    split_ifs at inserts with taken
    obtain ⟨isAll, distinct, isNew⟩ := ih inserts
    refine ⟨by rw [isAll, List.append_assoc, List.singleton_append], ?_, ?_⟩
    · rw [List.map_cons, List.nodup_cons]
      refine ⟨fun member => ?_, distinct⟩
      obtain ⟨other, isOther, same⟩ := List.mem_map.mp member
      exact isNew other isOther node (List.mem_append_right _ (List.mem_singleton_self node)) same.symm
    · intro other member row isRow same
      rcases List.mem_cons.mp member with rfl | later
      · exact taken ⟨row, isRow, same⟩
      · exact isNew other later row (List.mem_append_left _ isRow) same

/-- **A batch that is written is appended whole, under new ids.** -/
theorem insertNodes_ok {table written : List Node} {nodes : List NewNode}
    (inserts : insertNodes table nodes = .ok written) : written = table ++ nodes ∧
      (nodes.map (·.nodeId)).Nodup ∧ ∀ node ∈ nodes, ∀ row ∈ table, row.nodeId ≠ node.nodeId := by
  unfold insertNodes at inserts
  split at inserts
  · cases inserts
  · split at inserts
    · cases inserts
    · rename_i isWritten
      split_ifs at inserts
      obtain rfl := Except.ok.inj inserts
      exact insertAll_ok isWritten

theorem validateAll_ok {nodes : List NewNode} (passes : validateAll nodes = .ok ()) :
    ∀ node ∈ nodes, node.WellFormed := by
  induction nodes with
  | nil => exact fun _ member => absurd member List.not_mem_nil
  | cons node rest ih =>
    rw [validateAll] at passes
    split at passes
    · cases passes
    · rename_i isValid
      exact List.forall_mem_cons.mpr ⟨node.validate_ok_iff.mp isValid, ih passes⟩

theorem validateAll_of_wellFormed {nodes : List NewNode} (wellFormed : ∀ node ∈ nodes, node.WellFormed) :
    validateAll nodes = .ok () := by
  induction nodes with
  | nil => rfl
  | cons node rest ih =>
    rw [validateAll, node.validate_ok_iff.mpr (wellFormed node List.mem_cons_self)]
    exact ih fun other member => wellFormed other (List.mem_cons_of_mem _ member)

theorem insertNodes_wellFormed {table written : List Node} {nodes : List NewNode}
    (inserts : insertNodes table nodes = .ok written) : ∀ node ∈ nodes, node.WellFormed := by
  unfold insertNodes at inserts
  split at inserts
  · cases inserts
  · rename_i valid
    exact validateAll_ok valid

end Bookrack.Corpus
