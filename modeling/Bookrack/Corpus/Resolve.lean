/-
Logical addresses against the node tree (`corpus/src/resolve.rs`).

* `CorpusDb.addressOf` and `CorpusDb.resolve`. `resolve_carrier`: a `work:` or `node:` address
  resolves only to a stored node of that book's partition that carries the signature.
* `addressesStay_iff`: **addresses lead back to their nodes exactly when every stored root is the
  root of an allocated partition**; an insert may store another one (`strayRoot_astray`).
* **`addresses_stay_along`**: along every history, in every state, exactly when every insert stores
  roots of partitions that are allocated at that moment.
-/

import Bookrack.Core.Scope
import Bookrack.Corpus.Partition

namespace Bookrack.Corpus

open Run

/-! ### Lookups -/

/-- `ResolveError`. -/
inductive ResolveError
  | unknownIntake (intakeId : Int)
  | workNotFound (intakeId : Int) (signature : String)
  | nodeContentGone (intakeId : Int) (hash : String)
  | ambiguous (intakeId : Int) (scope : String) (hits : Nat)
  | unaddressable (nodeId : Int)
  deriving DecidableEq, Repr

/-- `pick_in_partition`. -/
def pickInPartition (partition : PartitionIdx) (hits : List Node) (scope : Scope) (intakeId : Int) :
    Except ResolveError (Option NodeId) :=
  match hits.filter fun node => partition.contains node.nodeId with
  | [] => .ok none
  | [only] => .ok (some only.nodeId)
  | _ :: _ :: _ => .error (.ambiguous intakeId scope.display 2)

namespace CorpusDb

/-- `Corpus::get_node`. -/
def getNode (corpus : CorpusDb) (nodeId : NodeId) : Option Node :=
  corpus.nodes.find? fun row => decide (row.nodeId = nodeId)

/-- `Corpus::find_by_norm_text_sha256`. -/
def findByNormTextSha256 (corpus : CorpusDb) (hash : String) : List Node :=
  corpus.nodes.filter fun row => decide (row.normTextSha256 = some hash)

/-- `Corpus::find_by_subtree_content_sha256`. -/
def findBySubtreeContentSha256 (corpus : CorpusDb) (signature : String) : List Node :=
  corpus.nodes.filter fun row => decide (row.subtreeContentSha256 = some signature)

/-- `Corpus::resolve`. -/
def resolve (corpus : CorpusDb) (intakeId : Int) (scope : Scope) : Except ResolveError NodeId :=
  let partition : PartitionIdx := ⟨intakeId⟩
  match scope with
  | .book =>
    if (corpus.partitionForIntake intakeId).isNone then .error (.unknownIntake intakeId)
    else .ok partition.root
  | .work signature =>
    match pickInPartition partition (corpus.findBySubtreeContentSha256 signature) scope intakeId with
    | .error failed => .error failed
    | .ok none => .error (.workNotFound intakeId signature)
    | .ok (some nodeId) => .ok nodeId
  | .node hash =>
    match pickInPartition partition (corpus.findByNormTextSha256 hash) scope intakeId with
    | .error failed => .error failed
    | .ok none => .error (.nodeContentGone intakeId hash)
    | .ok (some nodeId) => .ok nodeId

/-- `Corpus::address_of`. -/
def addressOf (corpus : CorpusDb) (nodeId : NodeId) : Except ResolveError (Int × Scope) :=
  let intakeId := nodeId.partition.get
  match corpus.getNode nodeId with
  | none => .error (.unaddressable nodeId.get)
  | some node =>
    if node.depth = 0 then .ok (intakeId, .book)
    else if node.nodeType.isOrganizing then
      match node.subtreeContentSha256 with
      | none => .error (.unaddressable nodeId.get)
      | some signature => .ok (intakeId, .work signature)
    else if node.nodeType.isProseLeaf then
      match node.normTextSha256 with
      | none => .error (.unaddressable nodeId.get)
      | some hash => .ok (intakeId, .node hash)
    else .error (.unaddressable nodeId.get)

end CorpusDb

/-! ### A found node carries the signature -/

variable {partition : PartitionIdx} {hits : List Node} {scope : Scope} {intakeId : Int}
  {corpus : CorpusDb} {nodeId : NodeId}

/-- The only hit in the partition. -/
theorem pickInPartition_some
    (isPicked : pickInPartition partition hits scope intakeId = .ok (some nodeId)) :
    ∃ node ∈ hits, node.nodeId = nodeId ∧ nodeId.partition = partition := by
  unfold pickInPartition at isPicked
  split at isPicked
  · cases isPicked
  · rename_i only isOnly
    obtain ⟨isHit, isMine⟩ := List.mem_filter.mp (isOnly ▸ List.mem_singleton_self only)
    obtain rfl := Option.some.inj (Except.ok.inj isPicked)
    exact ⟨only, isHit, rfl, PartitionIdx.contains_iff.mp isMine⟩
  · cases isPicked

/-- A hit of the partition is picked, or there are several. -/
theorem pickInPartition_of_mem {node : Node} (isHit : node ∈ hits)
    (isMine : node.nodeId.partition = partition) (scope : Scope) (intakeId : Int) :
    pickInPartition partition hits scope intakeId = .ok (some node.nodeId) ∨
      pickInPartition partition hits scope intakeId =
        .error (.ambiguous intakeId scope.display 2) := by
  have isIn : node ∈ hits.filter fun row => partition.contains row.nodeId :=
    List.mem_filter.mpr ⟨isHit, PartitionIdx.contains_iff.mpr isMine⟩
  unfold pickInPartition
  split
  · rename_i isEmpty
    rw [isEmpty] at isIn
    cases isIn
  · rename_i only isOnly
    rw [isOnly] at isIn
    exact .inl (by rw [List.mem_singleton.mp isIn])
  · exact .inr rfl

/-- The node carries what a `work:` or `node:` scope names. -/
def Scope.CarriedBy (node : Node) : Scope → Prop
  | .book => node.depth = 0
  | .work signature => node.subtreeContentSha256 = some signature
  | .node hash => node.normTextSha256 = some hash

/-- **A signature resolves only to a stored node of the book that carries it.** -/
theorem resolve_carrier (isSignature : scope ≠ .book)
    (resolves : corpus.resolve intakeId scope = .ok nodeId) :
    ∃ node ∈ corpus.nodes, node.nodeId = nodeId ∧ nodeId.partition.get = intakeId ∧
      Scope.CarriedBy node scope := by
  cases scope with
  | book => exact absurd rfl isSignature
  | work signature =>
    dsimp only [CorpusDb.resolve] at resolves
    split at resolves
    · cases resolves
    · cases resolves
    · rename_i found isFound
      obtain rfl := Except.ok.inj resolves
      obtain ⟨node, isHit, isId, isMine⟩ := pickInPartition_some isFound
      obtain ⟨isNode, carries⟩ := List.mem_filter.mp isHit
      exact ⟨node, isNode, isId, by rw [isMine], by simpa [Scope.CarriedBy] using carries⟩
  | node hash =>
    dsimp only [CorpusDb.resolve] at resolves
    split at resolves
    · cases resolves
    · cases resolves
    · rename_i found isFound
      obtain rfl := Except.ok.inj resolves
      obtain ⟨node, isHit, isId, isMine⟩ := pickInPartition_some isFound
      obtain ⟨isNode, carries⟩ := List.mem_filter.mp isHit
      exact ⟨node, isNode, isId, by rw [isMine], by simpa [Scope.CarriedBy] using carries⟩

/-! ### Addresses lead back -/

/-- An address the corpus gives out for a stored node resolves to that node, or to several. -/
def AddressesStay (corpus : CorpusDb) : Prop :=
  ∀ node ∈ corpus.nodes, ∀ intakeId scope, corpus.addressOf node.nodeId = .ok (intakeId, scope) →
    corpus.resolve intakeId scope = .ok node.nodeId ∨
      ∃ text hits, corpus.resolve intakeId scope = .error (.ambiguous intakeId text hits)

/-- A signature resolves to a stored node of the book that carries it. -/
def SignaturesHold (corpus : CorpusDb) : Prop :=
  ∀ intakeId scope nodeId, scope ≠ .book → corpus.resolve intakeId scope = .ok nodeId →
    ∃ node ∈ corpus.nodes, node.nodeId = nodeId ∧ nodeId.partition.get = intakeId ∧
      Scope.CarriedBy node scope

/-- Every stored root is the root of an allocated partition. -/
def RootsAllocated (corpus : CorpusDb) : Prop :=
  ∀ node ∈ corpus.nodes, node.depth = 0 → ∃ row ∈ corpus.partitions, row.bookRootId = node.nodeId

/-- `node_id` is the primary key, and a stored root carries its own id as its book's. -/
structure Filed (corpus : CorpusDb) : Prop where
  unique : (corpus.nodes.map (·.nodeId)).Nodup
  ownRoot : ∀ node ∈ corpus.nodes, node.depth = 0 → node.nodeId = node.bookRootId

theorem getNode_of_mem (filed : Filed corpus) {node : Node} (isNode : node ∈ corpus.nodes) :
    corpus.getNode node.nodeId = some node := by
  unfold CorpusDb.getNode
  rcases isFound : corpus.nodes.find? fun row => decide (row.nodeId = node.nodeId) with _ | found
  · have missing := List.find?_eq_none.mp isFound node isNode
    simp at missing
  · rw [isFound, List.inj_on_of_nodup_map filed.unique (List.mem_of_find?_eq_some isFound) isNode
      (by simpa using List.find?_some isFound)]

theorem partitionForIntake_isNone_iff :
    (corpus.partitionForIntake intakeId).isNone = true ↔
      ∀ row ∈ corpus.partitions, row.intakeId ≠ intakeId := by
  simp [CorpusDb.partitionForIntake, List.find?_eq_none]

/-- **Addresses lead back exactly when every stored root is the root of an allocated partition.** -/
theorem addressesStay_iff (filed : Filed corpus) (keyed : ∀ row ∈ corpus.partitions, row.Keyed) :
    AddressesStay corpus ↔ RootsAllocated corpus := by
  constructor
  · intro stay node isNode isRoot
    have address : corpus.addressOf node.nodeId = .ok (node.nodeId.partition.get, .book) := by
      dsimp only [CorpusDb.addressOf]
      rw [getNode_of_mem filed isNode]
      exact if_pos isRoot
    rcases stay node isNode _ _ address with leads | ⟨text, hits, isSeveral⟩
    · dsimp only [CorpusDb.resolve] at leads
      split_ifs at leads with missing
      rw [partitionForIntake_isNone_iff] at missing
      push Not at missing
      obtain ⟨row, isRow, owns⟩ := missing
      have isIdx : row.idx = ⟨node.nodeId.partition.get⟩ := by
        rw [← owns, (keyed row isRow).byIntake]
      refine ⟨row, isRow, ?_⟩
      rw [(keyed row isRow).rooted, isIdx]
      exact Except.ok.inj leads
    · dsimp only [CorpusDb.resolve] at isSeveral
      split_ifs at isSeveral
      cases isSeveral
  · intro roots node isNode intakeId scope address
    dsimp only [CorpusDb.addressOf] at address
    rw [getNode_of_mem filed isNode] at address
    dsimp only at address
    split_ifs at address with isRoot organizing prose
    · obtain ⟨rfl, rfl⟩ := Prod.mk.inj (Except.ok.inj address)
      obtain ⟨row, isRow, isOwn⟩ := roots node isNode isRoot
      obtain ⟨byIntake, rooted, fits, -, -⟩ := keyed row isRow
      have isOf : node.nodeId.partition = row.idx := by
        rw [← isOwn, rooted, PartitionIdx.root_partition fits]
      refine .inl ?_
      dsimp only [CorpusDb.resolve]
      rw [if_neg]
      · rw [isOf, ← isOwn, rooted]
      · rw [partitionForIntake_isNone_iff]
        exact fun none => none row isRow (by rw [byIntake, isOf])
    · split at address
      · cases address
      · rename_i signature carries
        obtain ⟨rfl, rfl⟩ := Prod.mk.inj (Except.ok.inj address)
        have isHit : node ∈ corpus.findBySubtreeContentSha256 signature :=
          List.mem_filter.mpr ⟨isNode, decide_eq_true carries⟩
        rcases pickInPartition_of_mem isHit rfl (.work signature) node.nodeId.partition.get with
          isPicked | isSeveral
        · exact .inl (by dsimp only [CorpusDb.resolve]; rw [isPicked])
        · exact .inr ⟨_, _, by dsimp only [CorpusDb.resolve]; rw [isSeveral]⟩
    · split at address
      · cases address
      · rename_i hash carries
        obtain ⟨rfl, rfl⟩ := Prod.mk.inj (Except.ok.inj address)
        have isHit : node ∈ corpus.findByNormTextSha256 hash :=
          List.mem_filter.mpr ⟨isNode, decide_eq_true carries⟩
        rcases pickInPartition_of_mem isHit rfl (.node hash) node.nodeId.partition.get with
          isPicked | isSeveral
        · exact .inl (by dsimp only [CorpusDb.resolve]; rw [isPicked])
        · exact .inr ⟨_, _, by dsimp only [CorpusDb.resolve]; rw [isSeveral]⟩

/-! ### Histories -/

/-- The nodes of a call are built with the constructors. -/
def Op.NodesBuilt : Op → Prop
  | .insertNodes nodes => ∀ node ∈ nodes, node.Built
  | _ => True

/-- An insert that is written stores roots of partitions allocated at that moment. -/
def StoresAllocatedRoots (before : History) (op : Op) (_ : History) : Prop :=
  match op with
  | .insertNodes nodes => (before.corpus.insertNodes nodes).1 = .ok () →
    ∀ node ∈ nodes, node.parentId = none →
      ∃ row ∈ before.corpus.partitions, row.bookRootId = node.nodeId
  | _ => True

/-- An insert is refused and leaves the corpus, or it appends its nodes. -/
theorem insertNodes_cases (corpus : CorpusDb) (nodes : List NewNode) :
    (∃ refused, corpus.insertNodes nodes = (.error refused, corpus)) ∨
      corpus.insertNodes nodes = (.ok (), { corpus with nodes := corpus.nodes ++ nodes }) ∧
        (nodes.map (·.nodeId)).Nodup ∧ (∀ node ∈ nodes, node.WellFormed) ∧
        ∀ node ∈ nodes, ∀ row ∈ corpus.nodes, row.nodeId ≠ node.nodeId := by
  unfold CorpusDb.insertNodes
  split
  · exact .inl ⟨_, rfl⟩
  · rename_i written isWritten
    obtain ⟨rfl, distinct, isNew⟩ := insertNodes_ok isWritten
    exact .inr ⟨rfl, distinct, insertNodes_wellFormed isWritten, isNew⟩

theorem Filed.insertNodes (filed : Filed corpus) {nodes : List NewNode}
    (built : ∀ node ∈ nodes, node.Built) : Filed (corpus.insertNodes nodes).2 := by
  rcases insertNodes_cases corpus nodes with ⟨refused, isRefused⟩ | ⟨isDone, distinct, valid, isNew⟩
  · rw [isRefused]
    exact filed
  · rw [isDone]
    refine ⟨?_, ?_⟩
    · rw [List.map_append, List.nodup_append]
      refine ⟨filed.unique, distinct, ?_⟩
      rintro id isIn other isOther rfl
      obtain ⟨row, isRow, rfl⟩ := List.mem_map.mp isIn
      obtain ⟨node, isNode, same⟩ := List.mem_map.mp isOther
      exact isNew node isNode row isRow same.symm
    · intro node isNode isRoot
      rcases List.mem_append.mp isNode with before | later
      · exact filed.ownRoot node before isRoot
      · exact (built node later).ownRoot ((valid node later).parentless.mpr isRoot)

/-- Nodes only leave. -/
theorem Filed.sublist (filed : Filed corpus) {corpus' : CorpusDb}
    (fewer : corpus'.nodes.Sublist corpus.nodes) : Filed corpus' :=
  ⟨filed.unique.sublist (fewer.map _), fun node isNode => filed.ownRoot node (fewer.subset isNode)⟩

theorem allocateNodeIds_nodes (corpus : CorpusDb) (partition : PartitionIdx) (count : UInt32) :
    (corpus.allocateNodeIds partition count).2.nodes = corpus.nodes := by
  unfold CorpusDb.allocateNodeIds
  split_ifs
  · rfl
  · split
    · rfl
    · dsimp only
      split_ifs
      · rfl
      · split <;> rfl

theorem Filed.step {before : History} (filed : Filed before.corpus) {op : Op}
    (built : op.NodesBuilt) : Filed (before.after op).corpus := by
  cases op with
  | allocatePartition intakeId now =>
    refine filed.sublist ?_
    dsimp only [History.after]
    split
    · rename_i isDone
      rw [(CorpusDb.allocatePartition_ok isDone).2.2]
    · rename_i isRefused
      rw [CorpusDb.allocatePartition_refused isRefused]
  | allocateNodeIds partition count =>
    refine filed.sublist ?_
    have kept := allocateNodeIds_nodes before.corpus partition count
    dsimp only [History.after]
    split
    · rename_i isDone
      rw [isDone] at kept
      exact kept ▸ List.Sublist.refl _
    · rename_i isRefused
      rw [isRefused] at kept
      exact kept ▸ List.Sublist.refl _
  | insertNodes nodes => exact filed.insertNodes built
  | dropPartition partition => exact filed.sublist List.filter_sublist

/-- **The step lemma.** Where every stored root was allocated, it still is after a call exactly when
the call stores allocated roots. -/
theorem rootsAllocated_step_iff {before : History} (sound : before.Sound)
    (filed : Filed before.corpus) (roots : RootsAllocated before.corpus) {op : Op}
    (built : op.NodesBuilt) : RootsAllocated (before.after op).corpus ↔
      StoresAllocatedRoots before op (before.after op) := by
  cases op with
  | allocatePartition intakeId now =>
    refine iff_of_true ?_ trivial
    dsimp only [History.after]
    split
    · rename_i isDone
      rw [(CorpusDb.allocatePartition_ok isDone).2.2]
      intro node isNode isRoot
      obtain ⟨row, isRow, isOwn⟩ := roots node isNode isRoot
      exact ⟨row, List.mem_append_left _ isRow, isOwn⟩
    · rename_i isRefused
      rw [CorpusDb.allocatePartition_refused isRefused]
      exact roots
  | allocateNodeIds partition count =>
    refine iff_of_true ?_ trivial
    dsimp only [History.after]
    rcases CorpusDb.allocateNodeIds_cases sound.keyed partition count with
      ⟨refused, isRefused⟩ | ⟨-, isEmpty⟩ | ⟨row, -, -, -, isDone⟩
    · rw [isRefused]
      exact roots
    · rw [isEmpty]
      exact roots
    · rw [isDone]
      intro node isNode isRoot
      obtain ⟨other, isOther, isOwn⟩ := roots node isNode isRoot
      refine ⟨_, List.mem_map_of_mem isOther, ?_⟩
      split_ifs <;> exact isOwn
  | insertNodes nodes =>
    dsimp only [History.after, StoresAllocatedRoots]
    rcases insertNodes_cases before.corpus nodes with ⟨refused, isRefused⟩ | ⟨isDone, -, valid, -⟩
    · rw [isRefused]
      exact iff_of_true roots fun done => by cases done
    · rw [isDone]
      constructor
      · intro stand _ node isNode parentless
        exact stand node (List.mem_append_right _ isNode)
          ((valid node isNode).parentless.mp parentless)
      · intro stores node isNode isRoot
        rcases List.mem_append.mp isNode with isBefore | isNew
        · exact roots node isBefore isRoot
        · exact stores rfl node isNew ((valid node isNew).parentless.mpr isRoot)
  | dropPartition partition =>
    refine iff_of_true ?_ trivial
    intro node isLeft isRoot
    have isNode := (Cascade.mem_remove.mp isLeft).1
    obtain ⟨row, isRow, isOwn⟩ := roots node isNode isRoot
    refine ⟨row, List.mem_filter.mpr ⟨isRow, decide_eq_true fun isDropped => ?_⟩, isOwn⟩
    -- a node of the dropped book carries its root id and was removed
    have spared := Cascade.not_chosen_of_mem_remove (show node ∈ Cascade.remove _ _ _ _ from isLeft)
    rw [decide_eq_false_iff_not, ← filed.ownRoot node isNode isRoot, ← isOwn, (sound.keyed row isRow).rooted,
      isDropped] at spared
    exact spared rfl

/-- **Curation addresses never point elsewhere exactly when every insert stores allocated roots.**
Along every history of calls, in every state: an address the corpus gives out for a stored node
resolves to that node or to several, and a signature resolves to a stored node of that book that
carries it. -/
theorem addresses_stay_along {trace : List (Op × History)} (run : Along Step History.start trace)
    (built : ∀ entry ∈ trace, entry.1.NodesBuilt) :
    Along StoresAllocatedRoots History.start trace ↔
      ∀ entry ∈ trace, AddressesStay entry.2.corpus ∧ SignaturesHold entry.2.corpus := by
  have general : ∀ {before : History}, before.Sound → Filed before.corpus →
      RootsAllocated before.corpus → Along Step before trace →
      (Along StoresAllocatedRoots before trace ↔
        ∀ entry ∈ trace, AddressesStay entry.2.corpus ∧ SignaturesHold entry.2.corpus) := by
    clear run
    induction trace with
    | nil => exact fun _ _ _ _ => iff_of_true trivial fun _ member => absurd member List.not_mem_nil
    | cons entry rest ih =>
      intro before sound filed roots run
      obtain ⟨op, next⟩ := entry
      obtain ⟨⟨fits, rfl⟩, later⟩ := run
      obtain ⟨isBuilt, builtLater⟩ := List.forall_mem_cons.mp built
      have sound' := sound.step fits
      have filed' := filed.step isBuilt
      rw [along_cons, List.forall_mem_cons, addressesStay_iff filed' sound'.keyed,
        ← rootsAllocated_step_iff sound filed roots isBuilt]
      constructor
      · rintro ⟨roots', stores⟩
        exact ⟨⟨roots', fun _ _ _ => resolve_carrier⟩,
          (ih builtLater sound' filed' roots' later).mp stores⟩
      · rintro ⟨⟨roots', -⟩, holds⟩
        exact ⟨roots', (ih builtLater sound' filed' roots' later).mpr holds⟩
  refine general History.start_sound ⟨.nil, ?_⟩ ?_ run
  · exact fun _ member => absurd member List.not_mem_nil
  · exact fun _ member => absurd member List.not_mem_nil

/-- One book on allocated ids: a chapter with a signature and three paragraphs with content hashes, the
last two of the same text. -/
def oneBook : List Op :=
  let root : NodeId := ⟨300000001⟩
  [.allocatePartition 3 "2026-01-01T00:00:00Z", .allocateNodeIds ⟨3⟩ 4,
    .insertNodes [.root root .work,
      (NewNode.child ⟨300000002⟩ root root 0 1 .chapter).withSubtreeSignature "chapter",
      (NewNode.child ⟨300000003⟩ ⟨300000002⟩ root 0 2 .paragraph).withContentHashes "a" "t1" "n1",
      (NewNode.child ⟨300000004⟩ ⟨300000002⟩ root 1 2 .paragraph).withContentHashes "b" "t2" "n2",
      (NewNode.child ⟨300000005⟩ ⟨300000002⟩ root 2 2 .paragraph).withContentHashes "c" "t2" "n2"]]

/-- Its addresses stay; the first paragraph's resolves to it, the other two share one that does not. -/
theorem addresses_stay_along_oneBook :
    let corpus := (finish History.start (History.start.trace oneBook)).corpus
    (AddressesStay corpus ∧ SignaturesHold corpus) ∧
      corpus.addressOf ⟨300000003⟩ = .ok (3, .node "n1") ∧
      corpus.resolve 3 (.node "n1") = .ok ⟨300000003⟩ ∧
      corpus.resolve 3 (.work "chapter") = .ok ⟨300000002⟩ ∧
      ∃ text hits, corpus.resolve 3 (.node "n2") = .error (.ambiguous 3 text hits) := by
  have fits : ∀ op ∈ oneBook, op.Fits := by decide
  have built : ∀ entry ∈ History.start.trace oneBook, entry.1.NodesBuilt := by
    refine List.forall_mem_cons.mpr ⟨trivial, List.forall_mem_cons.mpr ⟨trivial,
      List.forall_mem_singleton.mpr (List.forall_mem_cons.mpr ⟨.root _ _, ?_⟩)⟩⟩
    refine List.forall_mem_cons.mpr ⟨.withSubtreeSignature (.child _ _ _ _ _ _) _, ?_⟩
    refine List.forall_mem_cons.mpr ⟨.withContentHashes (.child _ _ _ _ _ _) _ _ _, ?_⟩
    refine List.forall_mem_cons.mpr ⟨.withContentHashes (.child _ _ _ _ _ _) _ _ _, ?_⟩
    exact List.forall_mem_singleton.mpr (.withContentHashes (.child _ _ _ _ _ _) _ _ _)
  have stores : Along StoresAllocatedRoots History.start (History.start.trace oneBook) := by
    refine ⟨trivial, trivial, fun _ => ?_, trivial⟩
    refine List.forall_mem_cons.mpr ⟨fun _ => by decide, ?_⟩
    refine List.forall_mem_cons.mpr ⟨fun parentless => absurd parentless (Option.some_ne_none _), ?_⟩
    refine List.forall_mem_cons.mpr ⟨fun parentless => absurd parentless (Option.some_ne_none _), ?_⟩
    refine List.forall_mem_cons.mpr ⟨fun parentless => absurd parentless (Option.some_ne_none _), ?_⟩
    exact List.forall_mem_singleton.mpr fun parentless => absurd parentless (Option.some_ne_none _)
  refine ⟨?_, rfl, rfl, rfl, _, _, rfl⟩
  exact (addresses_stay_along (History.start.trace_along fits) built).mp stores _
    (List.mem_of_getLast? rfl)

/-- A root at another offset of an allocated partition passes `validate`. -/
def strayRoot : List Op :=
  [.allocatePartition 3 "2026-01-01T00:00:00Z", .insertNodes [.root ⟨300000005⟩ .work]]

/-- **The book address of the stray root resolves to an id that is not stored.** -/
theorem strayRoot_astray :
    ¬ ∀ trace, Along Step History.start trace → (∀ entry ∈ trace, entry.1.NodesBuilt) →
      ∀ entry ∈ trace, AddressesStay entry.2.corpus ∧ SignaturesHold entry.2.corpus := by
  intro always
  have fits : ∀ op ∈ strayRoot, op.Fits := by decide
  have built : ∀ entry ∈ History.start.trace strayRoot, entry.1.NodesBuilt :=
    List.forall_mem_cons.mpr ⟨trivial,
      List.forall_mem_singleton.mpr (List.forall_mem_singleton.mpr (.root _ _))⟩
  obtain ⟨stay, -⟩ := always _ (History.start.trace_along fits) built _ (List.mem_of_getLast? rfl)
  rcases stay (.root ⟨300000005⟩ .work) (List.mem_singleton_self _) 3 .book rfl with
    leads | ⟨text, hits, isSeveral⟩
  · exact absurd (Except.ok.inj leads) (by decide)
  · cases isSeveral

end Bookrack.Corpus
