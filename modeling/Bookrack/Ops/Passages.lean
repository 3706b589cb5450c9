/-
Reading an organizing node's text page by page: `read_span` (`ops/src/reads/passages.rs`) over
`Corpus::leaves_in_doc_span` (`corpus/src/node.rs`).

* `spanLeaves_after` — the leaves behind a cursor are what the query with that start returns.
* `readSpan_turn` — one response is a first part of them, ended by the character budget or the row
  cap, and its cursor says whether any is left.
* **`read_span_pages`** — following the cursors reads every leaf of the span once.
-/

import Bookrack.Base.Paging
import Bookrack.Corpus.Toc
import Bookrack.Queue.Job

namespace Bookrack.Ops

open Corpus
open Queue (ItemKind)

/-! ### The query -/

/-- Where a row stands in its book's document order. -/
def positionOf (node : Node) : Int := node.tocLo.getD 0

/-- `ORDER BY toc_lo`, on rows that have one. -/
def PositionLe (one other : Node) : Prop := positionOf one ≤ positionOf other

instance : DecidableRel PositionLe := fun _ _ => inferInstanceAs (Decidable (_ ≤ _))

instance : Std.Total PositionLe := ⟨fun _ _ => Int.le_total _ _⟩

instance : IsTrans Node PositionLe := ⟨fun _ _ _ => Int.le_trans⟩

/-- A leaf of the book with a position from `lo` to `hi`. -/
def InDocSpan (bookRootId : NodeId) (lo hi : Int) (node : Node) : Prop :=
  node.bookRootId = bookRootId ∧ organizingNodeTypes.contains node.nodeType = false ∧
    ∃ p ∈ node.tocLo, lo ≤ p ∧ p ≤ hi

instance (bookRootId : NodeId) (lo hi : Int) (node : Node) :
    Decidable (InDocSpan bookRootId lo hi node) := inferInstanceAs (Decidable (_ ∧ _))

/-- The leaves of a span in document order; leaves at one position keep the table's order. -/
def spanLeaves (corpus : List Node) (bookRootId : NodeId) (lo hi : Int) : List Node :=
  (corpus.filter fun node => InDocSpan bookRootId lo hi node).insertionSort PositionLe

/-- `Corpus::leaves_in_doc_span`. -/
def leavesInDocSpan (corpus : List Node) (bookRootId : NodeId) (lo hi : Int) (cap : Nat) :
    List Node := (spanLeaves corpus bookRootId lo hi).take (clampI64 cap)

/-! ### The read -/

/-- `MAX_READ_CHARS`. -/
def maxReadChars : Int := 30000

/-- `MAX_SPAN_LEAVES`. -/
def maxSpanLeaves : Nat := 2000

/-- `Passage`. -/
structure Passage where
  nodeId : Int
  nodeType : NodeType
  tocPosition : Int
  pageIndexStart : Option Int
  text : String
  deriving DecidableEq, Repr

/-- `Passage::from_node`. -/
def Passage.fromNode (node : Node) : Passage where
  nodeId := node.nodeId.get
  nodeType := node.nodeType
  tocPosition := positionOf node
  pageIndexStart := node.pageIndexStart
  text := node.textContent.getD ""

/-- `SpanText`. -/
structure SpanText where
  intakeId : Int
  nodeId : Int
  title : Option String
  tocLo : Option Int
  tocHi : Option Int
  passages : List Passage
  nextOffset : Option Int
  truncated : Bool
  deriving DecidableEq, Repr

/-- `OpsError`, as far as the read raises it; a reference item panics. -/
inductive OpsError
  | papersBackendNotConfigured
  | nodeNotFound (nodeId : Int)
  | notOrganizing (nodeId : Int)
  | panicked
  deriving DecidableEq, Repr

/-- `Ops`: the book corpus, and the paper corpus where one is configured. -/
structure Corpora where
  book : List Node
  papers : Option (List Node)

/-- The corpus of a kind. -/
def Corpora.corpusOf (ops : Corpora) : ItemKind → Except OpsError (List Node)
  | .book => .ok ops.book
  | .paper =>
    match ops.papers with
    | some corpus => .ok corpus
    | none => .error .papersBackendNotConfigured
  | .reference => .error .panicked

/-- `text_chars`. -/
def textChars (node : Node) : Int := node.textContent.elim 0 fun text => text.length

/-- The loop over the rows: the leaves that fit, and whether one did not. The first always fits. -/
def fillPage (first : Bool) (budget : Int) : List Node → List Node × Bool
  | [] => ([], false)
  | row :: rest =>
    if first = false ∧ budget < textChars row then ([], true)
    else
      let (taken, cut) := fillPage false (budget - textChars row) rest
      (row :: taken, cut)

/-- `i64::saturating_add(1)`. -/
def saturatingSucc (position : Int) : Int := min (position + 1) 9223372036854775807

/-- The passages the fetched rows give, and the cursor behind them when more is left. -/
def spanPage (rows : List Node) : List Passage × Option Int :=
  let filled := fillPage true maxReadChars (rows.take maxSpanLeaves)
  let more := filled.2 || decide (maxSpanLeaves < rows.length)
  let passages := filled.1.map Passage.fromNode
  (passages, if more then passages.getLast?.map Passage.tocPosition else none)

/-- The response for an organizing node. -/
def spanText (corpus : List Node) (target : NodeId) (node : Node) (startAfter : Option Int) :
    SpanText :=
  let response := fun tocLo tocHi (page : List Passage × Option Int) =>
    SpanText.mk target.partition.get target.get node.title tocLo tocHi page.1 page.2 page.2.isSome
  match node.tocLo, node.tocHi with
  | some spanLo, some spanHi =>
    let start := max ((startAfter.map saturatingSucc).getD spanLo) spanLo
    response (some spanLo) (some spanHi) (spanPage
      (leavesInDocSpan corpus target.partition.root start spanHi (maxSpanLeaves + 1)))
  | _, _ => response none none ([], none)

/-- `read_span`. -/
def readSpan (ops : Corpora) (kind : ItemKind) (target : NodeId) (startAfter : Option Int) :
    Except OpsError SpanText := do
  let corpus ← ops.corpusOf kind
  match corpus.find? fun node => node.nodeId = target with
  | none => .error (.nodeNotFound target.get)
  | some node =>
    if node.nodeType.isOrganizing then .ok (spanText corpus target node startAfter)
    else .error (.notOrganizing target.get)

/-! ### The leaves behind a cursor -/

/-- The leaves of a book have pairwise distinct positions, each an `i64`. -/
structure Positioned (corpus : List Node) (bookRootId : NodeId) : Prop where
  distinct : ((corpus.filter fun node => node.bookRootId = bookRootId ∧
    organizingNodeTypes.contains node.nodeType = false ∧ node.tocLo.isSome = true).map
      NewNode.tocLo).Nodup
  fits : ∀ node ∈ corpus, ∀ p ∈ node.tocLo, p ≤ 9223372036854775807

section Leaves

variable {corpus : List Node} {bookRootId : NodeId} {lo hi start : Int} {node : Node}

theorem InDocSpan.position (inSpan : InDocSpan bookRootId lo hi node) :
    node.tocLo = some (positionOf node) ∧ lo ≤ positionOf node ∧ positionOf node ≤ hi := by
  obtain ⟨-, -, p, isPosition, low, high⟩ := inSpan
  rw [Option.mem_def] at isPosition
  simp [positionOf, isPosition, low, high]

theorem mem_spanLeaves :
    node ∈ spanLeaves corpus bookRootId lo hi ↔ node ∈ corpus ∧ InDocSpan bookRootId lo hi node := by
  rw [spanLeaves, List.mem_insertionSort, List.mem_filter, decide_eq_true_iff]

/-- **The leaves of a span come in ascending order.** -/
theorem spanLeaves_ascending (positioned : Positioned corpus bookRootId) (lo hi : Int) :
    (spanLeaves corpus bookRootId lo hi).Pairwise fun one other => positionOf one < positionOf other := by
  have sorted : (spanLeaves corpus bookRootId lo hi).Pairwise PositionLe := List.pairwise_insertionSort _ _
  have positions : ((spanLeaves corpus bookRootId lo hi).map NewNode.tocLo).Nodup := by
    rw [spanLeaves, (List.Perm.map _ (List.perm_insertionSort _ _)).nodup_iff]
    refine positioned.distinct.sublist (List.Sublist.map _ ?_)
    refine List.monotone_filter_right _ fun node inSpan => ?_
    have isLeaf := of_decide_eq_true inSpan
    exact decide_eq_true ⟨isLeaf.1, isLeaf.2.1, by simp [isLeaf.position.1]⟩
  have apart : (spanLeaves corpus bookRootId lo hi).Pairwise fun one other => one.tocLo ≠ other.tocLo :=
    List.pairwise_map.mp positions
  have both := List.Pairwise.and_mem.mp (sorted.and apart)
  refine both.imp fun ⟨member, member', le, differ⟩ => ?_
  refine lt_of_le_of_ne le fun same => differ ?_
  rw [(mem_spanLeaves.mp member).2.position.1, (mem_spanLeaves.mp member').2.position.1, same]

/-- **The leaves behind a cursor** are the ones a query that starts there returns. -/
theorem spanLeaves_after (positioned : Positioned corpus bookRootId) {done rest : List Node}
    (isSpan : spanLeaves corpus bookRootId lo hi = done ++ rest) (low : lo ≤ start)
    (before : ∀ node ∈ done, positionOf node < start) (after : ∀ node ∈ rest, start ≤ positionOf node) :
    spanLeaves corpus bookRootId start hi = rest := by
  have ascending := spanLeaves_ascending positioned lo hi
  rw [isSpan] at ascending
  have isRest : (done ++ rest).filter (fun node => start ≤ positionOf node) = rest := by
    rw [List.filter_append, List.filter_eq_nil_iff.mpr, List.filter_eq_self.mpr, List.nil_append]
    · exact fun node member => decide_eq_true (after node member)
    · intro node member
      simpa using before node member
  have narrowed : (corpus.filter fun node => InDocSpan bookRootId start hi node) =
      (corpus.filter fun node => InDocSpan bookRootId lo hi node).filter
        fun node => start ≤ positionOf node := by
    rw [List.filter_filter]
    refine List.filter_congr fun node _ => ?_
    rw [Bool.eq_iff_iff, Bool.and_eq_true, decide_eq_true_iff, decide_eq_true_iff, decide_eq_true_iff]
    constructor
    · intro inSpan
      obtain ⟨isPosition, lower, upper⟩ := inSpan.position
      exact ⟨lower, inSpan.1, inSpan.2.1, _, isPosition, low.trans lower, upper⟩
    · intro both
      obtain ⟨isPosition, -, upper⟩ := both.2.position
      exact ⟨both.2.1, both.2.2.1, _, isPosition, both.1, upper⟩
  have perm : (spanLeaves corpus bookRootId start hi).Perm rest := by
    rw [← isRest, ← isSpan]
    refine (List.perm_insertionSort _ _).trans ?_
    rw [narrowed]
    exact (List.perm_insertionSort _ _).symm.filter _
  have sorted := ascending.sublist (List.sublist_append_right done rest)
  have distinct : (rest.map positionOf).Nodup := List.pairwise_map.mpr (sorted.imp Int.ne_of_lt)
  refine perm.eq_of_pairwise ?_ (List.pairwise_insertionSort _ _) (sorted.imp Int.le_of_lt)
  intro one other member member' le le'
  exact List.inj_on_of_nodup_map distinct (perm.subset member) member' (Int.le_antisymm le le')

end Leaves

/-! ### One response -/

/-- **What the loop takes**: a first part of the rows, all of them unless it was cut, and at least
the first row. -/
theorem fillPage_spec (first : Bool) (budget : Int) (rows : List Node) :
    ∃ left, rows = (fillPage first budget rows).1 ++ left ∧
      ((fillPage first budget rows).2 = true ↔ left ≠ []) ∧
      (first = true → rows ≠ [] → (fillPage first budget rows).1 ≠ []) := by
  induction rows generalizing first budget with
  | nil => exact ⟨[], rfl, by simp [fillPage], fun _ notEmpty => absurd rfl notEmpty⟩
  | cons row rest ih =>
    rw [fillPage]
    split
    · rename_i exceeds
      exact ⟨row :: rest, rfl, by simp, fun isFirst => by simp [exceeds.1] at isFirst⟩
    · obtain ⟨left, isRest, cut, -⟩ := ih false (budget - textChars row)
      exact ⟨left, congrArg (row :: ·) isRest, cut, fun _ _ => List.cons_ne_nil _ _⟩

/-- The page of the leaves behind a start. -/
def pageOf (rest : List Node) : List Passage × Option Int :=
  spanPage (rest.take (clampI64 (maxSpanLeaves + 1)))

/-- **A page is a first part of the leaves left**, and its cursor says whether any is left. -/
theorem pageOf_turn (rest : List Node) :
    Paging.Turn Prod.fst Prod.snd Passage.tocPosition (rest.map Passage.fromNode) (pageOf rest) := by
  have cap : clampI64 (maxSpanLeaves + 1) = maxSpanLeaves + 1 := by decide
  have rows : (rest.take (clampI64 (maxSpanLeaves + 1))).take maxSpanLeaves = rest.take maxSpanLeaves := by
    rw [cap, List.take_take, Nat.min_eq_left (Nat.le_succ _)]
  have longer : maxSpanLeaves < (rest.take (clampI64 (maxSpanLeaves + 1))).length ↔
      rest.drop maxSpanLeaves ≠ [] := by
    rw [cap, List.length_take, ne_eq, List.drop_eq_nil_iff]
    omega
  obtain ⟨left, isTaken, isCut, notEmpty⟩ := fillPage_spec true maxReadChars (rest.take maxSpanLeaves)
  have isRest : rest = (fillPage true maxReadChars (rest.take maxSpanLeaves)).1 ++
      (left ++ rest.drop maxSpanLeaves) := by
    rw [← List.append_assoc, ← isTaken, List.take_append_drop]
  unfold pageOf spanPage
  dsimp only
  rw [rows]
  generalize fillPage true maxReadChars (rest.take maxSpanLeaves) = filled at *
  have more : (filled.2 || decide (maxSpanLeaves <
      (rest.take (clampI64 (maxSpanLeaves + 1))).length)) = true ↔ left ++ rest.drop maxSpanLeaves ≠ [] := by
    rw [Bool.or_eq_true, decide_eq_true_iff, longer, isCut, ne_eq, ne_eq, ne_eq, List.append_eq_nil_iff]
    tauto
  refine ⟨(left ++ rest.drop maxSpanLeaves).map Passage.fromNode, ?_, ?_, ?_⟩
  · rw [← List.map_append, ← isRest]
  · intro isLast
    exact if_neg fun isMore => more.mp isMore (List.map_eq_nil_iff.mp isLast)
  · intro someLeft
    have isMore := more.mpr fun isLast => someLeft (List.map_eq_nil_iff.mpr isLast)
    refine ⟨fun isEmpty => ?_, if_pos isMore⟩
    have noRows : rest.take maxSpanLeaves = [] := by
      by_contra someRows
      exact notEmpty rfl someRows (List.map_eq_nil_iff.mp isEmpty)
    have noRest : rest = [] := by
      rw [List.take_eq_nil_iff] at noRows
      exact noRows.resolve_left (by decide)
    have noLeft := (List.append_eq_nil_iff.mp (isRest.symm.trans noRest)).2
    exact someLeft (List.map_eq_nil_iff.mpr noLeft)

/-! ### The whole span -/

section Read

variable {ops : Corpora} {kind : ItemKind} {target : NodeId} {corpus : List Node} {node : Node}

/-- The leaves a node's span covers; a node without a span covers none. -/
def coveredLeaves (corpus : List Node) (target : NodeId) (node : Node) : List Node :=
  match node.tocLo, node.tocHi with
  | some lo, some hi => spanLeaves corpus target.partition.root lo hi
  | _, _ => []

theorem readSpan_eq (isCorpus : ops.corpusOf kind = .ok corpus)
    (isNode : corpus.find? (fun node => node.nodeId = target) = some node)
    (organizes : node.nodeType.isOrganizing = true) (startAfter : Option Int) :
    readSpan ops kind target startAfter = .ok (spanText corpus target node startAfter) := by
  unfold readSpan
  rw [isCorpus]
  simp [isNode, organizes, bind, Except.bind]

theorem cursor_fromNode (done : List Node) :
    Paging.cursor Passage.tocPosition (done.map Passage.fromNode) = Paging.cursor positionOf done := by
  rw [Paging.cursor, List.getLast?_map, Option.map_map]
  rfl

/-- **A start behind what was read** leaves out exactly that. -/
theorem start_divides (positioned : Positioned corpus target.partition.root) {lo hi : Int}
    {done rest : List Node} (isSpan : spanLeaves corpus target.partition.root lo hi = done ++ rest)
    (more : done ≠ [] → rest ≠ []) :
    spanLeaves corpus target.partition.root
      (max (((Paging.cursor positionOf done).map saturatingSucc).getD lo) lo) hi = rest := by
  have ascending := spanLeaves_ascending positioned lo hi
  rw [isSpan] at ascending
  have covered : ∀ leaf ∈ done ++ rest, leaf ∈ corpus ∧ InDocSpan target.partition.root lo hi leaf := by
    intro leaf member
    exact mem_spanLeaves.mp (isSpan ▸ member)
  rcases List.eq_nil_or_concat' done with rfl | ⟨before, last, rfl⟩
  · refine spanLeaves_after positioned isSpan (Int.le_max_right _ _) (by simp) fun leaf member => ?_
    show max lo lo ≤ _
    rw [Int.max_self]
    exact (covered leaf (by simpa using member)).2.position.2.1
  · have isCursor : Paging.cursor positionOf (before ++ [last]) = some (positionOf last) := by
      simp [Paging.cursor]
    obtain ⟨next, isNext⟩ := List.exists_mem_of_ne_nil rest (more (by simp))
    have later : ∀ leaf ∈ rest, positionOf last < positionOf leaf :=
      fun leaf member => (List.pairwise_append.mp ascending).2.2 last (by simp) leaf member
    -- A leaf is left, so the cursor is not the largest position.
    have isSucc : saturatingSucc (positionOf last) = positionOf last + 1 := by
      obtain ⟨inCorpus, inSpan⟩ := covered next (List.mem_append_right _ isNext)
      have bounded := positioned.fits next inCorpus _ inSpan.position.1
      have after := later next isNext
      exact Int.min_eq_left (by omega)
    have above : lo ≤ positionOf last := (covered last (by simp)).2.position.2.1
    rw [isCursor, Option.map_some, Option.getD_some, isSucc, Int.max_eq_left (by omega)]
    refine spanLeaves_after positioned isSpan (by omega) (fun leaf member => ?_) fun leaf member => ?_
    · rcases List.mem_append.mp member with isBefore | isLast
      · have less := (List.pairwise_append.mp (List.pairwise_append.mp ascending).1).2.2 leaf isBefore
          last (List.mem_singleton_self last)
        omega
      · rw [List.mem_singleton.mp isLast]
        omega
    · have after := later leaf member
      omega

/-- Behind a cursor that is not the last, the response is the page of the leaves left. -/
theorem spanText_page (positioned : Positioned corpus target.partition.root) {done rest : List Node}
    (isCovered : coveredLeaves corpus target node = done ++ rest) (more : done ≠ [] → rest ≠ []) :
    ((spanText corpus target node (Paging.cursor positionOf done)).passages,
      (spanText corpus target node (Paging.cursor positionOf done)).nextOffset) = pageOf rest := by
  unfold coveredLeaves at isCovered
  unfold spanText
  cases isLo : node.tocLo with
  | none =>
    rw [isLo] at isCovered
    obtain ⟨rfl, rfl⟩ := List.append_eq_nil_iff.mp isCovered.symm
    rfl
  | some lo =>
    cases isHi : node.tocHi with
    | none =>
      rw [isLo, isHi] at isCovered
      obtain ⟨rfl, rfl⟩ := List.append_eq_nil_iff.mp isCovered.symm
      rfl
    | some hi =>
      rw [isLo, isHi] at isCovered
      dsimp only
      rw [leavesInDocSpan, start_divides positioned isCovered more]
      rfl

end Read

/-- From no cursor, following the cursors ends, and the pages are the leaves of the book in the node's
span, in ascending position. No page before the last is empty, and a page has no cursor exactly when
it completes the span. -/
def ReadOnce (ops : Corpora) (kind : ItemKind) (target : NodeId) (corpus : List Node) (node : Node) :
    Prop :=
  ∃ leaves : List Node,
    (∀ leaf, leaf ∈ leaves ↔ leaf ∈ corpus ∧ ∃ lo ∈ node.tocLo, ∃ hi ∈ node.tocHi,
      InDocSpan target.partition.root lo hi leaf) ∧
    (leaves.Pairwise fun one other => positionOf one < positionOf other) ∧
    ∀ fuel, leaves.length < fuel → ∃ pages,
      Paging.follow SpanText.nextOffset
        (fun startAfter => (readSpan ops kind target startAfter).toOption) fuel none = some pages ∧
      Paging.Complete SpanText.passages SpanText.nextOffset (leaves.map Passage.fromNode) pages

/-- **Span paging reads everything once.** -/
theorem read_span_pages {ops : Corpora} {kind : ItemKind} {target : NodeId} {corpus : List Node}
    {node : Node} (isCorpus : ops.corpusOf kind = .ok corpus)
    (isNode : corpus.find? (fun node => node.nodeId = target) = some node)
    (organizes : node.nodeType.isOrganizing = true)
    (positioned : Positioned corpus target.partition.root) :
    ReadOnce ops kind target corpus node := by
  refine ⟨coveredLeaves corpus target node, ?_, ?_, fun fuel enough => ?_⟩
  · intro leaf
    unfold coveredLeaves
    cases isLo : node.tocLo with
    | none => simp
    | some lo =>
      cases isHi : node.tocHi with
      | none => simp
      | some hi => simp [mem_spanLeaves]
  · unfold coveredLeaves
    split
    · exact spanLeaves_ascending positioned _ _
    · exact .nil
  · refine Paging.follow_complete Passage.tocPosition ?_ (by simpa using enough)
    intro done rest isRows more
    obtain ⟨doneNodes, restNodes, isCovered, rfl, rfl⟩ := List.map_eq_append_iff.mp isRows
    have isPage := spanText_page positioned isCovered fun someDone someRest =>
      more (by simpa using someDone) (by simpa using someRest)
    refine ⟨_, by rw [cursor_fromNode, readSpan_eq isCorpus isNode organizes]; rfl, ?_⟩
    have turn := pageOf_turn restNodes
    rw [← isPage] at turn
    exact turn

/-- A leaf that does not fit behind the first one starts the next page. -/
theorem spanPage_cut {first second : Node} (rest : List Node)
    (isLarge : maxReadChars - textChars first < textChars second) :
    spanPage (first :: second :: rest) = ([Passage.fromNode first], some (positionOf first)) := by
  have filled : fillPage true maxReadChars ((first :: second :: rest).take maxSpanLeaves) =
      ([first], true) := by
    have cut : fillPage false (maxReadChars - textChars first) (second :: rest.take (maxSpanLeaves - 2)) =
        ([], true) :=
      if_pos ⟨rfl, isLarge⟩
    show (first :: (fillPage false (maxReadChars - textChars first) (second :: rest.take (maxSpanLeaves - 2))).1,
      (fillPage false (maxReadChars - textChars first) (second :: rest.take (maxSpanLeaves - 2))).2) = _
    rw [cut]
  unfold spanPage
  rw [filled]
  rfl

/-- One paragraph of book 1. -/
def paragraphAt (id ordinal position : Int) (text : String) : Node :=
  ((NewNode.child ⟨id⟩ ⟨100000001⟩ ⟨100000001⟩ ordinal 1 .paragraph).withText text).withTocSpan position position

/-- Its root. -/
def rootTo (hi : Int) : Node := ((NewNode.root ⟨100000001⟩ .work).withTitle "A Book").withTocSpan 0 hi

/-- A book of three paragraphs, with gaps between their positions. -/
def threeParagraphs (text : String) : List Node :=
  [rootTo 9, paragraphAt 100000002 0 0 "One.", paragraphAt 100000003 1 7 text,
    paragraphAt 100000004 2 9 "Two."]

/-- The cursors of the pages of that book, from a cursor on. -/
def cursorBehind (text : String) (startAfter : Option Int) : Option Int :=
  (readSpan ⟨threeParagraphs text, none⟩ .book ⟨100000001⟩ startAfter).toOption.bind SpanText.nextOffset

/-- A paragraph over the budget has the second page to itself. -/
theorem cursorBehind_long {text : String} (long : maxReadChars < text.length) :
    cursorBehind text none = some 0 ∧ cursorBehind text (some 0) = some 7 ∧
      cursorBehind text (some 7) = none := by
  have second : maxReadChars - textChars (paragraphAt 100000002 0 0 "One.") <
      textChars (paragraphAt 100000003 1 7 text) := by
    show maxReadChars - 4 < (text.length : Int)
    omega
  have third : maxReadChars - textChars (paragraphAt 100000003 1 7 text) <
      textChars (paragraphAt 100000004 2 9 "Two.") := by
    show maxReadChars - (text.length : Int) < 4
    omega
  refine ⟨?_, ?_, rfl⟩
  · exact congrArg Prod.snd (spanPage_cut [paragraphAt 100000004 2 9 "Two."] second)
  · exact congrArg Prod.snd (spanPage_cut [] third)

/-- A text over the budget. -/
def overBudget : String := String.ofList (List.replicate 30001 'a')

theorem overBudget_long : maxReadChars < overBudget.length := by
  have isLong : overBudget.length = 30001 := by
    unfold overBudget
    rw [String.length_ofList, List.length_replicate]
  rw [isLong]
  decide

theorem read_span_pages_threeParagraphs :
    ReadOnce ⟨threeParagraphs overBudget, none⟩ .book ⟨100000001⟩ (threeParagraphs overBudget) (rootTo 9) ∧
      cursorBehind overBudget none = some 0 ∧ cursorBehind overBudget (some 0) = some 7 ∧
      cursorBehind overBudget (some 7) = none :=
  ⟨read_span_pages rfl rfl rfl ⟨by decide, by decide⟩, cursorBehind_long overBudget_long⟩

end Bookrack.Ops
