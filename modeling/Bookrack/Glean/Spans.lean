/-
The numbers and spans of a planned paper.

* `getElem?_childIndexes`: a node's ordinal counts its earlier siblings.
* `positionOf plans idx`: the position of a leaf. `positionOf_lt`: leaves are numbered in order;
  `filter_zip_leafPosition`: from 0 on, without gaps.
* `below_parentIn_iff`: following parents in the plan is following parents in the forest of the paper.
* **`subtreeSpans_spec`** — the span of a node is the hull of the positions of the leaves below it, and
  of their pages.
-/

import Bookrack.Base.Hull
import Bookrack.Glean.Planned

namespace Bookrack.Glean

open Forest Hull

section Numbers

variable {plans : List PendingNode}

/-! ### Ordinals -/

theorem getElem?_childIndexes : ∀ {plans : List PendingNode} {counts : Option Nat → Int} {idx : Nat},
    (childIndexes counts plans)[idx]? = plans[idx]?.map fun plan =>
      counts plan.parentIdx + (plans.take idx).countP fun sibling => decide (sibling.parentIdx = plan.parentIdx)
  | [], _, _ => rfl
  | plan :: rest, counts, 0 => by simp [childIndexes]
  | plan :: rest, counts, idx + 1 => by
    rw [childIndexes, List.getElem?_cons_succ, getElem?_childIndexes, List.getElem?_cons_succ]
    cases rest[idx]? with
    | none => rfl
    | some node =>
      simp only [Option.map_some, List.take_succ_cons, List.countP_cons, decide_eq_true_eq, Option.some.injEq]
      by_cases same : plan.parentIdx = node.parentIdx
      · rw [if_pos same.symm, if_pos same]
        omega
      · rw [if_neg (Ne.symm same), if_neg same]
        omega

/-- A count over the first elements is a count over their indices. -/
theorem countP_take {α : Type} (p : α → Bool) (values : List α) (count : Nat) :
    (values.take count).countP p = (List.range count).countP fun idx => values[idx]?.any p := by
  induction count with
  | zero => rfl
  | succ count ih =>
    rw [List.take_add_one, List.range_succ, List.countP_append, List.countP_append, ih, List.countP_singleton]
    congr 1
    cases values[count]? with
    | none => rfl
    | some value => exact List.countP_singleton

theorem upOf_upsOf (idx : Nat) : upOf (upsOf plans) (idx + 1) = plans[idx]?.map upIndex :=
  List.getElem?_map

theorem upIndex_inj {one other : PendingNode} : upIndex one = upIndex other ↔
    one.parentIdx = other.parentIdx := by
  unfold upIndex
  cases one.parentIdx <;> cases other.parentIdx <;> simp

/-- The siblings the ordinals count are those of the forest. -/
theorem earlierSiblings_eq {idx : Nat} {plan : PendingNode} (isPlan : plans[idx]? = some plan) :
    earlierSiblings (upsOf plans) (idx + 1) =
      (plans.take idx).countP fun sibling => decide (sibling.parentIdx = plan.parentIdx) := by
  rw [earlierSiblings, List.range_succ_eq_map, List.countP_cons, List.countP_map, upOf_upsOf, isPlan,
    countP_take]
  have noRoot : decide (upOf (upsOf plans) 0 = (some plan).map upIndex) = false := by
    rw [decide_eq_false_iff_not]
    exact Option.some_ne_none _ ∘ Eq.symm
  rw [noRoot, if_neg Bool.false_ne_true, Nat.add_zero]
  congr 1
  funext sibling
  show decide (upOf (upsOf plans) (sibling + 1) = some (upIndex plan)) = _
  rw [upOf_upsOf]
  cases plans[sibling]? with
  | none => rfl
  | some other =>
    simp only [Option.map_some, Option.some.injEq, Option.any_some]
    exact decide_eq_decide.mpr upIndex_inj

/-! ### Leaf positions -/

theorem getElem?_leafPosition : ∀ {plans : List PendingNode} {cursor : Int} {idx : Nat},
    (leafPosition cursor plans)[idx]? = plans[idx]?.map fun plan =>
      if plan.isLeaf then some (cursor + (plans.take idx).countP (·.isLeaf)) else none
  | [], _, _ => rfl
  | plan :: rest, cursor, 0 => by
    rw [leafPosition]
    split_ifs with isLeaf <;> simp [isLeaf]
  | plan :: rest, cursor, idx + 1 => by
    rw [leafPosition]
    cases isLeaf : plan.isLeaf with
    | true =>
      rw [if_pos rfl, List.getElem?_cons_succ, List.getElem?_cons_succ, getElem?_leafPosition]
      congr 1
      funext node
      rw [List.take_succ_cons, List.countP_cons, isLeaf, if_pos rfl]
      rw [Nat.cast_add, add_right_comm, ← add_assoc]
      rfl
    | false =>
      rw [if_neg Bool.false_ne_true, List.getElem?_cons_succ, List.getElem?_cons_succ, getElem?_leafPosition]
      congr 1
      funext node
      rw [List.take_succ_cons, List.countP_cons, isLeaf, if_neg Bool.false_ne_true]
      rfl

theorem length_leafPosition : ∀ {plans : List PendingNode} {cursor : Int},
    (leafPosition cursor plans).length = plans.length
  | [], _ => rfl
  | plan :: rest, cursor => by
    rw [leafPosition]
    split_ifs
    · exact congrArg (· + 1) length_leafPosition
    · exact congrArg (· + 1) length_leafPosition

/-- The position of a leaf; organizers have none. -/
def positionOf (plans : List PendingNode) (idx : Nat) : Option Int := (leafPosition 0 plans)[idx]?.join

theorem positionOf_eq_some {idx : Nat} {position : Int} : positionOf plans idx = some position ↔
    ∃ plan, plans[idx]? = some plan ∧ plan.isLeaf = true ∧ position = (plans.take idx).countP (·.isLeaf) := by
  rw [positionOf, getElem?_leafPosition]
  cases plans[idx]? with
  | none => simp
  | some plan =>
    cases isLeaf : plan.isLeaf with
    | true =>
      rw [Option.map_some, isLeaf, if_pos rfl, Option.join_some, Option.some.injEq, Int.zero_add]
      constructor
      · exact fun same => ⟨plan, rfl, isLeaf, same.symm⟩
      · exact fun ⟨_, _, _, same⟩ => same.symm
    | false =>
      rw [Option.map_some, isLeaf, if_neg Bool.false_ne_true]
      constructor
      · exact fun same => by cases same
      · intro ⟨other, isOther, otherLeaf, _⟩
        obtain rfl := Option.some.inj isOther
        cases isLeaf.symm.trans otherLeaf

theorem positionOf_leaf {idx : Nat} {plan : PendingNode} (isPlan : plans[idx]? = some plan)
    (isLeaf : plan.isLeaf = true) :
    positionOf plans idx = some (((plans.take idx).countP (·.isLeaf) : Nat) : Int) :=
  positionOf_eq_some.mpr ⟨plan, isPlan, isLeaf, rfl⟩

/-- **Leaves are numbered in order.** -/
theorem positionOf_lt {one other : Nat} {position position' : Int}
    (isPosition : positionOf plans one = some position)
    (isPosition' : positionOf plans other = some position') (before : one < other) : position < position' := by
  obtain ⟨plan, isPlan, isLeaf, rfl⟩ := positionOf_eq_some.mp isPosition
  obtain ⟨-, -, -, rfl⟩ := positionOf_eq_some.mp isPosition'
  have split : plans.take other = plans.take one ++ plan :: (plans.drop (one + 1)).take (other - (one + 1)) := by
    rw [← List.take_append_drop (one + 1) (plans.take other), List.take_take, List.drop_take,
      Nat.min_eq_left before, List.take_add_one, isPlan]
    simp
  rw [split, List.countP_append, List.countP_cons, if_pos isLeaf]
  omega

theorem positionOf_bounds {idx : Nat} {position : Int} (isPosition : positionOf plans idx = some position) :
    0 ≤ position ∧ position < totalLeaves plans := by
  obtain ⟨plan, isPlan, isLeaf, rfl⟩ := positionOf_eq_some.mp isPosition
  have split : plans = plans.take idx ++ plan :: plans.drop (idx + 1) := by
    obtain ⟨inside, rfl⟩ := List.getElem?_eq_some_iff.mp isPlan
    rw [← List.drop_eq_getElem_cons inside, List.take_append_drop]
  have counted := congrArg (List.countP (·.isLeaf)) split
  rw [List.countP_append, List.countP_cons, if_pos isLeaf] at counted
  unfold totalLeaves
  omega

/-- The leaves with their positions are their contents, numbered. -/
theorem filter_zip_leafPosition : ∀ (plans : List PendingNode) (first : Nat),
    ((plans.zip (leafPosition first plans)).filter (·.1.isLeaf)).map
        (fun entry => ((entry.1.nodeType, entry.1.text, entry.1.sourceUnit), entry.2)) =
      ((leafContents plans).zipIdx first).map fun entry => (entry.1, some (entry.2 : Int))
  | [], _ => rfl
  | plan :: rest, first => by
    rw [leafPosition, leafContents]
    cases isLeaf : plan.isLeaf with
    | true =>
      have later := filter_zip_leafPosition rest (first + 1)
      rw [if_pos rfl, List.zip_cons_cons,
        List.filter_cons_of_pos (p := fun entry : PendingNode × Option Int => entry.1.isLeaf) isLeaf,
        List.filter_cons_of_pos isLeaf,
        List.map_cons, List.map_cons, List.zipIdx_cons, List.map_cons]
      exact congrArg (_ :: ·) later
    | false =>
      have later := filter_zip_leafPosition rest first
      rw [if_neg Bool.false_ne_true, List.zip_cons_cons, List.filter_cons_of_neg (by simp [isLeaf]),
        List.filter_cons_of_neg (by simp [isLeaf])]
      exact later

end Numbers

/-! ### Parents in the plan -/

section Parents

variable {plans : List PendingNode}

theorem parentIn_eq_some {node up : Nat} : parentIn plans node = some up ↔
    upOf (upsOf plans) (node + 1) = some (up + 1) := by
  rw [parentIn, upOf_upsOf]
  cases plans[node]? with
  | none => simp
  | some plan =>
    simp only [Option.bind_some, Option.map_some, upIndex]
    cases plan.parentIdx <;> simp

/-- **Following parents in the plan** is following parents in the forest, where the work is 0. -/
theorem below_parentIn_iff (planned : Planned plans) {lower idx : Nat} :
    Below (parentIn plans) lower idx ↔ Below (upOf (upsOf plans)) (lower + 1) (idx + 1) := by
  constructor
  · intro below
    induction below with
    | refl => exact .refl
    | tail _ isUp ih => exact ih.tail (parentIn_eq_some.mp isUp)
  · intro below
    obtain ⟨node, isNode⟩ : ∃ node, node = lower + 1 := ⟨_, rfl⟩
    rw [← isNode] at below
    induction below using Relation.ReflTransGen.head_induction_on generalizing lower with
    | refl =>
      obtain rfl := Nat.succ.inj isNode
      exact .refl
    | @head child up isUp rest ih =>
      -- the path does not reach the work, since it ends above it
      have above := Below.le planned.spined.rooted rest
      obtain ⟨upper, rfl⟩ := Nat.exists_eq_succ_of_ne_zero (by omega : up ≠ 0)
      rw [isNode] at isUp
      exact .head (parentIn_eq_some.mpr isUp) (ih rfl)

theorem parentIn_forward (planned : Planned plans) {node up : Nat} (isUp : parentIn plans node = some up) :
    up < node ∧ node < plans.length := by
  have earlier := planned.spined.rooted.earlier (parentIn_eq_some.mp isUp)
  rw [length_upsOf] at earlier
  omega

theorem mem_childrenOf (planned : Planned plans) {node up : Nat} :
    node ∈ (childrenOf plans).getD up [] ↔ parentIn plans node = some up := by
  rw [List.getD_eq_getElem?_getD, childrenOf, attach_run, List.getElem?_replicate]
  by_cases inside : up < plans.length
  · rw [if_pos inside, Option.map_some, Option.getD_some, List.nil_append, List.mem_filter, List.mem_range,
      decide_eq_true_iff]
    exact and_iff_right_of_imp fun isUp => (parentIn_forward planned isUp).2
  · rw [if_neg inside]
    constructor
    · exact fun member => absurd member List.not_mem_nil
    · intro isUp
      have := parentIn_forward planned isUp
      omega

/-! ### Spans -/

/-- The page of a leaf; the abstract counts as page 0. -/
def pageOf (plans : List PendingNode) (idx : Nat) : Option Int :=
  (positionOf plans idx).bind fun _ => plans[idx]?.map fun plan => ((plan.sourceUnit.getD 0 : Nat) : Int)

/-- The positions of a span. -/
def tocHull (span : Option PaperSpan) : Option (Int × Int) := span.map fun span => (span.tocLo, span.tocHi)

/-- The pages of a span. -/
def pageHull (span : Option PaperSpan) : Option (Int × Int) :=
  span.map fun span => ((span.pageLo : Int), (span.pageHi : Int))

/-- What the nodes of a set have in a column. -/
def valuesOf (column : Nat → Option Int) (nodes : Set Nat) : Set Int :=
  {value | ∃ node ∈ nodes, column node = some value}

theorem valuesOf_union (column : Nat → Option Int) (one other : Set Nat) :
    valuesOf column (one ∪ other) = valuesOf column one ∪ valuesOf column other := by
  ext value
  simp only [valuesOf, Set.mem_ofPred_eq, Set.mem_union, or_and_right, exists_or]

theorem isHull_own (column : Nat → Option Int) (node : Nat) :
    IsHull (valuesOf column {node}) ((column node).map fun value => (value, value)) := by
  have isOwn : valuesOf column {node} = {value | column node = some value} := by
    ext value
    simp [valuesOf]
  rw [isOwn]
  cases column node with
  | none => simp [IsHull]
  | some value =>
    simp only [Option.map_some, Option.some.injEq]
    convert isHull_singleton value using 1
    ext other
    exact eq_comm

theorem tocHull_merge (one other : Option PaperSpan) :
    tocHull (mergeSpans one other) = join (tocHull one) (tocHull other) := by
  cases one <;> cases other <;> rfl

theorem pageHull_merge (one other : Option PaperSpan) :
    pageHull (mergeSpans one other) = join (pageHull one) (pageHull other) := by
  cases one with
  | none => cases other <;> rfl
  | some span =>
    cases other with
    | none => rfl
    | some span' =>
      refine congrArg some (Prod.ext ?_ ?_)
      · show ((min span.pageLo span'.pageLo : Nat) : Int) = min (span.pageLo : Int) span'.pageLo
        omega
      · show ((max span.pageHi span'.pageHi : Nat) : Int) = max (span.pageHi : Int) span'.pageHi
        omega

theorem ownSpan_hulls (plans : List PendingNode) (idx : Nat) :
    tocHull (ownSpan plans idx) = (positionOf plans idx).map (fun position => (position, position)) ∧
      pageHull (ownSpan plans idx) = (pageOf plans idx).map fun page => (page, page) := by
  have isOwn : ownSpan plans idx = (positionOf plans idx).bind fun position => plans[idx]?.bind fun plan =>
      some ⟨position, position, plan.sourceUnit.getD 0, plan.sourceUnit.getD 0⟩ := rfl
  rw [isOwn, pageOf]
  cases isPosition : positionOf plans idx with
  | none => exact ⟨rfl, rfl⟩
  | some position =>
    obtain ⟨plan, isPlan, -⟩ := positionOf_eq_some.mp isPosition
    rw [isPlan]
    exact ⟨rfl, rfl⟩

/-- **The span of a node** is the hull of the positions of the leaves below it, and of their pages. -/
theorem subtreeSpans_spec (planned : Planned plans) (idx : Nat) :
    IsHull (valuesOf (positionOf plans) {lower | Below (parentIn plans) lower idx})
        (tocHull (subtreeSpans plans idx)) ∧
      IsHull (valuesOf (pageOf plans) {lower | Below (parentIn plans) lower idx})
        (pageHull (subtreeSpans plans idx)) := by
  refine gather_spec (fun nodes span => IsHull (valuesOf (positionOf plans) nodes) (tocHull span) ∧
    IsHull (valuesOf (pageOf plans) nodes) (pageHull span)) (parentIn_forward planned) (mem_childrenOf planned)
    ?_ ?_ (Nat.sub_le _ _)
  · intro one other span span' first second
    rw [valuesOf_union, valuesOf_union, tocHull_merge, pageHull_merge]
    exact ⟨first.1.union second.1, first.2.union second.2⟩
  · intro node
    rw [(ownSpan_hulls plans node).1, (ownSpan_hulls plans node).2]
    exact ⟨isHull_own _ node, isHull_own _ node⟩

end Parents

end Bookrack.Glean
