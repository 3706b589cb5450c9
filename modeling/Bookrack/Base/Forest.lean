/-
Trees held as parent indices: the root at 0, every other node attached to an earlier one.

* `Below parent node above`: following parents leads from `node` to `above`.
* **`passUp_run`**: a pass from the last node to the first that joins each node's cell into its
  parent's leaves in every cell a summary of the nodes below it.
* `attach_run`: appending nodes to their parents' lists sorts them by parent.
* `modify_listed`, `modify_unlisted`: writing a list of distinct cells one after the other.
* `walk` visits a node and then, one child after the other, what is below it. **`walk_sorted`**:
  where what is below a node is contiguous and children are listed in order, the walk is in order.
  `walk_filter`: with the leaves of each node listed before its inner children, the walk meets the
  leaves node by node in the order of the inner walk.
-/

import Mathlib.Data.List.Basic
import Mathlib.Data.List.Sort
import Mathlib.Data.Set.Basic
import Mathlib.Logic.Relation

namespace Bookrack.Forest

/-- Following parents leads from `node` to `above`. -/
abbrev Below (parent : Nat → Option Nat) (node above : Nat) : Prop :=
  Relation.ReflTransGen (fun child up => parent child = some up) node above

/-- The root at 0, every other node up to `size` attached to an earlier one. -/
structure Rooted (size : Nat) (parent : Nat → Option Nat) : Prop where
  root : parent 0 = none
  earlier : ∀ {child up}, parent child = some up → up < child ∧ child < size
  attached : ∀ {child}, 0 < child → child < size → ∃ up, parent child = some up

section Below

variable {size : Nat} {parent : Nat → Option Nat}

theorem Below.le (rooted : Rooted size parent) {node above : Nat}
    (below : Below parent node above) : above ≤ node := by
  induction below with
  | refl => exact le_rfl
  | tail _ isUp ih => exact (rooted.earlier isUp).1.le.trans ih

/-- A node below another is that node or below one of its children. -/
theorem below_iff_child {node above : Nat} : Below parent node above ↔
    node = above ∨ ∃ child, parent child = some above ∧ Below parent node child := by
  rw [Below, Relation.ReflTransGen.cases_tail_iff]
  constructor
  · rintro (same | ⟨child, below, isUp⟩)
    · exact .inl same.symm
    · exact .inr ⟨child, isUp, below⟩
  · rintro (same | ⟨child, isUp, below⟩)
    · exact .inl same.symm
    · exact .inr ⟨child, below, isUp⟩

/-- Below another node, the parent is below it, too. -/
theorem Below.up {node above up : Nat} (below : Below parent node above) (other : node ≠ above)
    (isUp : parent node = some up) : Below parent up above := by
  rcases Relation.ReflTransGen.cases_head below with same | ⟨up', isUp', rest⟩
  · exact absurd same other
  · obtain rfl : up' = up := Option.some.inj (isUp'.symm.trans isUp)
    exact rest

theorem below_root (rooted : Rooted size parent) {node : Nat} (inside : node < size) :
    Below parent node 0 := by
  induction node using Nat.strongRecOn with
  | ind node ih =>
    by_cases isRoot : node = 0
    · rw [isRoot]
    · obtain ⟨up, isUp⟩ := rooted.attached (Nat.pos_of_ne_zero isRoot) inside
      have before := (rooted.earlier isUp).1
      exact .head isUp (ih up before (before.trans inside))

end Below

/-! ### The pass from the last node up -/

section PassUp

variable {size : Nat} {parent : Nat → Option Nat} {β : Type*} {join : β → β → β} {absent : β}

/-- Join a node's cell into its parent's. -/
def passUp (parent : Nat → Option Nat) (join : β → β → β) (absent : β) (cells : List β)
    (node : Nat) : List β :=
  match parent node with
  | some up => cells.set up (join (cells.getD up absent) (cells.getD node absent))
  | none => cells

/-- What has reached a cell once the nodes from `done` on are passed up. -/
def reached (parent : Nat → Option Nat) (done above : Nat) : Set Nat :=
  {node | node = above ∨ ∃ child, done ≤ child ∧ parent child = some above ∧
    Below parent node child}

theorem length_passUp (cells : List β) (node : Nat) :
    (passUp parent join absent cells node).length = cells.length := by
  unfold passUp
  split
  · exact List.length_set
  · rfl

/-- What is below a node has reached it before it is passed up. -/
theorem reached_self (rooted : Rooted size parent) (node : Nat) :
    reached parent (node + 1) node = {lower | Below parent lower node} := by
  ext lower
  rw [reached, Set.mem_ofPred_eq, Set.mem_ofPred_eq, below_iff_child]
  apply or_congr_right
  apply exists_congr
  intro child
  constructor
  · exact fun ⟨_, isUp, below⟩ => ⟨isUp, below⟩
  · exact fun ⟨isUp, below⟩ => ⟨(rooted.earlier isUp).1, isUp, below⟩

theorem reached_up (rooted : Rooted size parent) {node up : Nat} (isUp : parent node = some up) :
    reached parent node up = reached parent (node + 1) up ∪ reached parent (node + 1) node := by
  rw [reached_self rooted]
  ext lower
  simp only [reached, Set.mem_union, Set.mem_ofPred_eq]
  constructor
  · rintro (same | ⟨child, from', isUp', below⟩)
    · exact .inl (.inl same)
    · by_cases isNode : child = node
      · rw [isNode] at below
        exact .inr below
      · exact .inl (.inr ⟨child, by omega, isUp', below⟩)
  · rintro ((same | ⟨child, from', isUp', below⟩) | below)
    · exact .inl same
    · exact .inr ⟨child, by omega, isUp', below⟩
    · exact .inr ⟨node, le_rfl, isUp, below⟩

theorem reached_other {node up above : Nat} (isUp : parent node = some up) (other : above ≠ up) :
    reached parent node above = reached parent (node + 1) above := by
  ext lower
  simp only [reached, Set.mem_ofPred_eq]
  apply or_congr_right
  apply exists_congr
  intro child
  constructor
  · rintro ⟨from', isUp', below⟩
    refine ⟨?_, isUp', below⟩
    by_contra notAfter
    obtain rfl : child = node := by omega
    exact other (Option.some.inj (isUp'.symm.trans isUp))
  · exact fun ⟨from', isUp', below⟩ => ⟨by omega, isUp', below⟩

variable {Summarises : Set Nat → β → Prop}

theorem passUp_step (rooted : Rooted size parent)
    (joins : ∀ {one other cell cell'}, Summarises one cell → Summarises other cell' →
      Summarises (one ∪ other) (join cell cell')) {cells : List β} (length : cells.length = size)
    {node : Nat} (isChild : 0 < node) (inside : node < size)
    (holds : ∀ above < size, Summarises (reached parent (node + 1) above)
      (cells.getD above absent)) {above : Nat} (aboveInside : above < size) :
    Summarises (reached parent node above)
      ((passUp parent join absent cells node).getD above absent) := by
  obtain ⟨up, isUp⟩ := rooted.attached isChild inside
  simp only [passUp, isUp]
  by_cases same : above = up
  · rw [same, reached_up rooted isUp, List.getD_eq_getElem?_getD, List.getElem?_set_self (by omega)]
    exact joins (holds up (by omega)) (holds node inside)
  · rw [reached_other isUp same, List.getD_eq_getElem?_getD, List.getElem?_set_ne (Ne.symm same),
      ← List.getD_eq_getElem?_getD]
    exact holds above aboveInside

theorem passUp_from (rooted : Rooted size parent)
    (joins : ∀ {one other cell cell'}, Summarises one cell → Summarises other cell' →
      Summarises (one ∪ other) (join cell cell')) {cells : List β} (length : cells.length = size)
    (single : ∀ above < size, Summarises {above} (cells.getD above absent)) (count : Nat) :
    ∀ first, 0 < first → first + count = size → ∀ above < size,
      Summarises (reached parent first above)
        (((List.range' first count).reverse.foldl (passUp parent join absent) cells).getD above
          absent) := by
  induction count with
  | zero =>
    intro first _ isEnd above inside
    have isSelf : reached parent first above = {above} := by
      ext lower
      simp only [reached, Set.mem_ofPred_eq, Set.mem_singleton_iff, or_iff_left_iff_imp]
      rintro ⟨child, from', isUp, -⟩
      have inside' := (rooted.earlier isUp).2
      omega
    rw [isSelf]
    exact single above inside
  | succ count ih =>
    intro first isChild isEnd above inside
    rw [List.range'_succ, List.reverse_cons, List.foldl_append, List.foldl_cons, List.foldl_nil]
    refine passUp_step rooted joins ?_ isChild (by omega)
      (ih (first + 1) (by omega) (by omega)) inside
    have kept : ∀ nodes : List Nat, ∀ start : List β,
        (nodes.foldl (passUp parent join absent) start).length = start.length := by
      intro nodes
      induction nodes with
      | nil => exact fun _ => rfl
      | cons node rest ih => exact fun start => (ih _).trans (length_passUp start node)
    rw [kept, length]

variable (Summarises) in
/-- **After the pass every cell summarises what is below its node.** -/
theorem passUp_run (rooted : Rooted size parent)
    (joins : ∀ {one other cell cell'}, Summarises one cell → Summarises other cell' →
      Summarises (one ∪ other) (join cell cell')) {cells : List β} (length : cells.length = size)
    (single : ∀ above < size, Summarises {above} (cells.getD above absent)) {above : Nat}
    (inside : above < size) :
    Summarises {node | Below parent node above}
      (((List.range' 1 (size - 1)).reverse.foldl (passUp parent join absent) cells).getD above
        absent) := by
  have all : reached parent 1 above = {node | Below parent node above} := by
    ext node
    rw [reached, Set.mem_ofPred_eq, Set.mem_ofPred_eq, below_iff_child]
    apply or_congr_right
    apply exists_congr
    intro child
    constructor
    · exact fun ⟨_, isUp, below⟩ => ⟨isUp, below⟩
    · intro ⟨isUp, below⟩
      have before := (rooted.earlier isUp).1
      exact ⟨by omega, isUp, below⟩
  rw [← all]
  exact passUp_from rooted joins length single (size - 1) 1 Nat.one_pos (by omega) above inside

end PassUp

/-! ### Lists of children and numbers in them -/

/-- Append a node to its parent's list. -/
def attach (parent : Nat → Option Nat) (kids : List (List Nat)) (node : Nat) : List (List Nat) :=
  match parent node with
  | some up => kids.modify up (· ++ [node])
  | none => kids

/-- **Appending nodes to their parents' lists sorts them by parent.** -/
theorem attach_run (parent : Nat → Option Nat) (nodes : List Nat) (kids : List (List Nat))
    (up : Nat) : (nodes.foldl (attach parent) kids)[up]? =
      kids[up]?.map (· ++ nodes.filter (parent · = some up)) := by
  induction nodes generalizing kids with
  | nil => simp
  | cons node rest ih =>
    rw [List.foldl_cons, ih]
    cases isUp : parent node with
    | none =>
      have skipped : (node :: rest).filter (parent · = some up) =
          rest.filter (parent · = some up) := List.filter_cons_of_neg (by simp [isUp])
      simp only [attach, isUp, skipped]
    | some other =>
      by_cases same : other = up
      · have taken : (node :: rest).filter (parent · = some up) =
            node :: rest.filter (parent · = some up) :=
          List.filter_cons_of_pos (by simp [isUp, same])
        simp only [attach, isUp, taken, same, List.getElem?_modify, if_true]
        cases kids[up]? <;> simp
      · have skipped : (node :: rest).filter (parent · = some up) =
            rest.filter (parent · = some up) := List.filter_cons_of_neg (by simp [isUp, same])
        simp only [attach, isUp, skipped, List.getElem?_modify, same, if_false]
        cases kids[up]? <;> rfl

theorem length_attach_run (parent : Nat → Option Nat) (nodes : List Nat)
    (kids : List (List Nat)) : (nodes.foldl (attach parent) kids).length = kids.length := by
  induction nodes generalizing kids with
  | nil => rfl
  | cons node rest ih =>
    rw [List.foldl_cons, ih]
    unfold attach
    split
    · exact List.length_modify _ _ _
    · rfl

section Modify

variable {α β : Type*} (write : β → α → α)

/-- A cell that is not listed stays. -/
theorem modify_unlisted {cell : Nat} : ∀ (writes : List (Nat × β)) (cells : List α),
    cell ∉ writes.map Prod.fst →
    (writes.foldl (fun cells w => cells.modify w.1 (write w.2)) cells)[cell]? = cells[cell]?
  | [], _, _ => rfl
  | (other, value) :: rest, cells, unlisted => by
    rw [List.map_cons, List.mem_cons, not_or] at unlisted
    rw [List.foldl_cons, modify_unlisted rest _ unlisted.2, List.getElem?_modify]
    simp [Ne.symm unlisted.1]

/-- A listed cell is written once, where the cells are distinct. -/
theorem modify_listed {cell : Nat} {value : β} : ∀ (writes : List (Nat × β)) (cells : List α),
    (writes.map Prod.fst).Nodup → (cell, value) ∈ writes →
    (writes.foldl (fun cells w => cells.modify w.1 (write w.2)) cells)[cell]? =
      cells[cell]?.map (write value)
  | (other, value') :: rest, cells, distinct, listed => by
    rw [List.map_cons, List.nodup_cons] at distinct
    rw [List.foldl_cons]
    rcases List.mem_cons.mp listed with same | later
    · obtain ⟨rfl, rfl⟩ := Prod.mk.inj same
      rw [modify_unlisted write rest _ distinct.1, List.getElem?_modify]
      simp
    · have other' : other ≠ cell := by
        rintro rfl
        exact distinct.1 (List.mem_map.mpr ⟨_, later, rfl⟩)
      rw [modify_listed rest _ distinct.2 later, List.getElem?_modify]
      simp [other']

end Modify

/-! ### The walk -/

/-- A node, then what is below each of its children in turn, down to `fuel` levels. -/
def walk {α : Type*} (kids : α → List α) : Nat → α → List α
  | 0, node => [node]
  | fuel + 1, node => node :: (kids node).flatMap (walk kids fuel)

/-- The children of every node are listed. -/
structure Listed (size : Nat) (parent : Nat → Option Nat) (kids : Nat → List Nat) : Prop where
  rooted : Rooted size parent
  mem_iff : ∀ {node up}, node ∈ kids up ↔ parent node = some up

/-- What is between a node and one below it is below it, too. -/
def Contiguous (parent : Nat → Option Nat) : Prop :=
  ∀ {low mid high}, Below parent high low → low ≤ mid → mid ≤ high → Below parent mid low

namespace Listed

variable {size : Nat} {parent : Nat → Option Nat} {kids : Nat → List Nat}

theorem forward (listed : Listed size parent kids) {node up : Nat} (member : node ∈ kids up) :
    up < node ∧ node < size := listed.rooted.earlier (listed.mem_iff.mp member)

theorem kids_outside (listed : Listed size parent kids) {up : Nat} (outside : size ≤ up) :
    kids up = [] := by
  rw [List.eq_nil_iff_forall_not_mem]
  intro node member
  have inside := listed.forward member
  omega

/-- With fuel for what is below the node, the walk is the node and its children's walks. -/
theorem walk_stable (listed : Listed size parent kids) {fuel : Nat} :
    ∀ {fuel' node : Nat}, size - node ≤ fuel → size - node ≤ fuel' →
      walk kids fuel node = walk kids fuel' node := by
  induction fuel with
  | zero =>
    intro fuel' node enough _
    match fuel' with
    | 0 => rfl
    | fuel' + 1 => rw [walk, walk, listed.kids_outside (by omega), List.flatMap_nil]
  | succ fuel ih =>
    intro fuel' node enough enough'
    match fuel' with
    | 0 => rw [walk, walk, listed.kids_outside (by omega), List.flatMap_nil]
    | fuel' + 1 =>
      rw [walk, walk]
      congr 1
      apply List.flatMap_congr
      intro child member
      have after := listed.forward member
      exact ih (by omega) (by omega)

theorem walk_eq (listed : Listed size parent kids) {fuel node : Nat}
    (enough : size - node ≤ fuel) :
    walk kids fuel node = node :: (kids node).flatMap (walk kids fuel) := by
  rw [listed.walk_stable enough (by omega : size - node ≤ fuel + 1), walk]

/-- **The walk visits what is below the node.** -/
theorem mem_walk (listed : Listed size parent kids) {fuel : Nat} : ∀ {node above : Nat},
    size - above ≤ fuel → (node ∈ walk kids fuel above ↔ Below parent node above) := by
  induction fuel with
  | zero =>
    intro node above enough
    rw [walk, List.mem_singleton, below_iff_child]
    constructor
    · exact .inl
    · rintro (same | ⟨child, isUp, -⟩)
      · exact same
      · have inside := listed.rooted.earlier isUp
        omega
  | succ fuel ih =>
    intro node above enough
    rw [walk, List.mem_cons, List.mem_flatMap, below_iff_child]
    apply or_congr_right
    apply exists_congr
    intro child
    rw [listed.mem_iff]
    apply and_congr_right
    intro isUp
    have after := listed.rooted.earlier isUp
    exact ih (by omega)

/-- **In order, where subtrees are contiguous and children are listed in order.** -/
theorem walk_sorted (listed : Listed size parent kids) (contiguous : Contiguous parent)
    (sorted : ∀ up, (kids up).Pairwise (· < ·)) {fuel : Nat} : ∀ {above : Nat},
    size - above ≤ fuel → (walk kids fuel above).Pairwise (· < ·) := by
  induction fuel with
  | zero => exact fun _ => List.pairwise_singleton _ _
  | succ fuel ih =>
    intro above enough
    rw [walk, List.pairwise_cons, List.pairwise_flatMap]
    refine ⟨fun node member => ?_, fun child member => ?_, ?_⟩
    · obtain ⟨child, isChild, visited⟩ := List.mem_flatMap.mp member
      have after := listed.forward isChild
      have below := Below.le listed.rooted ((listed.mem_walk (by omega)).mp visited)
      omega
    · have after := listed.forward member
      exact ih (by omega)
    · refine (sorted above).imp_of_mem fun {child child'} member member' less => ?_
      intro node visited node' visited'
      have after := listed.forward member
      have after' := listed.forward member'
      have below := (listed.mem_walk (by omega)).mp visited
      have atLeast := Below.le listed.rooted ((listed.mem_walk (by omega)).mp visited')
      by_contra notLess
      -- a node past the next sibling would put that sibling below the child
      have sibling := contiguous below less.le (by omega : child' ≤ node)
      have back := Below.le listed.rooted
        (sibling.up less.ne' (listed.mem_iff.mp member'))
      omega

/-- A child's walk is part of its parent's. -/
theorem walk_sublist (listed : Listed size parent kids) {node above : Nat}
    (below : Below parent node above) : (walk kids size node).Sublist (walk kids size above) := by
  induction below with
  | refl => exact .refl _
  | @tail child up _ isUp ih =>
    refine ih.trans ?_
    rw [listed.walk_eq (by omega : size - up ≤ size)]
    apply List.Sublist.cons
    rw [List.flatMap_def]
    exact List.sublist_flatten_of_mem (List.mem_map.mpr ⟨_, listed.mem_iff.mpr isUp, rfl⟩)

/-- **Node by node.** With the leaves listed before the inner children, the walk meets the leaves
of each inner node in turn. -/
theorem walk_filter (listed : Listed size parent kids) {inner leaves : Nat → List Nat}
    (split : ∀ node, kids node = leaves node ++ inner node) {isLeaf : Nat → Bool}
    (areLeaves : ∀ node, ∀ leaf ∈ leaves node, isLeaf leaf = true ∧ kids leaf = [])
    (areInner : ∀ node, ∀ child ∈ inner node, isLeaf child = false) {fuel : Nat} :
    ∀ {node : Nat}, size - node ≤ fuel → isLeaf node = false →
      (walk kids fuel node).filter isLeaf = (walk inner fuel node).flatMap leaves := by
  induction fuel with
  | zero =>
    intro node enough isInner
    have none := listed.kids_outside (by omega : size ≤ node)
    rw [split, List.append_eq_nil_iff] at none
    simp [walk, isInner, none.1]
  | succ fuel ih =>
    intro node enough isInner
    have ofLeaves : ((leaves node).flatMap (walk kids fuel)).filter isLeaf = leaves node := by
      rw [List.filter_flatMap]
      have single : ∀ leaf ∈ leaves node, (walk kids fuel leaf).filter isLeaf = [leaf] := by
        intro leaf member
        obtain ⟨leafy, childless⟩ := areLeaves node leaf member
        cases fuel <;> simp [walk, childless, leafy]
      rw [List.flatMap_congr single]
      simp
    have ofInner : ((inner node).flatMap (walk kids fuel)).filter isLeaf =
        ((inner node).flatMap (walk inner fuel)).flatMap leaves := by
      rw [List.filter_flatMap, List.flatMap_assoc]
      apply List.flatMap_congr
      intro child member
      have after := listed.forward (split node ▸ List.mem_append_right _ member)
      exact ih (by omega) (areInner node child member)
    rw [walk, walk, split, List.filter_cons_of_neg (by simp [isInner]), List.flatMap_append,
      List.filter_append, ofLeaves, ofInner, List.flatMap_cons]

end Listed

/-- A walk over the images of the nodes is the image of the walk. -/
theorem walk_map {α : Type*} {size : Nat} {parent : Nat → Option Nat} {kids : Nat → List Nat}
    (listed : Listed size parent kids) {image : Nat → α} {kids' : α → List α}
    (images : ∀ node < size, kids' (image node) = (kids node).map image) {fuel : Nat} :
    ∀ {node : Nat}, node < size → walk kids' fuel (image node) = (walk kids fuel node).map image
  := by
  induction fuel with
  | zero => exact fun _ => rfl
  | succ fuel ih =>
    intro node inside
    rw [walk, walk, images node inside, List.map_cons, List.flatMap_map, List.map_flatMap]
    congr 1
    apply List.flatMap_congr
    intro child member
    exact ih (listed.forward member).2

end Bookrack.Forest
