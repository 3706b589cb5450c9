/-
Forests listed in preorder: node 0 is the root, and each further node is attached to the node before it
or to one above that.

* `upOf ups`: the parents, where `ups` lists those of nodes 1, 2, ….
* `Spined ups` — every node is attached on the path from the node before it to the root.
  `Spined.concat` attaches one more.
* `Spined.contiguous`: what is below a node is contiguous. **`Spined.walk_eq`**: so the walk visits the
  nodes in the order of the list. `Spined.before_sibling`: and what is below a node comes before its
  next sibling.
* `earlierSiblings`: the number a node has among its siblings; `Spined.earlierSiblings_lt`.
* `gather` joins the cells of a node and of everything below it; `gather_spec`.
-/

import Bookrack.Base.Forest

namespace Bookrack.Forest

/-! ### Parents from a list -/

/-- The parent of a node, the list giving those of nodes 1, 2, …. -/
def upOf (ups : List Nat) : Nat → Option Nat
  | 0 => none
  | node + 1 => ups[node]?

/-- Every node is attached to the one before it or to one above that. -/
structure Spined (ups : List Nat) : Prop where
  earlier : ∀ {node up}, upOf ups (node + 1) = some up → up ≤ node
  spine : ∀ {node up}, upOf ups (node + 1) = some up → Below (upOf ups) node up

section Growing

variable {ups : List Nat} {up : Nat}

theorem upOf_concat_old {node : Nat} (isOld : node ≤ ups.length) :
    upOf (ups ++ [up]) node = upOf ups node := by
  cases node with
  | zero => rfl
  | succ node => exact List.getElem?_append_left isOld

theorem upOf_concat_new : upOf (ups ++ [up]) (ups.length + 1) = some up := by
  show (ups ++ [up])[ups.length]? = some up
  rw [List.getElem?_concat_length]

theorem upOf_inside {node above : Nat} (isUp : upOf ups node = some above) : node ≤ ups.length := by
  cases node with
  | zero => exact Nat.zero_le _
  | succ node => exact (List.getElem?_eq_some_iff.mp isUp).1

/-- What is below a node stays below it. -/
theorem Below.concat {node above : Nat} (below : Below (upOf ups) node above) :
    Below (upOf (ups ++ [up])) node above := by
  induction below with
  | refl => exact .refl
  | tail _ isUp ih => exact ih.tail ((upOf_concat_old (upOf_inside isUp)).trans isUp)

theorem below_new : Below (upOf (ups ++ [up])) (ups.length + 1) up := .single upOf_concat_new

end Growing

namespace Spined

variable {ups : List Nat}

theorem nil : Spined [] where
  earlier := by
    intro node up isUp
    cases isUp
  spine := by
    intro node up isUp
    cases isUp

theorem rooted (spined : Spined ups) : Rooted (ups.length + 1) (upOf ups) where
  root := rfl
  earlier := by
    intro child up isUp
    cases child with
    | zero => cases isUp
    | succ node => exact ⟨Nat.lt_succ_of_le (spined.earlier isUp), Nat.lt_succ_of_le (upOf_inside isUp)⟩
  attached := by
    intro child isChild inside
    obtain ⟨node, rfl⟩ := Nat.exists_eq_succ_of_ne_zero (Nat.pos_iff_ne_zero.mp isChild)
    exact ⟨_, List.getElem?_eq_getElem (Nat.lt_of_succ_lt_succ inside)⟩

/-- **One more node**, attached to the last one or to one above that. -/
theorem concat (spined : Spined ups) {up : Nat} (isOpen : Below (upOf ups) ups.length up) :
    Spined (ups ++ [up]) where
  earlier := by
    intro node above isUp
    rcases Nat.lt_or_eq_of_le (upOf_inside isUp) with isOld | isNew
    · rw [List.length_append, List.length_singleton] at isOld
      rw [upOf_concat_old (by omega)] at isUp
      exact spined.earlier isUp
    · obtain rfl : node = ups.length := by simpa using isNew
      rw [upOf_concat_new] at isUp
      obtain rfl := Option.some.inj isUp
      exact isOpen.le spined.rooted
  spine := by
    intro node above isUp
    rcases Nat.lt_or_eq_of_le (upOf_inside isUp) with isOld | isNew
    · rw [List.length_append, List.length_singleton] at isOld
      rw [upOf_concat_old (by omega)] at isUp
      exact (spined.spine isUp).concat
    · obtain rfl : node = ups.length := by simpa using isNew
      rw [upOf_concat_new] at isUp
      obtain rfl := Option.some.inj isUp
      exact isOpen.concat

/-- **What is below a node is contiguous.** -/
theorem contiguous (spined : Spined ups) : Contiguous (upOf ups) := by
  intro low mid high below atLeast atMost
  -- by induction on the higher node: short of `mid`, the node before it is below `low`, too
  induction high with
  | zero =>
    obtain rfl : mid = 0 := Nat.le_zero.mp atMost
    exact below
  | succ high ih =>
    rcases Nat.lt_or_eq_of_le atMost with isBefore | rfl
    · have other : high + 1 ≠ low := by omega
      obtain ⟨up, isUp⟩ := spined.rooted.attached (Nat.succ_pos high) (by
        rcases Relation.ReflTransGen.cases_head below with same | ⟨up, isUp, -⟩
        · exact absurd same other
        · exact Nat.lt_succ_of_le (upOf_inside isUp))
      exact ih ((spined.spine isUp).trans (below.up other isUp)) (Nat.lt_succ_iff.mp isBefore)
    · exact below

/-- What is below a node comes before its next sibling. -/
theorem before_sibling (spined : Spined ups) {one other up lower : Nat} (isUp : upOf ups one = some up)
    (isUp' : upOf ups other = some up) (before : one < other) (below : Below (upOf ups) lower one) :
    lower < other := by
  by_contra notBefore
  have isBelow := spined.contiguous below before.le (Nat.not_lt.mp notBefore)
  have above := (isBelow.up before.ne' isUp').le spined.rooted
  have := (spined.rooted.earlier isUp).1
  omega

end Spined

/-! ### Children in order -/

/-- The children of a node, in order. -/
def kidsOf (ups : List Nat) (up : Nat) : List Nat :=
  (List.range (ups.length + 1)).filter fun node => decide (upOf ups node = some up)

/-- How many siblings come before a node. -/
def earlierSiblings (ups : List Nat) (node : Nat) : Nat :=
  (List.range node).countP fun sibling => decide (upOf ups sibling = upOf ups node)

section Children

variable {ups : List Nat}

theorem kidsOf_sorted (up : Nat) : (kidsOf ups up).Pairwise (· < ·) :=
  List.pairwise_lt_range.filter _

theorem mem_kidsOf {node up : Nat} : node ∈ kidsOf ups up ↔ upOf ups node = some up := by
  rw [kidsOf, List.mem_filter, List.mem_range, decide_eq_true_iff]
  exact and_iff_right_of_imp fun isUp => Nat.lt_succ_of_le (upOf_inside isUp)

theorem Spined.listed (spined : Spined ups) : Listed (ups.length + 1) (upOf ups) (kidsOf ups) :=
  ⟨spined.rooted, mem_kidsOf⟩

/-- **The walk visits the nodes in the order of the list.** -/
theorem Spined.walk_eq (spined : Spined ups) {fuel : Nat} (enough : ups.length + 1 ≤ fuel) :
    walk (kidsOf ups) fuel 0 = List.range (ups.length + 1) := by
  have sorted : (walk (kidsOf ups) fuel 0).Pairwise (· < ·) :=
    spined.listed.walk_sorted spined.contiguous kidsOf_sorted (by omega)
  refine List.Pairwise.eq_of_mem_iff sorted List.pairwise_lt_range fun node => ?_
  rw [spined.listed.mem_walk (by omega), List.mem_range]
  constructor
  · intro below
    rcases Relation.ReflTransGen.cases_head below with rfl | ⟨up, isUp, -⟩
    · exact Nat.succ_pos _
    · exact Nat.lt_succ_of_le (upOf_inside isUp)
  · exact below_root spined.rooted

/-- Siblings are numbered in order. -/
theorem earlierSiblings_lt {one other up : Nat} (isUp : upOf ups one = some up)
    (isUp' : upOf ups other = some up) (before : one < other) :
    earlierSiblings ups one < earlierSiblings ups other := by
  unfold earlierSiblings
  obtain ⟨gap, rfl⟩ := Nat.exists_eq_add_of_lt before
  rw [isUp, isUp', Nat.add_assoc, List.range_add, List.countP_append, List.range_succ_eq_map, List.map_cons,
    Nat.add_zero, List.countP_cons, if_pos (decide_eq_true isUp)]
  omega

end Children

/-! ### Joining what is below -/

/-- The cell of a node joined with those of everything below it, down to `fuel` levels. -/
def gather {β : Type*} (join : β → β → β) (cell : Nat → β) (kids : Nat → List Nat) : Nat → Nat → β
  | 0, node => cell node
  | fuel + 1, node =>
    (kids node).foldl (fun joined child => join joined (gather join cell kids fuel child)) (cell node)

section Gather

variable {β : Type*} {join : β → β → β} {cell : Nat → β} {size : Nat} {parent : Nat → Option Nat}
  {kids : Nat → List Nat} {Summarises : Set Nat → β → Prop}

variable (Summarises) in
/-- Joining summaries one after the other summarises all of them. -/
theorem summarises_foldl
    (joins : ∀ {one other cell cell'}, Summarises one cell → Summarises other cell' →
      Summarises (one ∪ other) (join cell cell'))
    (parts : Nat → Set Nat) {summary : Nat → β} {nodes : List Nat}
    (each : ∀ node ∈ nodes, Summarises (parts node) (summary node)) : ∀ {start : Set Nat} {first : β},
    Summarises start first →
    Summarises {lower | lower ∈ start ∨ ∃ node ∈ nodes, lower ∈ parts node}
      (nodes.foldl (fun joined node => join joined (summary node)) first) := by
  induction nodes with
  | nil =>
    intro start first holds
    simpa using holds
  | cons node rest ih =>
    intro start first holds
    have next := ih (fun other member => each other (List.mem_cons_of_mem _ member))
      (joins holds (each node List.mem_cons_self))
    rw [List.foldl_cons]
    convert next using 1
    ext lower
    simp [or_assoc]

variable (Summarises) in
/-- **The gathered cell summarises what is below the node.** -/
theorem gather_spec (forward : ∀ {node up}, parent node = some up → up < node ∧ node < size)
    (mem_iff : ∀ {node up}, node ∈ kids up ↔ parent node = some up)
    (joins : ∀ {one other cell cell'}, Summarises one cell → Summarises other cell' →
      Summarises (one ∪ other) (join cell cell'))
    (single : ∀ node, Summarises {node} (cell node)) {fuel : Nat} : ∀ {node : Nat}, size - node ≤ fuel →
    Summarises {lower | Below parent lower node} (gather join cell kids fuel node) := by
  induction fuel with
  | zero =>
    intro node enough
    have isSelf : {lower | Below parent lower node} = {node} := by
      ext lower
      rw [Set.mem_ofPred_eq, Set.mem_singleton_iff, below_iff_child]
      constructor
      · intro either
        rcases either with same | ⟨child, isUp, -⟩
        · exact same
        · have := forward isUp
          omega
      · exact .inl
    rw [isSelf]
    exact single node
  | succ fuel ih =>
    intro node enough
    have below : ∀ child ∈ kids node,
        Summarises {lower | Below parent lower child} (gather join cell kids fuel child) := by
      intro child member
      have after := forward (mem_iff.mp member)
      exact ih (by omega)
    have joined := summarises_foldl Summarises joins (fun child => {lower | Below parent lower child}) below
      (single node)
    rw [gather]
    convert joined using 1
    ext lower
    rw [Set.mem_ofPred_eq, below_iff_child]
    exact or_congr Iff.rfl (exists_congr fun child => and_congr_left fun _ => mem_iff.symm)

end Gather

end Bookrack.Forest
