/-
An outline: entries in a row, each with a depth, nested under the nearest earlier shallower one.

* `Encloses depth up entry`: `up` is the nearest earlier entry shallower than `entry`.
* `Under depth entry above`: `entry` is `above` or every entry after `above` up to `entry` is deeper.
* **`under_iff_chain`**: being under an entry is being led to it by enclosing entries.
* `IsOpenStack`: what a depth stack holds before an entry, with **`IsOpenStack.push`** (popping the
  entries that are not shallower and pushing the entry keeps it so) and `IsOpenStack.top`
  (what is then on top encloses the entry).
-/

import Mathlib.Data.List.Basic
import Mathlib.Data.Nat.Find
import Mathlib.Logic.Relation
import Mathlib.Order.Lattice

namespace Bookrack.Outline

variable {δ : Type*} [LinearOrder δ] {depth : Nat → δ}

/-- The nearest earlier entry that is shallower. -/
def Encloses (depth : Nat → δ) (up entry : Nat) : Prop :=
  up < entry ∧ depth up < depth entry ∧ ∀ between, up < between → between < entry →
    depth entry ≤ depth between

/-- The entry itself, or one with only deeper entries from the next one on. -/
def Under (depth : Nat → δ) (entry above : Nat) : Prop :=
  above ≤ entry ∧ ∀ between, above < between → between ≤ entry → depth above < depth between

/-- No entry is shallower and earlier. -/
def Topmost (depth : Nat → δ) (entry : Nat) : Prop :=
  ∀ earlier, earlier < entry → depth entry ≤ depth earlier

/-! ### Nesting -/

theorem Under.refl (entry : Nat) : Under depth entry entry :=
  ⟨le_rfl, fun _ after upTo => absurd (lt_of_lt_of_le after upTo) (lt_irrefl entry)⟩

theorem Under.mid {entry above between : Nat} (under : Under depth entry above)
    (after : above ≤ between) (upTo : between ≤ entry) : Under depth between above :=
  ⟨after, fun other later earlier => under.2 other later (earlier.trans upTo)⟩

/-- An entry has at most one enclosing entry. -/
theorem Encloses.unique {up up' entry : Nat} (encloses : Encloses depth up entry)
    (encloses' : Encloses depth up' entry) : up = up' := by
  obtain ⟨before, shallower, nearest⟩ := encloses
  obtain ⟨before', shallower', nearest'⟩ := encloses'
  rcases lt_trichotomy up up' with less | same | more
  · exact absurd (nearest up' less before') (not_le.mpr shallower')
  · exact same
  · exact absurd (nearest' up more before) (not_le.mpr shallower)

/-- A nested entry is nested in what encloses it, too. -/
theorem Under.enclosing {entry above up : Nat} (under : Under depth entry above)
    (strictly : above < entry) (encloses : Encloses depth up entry) : Under depth up above := by
  have notBefore : above ≤ up := by
    by_contra before
    have shallow := encloses.2.2 above (not_le.mp before) strictly
    exact absurd (under.2 entry strictly le_rfl) (not_lt.mpr shallow)
  exact under.mid notBefore encloses.1.le

theorem Under.of_enclosing {entry above up : Nat} (encloses : Encloses depth up entry)
    (under : Under depth up above) : Under depth entry above := by
  obtain ⟨before, shallower, nearest⟩ := encloses
  have upDeep : depth above ≤ depth up := by
    rcases under.1.lt_or_eq with less | same
    · exact (under.2 up less le_rfl).le
    · rw [same]
  refine ⟨under.1.trans before.le, fun between after upTo => ?_⟩
  rcases le_or_gt between up with inside | outside
  · exact under.2 between after inside
  · rcases upTo.lt_or_eq with less | same
    · exact upDeep.trans_lt (shallower.trans_le (nearest between outside less))
    · rw [same]
      exact upDeep.trans_lt shallower

/-- Of the earlier entries with a property there is a latest one. -/
theorem exists_latest {P : Nat → Prop} {earlier now : Nat} (before : earlier < now)
    (holds : P earlier) : ∃ latest, earlier ≤ latest ∧ latest < now ∧ P latest ∧
      ∀ later, latest < later → later < now → ¬P later := by
  classical
  refine ⟨Nat.findGreatest P (now - 1), Nat.le_findGreatest (by omega) holds, ?_,
    Nat.findGreatest_spec (by omega : earlier ≤ now - 1) holds, fun later isLater upTo => ?_⟩
  · have bound := Nat.findGreatest_le (P := P) (now - 1)
    omega
  · exact Nat.findGreatest_is_greatest isLater (by omega)

/-- Every entry is topmost or enclosed. -/
theorem topmost_or_enclosed (depth : Nat → δ) (entry : Nat) :
    Topmost depth entry ∨ ∃ up, Encloses depth up entry := by
  by_cases isTopmost : Topmost depth entry
  · exact .inl isTopmost
  · simp only [Topmost, not_forall, not_le] at isTopmost
    obtain ⟨earlier, before, shallower⟩ := isTopmost
    obtain ⟨up, -, upBefore, upShallower, nearest⟩ :=
      exists_latest (P := (depth · < depth entry)) before shallower
    exact .inr ⟨up, upBefore, upShallower,
      fun between after upTo => not_lt.mp (nearest between after upTo)⟩

/-- **Being under an entry is being led to it by enclosing entries.** -/
theorem under_iff_chain {entry above : Nat} : Under depth entry above ↔
    Relation.ReflTransGen (fun inner up => Encloses depth up inner) entry above := by
  constructor
  · intro under
    induction entry using Nat.strongRecOn with
    | ind entry ih =>
      rcases under.1.lt_or_eq with strictly | same
      · rcases topmost_or_enclosed depth entry with isTopmost | ⟨up, encloses⟩
        · exact absurd (under.2 entry strictly le_rfl) (not_lt.mpr (isTopmost above strictly))
        · exact .head encloses (ih up encloses.1 (under.enclosing strictly encloses))
      · rw [same]
  · intro chain
    induction chain using Relation.ReflTransGen.head_induction_on with
    | refl => exact .refl above
    | head encloses _ ih => exact .of_enclosing encloses ih

/-! ### The depth stack -/

/-- The entry is followed by deeper ones only, so far. -/
def IsOpen (depth : Nat → δ) (now entry : Nat) : Prop :=
  entry < now ∧ ∀ later, entry < later → later < now → depth entry < depth later

/-- The entries still open before `now`, the latest on top. -/
structure IsOpenStack (depth : Nat → δ) (now : Nat) (stack : List Nat) : Prop where
  descending : stack.Pairwise (· > ·)
  mem_iff : ∀ entry, entry ∈ stack ↔ IsOpen depth now entry

/-- Dropping a leading run is filtering, where what is dropped stays together. -/
theorem dropWhile_eq_filter {α : Type*} {drops : α → Bool} {items : List α}
    (together : items.Pairwise fun item later => drops item = false → drops later = false) :
    items.dropWhile drops = items.filter (! drops ·) := by
  induction items with
  | nil => rfl
  | cons item rest ih =>
    rw [List.pairwise_cons] at together
    by_cases dropped : drops item = true
    · rw [List.dropWhile_cons_of_pos dropped, List.filter_cons_of_neg (by simp [dropped])]
      exact ih together.2
    · have kept : drops item = false := by simpa using dropped
      rw [List.dropWhile_cons_of_neg dropped, List.filter_cons_of_pos (by simp [kept])]
      have all : rest.filter (! drops ·) = rest := by
        rw [List.filter_eq_self]
        intro later member
        simp [together.1 later member kept]
      rw [all]

namespace IsOpenStack

variable {now : Nat} {stack : List Nat}

theorem empty : IsOpenStack depth 0 [] :=
  ⟨.nil, fun entry => ⟨fun member => absurd member List.not_mem_nil,
    fun isOpen => absurd isOpen.1 (Nat.not_lt_zero entry)⟩⟩

/-- Popping what is not shallower leaves the open entries that are. -/
theorem popped (isStack : IsOpenStack depth now stack) (bound : δ) :
    stack.dropWhile (fun entry => decide (bound ≤ depth entry)) =
      stack.filter (fun entry => decide (depth entry < bound)) := by
  rw [dropWhile_eq_filter]
  · congr
    funext entry
    simp [← not_le]
  · refine isStack.descending.imp_of_mem fun {entry other} member member' less => ?_
    have isOpen := (isStack.mem_iff other).mp member'
    have deeper := isOpen.2 entry less ((isStack.mem_iff entry).mp member).1
    intro kept
    rw [decide_eq_false_iff_not, not_le] at kept ⊢
    exact deeper.trans kept

theorem mem_popped (isStack : IsOpenStack depth now stack) (entry : Nat) :
    entry ∈ stack.dropWhile (fun entry => decide (depth now ≤ depth entry)) ↔
      IsOpen depth now entry ∧ depth entry < depth now := by
  rw [isStack.popped, List.mem_filter, isStack.mem_iff, decide_eq_true_iff]

/-- **Pop what is not shallower, push the entry: the stack of the next entry.** -/
theorem push (isStack : IsOpenStack depth now stack) : IsOpenStack depth (now + 1)
    (now :: stack.dropWhile (fun entry => decide (depth now ≤ depth entry))) := by
  refine ⟨List.pairwise_cons.mpr ⟨fun entry member => ?_, ?_⟩, fun entry => ?_⟩
  · exact ((isStack.mem_popped entry).mp member).1.1
  · rw [isStack.popped]
    exact isStack.descending.filter _
  · rw [List.mem_cons, isStack.mem_popped]
    constructor
    · rintro (rfl | ⟨⟨before, deeper⟩, shallower⟩)
      · exact ⟨by omega, fun later after upTo => by omega⟩
      · refine ⟨by omega, fun later after upTo => ?_⟩
        by_cases last : later = now
        · rw [last]
          exact shallower
        · exact deeper later after (by omega)
    · rintro ⟨before, deeper⟩
      by_cases last : entry = now
      · exact .inl last
      · have earlier : entry < now := by omega
        exact .inr ⟨⟨earlier, fun later after upTo => deeper later after (by omega)⟩,
          deeper now earlier (by omega)⟩

/-- What stays on top encloses the entry. -/
theorem top {up : Nat} (isStack : IsOpenStack depth now stack)
    (isTop : (stack.dropWhile (fun entry => decide (depth now ≤ depth entry))).head? = some up) :
    Encloses depth up now := by
  have descending : (stack.dropWhile
      (fun entry => decide (depth now ≤ depth entry))).Pairwise (· > ·) :=
    isStack.descending.sublist (List.dropWhile_sublist _)
  obtain ⟨lower, isCons⟩ := List.head?_eq_some_iff.mp isTop
  have isOpen := isStack.mem_popped up
  have members := isStack.mem_popped
  rw [isCons] at descending isOpen members
  obtain ⟨⟨before, deeper⟩, shallower⟩ := isOpen.mp List.mem_cons_self
  refine ⟨before, shallower, fun between after upTo => ?_⟩
  by_contra isShallower
  -- the latest entry in between that is shallower would still be open, above `up`
  obtain ⟨latest, isLatest, upToNow, latestShallower, greatest⟩ :=
    exists_latest (P := (depth · < depth now)) upTo (not_le.mp isShallower)
  have latestOpen : IsOpen depth now latest := ⟨upToNow, fun later isLater upTo' =>
    latestShallower.trans_le (not_lt.mp (greatest later isLater upTo'))⟩
  have member := (members latest).mpr ⟨latestOpen, latestShallower⟩
  rcases List.mem_cons.mp member with same | lowerMember
  · omega
  · have isLower := (List.pairwise_cons.mp descending).1 latest lowerMember
    omega

/-- With nothing left, the entry is topmost. -/
theorem top_none (isStack : IsOpenStack depth now stack)
    (isEmpty : (stack.dropWhile (fun entry => decide (depth now ≤ depth entry))).head? = none) :
    Topmost depth now := by
  rcases topmost_or_enclosed depth now with isTopmost | ⟨up, before, shallower, nearest⟩
  · exact isTopmost
  · have isOpen : IsOpen depth now up :=
      ⟨before, fun later after upTo => shallower.trans_le (nearest later after upTo)⟩
    have member := (isStack.mem_popped _).mpr ⟨isOpen, shallower⟩
    rw [List.head?_eq_none_iff.mp isEmpty] at member
    exact absurd member List.not_mem_nil

end IsOpenStack

end Bookrack.Outline
