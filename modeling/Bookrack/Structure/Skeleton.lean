/-
The two sweeps of `plan_tree` over the table of contents, and what they compute.

* `Owns entries i entry`: of the entries anchored not after block `i`, the one with the greatest
  `(start, index)`. **`ownerPerBlock_spec`**: the owner sweep finds it, for any anchors.
* **`orgSkeleton_spec`**: the depth stack gives every entry the nearest earlier shallower entry for
  a parent, or the root, and a tree depth one below the parent's.
-/

import Bookrack.Base.Outline
import Bookrack.Structure.Plan
import Mathlib.Data.List.GetD
import Mathlib.Data.List.TakeWhile

namespace Bookrack.Structure

open Outline

/-- The anchor of an entry. -/
def startOf (entries : List TocEntry) (entry : Nat) : Option Nat :=
  entries[entry]?.bind (·.startBlock)

/-- The TOC depth of an entry. -/
def depthOf (entries : List TocEntry) (entry : Nat) : Nat :=
  (entries[entry]?.map (·.depth)).getD 0

/-- **The owner of a block**: the entry with the greatest anchor not after it, the last one of
equals. -/
def Owns (entries : List TocEntry) (i entry : Nat) : Prop :=
  ∃ start, startOf entries entry = some start ∧ start ≤ i ∧ ∀ other start',
    startOf entries other = some start' → start' ≤ i → StartLe (start', other) (start, entry)

/-! ### The owner sweep -/

instance : Std.Total StartLe where
  total one other := by
    unfold StartLe
    omega

instance : IsTrans (Nat × Nat) StartLe where
  trans one mid other first second := by
    unfold StartLe at *
    omega

theorem mem_resolved {entries : List TocEntry} {start entry : Nat} :
    (start, entry) ∈ resolved entries ↔ startOf entries entry = some start := by
  rw [resolved, List.mem_insertionSort, List.mem_filterMap, startOf]
  constructor
  · rintro ⟨⟨found, index⟩, member, anchored⟩
    obtain ⟨start', isStart, same⟩ := Option.map_eq_some_iff.mp anchored
    obtain ⟨rfl, rfl⟩ := Prod.mk.inj same
    rw [List.mem_zipIdx_iff_getElem?] at member
    rw [show entries[index]? = some found from member]
    exact isStart
  · intro anchored
    obtain ⟨found, isEntry, isStart⟩ := Option.bind_eq_some_iff.mp anchored
    refine ⟨(found, entry), List.mem_zipIdx_iff_getElem?.mpr isEntry, ?_⟩
    rw [show found.startBlock = some start from isStart]
    rfl

theorem resolved_sorted (entries : List TocEntry) : (resolved entries).Pairwise StartLe :=
  List.pairwise_insertionSort _ _

/-- The inner loop takes the leading entries anchored not after `i`. -/
theorem advance_eq (i : Nat) (ahead : List (Nat × Nat)) (current : Option Nat) :
    advance i ahead current = (ahead.dropWhile (decide <| ·.1 ≤ i),
      ((ahead.takeWhile (decide <| ·.1 ≤ i)).getLast?.map Prod.snd).or current) := by
  induction ahead generalizing current with
  | nil => rfl
  | cons head ahead ih =>
    obtain ⟨start, entry⟩ := head
    rw [advance]
    by_cases taken : start ≤ i
    · rw [if_pos taken, ih, List.dropWhile_cons_of_pos (by simpa using taken),
        List.takeWhile_cons_of_pos (by simpa using taken), List.getLast?_cons]
      cases (ahead.takeWhile (decide <| ·.1 ≤ i)).getLast? <;> rfl
    · rw [if_neg taken, List.dropWhile_cons_of_neg (by simpa using taken),
        List.takeWhile_cons_of_neg (by simpa using taken)]
      rfl

/-- The sweep before block `i`: what it passed is anchored before `i`, and the last one is current.
-/
def Swept (entries : List TocEntry) (i : Nat) (ahead : List (Nat × Nat)) (current : Option Nat) :
    Prop :=
  ∃ behind, resolved entries = behind ++ ahead ∧ (∀ passed ∈ behind, passed.1 < i) ∧
    current = behind.getLast?.map Prod.snd

/-- The last of a sorted row is the greatest. -/
theorem startLe_getLast {row : List (Nat × Nat)} (sorted : row.Pairwise StartLe)
    {last : Nat × Nat} (isLast : row.getLast? = some last) {passed : Nat × Nat}
    (member : passed ∈ row) : StartLe passed last := by
  obtain ⟨front, rfl⟩ := List.getLast?_eq_some_iff.mp isLast
  rcases List.mem_append.mp member with inFront | isSame
  · exact (List.pairwise_append.mp sorted).2.2 passed inFront last (List.mem_singleton_self last)
  · rw [List.mem_singleton.mp isSame]
    exact .inr ⟨rfl, le_rfl⟩

/-- At block `i` the sweep's current entry is the block's owner. -/
theorem advance_spec {entries : List TocEntry} {i : Nat} {ahead : List (Nat × Nat)}
    {current : Option Nat} (swept : Swept entries i ahead current) :
    Swept entries (i + 1) (advance i ahead current).1 (advance i ahead current).2 ∧
      ∀ entry, (advance i ahead current).2 = some entry ↔ Owns entries i entry := by
  obtain ⟨behind, isAll, before, rfl⟩ := swept
  have sorted := resolved_sorted entries
  rw [advance_eq]
  set taken := ahead.takeWhile (decide <| ·.1 ≤ i)
  set left := ahead.dropWhile (decide <| ·.1 ≤ i) with isLeft
  have isAll' : resolved entries = (behind ++ taken) ++ left := by
    rw [isAll, List.append_assoc, List.takeWhile_append_dropWhile]
  have upTo : ∀ passed ∈ behind ++ taken, passed.1 ≤ i := by
    intro passed member
    rcases List.mem_append.mp member with earlier | now
    · exact (before passed earlier).le
    · simpa using List.mem_takeWhile_imp now
  have later : ∀ other ∈ left, i < other.1 := by
    intro other member
    rw [isAll', List.pairwise_append] at sorted
    cases first : left with
    | nil => simp [first] at member
    | cons head rest =>
      have stops : ¬head.1 ≤ i := by
        have heads := List.head?_dropWhile_not (decide <| ·.1 ≤ i) ahead
        rw [← isLeft, first, List.head?_cons] at heads
        simpa using heads
      rw [first] at member
      rcases List.mem_cons.mp member with rfl | inRest
      · omega
      · have le := (List.pairwise_cons.mp (first ▸ sorted.2.1)).1 other inRest
        unfold StartLe at le
        omega
  have isCurrent : (taken.getLast?.map Prod.snd).or (behind.getLast?.map Prod.snd) =
      (behind ++ taken).getLast?.map Prod.snd := by
    rw [List.getLast?_append]
    cases taken.getLast? <;> rfl
  refine ⟨⟨behind ++ taken, isAll', fun passed member => Nat.lt_succ_of_le (upTo passed member),
    isCurrent⟩, fun entry => ?_⟩
  have anchored : ∀ {other start}, startOf entries other = some start → start ≤ i →
      (start, other) ∈ behind ++ taken := by
    intro other start isStart notAfter
    have member := mem_resolved.mpr isStart
    rw [isAll'] at member
    rcases List.mem_append.mp member with passed | ahead'
    · exact passed
    · have := later _ ahead'
      omega
  have greatest : ∀ {last}, (behind ++ taken).getLast? = some last →
      ∀ passed ∈ behind ++ taken, StartLe passed last := by
    intro last isLast passed member
    rw [isAll', List.pairwise_append] at sorted
    exact startLe_getLast sorted.1 isLast member
  rw [isCurrent, Option.map_eq_some_iff]
  constructor
  · rintro ⟨⟨start, entry'⟩, isLast, rfl⟩
    have member := List.mem_of_getLast? isLast
    refine ⟨start, mem_resolved.mp (isAll' ▸ List.mem_append_left _ member), upTo _ member, ?_⟩
    intro other start' isStart notAfter
    exact greatest isLast _ (anchored isStart notAfter)
  · rintro ⟨start, isStart, notAfter, isGreatest⟩
    have member := anchored isStart notAfter
    obtain ⟨last, isLast⟩ := Option.isSome_iff_exists.mp
      (List.getLast?_isSome.mpr (List.ne_nil_of_mem member))
    have atMost := greatest isLast _ member
    have isLastAnchored := mem_resolved.mp (isAll' ▸ List.mem_append_left _
      (List.mem_of_getLast? isLast))
    have atLeast := isGreatest last.2 last.1 isLastAnchored (upTo _ (List.mem_of_getLast? isLast))
    refine ⟨last, isLast, ?_⟩
    unfold StartLe at atMost atLeast
    simp only at atMost atLeast
    omega

theorem ownerSweep_spec {entries : List TocEntry} {count : Nat} :
    ∀ {i : Nat} {ahead : List (Nat × Nat)} {current : Option Nat}, Swept entries i ahead current →
      ∀ step < count, ∃ owner, (ownerSweep ahead current i count)[step]? = some owner ∧
        ∀ entry, owner = some entry ↔ Owns entries (i + step) entry := by
  induction count with
  | zero => exact fun _ step before => absurd before (Nat.not_lt_zero step)
  | succ count ih =>
    intro i ahead current swept step before
    obtain ⟨next, owns⟩ := advance_spec swept
    match step with
    | 0 => exact ⟨_, rfl, owns⟩
    | step + 1 =>
      obtain ⟨owner, isOwner, spec⟩ := ih next step (by omega)
      refine ⟨owner, isOwner, ?_⟩
      rw [show i + (step + 1) = i + 1 + step by omega]
      exact spec

/-- **The owner sweep finds the owner of every block.** -/
theorem ownerPerBlock_spec (extraction : Extraction) {i : Nat}
    (inside : i < extraction.blocks.length) (entry : Nat) :
    (ownerPerBlock extraction).getD i none = some entry ↔ Owns extraction.toc i entry := by
  have start : Swept extraction.toc 0 (resolved extraction.toc) none :=
    ⟨[], rfl, fun _ member => absurd member List.not_mem_nil, rfl⟩
  obtain ⟨owner, isOwner, spec⟩ := ownerSweep_spec start i inside
  rw [ownerPerBlock, List.getD_eq_getElem?_getD, isOwner, Option.getD_some, spec, Nat.zero_add]

/-- A block with an entry anchored not after it has an owner. -/
theorem exists_owner {entries : List TocEntry} {i entry start : Nat}
    (isStart : startOf entries entry = some start) (notAfter : start ≤ i) :
    ∃ owner, Owns entries i owner := by
  have member : ∀ {other start'}, startOf entries other = some start' → start' ≤ i →
      (start', other) ∈ (resolved entries).filter (decide <| ·.1 ≤ i) :=
    fun isStart' notAfter' =>
      List.mem_filter.mpr ⟨mem_resolved.mpr isStart', decide_eq_true notAfter'⟩
  obtain ⟨last, isLast⟩ := Option.isSome_iff_exists.mp
    (List.getLast?_isSome.mpr (List.ne_nil_of_mem (member isStart notAfter)))
  obtain ⟨isResolved, upTo⟩ := List.mem_filter.mp (List.mem_of_getLast? isLast)
  refine ⟨last.2, last.1, mem_resolved.mp isResolved, of_decide_eq_true upTo, ?_⟩
  intro other start' isStart' notAfter'
  exact startLe_getLast ((resolved_sorted entries).filter _) isLast (member isStart' notAfter')

theorem Owns.inside {entries : List TocEntry} {i entry : Nat} (owns : Owns entries i entry) :
    entry < entries.length := by
  obtain ⟨start, isStart, -⟩ := owns
  obtain ⟨found, isEntry, -⟩ := Option.bind_eq_some_iff.mp isStart
  exact (List.getElem?_eq_some_iff.mp isEntry).1

/-! ### The depth stack -/

/-- An entry's parent and depth: those its enclosing entry gives, or the root's child. -/
def Placed (entries : List TocEntry) (state : OrgState) (entry : Nat) : Prop :=
  (∃ up, Encloses (depthOf entries) up entry ∧ state.parents[entry]? = some (orgIndex up) ∧
    ∃ depth, state.depths[up]? = some depth ∧ state.depths[entry]? = some (depth + 1)) ∨
  (Topmost (depthOf entries) entry ∧ state.parents[entry]? = some rootIndex ∧
    state.depths[entry]? = some 1)

/-- The loop before entry `now`. -/
structure OrgInvariant (entries : List TocEntry) (now : Nat) (state : OrgState) : Prop where
  isStack : IsOpenStack (depthOf entries) now (state.stack.map Prod.fst)
  tagged : ∀ top ∈ state.stack, top.2 = depthOf entries top.1
  parents : state.parents.length = now
  depths : state.depths.length = now
  placed : ∀ entry < now, Placed entries state entry

/-- What an entry was given stays as the loop goes on. -/
theorem Placed.append {entries : List TocEntry} {state : OrgState} {entry : Nat}
    (placed : Placed entries state entry) {stack : List (Nat × Nat)} (parents : List Nat)
    (depths : List Int) : Placed entries
      { stack := stack, parents := state.parents ++ parents, depths := state.depths ++ depths }
      entry := by
  have kept : ∀ {α : Type} {items more : List α} {index : Nat} {item : α},
      items[index]? = some item → (items ++ more)[index]? = some item := by
    intro α items more index item isItem
    rw [List.getElem?_append_left (List.getElem?_eq_some_iff.mp isItem).1]
    exact isItem
  rcases placed with ⟨up, encloses, parent, depth, upDepth, own⟩ | ⟨topmost, parent, own⟩
  · exact .inl ⟨up, encloses, kept parent, depth, kept upDepth, kept own⟩
  · exact .inr ⟨topmost, kept parent, kept own⟩

theorem orgStep_invariant {entries : List TocEntry} {now : Nat} {state : OrgState}
    (holds : OrgInvariant entries now state) {entry : TocEntry}
    (isEntry : entries[now]? = some entry) :
    OrgInvariant entries (now + 1) (orgStep state (entry, now)) := by
  have ownDepth : depthOf entries now = entry.depth := by rw [depthOf, isEntry]; rfl
  have popped : (state.stack.dropWhile fun top => decide (entry.depth ≤ top.2)).map Prod.fst =
      (state.stack.map Prod.fst).dropWhile
        fun up => decide (depthOf entries now ≤ depthOf entries up) := by
    rw [List.dropWhile_map, ownDepth]
    congr 1
    have tagged := holds.tagged
    generalize state.stack = stack at tagged
    induction stack with
    | nil => rfl
    | cons top lower ih =>
      rw [List.dropWhile_cons, List.dropWhile_cons, tagged top List.mem_cons_self,
        ih fun top member => tagged top (List.mem_cons_of_mem _ member)]
      rfl
  set left := state.stack.dropWhile fun top => decide (entry.depth ≤ top.2) with isLeft
  have taggedLeft : ∀ top ∈ left, top.2 = depthOf entries top.1 := fun top member =>
    holds.tagged top ((List.dropWhile_sublist _).subset member)
  have own : Placed entries (orgStep state (entry, now)) now := by
    unfold orgStep
    simp only [← isLeft]
    cases isTop : left.head? with
    | none =>
      right
      have empty : (left.map Prod.fst).head? = none := by rw [List.head?_map, isTop]; rfl
      rw [popped] at empty
      refine ⟨holds.isStack.top_none empty, ?_, ?_⟩
      · simp [← holds.parents]
      · simp [← holds.depths]
    | some top =>
      left
      have onTop : (left.map Prod.fst).head? = some top.1 := by rw [List.head?_map, isTop]; rfl
      rw [popped] at onTop
      have encloses := holds.isStack.top onTop
      have inside : top.1 < state.depths.length := by
        rw [holds.depths]
        exact encloses.1
      refine ⟨top.1, encloses, ?_, state.depths[top.1], ?_, ?_⟩
      · simp [← holds.parents]
      · rw [List.getElem?_append_left inside, List.getElem?_eq_getElem inside]
      · rw [List.getElem?_append_right (by rw [holds.depths]), holds.depths, Nat.sub_self]
        show some (state.depths.getD top.1 0 + 1) = _
        rw [List.getD_eq_getElem _ _ inside]
  refine ⟨?_, ?_, ?_, ?_, ?_⟩
  · show IsOpenStack _ _ (now :: left.map Prod.fst)
    rw [popped]
    exact holds.isStack.push
  · intro top member
    rcases List.mem_cons.mp member with rfl | lower
    · exact ownDepth.symm
    · exact taggedLeft top lower
  · show (state.parents ++ [_]).length = now + 1
    rw [List.length_append, holds.parents]
    rfl
  · show (state.depths ++ [_]).length = now + 1
    rw [List.length_append, holds.depths]
    rfl
  · intro earlier before
    by_cases last : earlier = now
    · rw [last]
      exact own
    · exact (holds.placed earlier (by omega)).append _ _

theorem orgSkeleton_from {entries : List TocEntry} (rest : List TocEntry) :
    ∀ {now : Nat} {state : OrgState}, OrgInvariant entries now state → entries.drop now = rest →
      OrgInvariant entries (now + rest.length) ((rest.zipIdx now).foldl orgStep state) := by
  induction rest with
  | nil => exact fun holds _ => holds
  | cons entry rest ih =>
    intro now state holds isRest
    have isEntry : entries[now]? = some entry := by
      rw [← List.head?_drop, isRest]
      rfl
    have next := ih (orgStep_invariant holds isEntry) (by rw [← List.drop_drop, isRest]; rfl)
    rw [List.zipIdx_cons, List.foldl_cons, List.length_cons, Nat.add_comm rest.length,
      ← Nat.add_assoc]
    exact next

/-- **The depth stack nests every entry under the nearest earlier shallower one.** -/
theorem orgSkeleton_spec (entries : List TocEntry) {entry : Nat}
    (inside : entry < entries.length) : Placed entries (orgSkeleton entries) entry := by
  have start : OrgInvariant entries 0 { stack := [], parents := [], depths := [] } :=
    ⟨IsOpenStack.empty, fun _ member => absurd member List.not_mem_nil, rfl, rfl,
      fun entry before => absurd before (Nat.not_lt_zero entry)⟩
  have done := orgSkeleton_from entries start (by rw [List.drop_zero])
  exact done.placed entry (by omega)

end Bookrack.Structure
