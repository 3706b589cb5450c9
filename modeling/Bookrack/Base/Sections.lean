/-
Lines under headings, over a list of blocks: a line either opens an entry or belongs to one.

* `dest`: where a line goes. After a heading of its own block, to the nearest one; before the first,
  and where its block hands lines back, to the last entry of an earlier block; else it is lost.
* `expected`: the entries and the lost lines these destinations give.
* `expected_block`: what one block adds to them, by its `Cut` into lines before the first heading and
  sections.
-/

import Mathlib.Data.List.Basic
import Mathlib.Data.List.Induction
import Mathlib.Data.List.TakeWhile

namespace Sections

variable {α : Type}

/-! ### Destinations -/

/-- A line of a block: whether it opens an entry, and whether its block hands back the lines before
its first heading. -/
structure Line (α : Type) where
  block : Nat
  opens : Bool
  splices : Bool
  value : α
  deriving DecidableEq, Repr

/-- Where a line goes; entries are numbered as they are opened. -/
inductive Dest
  | opens (entry : Nat)
  | follows (entry : Nat)
  | spliced (entry : Nat)
  | lost
  deriving DecidableEq, Repr

/-- The last entry opened by a line of some kind. -/
def lastOpened (kind : Line α → Bool) (before : List (Line α)) : Option Nat :=
  ((before.filter Line.opens).zipIdx.filter fun entry => kind entry.1).getLast?.map Prod.snd

/-- The destination of a line, by the lines before it. -/
def dest (before : List (Line α)) (line : Line α) : Dest :=
  if line.opens then .opens (before.countP Line.opens)
  else
    match lastOpened (fun other => decide (other.block = line.block)) before with
    | some entry => .follows entry
    | none =>
      if line.splices then
        match lastOpened (fun other => decide (other.block < line.block)) before with
        | some entry => .spliced entry
        | none => .lost
      else .lost

/-- Each line with its destination. -/
def placedFrom : List (Line α) → List (Line α) → List (Line α × Dest)
  | _, [] => []
  | before, line :: rest => (line, dest before line) :: placedFrom (before ++ [line]) rest

def placed (lines : List (Line α)) : List (Line α × Dest) := placedFrom [] lines

/-- An entry: its heading, its body, and whether lines were handed back to it. -/
structure Entry (α : Type) where
  heading : α
  body : List α
  spliced : Bool
  deriving DecidableEq, Repr

/-- The entry of a number: the lines that go there, in order. -/
def entryAt (lines : List (Line α × Dest)) (heading : Line α × Nat) : Entry α :=
  ⟨heading.1.value,
    (lines.filter fun line => line.2 = .follows heading.2 ∨ line.2 = .spliced heading.2).map
      fun line => line.1.value,
    lines.any fun line => line.2 = .spliced heading.2⟩

/-- The entries and the number of lost lines. -/
def expected (lines : List (Line α)) : List (Entry α) × Nat :=
  ((lines.filter Line.opens).zipIdx.map (entryAt (placed lines)),
    (placed lines).countP fun line => line.2 = .lost)

/-! ### One more line -/

theorem placedFrom_append (before lines rest : List (Line α)) :
    placedFrom before (lines ++ rest) = placedFrom before lines ++ placedFrom (before ++ lines) rest := by
  induction lines generalizing before with
  | nil => rw [List.append_nil]; rfl
  | cons line lines ih =>
    rw [List.cons_append, placedFrom, placedFrom, ih, List.append_assoc]
    rfl

theorem placed_concat (lines : List (Line α)) (line : Line α) :
    placed (lines ++ [line]) = placed lines ++ [(line, dest lines line)] :=
  placedFrom_append [] lines [line]

theorem lastOpened_lt {kind : Line α → Bool} {before : List (Line α)} {entry : Nat}
    (isLast : lastOpened kind before = some entry) : entry < before.countP Line.opens := by
  obtain ⟨opened, isOpened, rfl⟩ := Option.map_eq_some_iff.mp isLast
  have member := (List.mem_filter.mp (List.mem_of_getLast? isOpened)).1
  rw [List.countP_eq_length_filter]
  obtain ⟨_, number⟩ := opened
  exact (List.mem_zipIdx' member).1

theorem dest_lt {before : List (Line α)} {line : Line α} {entry : Nat}
    (goes : dest before line = .follows entry ∨ dest before line = .spliced entry) :
    entry < before.countP Line.opens := by
  unfold dest at goes
  split at goes
  · rcases goes with isDest | isDest <;> cases isDest
  · split at goes
    · next isLast =>
      rcases goes with isDest | isDest
      · exact Dest.follows.inj isDest ▸ lastOpened_lt isLast
      · cases isDest
    · split at goes
      · split at goes
        · next isLast =>
          rcases goes with isDest | isDest
          · cases isDest
          · exact Dest.spliced.inj isDest ▸ lastOpened_lt isLast
        · rcases goes with isDest | isDest <;> cases isDest
      · rcases goes with isDest | isDest <;> cases isDest

/-- Lines go to entries that are open. -/
theorem placed_lt {lines : List (Line α)} {one : Line α × Dest} (member : one ∈ placed lines)
    {entry : Nat} (goes : one.2 = .follows entry ∨ one.2 = .spliced entry) :
    entry < lines.countP Line.opens := by
  induction lines using List.reverseRecOn with
  | nil => cases member
  | append_singleton lines line ih =>
    rw [placed_concat] at member
    rw [List.countP_append]
    rcases List.mem_append.mp member with earlier | isLast
    · exact Nat.lt_add_right _ (ih earlier)
    · rw [List.mem_singleton.mp isLast] at goes
      exact Nat.lt_add_right _ (dest_lt goes)

/-- A line added to an entry. -/
def Entry.take (dest : Dest) (number : Nat) (value : α) (entry : Entry α) : Entry α :=
  if dest = .follows number then { entry with body := entry.body ++ [value] }
  else if dest = .spliced number then { entry with body := entry.body ++ [value], spliced := true }
  else entry

theorem entryAt_concat (lines : List (Line α × Dest)) (line : Line α) (dest : Dest)
    (heading : Line α × Nat) : entryAt (lines ++ [(line, dest)]) heading =
      (entryAt lines heading).take dest heading.2 line.value := by
  unfold entryAt Entry.take
  rw [List.filter_append, List.map_append, List.any_append]
  by_cases isFollows : dest = .follows heading.2
  · rw [if_pos isFollows]
    simp [isFollows]
  · by_cases isSpliced : dest = .spliced heading.2
    · rw [if_neg isFollows, if_pos isSpliced]
      simp [isSpliced]
    · rw [if_neg isFollows, if_neg isSpliced]
      simp [isFollows, isSpliced]

section Steps

variable {lines : List (Line α)} {line : Line α}

theorem length_expected (lines : List (Line α)) :
    (expected lines).1.length = lines.countP Line.opens := by
  rw [expected, List.length_map, List.length_zipIdx, List.countP_eq_length_filter]

/-- A heading opens an entry. -/
theorem expected_opens (isHeading : line.opens = true) :
    expected (lines ++ [line]) =
      ((expected lines).1 ++ [⟨line.value, [], false⟩], (expected lines).2) := by
  have isDest : dest lines line = .opens (lines.countP Line.opens) := by
    rw [dest, if_pos isHeading]
  have others : ∀ heading : Line α × Nat,
      entryAt (placed (lines ++ [line])) heading = entryAt (placed lines) heading := by
    intro heading
    rw [placed_concat, entryAt_concat, isDest]
    rfl
  have isNew : entryAt (placed lines) (line, (lines.filter Line.opens).length) =
      ⟨line.value, [], false⟩ := by
    have noneGoes : ∀ one ∈ placed lines,
        ¬(one.2 = .follows (lines.countP Line.opens) ∨ one.2 = .spliced (lines.countP Line.opens)) :=
      fun one member goes => lt_irrefl _ (placed_lt member goes)
    rw [← List.countP_eq_length_filter, entryAt]
    congr 1
    · rw [List.map_eq_nil_iff, List.filter_eq_nil_iff]
      intro one member isHere
      exact noneGoes one member (of_decide_eq_true isHere)
    · rw [List.any_eq_false]
      intro one member isHere
      exact noneGoes one member (.inr (of_decide_eq_true isHere))
  unfold expected
  rw [List.filter_append, List.filter_cons_of_pos isHeading, List.zipIdx_append, List.map_append,
    List.filter_nil, List.zipIdx_singleton, List.map_singleton, others, Nat.zero_add, isNew]
  congr 1
  · exact congrArg (· ++ _) (List.map_congr_left fun heading _ => others heading)
  · rw [placed_concat, List.countP_append, isDest]
    rfl

/-- Any other line goes into an entry or is lost. -/
theorem expected_goes (isPlain : line.opens = false) :
    expected (lines ++ [line]) =
      ((expected lines).1.mapIdx fun number entry => entry.take (dest lines line) number line.value,
        (expected lines).2 + if dest lines line = .lost then 1 else 0) := by
  unfold expected
  rw [List.filter_append, List.filter_cons_of_neg (by simp [isPlain]), List.filter_nil, List.append_nil,
    placed_concat, List.countP_append]
  congr 1
  · refine List.ext_getElem (by simp) fun number inBounds inBounds' => ?_
    rw [List.getElem_mapIdx, List.getElem_map, List.getElem_map, entryAt_concat]
    simp
  · by_cases isLost : dest lines line = .lost
    · rw [if_pos isLost]
      simp [isLost]
    · rw [if_neg isLost]
      simp [isLost]

/-- A line for the last entry. -/
theorem mapIdx_take_last {dest : Dest} {entries : List (Entry α)} {last : Entry α} {value : α}
    (goes : dest = .follows entries.length ∨ dest = .spliced entries.length) :
    ((entries ++ [last]).mapIdx fun number entry => entry.take dest number value) =
      entries ++ [last.take dest entries.length value] := by
  have others : ∀ {number : Nat} {entry : Entry α}, number ≠ entries.length →
      entry.take dest number value = entry := by
    intro number entry isOther
    unfold Entry.take
    rcases goes with rfl | rfl
    · rw [if_neg fun same => isOther (Dest.follows.inj same).symm, if_neg (by simp)]
    · rw [if_neg (by simp), if_neg fun same => isOther (Dest.spliced.inj same).symm]
  rw [List.mapIdx_append, List.mapIdx_singleton, Nat.zero_add]
  refine congrArg (· ++ _) (List.ext_getElem (by simp) fun number inBounds inBounds' => ?_)
  rw [List.getElem_mapIdx]
  exact others (Nat.ne_of_lt inBounds')

theorem mapIdx_take_lost (entries : List (Entry α)) (value : α) :
    (entries.mapIdx fun number entry => entry.take .lost number value) = entries :=
  List.ext_getElem (by simp) fun number inBounds inBounds' => by
    rw [List.getElem_mapIdx]
    rfl

end Steps

/-! ### One block -/

/-- The lines of a block: those before the first heading, the closed sections, and the open one. -/
structure Cut (α : Type) where
  before : List α
  done : List (α × List α)
  current : Option (α × List α)
  deriving DecidableEq, Repr

/-- One line read. -/
def Cut.read (cut : Cut α) (opens : Bool) (value : α) : Cut α :=
  if opens then ⟨cut.before, cut.done ++ cut.current.toList, some (value, [])⟩
  else
    match cut.current with
    | some part => ⟨cut.before, cut.done, some (part.1, part.2 ++ [value])⟩
    | none => ⟨cut.before ++ [value], cut.done, none⟩

def cut (lines : List (Line α)) : Cut α :=
  lines.foldl (fun cut line => cut.read line.opens line.value) ⟨[], [], none⟩

/-- The entry of a section. -/
def sectionEntry (part : α × List α) : Entry α := ⟨part.1, part.2, false⟩

/-- Lines handed back to an entry. -/
def Entry.handed (values : List α) (entry : Entry α) : Entry α :=
  { entry with body := entry.body ++ values, spliced := true }

/-- Lines before the first heading: to the last entry, or lost. -/
def handBack (splices : Bool) (values : List α) (state : List (Entry α) × Nat) :
    List (Entry α) × Nat :=
  if values = [] then state
  else
    match if splices then state.1.getLast? else none with
    | some last => (state.1.dropLast ++ [last.handed values], state.2)
    | none => (state.1, state.2 + values.length)

/-- What a block does to the entries. -/
def placeBlock (splices : Bool) (cut : Cut α) (state : List (Entry α) × Nat) :
    List (Entry α) × Nat :=
  let (entries, lost) := handBack splices cut.before state
  (entries ++ (cut.done ++ cut.current.toList).map sectionEntry, lost)

section Blocks

variable {kind : Line α → Bool} {before earlier same : List (Line α)} {line : Line α}

theorem lastOpened_last {opened : List (Line α)} (isOpened : before.filter Line.opens = opened ++ [line])
    (isKind : kind line = true) : lastOpened kind before = some opened.length := by
  rw [lastOpened, isOpened, List.zipIdx_append, List.filter_append, List.zipIdx_singleton,
    List.filter_cons_of_pos (by exact isKind), List.filter_nil, List.getLast?_concat]
  simp

theorem lastOpened_none (isOther : ∀ one ∈ before, one.opens = true → kind one = false) :
    lastOpened kind before = none := by
  rw [lastOpened, Option.map_eq_none_iff, List.getLast?_eq_none_iff, List.filter_eq_nil_iff]
  rintro ⟨one, number⟩ member
  have isOpened := List.mem_filter.mp (List.fst_mem_of_mem_zipIdx member)
  rw [isOther one isOpened.1 isOpened.2]
  exact Bool.false_ne_true

theorem cut_concat (lines : List (Line α)) (line : Line α) :
    cut (lines ++ [line]) = (cut lines).read line.opens line.value := by
  rw [cut, List.foldl_append]
  rfl

/-- The sections are the headings. -/
theorem cut_headings (lines : List (Line α)) :
    ((cut lines).done ++ (cut lines).current.toList).length = lines.countP Line.opens ∧
      ((cut lines).current = none → (cut lines).done = []) := by
  induction lines using List.reverseRecOn with
  | nil => exact ⟨rfl, fun _ => rfl⟩
  | append_singleton lines line ih =>
    obtain ⟨counted, closed⟩ := ih
    rw [cut_concat, List.countP_append, List.countP_singleton, ← counted]
    by_cases isHeading : line.opens = true
    · simp [Cut.read, isHeading, Nat.add_assoc]
    · cases isCurrent : (cut lines).current with
      | none => simp [Cut.read, isHeading, isCurrent, closed isCurrent]
      | some part => simp [Cut.read, isHeading, isCurrent]

theorem handBack_last {values : List α} (isAny : values ≠ []) {entries : List (Entry α)} {last : Entry α}
    {lost : Nat} : handBack true values (entries ++ [last], lost) =
      (entries ++ [last.handed values], lost) := by
  simp [handBack, isAny]

theorem handBack_lost {splices : Bool} {entries : List (Entry α)} (noTarget : splices = false ∨ entries = [])
    (values : List α) (lost : Nat) :
    handBack splices values (entries, lost) = (entries, lost + values.length) := by
  unfold handBack
  split_ifs with isNone isSplices
  · rw [isNone]
    rfl
  · rcases noTarget with isOff | rfl
    · rw [isOff] at isSplices
      cases isSplices
    · rfl
  · rfl

/-- After a heading of its block a line goes to the last entry. -/
theorem dest_follows {opened : List (Line α)} {last : Line α}
    (isOpened : before.filter Line.opens = opened ++ [last]) (isHere : last.block = line.block)
    (isPlain : line.opens = false) : dest before line = .follows opened.length := by
  rw [dest, if_neg (by simp [isPlain]), lastOpened_last isOpened (decide_eq_true isHere)]

/-- Before any heading of its block a line is handed back to the last entry. -/
theorem dest_spliced {opened : List (Line α)} {last : Line α}
    (isOpened : before.filter Line.opens = opened ++ [last])
    (allEarlier : ∀ one ∈ before, one.opens = true → one.block < line.block)
    (isPlain : line.opens = false) (splices : line.splices = true) :
    dest before line = .spliced opened.length := by
  have isLast := List.mem_filter.mp (isOpened ▸ List.mem_append_right _ (List.mem_singleton_self _))
  rw [dest, if_neg (by simp [isPlain]), if_pos splices, lastOpened_none fun one member isHeading =>
    decide_eq_false (allEarlier one member isHeading).ne, lastOpened_last isOpened
      (decide_eq_true (allEarlier last isLast.1 isLast.2))]

theorem dest_lost (allEarlier : ∀ one ∈ before, one.opens = true → one.block < line.block)
    (isPlain : line.opens = false)
    (noTarget : line.splices = false ∨ before.filter Line.opens = []) : dest before line = .lost := by
  rw [dest, if_neg (by simp [isPlain]), lastOpened_none fun one member isHeading =>
    decide_eq_false (allEarlier one member isHeading).ne]
  rcases noTarget with isOff | noneOpened
  · rw [isOff]
    rfl
  · have none : lastOpened (fun other => decide (other.block < line.block)) before = none := by
      rw [lastOpened, noneOpened]
      rfl
    rw [none]
    split_ifs <;> rfl

/-- The last heading of a list with one. -/
theorem exists_last (isAny : 0 < same.countP Line.opens) (earlier : List (Line α)) :
    ∃ opened last, (earlier ++ same).filter Line.opens = opened ++ [last] ∧ last ∈ same := by
  rw [List.countP_eq_length_filter] at isAny
  obtain ⟨opened, last, isOpened⟩ := (List.eq_nil_or_concat (same.filter Line.opens)).resolve_left
    (List.ne_nil_of_length_pos isAny)
  rw [List.concat_eq_append] at isOpened
  refine ⟨earlier.filter Line.opens ++ opened, last, ?_, ?_⟩
  · rw [List.filter_append, isOpened, List.append_assoc]
  · have isLast : last ∈ same.filter Line.opens :=
      isOpened ▸ List.mem_append_right _ (List.mem_singleton_self _)
    exact (List.mem_filter.mp isLast).1

/-- A line after a heading of its block. -/
theorem expected_section {splices : Bool} {part : α × List α}
    (isSame : ∀ one ∈ same, one.block = line.block) (isPlain : line.opens = false)
    (isCurrent : (cut same).current = some part)
    (sofar : expected (earlier ++ same) = placeBlock splices (cut same) (expected earlier)) :
    expected (earlier ++ same ++ [line]) =
      placeBlock splices ((cut same).read line.opens line.value) (expected earlier) := by
  have counted := (cut_headings same).1
  rw [isCurrent] at counted
  have isAny : 0 < same.countP Line.opens := by
    rw [← counted]
    simp
  obtain ⟨opened, last, isOpened, isLast⟩ := exists_last isAny earlier
  have isDest := dest_follows isOpened (isSame last isLast) isPlain
  have lengths := length_expected (earlier ++ same)
  rw [List.countP_eq_length_filter, isOpened, List.length_append, List.length_singleton] at lengths
  rw [expected_goes isPlain, isDest]
  cases isBack : handBack splices (cut same).before (expected earlier) with
  | mk entries lost =>
    have isEntries : expected (earlier ++ same) =
        (entries ++ (cut same).done.map sectionEntry ++ [sectionEntry part], lost) := by
      rw [sofar, placeBlock, isBack, isCurrent]
      simp
    rw [isEntries] at lengths ⊢
    have isLength : opened.length = (entries ++ (cut same).done.map sectionEntry).length := by
      simp only [List.length_append, List.length_singleton] at lengths ⊢
      omega
    rw [isLength, mapIdx_take_last (.inl rfl), placeBlock]
    simp [Cut.read, isPlain, isCurrent, isBack, Entry.take, sectionEntry]

/-- A line before the first heading of its block. -/
theorem expected_back {splices : Bool} (isEarlier : ∀ one ∈ earlier, one.block < line.block)
    (isPlain : line.opens = false) (isSplices : line.splices = splices)
    (isCurrent : (cut same).current = none)
    (sofar : expected (earlier ++ same) = placeBlock splices (cut same) (expected earlier)) :
    expected (earlier ++ same ++ [line]) =
      placeBlock splices ((cut same).read line.opens line.value) (expected earlier) := by
  obtain ⟨counted, closed⟩ := cut_headings same
  rw [isCurrent, closed isCurrent] at counted
  have noHeading : same.filter Line.opens = [] :=
    List.eq_nil_of_length_eq_zero (by rw [← List.countP_eq_length_filter, ← counted]; rfl)
  have isOpened : (earlier ++ same).filter Line.opens = earlier.filter Line.opens := by
    rw [List.filter_append, noHeading, List.append_nil]
  have allEarlier : ∀ one ∈ earlier ++ same, one.opens = true → one.block < line.block := by
    intro one member isHeading
    have isOne : one ∈ earlier.filter Line.opens :=
      isOpened ▸ List.mem_filter.mpr ⟨member, isHeading⟩
    exact isEarlier one (List.mem_filter.mp isOne).1
  have isBlock : ∀ state : List (Entry α) × Nat,
      placeBlock splices (cut same) state = handBack splices (cut same).before state := by
    intro state
    rw [placeBlock, isCurrent, closed isCurrent]
    simp
  have isNext : placeBlock splices ((cut same).read line.opens line.value) (expected earlier) =
      handBack splices ((cut same).before ++ [line.value]) (expected earlier) := by
    simp [placeBlock, Cut.read, isPlain, isCurrent, closed isCurrent]
  have lengths := length_expected earlier
  rw [List.countP_eq_length_filter] at lengths
  rw [expected_goes isPlain, isNext, sofar, isBlock]
  cases isState : expected earlier with
  | mk entries lost =>
  rw [isState] at lengths
  by_cases noTarget : splices = false ∨ entries = []
  · -- the line is lost with the others
    have isDest : dest (earlier ++ same) line = .lost := by
      refine dest_lost allEarlier isPlain (noTarget.imp isSplices.trans fun noEntry => ?_)
      rw [isOpened]
      exact List.eq_nil_of_length_eq_zero (by rw [← lengths, noEntry]; rfl)
    rw [isDest, handBack_lost noTarget, handBack_lost noTarget, if_pos rfl, mapIdx_take_lost]
    simp [Nat.add_assoc]
  · -- the line is handed back with the others
    rw [not_or, Bool.not_eq_false] at noTarget
    obtain ⟨isOn, isAny⟩ := noTarget
    obtain ⟨others, target, isTarget⟩ := (List.eq_nil_or_concat entries).resolve_left isAny
    rw [List.concat_eq_append] at isTarget
    have isPos : 0 < (earlier.filter Line.opens).length := by
      rw [← lengths, isTarget]
      simp
    obtain ⟨opened, last, isLast⟩ := (List.eq_nil_or_concat (earlier.filter Line.opens)).resolve_left
      (List.ne_nil_of_length_pos isPos)
    rw [List.concat_eq_append] at isLast
    have isLength : opened.length = others.length := by
      rw [isTarget, isLast] at lengths
      simpa using lengths.symm
    have isDest := dest_spliced (isOpened.trans isLast) allEarlier isPlain (isSplices.trans isOn)
    have isMore : (cut same).before ++ [line.value] ≠ [] := by simp
    rw [isDest, isLength, isOn, isTarget, handBack_last isMore]
    have isBack : ∃ entry, handBack true (cut same).before (others ++ [target], lost) =
        (others ++ [entry], lost) ∧ entry.take (.spliced others.length) others.length line.value =
          target.handed ((cut same).before ++ [line.value]) := by
      by_cases isNone : (cut same).before = []
      · refine ⟨target, by rw [handBack, if_pos isNone], ?_⟩
        rw [isNone]
        simp [Entry.take, Entry.handed]
      · refine ⟨_, handBack_last isNone, ?_⟩
        simp [Entry.take, Entry.handed]
    obtain ⟨entry, isBack, isEntry⟩ := isBack
    rw [isBack, mapIdx_take_last (.inr rfl), isEntry]
    rfl

/-- **What one block adds.** -/
theorem expected_block {number : Nat} {splices : Bool}
    (isEarlier : ∀ one ∈ earlier, one.block < number)
    (isSame : ∀ one ∈ same, one.block = number ∧ one.splices = splices) :
    expected (earlier ++ same) = placeBlock splices (cut same) (expected earlier) := by
  induction same using List.reverseRecOn with
  | nil =>
    rw [List.append_nil]
    simp [placeBlock, cut, handBack]
  | append_singleton same line ih =>
    have sameBefore : ∀ one ∈ same, one.block = number ∧ one.splices = splices :=
      fun one member => isSame one (List.mem_append_left _ member)
    obtain ⟨rfl, isSplices⟩ := isSame line (List.mem_append_right _ (List.mem_singleton_self _))
    rw [← List.append_assoc, cut_concat]
    have sofar := ih sameBefore
    by_cases isHeading : line.opens = true
    · rw [expected_opens isHeading, sofar]
      simp [placeBlock, Cut.read, isHeading, sectionEntry]
    · rw [Bool.not_eq_true] at isHeading
      cases isCurrent : (cut same).current with
      | some part =>
        exact expected_section (fun one member => (sameBefore one member).1) isHeading isCurrent sofar
      | none => exact expected_back isEarlier isHeading isSplices isCurrent sofar

/-- Nothing comes before the first heading once it is read. -/
theorem foldl_read_before {start : Cut α} (isOpen : start.current.isSome = true) (lines : List (Line α)) :
    (lines.foldl (fun cut line => cut.read line.opens line.value) start).before = start.before := by
  induction lines generalizing start with
  | nil => rfl
  | cons line lines ih =>
    obtain ⟨part, isPart⟩ := Option.isSome_iff_exists.mp isOpen
    rw [List.foldl_cons, ih] <;> cases isHeading : line.opens <;> simp [Cut.read, isPart]

/-- The lines before the first heading. -/
theorem cut_before (lines : List (Line α)) :
    (cut lines).before = (lines.takeWhile fun line => !line.opens).map Line.value := by
  have general : ∀ (lines : List (Line α)) (before : List α),
      (lines.foldl (fun (cut : Cut α) line => cut.read line.opens line.value)
        ⟨before, [], none⟩).before =
        before ++ (lines.takeWhile fun line => !line.opens).map Line.value := by
    intro lines
    induction lines with
    | nil => exact fun before => (List.append_nil before).symm
    | cons line lines ih =>
      intro before
      rw [List.foldl_cons]
      cases isHeading : line.opens with
      | true =>
        rw [Cut.read, if_pos rfl, foldl_read_before rfl, List.takeWhile_cons_of_neg (by simp [isHeading])]
        exact (List.append_nil before).symm
      | false =>
        rw [Cut.read, if_neg Bool.false_ne_true, List.takeWhile_cons_of_pos (by simp [isHeading])]
        dsimp only
        rw [ih, List.append_assoc]
        rfl
  exact general lines []

/-- Some section is closed when there are two headings. -/
theorem cut_done (lines : List (Line α)) : (cut lines).done ≠ [] ↔ 2 ≤ lines.countP Line.opens := by
  obtain ⟨counted, closed⟩ := cut_headings lines
  rw [List.length_append] at counted
  rw [← counted]
  cases isCurrent : (cut lines).current with
  | none => simp [closed isCurrent]
  | some part =>
    rw [← List.length_pos_iff]
    simp only [Option.toList_some, List.length_singleton]
    omega

/-! ### What a block leaves alone -/

theorem length_handBack (splices : Bool) (values : List α) (state : List (Entry α) × Nat) :
    (handBack splices values state).1.length = state.1.length := by
  obtain ⟨entries, lost⟩ := state
  unfold handBack
  split_ifs with isNone isOn
  · rfl
  · dsimp only
    rcases List.eq_nil_or_concat entries with rfl | ⟨others, last, rfl⟩
    · rfl
    · simp
  · rfl

theorem getElem?_handBack (splices : Bool) (values : List α) {state : List (Entry α) × Nat} {number : Nat}
    (notLast : number + 1 < state.1.length) :
    (handBack splices values state).1[number]? = state.1[number]? := by
  obtain ⟨entries, lost⟩ := state
  unfold handBack
  split_ifs with isNone isOn
  · rfl
  · dsimp only at notLast ⊢
    rcases List.eq_nil_or_concat entries with rfl | ⟨others, last, rfl⟩
    · rfl
    · rw [List.concat_eq_append, List.length_append, List.length_singleton] at notLast
      simp [List.getElem?_append_left (show number < others.length by omega)]
  · rfl

theorem placeBlock_kept (splices : Bool) (parts : Cut α) {state : List (Entry α) × Nat} {number : Nat}
    (notLast : number + 1 < state.1.length) :
    (placeBlock splices parts state).1[number]? = state.1[number]? := by
  unfold placeBlock
  rw [List.getElem?_append_left (by rw [length_handBack]; omega)]
  exact getElem?_handBack splices parts.before notLast

theorem length_placeBlock (splices : Bool) (parts : Cut α) (state : List (Entry α) × Nat) :
    (placeBlock splices parts state).1.length =
      state.1.length + (parts.done ++ parts.current.toList).length := by
  unfold placeBlock
  rw [List.length_append, length_handBack, List.length_map]

end Blocks

end Sections
