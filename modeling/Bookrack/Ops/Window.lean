/-
The rows around one leaf that fit the read budget: `window_passages` (`ops/src/reads/passages.rs`).

* `Spread`: what holds of the loop's variables after any number of turns of each side.
* `Spread.stepLo`, `Spread.stepHi`: a turn of one side keeps it.
* **`windowPassages_gapless`**: the loop ends, and what it returns is `WindowOf` the rows.
-/

import Bookrack.Ops.Passages
import Mathlib.Algebra.Ring.Int.Defs
import Mathlib.Data.List.DropRight

namespace Bookrack.Ops

open Corpus

/-! ### The loop -/

/-- The variables of the loop of `window_passages`. -/
structure Window where
  budget : Int
  lo : Nat
  hi : Nat
  loOpen : Bool
  hiOpen : Bool
  dropped : Bool
  deriving DecidableEq, Repr

namespace Window

/-- The variables before the loop. -/
def start (rows : List Node) (anchor : Node) (anchorIdx : Nat) : Window :=
  ⟨maxReadChars - textChars anchor, anchorIdx, anchorIdx, 0 < anchorIdx, anchorIdx + 1 < rows.length, false⟩

/-- The lower side's turn; `none` is an index out of range. -/
def stepLo (rows : List Node) (window : Window) : Option Window :=
  if window.loOpen then
    match window.lo with
    | 0 => none
    | below + 1 => do
      let c := textChars (← rows[below]?)
      if c ≤ window.budget then
        some { window with budget := window.budget - c, lo := below, loOpen := 0 < below }
      else some { window with loOpen := false, dropped := true }
  else some window

/-- The upper side's turn. -/
def stepHi (rows : List Node) (window : Window) : Option Window :=
  if window.hiOpen then do
    let c := textChars (← rows[window.hi + 1]?)
    if c ≤ window.budget then
      some { window with
        budget := window.budget - c
        hi := window.hi + 1
        hiOpen := window.hi + 1 + 1 < rows.length }
    else some { window with hiOpen := false, dropped := true }
  else some window

/-- The loop; `none` is also a loop that goes on. -/
def expand (rows : List Node) : Nat → Window → Option Window
  | 0, _ => none
  | fuel + 1, window =>
    if window.loOpen || window.hiOpen then do
      expand rows fuel (← (← window.stepLo rows).stepHi rows)
    else some window

/-- `rows[lo..=hi]`. -/
def slice (rows : List Node) (window : Window) : Option (List Node) :=
  if window.lo ≤ window.hi + 1 ∧ window.hi < rows.length then
    some ((rows.drop window.lo).take (window.hi + 1 - window.lo))
  else none

end Window

/-- `window_passages`. -/
def windowPassages (rows : List Node) (anchorId : NodeId) : Option (List Passage × Bool) :=
  match rows.findIdx? (·.nodeId = anchorId) with
  | none => some ([], false)
  | some anchorIdx => do
    let window ← (Window.start rows (← rows[anchorIdx]?) anchorIdx).expand rows (rows.length + 1)
    some ((← window.slice rows).map Passage.fromNode, window.dropped)

/-! ### The window -/

section Window

variable {rows before lower upper after : List Node} {anchor : Node} {turnsLo turnsHi : Nat} {window : Window}

/-- The characters of the rows. -/
def totalChars (rows : List Node) : Int := (rows.map textChars).sum

/-- What a window leaves of the read budget. -/
def budgetLeft (lower : List Node) (anchor : Node) (upper : List Node) : Int :=
  maxReadChars - totalChars (lower ++ anchor :: upper)

/-- The lower side ends at the first row or below a leaf that did not fit. The sides take turns and the
lower one is first, so the upper one had at most as many rows then. -/
def LowerEnd (before lower : List Node) (anchor : Node) (upper : List Node) : Prop :=
  before = [] ∨ ∃ leaf ∈ before.getLast?, budgetLeft lower anchor (upper.take lower.length) < textChars leaf

/-- The upper side ends at the last row or above a leaf that did not fit; the lower side had at most one
row more then. -/
def UpperEnd (lower : List Node) (anchor : Node) (upper after : List Node) : Prop :=
  after = [] ∨ ∃ leaf ∈ after.head?, budgetLeft (lower.rtake (upper.length + 1)) anchor upper < textChars leaf

/-- What `window_passages` returns for an anchor. -/
def WindowOf (rows : List Node) (anchorId : NodeId) (result : List Passage × Bool) : Prop :=
  ∃ before lower anchor upper after,
    rows = before ++ (lower ++ anchor :: upper) ++ after ∧
    anchor.nodeId = anchorId ∧
    result.1 = (lower ++ anchor :: upper).map Passage.fromNode ∧
    (totalChars (lower ++ anchor :: upper) ≤ maxReadChars ∨ lower = [] ∧ upper = []) ∧
    LowerEnd before lower anchor upper ∧
    UpperEnd lower anchor upper after ∧
    (result.2 = true ↔ before ≠ [] ∨ after ≠ [])

theorem totalChars_append (one other : List Node) :
    totalChars (one ++ other) = totalChars one + totalChars other := by
  simp [totalChars]

theorem totalChars_cons (row : Node) (rest : List Node) :
    totalChars (row :: rest) = textChars row + totalChars rest := by
  simp [totalChars]

/-- A leaf taken below the window uses its characters up. -/
theorem budgetLeft_below (leaf : Node) :
    budgetLeft (leaf :: lower) anchor upper = budgetLeft lower anchor upper - textChars leaf := by
  rw [budgetLeft, budgetLeft, List.cons_append, totalChars_cons]
  omega

/-- A leaf taken above the window uses its characters up. -/
theorem budgetLeft_above (leaf : Node) :
    budgetLeft lower anchor (upper ++ [leaf]) = budgetLeft lower anchor upper - textChars leaf := by
  have split : lower ++ anchor :: (upper ++ [leaf]) = (lower ++ anchor :: upper) ++ [leaf] := by simp
  rw [budgetLeft, budgetLeft, split, totalChars_append, totalChars_cons leaf []]
  simp [totalChars]
  omega

/-- All of a list that is no longer than what is taken of it. -/
theorem rtake_of_length_le {rows : List Node} {count : Nat} (short : rows.length ≤ count) :
    rows.rtake count = rows := by
  rw [List.rtake, Nat.sub_eq_zero_of_le short, List.drop_zero]

theorem rtake_cons {rows : List Node} {count : Nat} (enough : count ≤ rows.length) (row : Node) :
    (row :: rows).rtake count = rows.rtake count := by
  rw [List.rtake, List.rtake, List.length_cons, Nat.succ_sub enough, List.drop_succ_cons]

/-- What holds of the loop's variables when the sides took that many turns. A side that is open took a leaf
in each of them; one that is closed with rows left met a leaf that did not fit. -/
structure Spread (rows before lower : List Node) (anchor : Node) (upper after : List Node)
    (turnsLo turnsHi : Nat) (window : Window) : Prop where
  whole : rows = before ++ (lower ++ anchor :: upper) ++ after
  lo : window.lo = before.length
  hi : window.hi = before.length + lower.length + upper.length
  budget : window.budget = budgetLeft lower anchor upper
  solvent : 0 ≤ window.budget ∨ lower = [] ∧ upper = []
  lowerTurns : lower.length ≤ turnsLo
  upperTurns : upper.length ≤ turnsHi
  loOpen : window.loOpen = true → before ≠ [] ∧ lower.length = turnsLo
  hiOpen : window.hiOpen = true → after ≠ [] ∧ upper.length = turnsHi
  loClosed : window.loOpen = false → LowerEnd before lower anchor upper ∧ (before = [] ∨ lower.length < turnsLo)
  hiClosed : window.hiOpen = false → UpperEnd lower anchor upper after ∧ (after = [] ∨ upper.length < turnsHi)
  dropped : window.dropped = true ↔
    window.loOpen = false ∧ before ≠ [] ∨ window.hiOpen = false ∧ after ≠ []

namespace Spread

theorem start (whole : rows = before ++ anchor :: after) :
    Spread rows before [] anchor [] after 0 0 (Window.start rows anchor before.length) := by
  have ends : before.length + 1 < rows.length ↔ after ≠ [] := by
    rw [whole, List.length_append, List.length_cons, ← List.length_pos_iff]
    omega
  constructor
  · simpa using whole
  · rfl
  · simp [Window.start]
  · simp [Window.start, budgetLeft, totalChars]
  · exact .inr ⟨rfl, rfl⟩
  · exact le_refl 0
  · exact le_refl 0
  · intro isOpen
    exact ⟨List.length_pos_iff.mp (of_decide_eq_true isOpen), rfl⟩
  · intro isOpen
    exact ⟨ends.mp (of_decide_eq_true isOpen), rfl⟩
  · intro closed
    have none_before : before = [] := by simpa [Window.start] using closed
    exact ⟨.inl none_before, .inl none_before⟩
  · intro closed
    have none_after : after = [] := not_not.mp fun some_after => of_decide_eq_false closed (ends.mpr some_after)
    exact ⟨.inl none_after, .inl none_after⟩
  · simp [Window.start, ends, List.length_pos_iff]

/-- **A turn of the lower side.** -/
theorem stepLo (spread : Spread rows before lower anchor upper after turnsLo turnsHi window)
    (first : turnsHi ≤ turnsLo) :
    ∃ before' lower' window', window.stepLo rows = some window' ∧
      Spread rows before' lower' anchor upper after (turnsLo + 1) turnsHi window' := by
  cases isOpen : window.loOpen with
  | false =>
    refine ⟨before, lower, window, by rw [Window.stepLo, isOpen]; rfl, { spread with
      lowerTurns := Nat.le_succ_of_le spread.lowerTurns
      loOpen := fun opened => absurd (isOpen.symm.trans opened) Bool.false_ne_true
      loClosed := fun closed => ?_ }⟩
    exact (spread.loClosed closed).imp_right fun ended => ended.imp_right Nat.lt_succ_of_lt
  | true =>
    obtain ⟨more, taken⟩ := spread.loOpen isOpen
    obtain none_before | ⟨init, leaf, rfl⟩ := List.eq_nil_or_concat' before
    · exact absurd none_before more
    have isLo : window.lo = init.length + 1 := by simpa using spread.lo
    have isLeaf : rows[init.length]? = some leaf := by
      rw [spread.whole]
      simp
    -- the upper side has had no more turns, so its rows are those the lower side saw
    have seen : upper.take lower.length = upper :=
      List.take_of_length_le (taken ▸ Nat.le_trans spread.upperTurns first)
    have isTurn : window.stepLo rows =
        if textChars leaf ≤ window.budget then
          some { window with
            budget := window.budget - textChars leaf, lo := init.length, loOpen := 0 < init.length }
        else some { window with loOpen := false, dropped := true } := by
      rw [Window.stepLo, if_pos isOpen]
      simp only [isLo, isLeaf, Option.bind_eq_bind, Option.bind_some]
    by_cases fits : textChars leaf ≤ window.budget
    · rw [if_pos fits] at isTurn
      refine ⟨init, leaf :: lower, _, isTurn, { spread with
        whole := ?_, lo := rfl, hi := ?_, budget := ?_, solvent := ?_, lowerTurns := ?_, loOpen := ?_,
          loClosed := ?_,
        hiClosed := ?_, dropped := ?_ }⟩
      · simpa using spread.whole
      · have isHi := spread.hi
        simp only [List.length_append, List.length_cons, List.length_nil] at isHi ⊢
        omega
      · rw [budgetLeft_below, ← spread.budget]
      · exact .inl (by show 0 ≤ window.budget - textChars leaf; omega)
      · exact Nat.succ_le_succ spread.lowerTurns
      · intro opened
        exact ⟨List.length_pos_iff.mp (of_decide_eq_true opened), by rw [List.length_cons, taken]⟩
      · intro closed
        have none_before : init = [] := by simpa using closed
        exact ⟨.inl none_before, .inl none_before⟩
      · intro closed
        obtain ⟨ended, early⟩ := spread.hiClosed closed
        refine ⟨?_, early⟩
        rcases early with none_after | early
        · exact .inl none_after
        · rw [UpperEnd, rtake_cons (by omega)]
          exact ended
      · have isDropped := spread.dropped
        rw [isOpen] at isDropped
        simpa [List.length_pos_iff] using isDropped
    · rw [if_neg fits] at isTurn
      have last : LowerEnd (init ++ [leaf]) lower anchor upper := by
        refine .inr ⟨leaf, by simp, ?_⟩
        rw [seen, ← spread.budget]
        exact Int.not_le.mp fits
      refine ⟨init ++ [leaf], lower, _, isTurn, { spread with
        lowerTurns := Nat.le_succ_of_le spread.lowerTurns
        loOpen := fun opened => absurd opened Bool.false_ne_true
        loClosed := fun _ => ⟨last, .inr (by omega)⟩
        dropped := ?_ }⟩
      simp

/-- **A turn of the upper side, behind one of the lower.** -/
theorem stepHi (spread : Spread rows before lower anchor upper after (turnsHi + 1) turnsHi window) :
    ∃ upper' after' window', window.stepHi rows = some window' ∧
      Spread rows before lower anchor upper' after' (turnsHi + 1) (turnsHi + 1) window' := by
  cases isOpen : window.hiOpen with
  | false =>
    refine ⟨upper, after, window, by rw [Window.stepHi, isOpen]; rfl, { spread with
      upperTurns := Nat.le_succ_of_le spread.upperTurns
      hiOpen := fun opened => absurd (isOpen.symm.trans opened) Bool.false_ne_true
      hiClosed := fun closed => ?_ }⟩
    exact (spread.hiClosed closed).imp_right fun ended => ended.imp_right Nat.lt_succ_of_lt
  | true =>
    obtain ⟨more, taken⟩ := spread.hiOpen isOpen
    obtain ⟨leaf, rest, rfl⟩ := List.exists_cons_of_ne_nil more
    have isHi := spread.hi
    have isLeaf : rows[window.hi + 1]? = some leaf := by
      have ahead : window.hi + 1 = (before ++ (lower ++ anchor :: upper)).length := by
        simp only [List.length_append, List.length_cons]
        omega
      rw [spread.whole, ahead, List.getElem?_append_right (Nat.le_refl _), Nat.sub_self]
      rfl
    have ends : window.hi + 1 + 1 < rows.length ↔ rest ≠ [] := by
      rw [spread.whole, ← List.length_pos_iff]
      simp only [List.length_append, List.length_cons]
      omega
    -- the lower side has had one turn more, so its rows are those the upper side saw
    have seen : lower.rtake (upper.length + 1) = lower := rtake_of_length_le (taken ▸ spread.lowerTurns)
    have isTurn : window.stepHi rows =
        if textChars leaf ≤ window.budget then
          some { window with
            budget := window.budget - textChars leaf
            hi := window.hi + 1
            hiOpen := window.hi + 1 + 1 < rows.length }
        else some { window with hiOpen := false, dropped := true } := by
      rw [Window.stepHi, if_pos isOpen]
      simp only [isLeaf, Option.bind_eq_bind, Option.bind_some]
    by_cases fits : textChars leaf ≤ window.budget
    · rw [if_pos fits] at isTurn
      refine ⟨upper ++ [leaf], rest, _, isTurn, { spread with
        whole := ?_, hi := ?_, budget := ?_, solvent := ?_, upperTurns := ?_, hiOpen := ?_, loClosed := ?_,
        hiClosed := ?_, dropped := ?_ }⟩
      · simpa using spread.whole
      · rw [List.length_append, List.length_singleton]
        show window.hi + 1 = _
        omega
      · rw [budgetLeft_above, ← spread.budget]
      · exact .inl (by show 0 ≤ window.budget - textChars leaf; omega)
      · rw [List.length_append]
        exact Nat.succ_le_succ spread.upperTurns
      · intro opened
        exact ⟨ends.mp (of_decide_eq_true opened), by rw [List.length_append, taken]; rfl⟩
      · intro closed
        obtain ⟨ended, early⟩ := spread.loClosed closed
        refine ⟨?_, early⟩
        rcases early with none_before | early
        · exact .inl none_before
        · rw [LowerEnd, List.take_append_of_le_length (by omega)]
          exact ended
      · intro closed
        have none_after : rest = [] := not_not.mp fun some_after =>
          of_decide_eq_false closed (ends.mpr some_after)
        exact ⟨.inl none_after, .inl none_after⟩
      · have isDropped := spread.dropped
        rw [isOpen] at isDropped
        simpa [ends] using isDropped
    · rw [if_neg fits] at isTurn
      have last : UpperEnd lower anchor upper (leaf :: rest) := by
        refine .inr ⟨leaf, rfl, ?_⟩
        rw [seen, ← spread.budget]
        exact Int.not_le.mp fits
      refine ⟨upper, leaf :: rest, _, isTurn, { spread with
        upperTurns := Nat.le_succ_of_le spread.upperTurns
        hiOpen := fun opened => absurd opened Bool.false_ne_true
        hiClosed := fun _ => ⟨last, .inr (by omega)⟩
        dropped := ?_ }⟩
      simp

/-- While a side is open there have been fewer turns than rows. -/
theorem turns_lt (spread : Spread rows before lower anchor upper after turnsLo turnsLo window)
    (isOpen : (window.loOpen || window.hiOpen) = true) : turnsLo < rows.length := by
  have size : rows.length = before.length + (lower.length + (upper.length + 1)) + after.length := by
    rw [spread.whole, List.length_append, List.length_append, List.length_append, List.length_cons]
  rcases Bool.or_eq_true_iff.mp isOpen with loOpen | hiOpen
  · obtain ⟨more, taken⟩ := spread.loOpen loOpen
    have := List.length_pos_iff.mpr more
    omega
  · obtain ⟨more, taken⟩ := spread.hiOpen hiOpen
    have := List.length_pos_iff.mpr more
    omega

/-- **The loop ends with both sides closed.** -/
theorem expand : ∀ (fuel : Nat) {turns : Nat} {before lower upper after : List Node} {window : Window},
    Spread rows before lower anchor upper after turns turns window → rows.length < fuel + turns → 0 < fuel →
    ∃ before' lower' upper' after' turns' window', window.expand rows fuel = some window' ∧
      Spread rows before' lower' anchor upper' after' turns' turns' window' ∧
      window'.loOpen = false ∧ window'.hiOpen = false
  | fuel + 1, turns, _, _, _, _, window, spread, enough, _ => by
    cases isOpen : window.loOpen || window.hiOpen with
    | false =>
      refine ⟨_, _, _, _, turns, window, by rw [Window.expand, isOpen]; rfl, spread, ?_⟩
      exact Bool.or_eq_false_iff.mp isOpen
    | true =>
      have inside := spread.turns_lt isOpen
      obtain ⟨before', lower', between, isLo, spreadLo⟩ := spread.stepLo (Nat.le_refl turns)
      obtain ⟨upper', after', next, isHi, spreadHi⟩ := spreadLo.stepHi
      obtain ⟨before'', lower'', upper'', after'', turns', last, isLast, closed⟩ :=
        expand fuel spreadHi (by omega) (by omega)
      refine ⟨before'', lower'', upper'', after'', turns', last, ?_, closed⟩
      rw [Window.expand, if_pos isOpen, isLo]
      simp only [Option.bind_eq_bind, Option.bind_some, isHi]
      exact isLast

/-- The rows between the bounds are the window. -/
theorem slice (spread : Spread rows before lower anchor upper after turnsLo turnsHi window) :
    window.slice rows = some (lower ++ anchor :: upper) := by
  have size : window.hi + 1 - window.lo = (lower ++ anchor :: upper).length := by
    rw [spread.lo, spread.hi, List.length_append, List.length_cons]
    omega
  have inside : window.lo ≤ window.hi + 1 ∧ window.hi < rows.length := by
    rw [spread.lo, spread.hi, spread.whole]
    simp only [List.length_append, List.length_cons]
    omega
  rw [Window.slice, if_pos inside, size, spread.lo, spread.whole, List.append_assoc, List.drop_left,
    List.take_left]

end Spread

end Window

/-- **The context window.** For every list of rows and every anchor among them, `window_passages` ends
without indexing out of range, and it returns a contiguous run of the rows around the anchor, within the
budget unless it is the anchor alone, with each side as far as the budget let it. -/
theorem windowPassages_gapless (rows : List Node) (anchorId : NodeId)
    (among : anchorId ∈ rows.map (·.nodeId)) :
    ∃ result, windowPassages rows anchorId = some result ∧ WindowOf rows anchorId result := by
  cases found : rows.findIdx? (·.nodeId = anchorId) with
  | none =>
    obtain ⟨row, isRow, isAnchor⟩ := List.mem_map.mp among
    exact absurd isAnchor (of_decide_eq_false (List.findIdx?_eq_none_iff.mp found row isRow))
  | some anchorIdx =>
    obtain ⟨inside, isAnchor, -⟩ := List.findIdx?_eq_some_iff_getElem.mp found
    have whole : rows = rows.take anchorIdx ++ rows[anchorIdx] :: rows.drop (anchorIdx + 1) := by
      rw [List.cons_getElem_drop_succ, List.take_append_drop]
    have started := Spread.start whole
    rw [List.length_take_of_le (Nat.le_of_lt inside)] at started
    obtain ⟨before, lower, upper, after, turns, window, isRun, spread, loClosed, hiClosed⟩ :=
      Spread.expand (rows.length + 1) started (by omega) (by omega)
    refine ⟨((lower ++ rows[anchorIdx] :: upper).map Passage.fromNode, window.dropped), ?_, ?_⟩
    · simp only [windowPassages, found, List.getElem?_eq_getElem inside, Option.bind_eq_bind, Option.bind_some,
        isRun,
        spread.slice]
    · refine ⟨before, lower, rows[anchorIdx], upper, after, spread.whole, of_decide_eq_true isAnchor, rfl, ?_,
        (spread.loClosed loClosed).1, (spread.hiClosed hiClosed).1, ?_⟩
      · refine spread.solvent.imp_left fun within => ?_
        rw [spread.budget, budgetLeft] at within
        omega
      · simpa [loClosed, hiClosed] using spread.dropped

/-- The window around the second of three short paragraphs is all of them. -/
theorem windowPassages_gapless_threeParagraphs :
    let rows := (threeParagraphs "Middle.").drop 1
    windowPassages rows ⟨100000003⟩ = some (rows.map Passage.fromNode, false) ∧
      WindowOf rows ⟨100000003⟩ (rows.map Passage.fromNode, false) := by
  intro rows
  have whole : windowPassages rows ⟨100000003⟩ = some (rows.map Passage.fromNode, false) := by
    decide +kernel
  obtain ⟨result, isResult, window⟩ := windowPassages_gapless rows ⟨100000003⟩ (by decide)
  obtain rfl := Option.some.inj (whole.symm.trans isResult)
  exact ⟨whole, window⟩

end Bookrack.Ops
