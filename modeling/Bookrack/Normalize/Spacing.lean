/-
Steps 6 to 8 of the pipeline as one left-to-right pass.

* `foldLines_eq`: `fold_lines`, which works line by line, is a pass that holds back a run of spaces
  until the next character of the line.
* **`spacing_eq`**: with the deletion of spaces between CJK characters and the collapse of blank
  lines it is the pass `spacing`.
* **`spacing_spacing`**: the pass leaves what it emits as it is.
-/

import Bookrack.Base.Transducer
import Bookrack.Normalize.Pipeline

namespace Bookrack.Normalize

/-! ### Lines -/

/-- A text is one line, or a line, a line feed and a text. -/
theorem lines_induction {P : List Char → Prop} (single : ∀ line, '\n' ∉ line → P line)
    (more : ∀ line rest, '\n' ∉ line → P rest → P (line ++ '\n' :: rest)) : ∀ text, P text := by
  intro text
  induction length : text.length using Nat.strong_induction_on generalizing text with
  | _ n ih =>
    subst length
    by_cases isLine : '\n' ∈ text
    · obtain ⟨line, rest, rfl, isFirst⟩ := List.eq_append_cons_of_mem isLine
      refine more line rest isFirst (ih rest.length ?_ rest rfl)
      simp only [List.length_append, List.length_cons]
      omega
    · exact single text isLine

theorem foldLines_single {line : List Char} (isLine : '\n' ∉ line) :
    foldLines line = foldLine line := by
  rw [foldLines, List.splitOn_eq_singleton isLine, List.map_singleton, List.intercalate_singleton]

theorem foldLines_cons {line : List Char} (isLine : '\n' ∉ line) (rest : List Char) :
    foldLines (line ++ '\n' :: rest) = foldLine line ++ '\n' :: foldLines rest := by
  have isCons : (rest.splitOn '\n').map foldLine ≠ [] := by simp [List.splitOn_ne_nil]
  rw [foldLines, List.splitOn_append_cons_self_of_not_mem isLine, List.map_cons,
    List.intercalate_cons_of_ne_nil isCons, foldLines, List.append_assoc, List.singleton_append]

/-- Where the pass over the lines stands: something of the line is out; spaces are held back. -/
structure LineState where
  started : Bool
  gap : Bool

/-- `fold_lines` as a pass. -/
def lineFold : Transducer LineState Char Char where
  step state c :=
    if c = ' ' then ({ state with gap := true }, [])
    else if c = '\n' then (⟨false, false⟩, ['\n'])
    else (⟨true, false⟩, if state.started && state.gap then [' ', c] else [c])

theorem lineFold_char (state : LineState) {c : Char} (isChar : c ≠ ' ' ∧ c ≠ '\n')
    (rest : List Char) : lineFold.run state (c :: rest) =
      (if state.started && state.gap then [' ', c] else [c]) ++
        lineFold.run ⟨true, false⟩ rest := by
  rw [Transducer.run_cons]
  simp only [lineFold, if_neg isChar.1, if_neg isChar.2]

theorem rdropWhile_cons (p : Char → Bool) (c : Char) (rest : List Char) :
    (c :: rest).rdropWhile p = if rest.all p && p c then [] else c :: rest.rdropWhile p := by
  induction rest using List.reverseRecOn with
  | nil =>
    rw [List.rdropWhile_singleton]
    simp
  | append_singleton rest last ih =>
    rw [← List.cons_append]
    by_cases drops : p last
    · rw [List.rdropWhile_concat_pos _ _ _ drops, ih, List.rdropWhile_concat_pos _ _ _ drops]
      simp [drops]
    · rw [List.rdropWhile_concat_neg _ _ _ drops, List.rdropWhile_concat_neg _ _ _ drops]
      simp [drops]

/-- Behind the first character of a line. -/
theorem lineFold_started {rest : List Char} (isLine : '\n' ∉ rest) :
    lineFold.run ⟨true, false⟩ rest = collapseSpaces false (rest.rdropWhile (· == ' ')) ∧
      lineFold.run ⟨true, true⟩ rest = if rest.all (· == ' ') then []
        else ' ' :: collapseSpaces true (rest.rdropWhile (· == ' ')) := by
  induction rest with
  | nil => exact ⟨rfl, rfl⟩
  | cons c rest ih =>
    obtain ⟨isChar, isRest⟩ : '\n' ≠ c ∧ '\n' ∉ rest := by simpa [not_or] using isLine
    obtain ⟨plain, gap⟩ := ih isRest
    by_cases isSpace : c = ' '
    · subst isSpace
      have reads : ∀ gap', lineFold.run ⟨true, gap'⟩ (' ' :: rest) = lineFold.run ⟨true, true⟩ rest :=
        fun _ => rfl
      rw [reads, reads, gap, rdropWhile_cons]
      by_cases blank : rest.all (· == ' ')
      · simp [blank, collapseSpaces]
      · simp [blank, collapseSpaces]
    · rw [lineFold_char _ ⟨isSpace, isChar.symm⟩, lineFold_char _ ⟨isSpace, isChar.symm⟩, plain,
        rdropWhile_cons]
      simp [isSpace, collapseSpaces]

theorem lineFold_line {line : List Char} (isLine : '\n' ∉ line) (gap : Bool) :
    lineFold.run ⟨false, gap⟩ line = foldLine line := by
  induction line generalizing gap with
  | nil => rfl
  | cons c rest ih =>
    obtain ⟨isChar, isRest⟩ : '\n' ≠ c ∧ '\n' ∉ rest := by simpa [not_or] using isLine
    by_cases isSpace : c = ' '
    · subst isSpace
      exact ih isRest true
    · rw [lineFold_char _ ⟨isSpace, isChar.symm⟩, (lineFold_started isRest).1, foldLine, trimMatches,
        List.dropWhile_cons_of_neg (by simpa using isSpace), rdropWhile_cons]
      simp [isSpace, collapseSpaces]

/-- **`fold_lines` is a pass.** -/
theorem foldLines_eq (text : List Char) : foldLines text = lineFold.run ⟨false, false⟩ text := by
  induction text using lines_induction with
  | single line isLine => rw [foldLines_single isLine, lineFold_line isLine]
  | more line rest isLine ih =>
    rw [foldLines_cons isLine, ih, Transducer.run_append, lineFold_line isLine, Transducer.run_cons]
    simp [lineFold]

/-! ### The three steps at once -/

/-- Where the pass stands: something of the line is out, the last character out is CJK, spaces are
held back, and so many line feeds were read since a character went out. -/
structure SpacingState where
  started : Bool
  prevCjk : Bool
  gap : Bool
  newlines : Nat
  deriving DecidableEq, Repr

namespace SpacingState

def start : SpacingState := ⟨false, false, false, 0⟩

/-- The state behind a character that goes out. -/
def behind (c : Char) : SpacingState := ⟨true, isCjk c, false, 0⟩

/-- The held-back spaces become one space before `c`. -/
def opens (state : SpacingState) (c : Char) : Bool :=
  state.started && state.gap && !(state.prevCjk && isCjk c)

end SpacingState

open SpacingState

/-- Steps 6 to 8 as a pass. -/
def spacing : Transducer SpacingState Char Char where
  step state c :=
    if c = ' ' then ({ state with gap := true }, [])
    else if c = '\n' then
      (⟨false, false, false, state.newlines + 1⟩, if state.newlines + 1 ≤ 2 then ['\n'] else [])
    else (behind c, if state.opens c then [' ', c] else [c])

theorem spacing_space (state : SpacingState) (rest : List Char) :
    spacing.run state (' ' :: rest) = spacing.run { state with gap := true } rest := rfl

theorem spacing_newline (state : SpacingState) (rest : List Char) :
    spacing.run state ('\n' :: rest) = (if state.newlines + 1 ≤ 2 then ['\n'] else []) ++
      spacing.run ⟨false, false, false, state.newlines + 1⟩ rest := rfl

theorem spacing_char (state : SpacingState) {c : Char} (isChar : c ≠ ' ' ∧ c ≠ '\n')
    (rest : List Char) : spacing.run state (c :: rest) =
      (if state.opens c then [' ', c] else [c]) ++ spacing.run (behind c) rest := by
  rw [Transducer.run_cons]
  simp only [spacing, if_neg isChar.1, if_neg isChar.2]

theorem spacing_reach_space (state : SpacingState) (rest : List Char) :
    spacing.reach state (' ' :: rest) = spacing.reach { state with gap := true } rest := rfl

theorem spacing_reach_newline (state : SpacingState) (rest : List Char) :
    spacing.reach state ('\n' :: rest) =
      spacing.reach ⟨false, false, false, state.newlines + 1⟩ rest := rfl

theorem spacing_reach_char (state : SpacingState) {c : Char} (isChar : c ≠ ' ' ∧ c ≠ '\n')
    (rest : List Char) : spacing.reach state (c :: rest) = spacing.reach (behind c) rest := by
  rw [Transducer.reach_cons]
  simp only [spacing, if_neg isChar.1, if_neg isChar.2]

theorem deleteFrom_char {c : Char} (isChar : c ≠ ' ') (prev : Option Char) (rest : List Char) :
    deleteCjkFlankedSpaceFrom prev (c :: rest) = c :: deleteCjkFlankedSpaceFrom (some c) rest :=
  if_neg fun flanked => isChar flanked.1

theorem blankFrom_char {c : Char} (isChar : c ≠ '\n') (newlines : Nat) (rest : List Char) :
    foldBlankLinesFrom newlines (c :: rest) = c :: foldBlankLinesFrom 0 rest :=
  if_neg isChar

/-- The two later loops over what the line pass emits. -/
theorem loops_eq (text : List Char) : ∀ (prev : Option Char) (started gap : Bool) (newlines : Nat),
    foldBlankLinesFrom newlines (deleteCjkFlankedSpaceFrom prev (lineFold.run ⟨started, gap⟩ text)) =
      spacing.run ⟨started, prev.any isCjk, gap, newlines⟩ text := by
  induction text with
  | nil => exact fun _ _ _ _ => rfl
  | cons c rest ih =>
    intro prev started gap newlines
    by_cases isSpace : c = ' '
    · subst isSpace
      exact ih prev started true newlines
    by_cases isNewline : c = '\n'
    · subst isNewline
      have next := ih (some '\n') false false (newlines + 1)
      have reads : lineFold.run ⟨started, gap⟩ ('\n' :: rest) =
          '\n' :: lineFold.run ⟨false, false⟩ rest := rfl
      rw [spacing_newline, reads, deleteFrom_char (by decide), foldBlankLinesFrom, if_pos rfl, next]
      split_ifs <;> rfl
    · have next := ih (some c) true false 0
      rw [spacing_char _ ⟨isSpace, isNewline⟩, lineFold_char _ ⟨isSpace, isNewline⟩]
      by_cases held : (started && gap) = true
      · rw [if_pos held, List.cons_append, List.singleton_append, deleteCjkFlankedSpaceFrom]
        by_cases flanked : prev.any isCjk = true ∧ isCjk c = true
        · have closed : (⟨started, prev.any isCjk, gap, newlines⟩ : SpacingState).opens c = false := by
            simp [SpacingState.opens, flanked]
          rw [if_pos ⟨rfl, flanked⟩, deleteFrom_char isSpace, blankFrom_char isNewline, closed]
          exact congrArg _ next
        · have opens : (⟨started, prev.any isCjk, gap, newlines⟩ : SpacingState).opens c = true := by
            rw [SpacingState.opens, held, Bool.true_and, Bool.not_eq_true', ← Bool.not_eq_true,
              Bool.and_eq_true]
            exact flanked
          rw [if_neg fun all => flanked all.2, deleteFrom_char isSpace, blankFrom_char (by decide),
            blankFrom_char isNewline, opens]
          exact congrArg (fun tail => ' ' :: c :: tail) next
      · have closed : (⟨started, prev.any isCjk, gap, newlines⟩ : SpacingState).opens c = false := by
          rw [SpacingState.opens, Bool.not_eq_true _ |>.mp held, Bool.false_and]
        rw [if_neg held, List.singleton_append, deleteFrom_char isSpace, blankFrom_char isNewline,
          closed]
        exact congrArg _ next

/-- **Steps 6 to 8 are the pass `spacing`.** -/
theorem spacing_eq (text : List Char) :
    foldBlankLines (deleteCjkFlankedSpace (foldLines text)) = spacing.run start text := by
  rw [foldLines_eq]
  exact loops_eq text none false false 0

/-! ### What the pass emits it leaves -/

/-- The state of a pass over what a pass in `state` has emitted. -/
structure SpacingState.Follows (state follower : SpacingState) : Prop where
  started : follower.started = state.started
  prevCjk : follower.prevCjk = state.prevCjk
  gap : follower.gap = false
  newlines : follower.newlines = state.newlines ∨ 2 ≤ follower.newlines ∧ 2 ≤ state.newlines
  fresh : 0 < state.newlines → state.started = false ∧ state.prevCjk = false

/-- **The pass leaves what it emits.** -/
theorem spacing_spacing (text : List Char) : ∀ {state follower : SpacingState},
    state.Follows follower →
      spacing.run follower (spacing.run state text) = spacing.run state text := by
  induction text with
  | nil => exact fun _ => rfl
  | cons c rest ih =>
    intro state follower follows
    by_cases isSpace : c = ' '
    · subst isSpace
      rw [spacing_space]
      exact ih ⟨follows.started, follows.prevCjk, follows.gap, follows.newlines, follows.fresh⟩
    have counts := follows.newlines
    by_cases isNewline : c = '\n'
    · subst isNewline
      rw [spacing_newline]
      split_ifs with few
      · have next := @ih ⟨false, false, false, state.newlines + 1⟩
          ⟨false, false, false, follower.newlines + 1⟩
          ⟨rfl, rfl, rfl, by dsimp only; omega, fun _ => ⟨rfl, rfl⟩⟩
        rw [List.singleton_append, spacing_newline, if_pos (by omega), List.singleton_append, next]
      · -- the line feed is dropped: the follower has read two already
        obtain ⟨notStarted, notCjk⟩ := follows.fresh (by omega)
        exact ih ⟨follows.started.trans notStarted, follows.prevCjk.trans notCjk, follows.gap,
          by dsimp only; omega, fun _ => ⟨rfl, rfl⟩⟩
    · have isChar : c ≠ ' ' ∧ c ≠ '\n' := ⟨isSpace, isNewline⟩
      have next : spacing.run (behind c) (spacing.run (behind c) rest) = spacing.run (behind c) rest :=
        ih ⟨rfl, rfl, rfl, .inl rfl, fun positive => absurd positive (Nat.lt_irrefl 0)⟩
      rw [spacing_char state isChar]
      by_cases opens : state.opens c = true
      · have opens' : ({ follower with gap := true } : SpacingState).opens c = true := by
          simp only [SpacingState.opens, Bool.and_eq_true] at opens ⊢
          rw [follows.started, follows.prevCjk]
          exact ⟨⟨opens.1.1, trivial⟩, opens.2⟩
        rw [if_pos opens, List.cons_append, List.singleton_append, spacing_space,
          spacing_char _ isChar, if_pos opens', next]
        rfl
      · have closed : follower.opens c = false := by
          simp [SpacingState.opens, follows.gap]
        rw [if_neg opens, List.singleton_append, spacing_char _ isChar, closed, next]
        rfl

/-! ### What the pass emits is what it read -/

/-- No more goes out than was read, the spaces held back counted as one. -/
theorem spacing_length (text : List Char) : ∀ state : SpacingState,
    (spacing.run state text).length + (spacing.reach state text).gap.toNat ≤
      text.length + state.gap.toNat := by
  induction text with
  | nil => exact fun _ => by simp
  | cons c rest ih =>
    intro state
    by_cases isSpace : c = ' '
    · subst isSpace
      have later := ih { state with gap := true }
      rw [spacing_space, spacing_reach_space, List.length_cons]
      rw [Bool.toNat_true] at later
      omega
    by_cases isNewline : c = '\n'
    · subst isNewline
      have later := ih ⟨false, false, false, state.newlines + 1⟩
      rw [spacing_newline, spacing_reach_newline, List.length_append, List.length_cons]
      rw [Bool.toNat_false] at later
      have atMost : (if state.newlines + 1 ≤ 2 then ['\n'] else []).length ≤ 1 := by
        split_ifs <;> simp
      omega
    · have isChar : c ≠ ' ' ∧ c ≠ '\n' := ⟨isSpace, isNewline⟩
      have later := ih (behind c)
      rw [spacing_char _ isChar, spacing_reach_char _ isChar, List.length_append, List.length_cons]
      have atMost : (if state.opens c then [' ', c] else [c]).length ≤ 1 + state.gap.toNat := by
        split_ifs with opens
        · simp only [SpacingState.opens, Bool.and_eq_true] at opens
          rw [opens.1.2]
          rfl
        · exact Nat.le_add_right 1 _
      have noGap : (behind c).gap.toNat = 0 := rfl
      omega

/-- A character that goes out was read. -/
theorem mem_spacing (text : List Char) {c : Char} : ∀ state : SpacingState,
    c ∈ spacing.run state text → c ∈ text ∨ c = ' ' := by
  induction text with
  | nil => exact fun _ member => absurd member List.not_mem_nil
  | cons d rest ih =>
    intro state member
    by_cases isSpace : d = ' '
    · subst isSpace
      exact (ih _ member).imp_left (List.mem_cons_of_mem _)
    by_cases isNewline : d = '\n'
    · subst isNewline
      rw [spacing_newline] at member
      rcases List.mem_append.mp member with isHead | isTail
      · split_ifs at isHead
        · exact .inl (List.mem_singleton.mp isHead ▸ List.mem_cons_self)
        · exact absurd isHead List.not_mem_nil
      · exact (ih _ isTail).imp_left (List.mem_cons_of_mem _)
    · rw [spacing_char _ ⟨isSpace, isNewline⟩] at member
      rcases List.mem_append.mp member with isHead | isTail
      · split_ifs at isHead
        · rcases List.mem_cons.mp isHead with rfl | isLast
          · exact .inr rfl
          · exact .inl (List.mem_singleton.mp isLast ▸ List.mem_cons_self)
        · exact .inl (List.mem_singleton.mp isHead ▸ List.mem_cons_self)
      · exact (ih _ isTail).imp_left (List.mem_cons_of_mem _)

/-- Where no spaces are held back, a character goes out as it is. -/
theorem spacing_char_noGap {state : SpacingState} (noGap : state.gap = false) {c : Char}
    (isChar : c ≠ ' ' ∧ c ≠ '\n') (rest : List Char) :
    spacing.run state (c :: rest) = c :: spacing.run (behind c) rest := by
  have closed : state.opens c = false := by simp [SpacingState.opens, noGap]
  rw [spacing_char _ isChar, closed]
  rfl

theorem spacing_reach_last (state : SpacingState) {c : Char} (isChar : c ≠ ' ' ∧ c ≠ '\n')
    (first : List Char) : spacing.reach state (first ++ [c]) = behind c := by
  rw [Transducer.reach_append, spacing_reach_char _ isChar, Transducer.reach_nil]

end Bookrack.Normalize
