/-
The pages of an OCR product, line by line.

* `anchored`: what follows the marker prefix a line starts with.
* `marksOf`: the lines before the first marker, and each marker with the lines below it.
* **`findMarker_eq`**: the search from a position finds the next line that starts with a marker.
-/

import Bookrack.Base.Joined
import Bookrack.Extract.Ocr
import Bookrack.Normalize.Breaks

namespace Bookrack.Extract

open Bookrack.Joined (trail)
open Normalize (trim)
open String (utf8Len)

/-! ### The search, character by character -/

/-- Whether the characters since the last line break are byte-order marks, after one more. -/
def stepClean (clean : Bool) (c : Char) : Bool := c == '\n' || (clean && c == bom)

def cleanAfter (clean : Bool) (text : List Char) : Bool := text.foldl stepClean clean

/-- How many characters precede the next prefix that nothing but byte-order marks leads on its line. -/
def scan : Bool → List Char → Option Nat
  | _, [] => none
  | clean, c :: rest =>
    if clean && decide (markerPrefix <+: c :: rest) then some 0
    else (scan (stepClean clean c) rest).map (· + 1)

theorem cleanAfter_append (clean : Bool) (first second : List Char) :
    cleanAfter clean (first ++ second) = cleanAfter (cleanAfter clean first) second := List.foldl_append

theorem scan_pass {clean : Bool} {c : Char} {rest : List Char}
    (passes : clean = true → ¬ markerPrefix <+: c :: rest) :
    scan clean (c :: rest) = (scan (stepClean clean c) rest).map (· + 1) := by
  rw [scan, if_neg]
  rw [Bool.and_eq_true, decide_eq_true_eq]
  exact fun both => passes both.1 both.2

/-- Where no prefix begins, the search goes on. -/
theorem scan_append {clean : Bool} {before : List Char} (after : List Char)
    (passes : ∀ position < before.length, ¬ markerPrefix <+: (before ++ after).drop position) :
    scan clean (before ++ after) = (scan (cleanAfter clean before) after).map (· + before.length) := by
  induction before generalizing clean with
  | nil => exact Option.map_id'.symm
  | cons c before ih =>
    have here : ¬ markerPrefix <+: c :: (before ++ after) := passes 0 (Nat.succ_pos _)
    rw [List.cons_append, scan_pass fun _ => here,
      ih fun position inside => passes (position + 1) (Nat.succ_lt_succ inside), Option.map_map]
    rfl

theorem marker_head {c : Char} {rest : List Char} (begins : markerPrefix <+: c :: rest) : c = '<' := by
  obtain ⟨tail, whole⟩ := begins
  have opens : markerPrefix = '<' :: "!-- page ".toList := by decide
  rw [opens, List.cons_append] at whole
  exact (List.cons.inj whole).1.symm

/-- Within a line that starts with something else the search goes on. -/
theorem scan_dirty {line : List Char} (noBreak : '\n' ∉ line) (after : List Char) :
    scan false (line ++ after) = (scan false after).map (· + line.length) := by
  induction line with
  | nil => exact Option.map_id'.symm
  | cons c line ih =>
    obtain ⟨here, rest⟩ := List.ne_and_not_mem_of_not_mem_cons noBreak
    have dirty : stepClean false c = false := by
      rw [stepClean, Bool.false_and, Bool.or_false]
      exact beq_eq_false_iff_ne.mpr (Ne.symm here)
    rw [List.cons_append, scan_pass (fun isClean => absurd isClean Bool.false_ne_true), dirty, ih rest,
      Option.map_map]
    rfl

theorem scan_break (clean : Bool) (after : List Char) :
    scan clean ('\n' :: after) = (scan true after).map (· + 1) := by
  refine (scan_pass fun _ begins => ?_).trans rfl
  exact absurd (marker_head begins) (by decide)

theorem cleanAfter_dirty {line : List Char} (noBreak : '\n' ∉ line) : cleanAfter false line = false := by
  induction line with
  | nil => rfl
  | cons c line ih =>
    obtain ⟨here, rest⟩ := List.ne_and_not_mem_of_not_mem_cons noBreak
    have dirty : stepClean false c = false := by
      rw [stepClean, Bool.false_and, Bool.or_false]
      exact beq_eq_false_iff_ne.mpr (Ne.symm here)
    exact (congrArg (List.foldl stepClean · line) dirty).trans (ih rest)

theorem cleanAfter_line {line : List Char} (noBreak : '\n' ∉ line) :
    cleanAfter true line = line.all (· == bom) := by
  induction line with
  | nil => rfl
  | cons c line ih =>
    obtain ⟨here, rest⟩ := List.ne_and_not_mem_of_not_mem_cons noBreak
    by_cases isBom : c = bom
    · subst isBom
      exact ih rest
    · have dirty : stepClean true c = false := by
        rw [stepClean, Bool.true_and, beq_eq_false_iff_ne.mpr (Ne.symm here), beq_eq_false_iff_ne.mpr isBom]
        rfl
      rw [List.all_cons, beq_eq_false_iff_ne.mpr isBom, Bool.false_and]
      exact (congrArg (List.foldl stepClean · line) dirty).trans (cleanAfter_dirty rest)

/-- A text before a position: whole lines, and what the position's line has before it. -/
theorem exists_line (text : List Char) : ∃ upTo line, text = upTo ++ line ∧ '\n' ∉ line ∧
    cleanAfter true upTo = true ∧ (upTo = [] ∨ ∃ rows, upTo = rows ++ ['\n']) := by
  induction text using List.reverseRecOn with
  | nil => exact ⟨[], [], rfl, List.not_mem_nil, rfl, .inl rfl⟩
  | append_singleton text c ih =>
    obtain ⟨upTo, line, rfl, noBreak, isClean, ends⟩ := ih
    by_cases isBreak : c = '\n'
    · subst isBreak
      refine ⟨upTo ++ line ++ ['\n'], [], (List.append_nil _).symm, List.not_mem_nil, ?_, .inr ⟨_, rfl⟩⟩
      rw [cleanAfter_append]
      rfl
    · refine ⟨upTo, line ++ [c], List.append_assoc .., ?_, isClean, ends⟩
      rw [List.mem_append, List.mem_singleton, not_or]
      exact ⟨noBreak, Ne.symm isBreak⟩

theorem lineStart_eq {upTo line : List Char} (noBreak : '\n' ∉ line)
    (ends : upTo = [] ∨ ∃ rows, upTo = rows ++ ['\n']) (rest : List Char) :
    lineStart (upTo ++ line ++ rest) (utf8Len (upTo ++ line)) = some (utf8Len upTo) := by
  rw [lineStart, takeBytes_append, Option.map_some]
  obtain rfl | ⟨rows, rfl⟩ := ends
  · rw [List.nil_append, rfindBytes_none noBreak]
    rfl
  · rw [List.append_assoc, List.singleton_append, rfindBytes_append rows noBreak, String.utf8Len_append]
    rfl

theorem scan_here (after : List Char) : scan true (markerPrefix ++ after) = some 0 := by
  have opens : markerPrefix ++ after = '<' :: ("!-- page ".toList ++ after) := by
    rw [← List.cons_append]
    exact congrArg (· ++ after) (by decide)
  rw [opens, scan, if_pos]
  rw [← opens, Bool.true_and]
  exact decide_eq_true (List.prefix_append _ _)

/-- What is counted behind a part of the text. -/
theorem take_behind (before after : List Char) (count : Nat) :
    (before ++ after).take (count + before.length) = before ++ after.take count := by
  rw [Nat.add_comm, List.take_length_add_append]

theorem findMarkerFrom_eq (fuel : Nat) : ∀ {head tail : List Char}, tail.length < fuel →
    findMarkerFrom (head ++ tail) fuel (utf8Len head) =
      some ((scan (cleanAfter true head) tail).map fun count => utf8Len (head ++ tail.take count)) := by
  induction fuel with
  | zero => exact fun short => absurd short (Nat.not_lt_zero _)
  | succ fuel ih =>
    intro head tail short
    rw [findMarkerFrom, dropBytes_append]
    simp only [Option.bind_eq_bind, Option.bind_some]
    cases found : findBytes markerPrefix tail with
    | none =>
      have free := findBytes_eq_none.mp found
      have passes : ∀ position < tail.length, ¬ markerPrefix <+: (tail ++ []).drop position := by
        intro position _ begins
        rw [List.append_nil] at begins
        exact free (begins.isInfix.trans (List.drop_suffix _ _).isInfix)
      have none := @scan_append (cleanAfter true head) tail [] passes
      rw [List.append_nil] at none
      rw [none]
      rfl
    | some rel =>
      obtain ⟨before, after, rfl, rfl, noEarlier⟩ := findBytes_eq_some found
      have skipped := @scan_append (cleanAfter true head) before (markerPrefix ++ after) noEarlier
      obtain ⟨upTo, line, isLine, noBreak, isClean, ends⟩ := exists_line (head ++ before)
      have here : head ++ (before ++ (markerPrefix ++ after)) = upTo ++ line ++ (markerPrefix ++ after) := by
        rw [← isLine, List.append_assoc]
      have position : utf8Len head + utf8Len before = utf8Len (upTo ++ line) := by
        rw [← isLine, String.utf8Len_append]
      have lineClean : cleanAfter (cleanAfter true head) before = line.all (· == bom) := by
        rw [← cleanAfter_append, isLine, cleanAfter_append, isClean, cleanAfter_line noBreak]
      dsimp only
      rw [position, here, lineStart_eq noBreak ends]
      simp only [Option.bind_some]
      rw [List.append_assoc, String.utf8Len_append, slice_append]
      simp only [Option.bind_some]
      rw [skipped, lineClean]
      by_cases marks : line.all (· == bom) = true
      · rw [if_pos marks, marks, scan_here]
        simp only [Option.map_some, Nat.zero_add]
        rw [List.take_left, isLine, String.utf8Len_append]
      · have free : '\n' ∉ markerPrefix := by decide
        have dirty : cleanAfter true (upTo ++ line ++ markerPrefix) = false := by
          rw [cleanAfter_append, cleanAfter_append, isClean, cleanAfter_line noBreak,
            Bool.eq_false_iff.mpr marks,
            cleanAfter_dirty free]
        have shorter : after.length < fuel := by
          simp only [List.length_append] at short
          have : 0 < markerPrefix.length := by decide
          omega
        have later := @ih (upTo ++ line ++ markerPrefix) after shorter
        rw [dirty] at later
        rw [if_neg marks, Bool.eq_false_iff.mpr marks, scan_dirty free]
        simp only [String.utf8Len_append, List.append_assoc] at later ⊢
        rw [Nat.add_assoc, later, Option.map_map, Option.map_map]
        refine congrArg some (Option.map_congr fun count _ => ?_)
        rw [Function.comp_apply, Function.comp_apply, take_behind, take_behind]
        simp only [String.utf8Len_append] at position ⊢
        omega

/-- **The search finds the next prefix that nothing but byte-order marks leads on its line.** -/
theorem findMarker_eq {head tail : List Char} (text : List Char) (isText : text = head ++ tail) :
    findMarker text (utf8Len head) =
      some ((scan (cleanAfter true head) tail).map fun count => utf8Len (head ++ tail.take count)) := by
  subst isText
  refine findMarkerFrom_eq _ ?_
  rw [List.length_append]
  omega

/-! ### The search, line by line -/

/-- What follows the marker prefix a line starts with, up to byte-order marks. -/
def anchored (row : List Char) : Option (List Char) :=
  let rest := row.dropWhile (· == bom)
  if markerPrefix <+: rest then some (rest.drop markerPrefix.length) else none

/-- The lines before the first marker; and of each marker what follows its prefix, and the lines up to
the next one. -/
def marksOf : List (List Char) → List (List Char) × List (List Char × List (List Char))
  | [] => ([], [])
  | row :: rows =>
    match anchored row with
    | some rest => ([], (rest, (marksOf rows).1) :: (marksOf rows).2)
    | none => (row :: (marksOf rows).1, (marksOf rows).2)

theorem anchored_eq_some {row rest : List Char} (marks : anchored row = some rest) :
    ∃ boms, (∀ c ∈ boms, c = bom) ∧ row = boms ++ (markerPrefix ++ rest) := by
  rw [anchored] at marks
  split_ifs at marks with begins
  obtain ⟨tail, isTail⟩ := begins
  refine ⟨row.takeWhile (· == bom), fun c isIn =>
    beq_iff_eq.mp (List.mem_takeWhile_imp (p := (· == bom)) isIn), ?_⟩
  rw [← isTail, List.drop_left] at marks
  rw [← Option.some.inj marks, isTail, List.takeWhile_append_dropWhile]

theorem scan_boms {boms : List Char} (areBoms : ∀ c ∈ boms, c = bom) (after : List Char) :
    scan true (boms ++ after) = (scan true after).map (· + boms.length) := by
  induction boms with
  | nil => exact Option.map_id'.symm
  | cons c boms ih =>
    obtain ⟨rfl, rest⟩ := List.forall_mem_cons.mp areBoms
    rw [List.cons_append, scan_pass fun _ begins => absurd (marker_head begins) (by decide), stepClean]
    rw [beq_self_eq_true, Bool.true_and, Bool.or_true, ih rest, Option.map_map]
    rfl

/-- A prefix that begins on a line is on the line. -/
theorem prefix_line {line more : List Char} (ends : ∀ c ∈ more.head?, c = '\n')
    (begins : markerPrefix <+: line ++ more) : markerPrefix <+: line := by
  by_cases short : markerPrefix.length ≤ line.length
  · exact List.prefix_of_prefix_length_le begins (List.prefix_append _ _) short
  · cases more with
    | nil => rwa [List.append_nil] at begins
    | cons c more =>
      obtain rfl := ends c rfl
      have whole : line ++ ['\n'] <+: line ++ '\n' :: more := ⟨more, by simp⟩
      have inside := List.prefix_of_prefix_length_le whole begins
        (by rw [List.length_append, List.length_singleton]; omega)
      exact absurd (inside.subset (by simp : '\n' ∈ line ++ ['\n'])) (by decide)

/-- A line that starts with no marker is passed. -/
theorem scan_unanchored {row more : List Char} (unmarked : anchored row = none) (noBreak : '\n' ∉ row)
    (ends : ∀ c ∈ more.head?, c = '\n') :
    ∃ clean, scan true (row ++ more) = (scan clean more).map (· + row.length) := by
  have whole : row.takeWhile (· == bom) ++ row.dropWhile (· == bom) = row := List.takeWhile_append_dropWhile
  have areBoms : ∀ c ∈ row.takeWhile (· == bom), c = bom := fun c isIn =>
    beq_iff_eq.mp (List.mem_takeWhile_imp (p := (· == bom)) isIn)
  have length := congrArg List.length whole
  rw [List.length_append] at length
  have skipped := scan_boms areBoms (row.dropWhile (· == bom) ++ more)
  rw [← List.append_assoc, whole] at skipped
  rw [anchored] at unmarked
  cases isRest : row.dropWhile (· == bom) with
  | nil =>
    rw [isRest] at skipped length
    refine ⟨true, skipped.trans ?_⟩
    rw [← length]
    rfl
  | cons c rest =>
    rw [isRest] at skipped unmarked length
    have isOther : c ≠ bom := by
      have isCons : row.dropWhile (· == bom) ≠ [] := by simp [isRest]
      have := List.head_dropWhile_not (· == bom) isCons
      simpa [isRest] using this
    have free : '\n' ∉ c :: rest := fun isIn =>
      noBreak ((List.dropWhile_suffix _).subset (isRest ▸ isIn))
    obtain ⟨here, later⟩ := List.ne_and_not_mem_of_not_mem_cons free
    have dirty : stepClean true c = false := by
      rw [stepClean, Bool.true_and, beq_eq_false_iff_ne.mpr (Ne.symm here), beq_eq_false_iff_ne.mpr isOther]
      rfl
    have passes : ¬ markerPrefix <+: c :: (rest ++ more) := by
      intro begins
      have := @prefix_line (c :: rest) more ends begins
      exact absurd unmarked (by simp [this])
    refine ⟨false, skipped.trans ?_⟩
    rw [List.cons_append, scan_pass fun _ => passes, dirty, scan_dirty later, Option.map_map, Option.map_map,
      ← length]
    refine Option.map_congr fun count _ => ?_
    simp only [Function.comp_apply, List.length_cons]
    omega

/-- A line behind a line break. -/
abbrev below (rows : List (List Char)) : List Char := trail ['\n'] id rows

theorem below_cons (row : List Char) (rows : List (List Char)) :
    below (row :: rows) = '\n' :: (row ++ below rows) := by
  rw [below, Joined.trail_cons]
  rfl

theorem head_below (rows : List (List Char)) : ∀ c ∈ (below rows).head?, c = '\n' := by
  cases rows with
  | nil => exact fun _ isIn => nomatch isIn
  | cons row rows =>
    rw [below_cons]
    exact fun c isIn => (Option.some.inj isIn).symm

theorem marksOf_some {row rest : List Char} (marks : anchored row = some rest) (rows : List (List Char)) :
    marksOf (row :: rows) = ([], (rest, (marksOf rows).1) :: (marksOf rows).2) := by
  rw [marksOf, marks]

theorem marksOf_none {row : List Char} (unmarked : anchored row = none) (rows : List (List Char)) :
    marksOf (row :: rows) = (row :: (marksOf rows).1, (marksOf rows).2) := by
  rw [marksOf, unmarked]

/-- Lines without a marker are passed. -/
theorem scan_below_none {rows : List (List Char)} (noBreak : ∀ row ∈ rows, '\n' ∉ row)
    (none : (marksOf rows).2 = [])
    (clean : Bool) : scan clean (below rows) = .none ∧ (marksOf rows).1 = rows := by
  induction rows generalizing clean with
  | nil => exact ⟨rfl, rfl⟩
  | cons row rows ih =>
    obtain ⟨here, later⟩ := List.forall_mem_cons.mp noBreak
    cases marks : anchored row with
    | some rest =>
      rw [marksOf_some marks] at none
      exact absurd none (List.cons_ne_nil _ _)
    | none =>
      rw [marksOf_none marks] at none ⊢
      obtain ⟨clean', passed⟩ := scan_unanchored marks here (head_below rows)
      obtain ⟨isNone, same⟩ := ih later none clean'
      rw [below_cons, scan_break, passed, isNone]
      exact ⟨rfl, congrArg (row :: ·) same⟩

/-- The first marker below. -/
theorem scan_below_some {rows : List (List Char)} (noBreak : ∀ row ∈ rows, '\n' ∉ row) {rest : List Char}
    {lines : List (List Char)} {marks : List (List Char × List (List Char))}
    (first : (marksOf rows).2 = (rest, lines) :: marks) (clean : Bool) :
    ∃ boms after, (∀ c ∈ boms, c = bom) ∧
      rows = (marksOf rows).1 ++ (boms ++ (markerPrefix ++ rest)) :: after ∧ marksOf after = (lines, marks) ∧
      scan clean (below rows) = some (below (marksOf rows).1 ++ '\n' :: boms).length := by
  induction rows generalizing clean with
  | nil => cases first
  | cons row rows ih =>
    obtain ⟨here, later⟩ := List.forall_mem_cons.mp noBreak
    cases marked : anchored row with
    | some rest' =>
      rw [marksOf_some marked] at first ⊢
      obtain ⟨isFirst, isRest⟩ := List.cons.inj first
      obtain ⟨rfl, isLines⟩ := Prod.mk.inj isFirst
      obtain ⟨boms, areBoms, rfl⟩ := anchored_eq_some marked
      refine ⟨boms, rows, areBoms, rfl, Prod.ext isLines isRest, ?_⟩
      rw [below_cons, scan_break, List.append_assoc, scan_boms areBoms, List.append_assoc, scan_here]
      simp [below, trail]
    | none =>
      rw [marksOf_none marked] at first ⊢
      obtain ⟨clean', passed⟩ := scan_unanchored marked here (head_below rows)
      obtain ⟨boms, after, areBoms, isRows, isMarks, found⟩ := ih later first clean'
      refine ⟨boms, after, areBoms, congrArg (row :: ·) isRows, isMarks, ?_⟩
      rw [below_cons, scan_break, passed, found, below_cons]
      simp only [Option.map_some, List.length_append, List.length_cons]
      exact congrArg some (by omega)

/-! ### Reading a marker -/

/-- The sheet a marker names, by what follows its prefix on the line, and what follows the marker. -/
def readMarker (rest : List Char) : Option (Nat × List Char) :=
  (cutAt markerInfix rest).bind fun label =>
    (cutAt markerSuffix label.2).bind fun sheet => (parseU32 (trim sheet.1)).map (·, sheet.2)

/-- The line of a position ends at the next line break. -/
theorem lineEnd_eq {text head line more : List Char} (isText : text = head ++ (line ++ more))
    (noBreak : '\n' ∉ line)
    (ends : ∀ c ∈ more.head?, c = '\n') : lineEnd text (utf8Len head) = some (utf8Len head + utf8Len line) := by
  rw [lineEnd, isText, dropBytes_append, Option.map_some]
  cases more with
  | nil =>
    have none : findBytes ['\n'] line = none := findBytes_eq_none.mpr fun inside =>
      noBreak (inside.subset List.mem_cons_self)
    rw [List.append_nil, none, String.utf8Len_append]
  | cons c more =>
    obtain rfl := ends c rfl
    rw [findBytes_char noBreak]

/-- **A marker is read from what follows its prefix on its line.** -/
theorem readMarkerAt_eq {text head rest more : List Char}
    (isText : text = head ++ (markerPrefix ++ (rest ++ more)))
    (noBreak : '\n' ∉ rest) (ends : ∀ c ∈ more.head?, c = '\n') :
    (readMarker rest = none ∧ ∃ malformed, readMarkerAt text (utf8Len head) = some (.error malformed)) ∨
      ∃ sheet before tail, rest = before ++ tail ∧ readMarker rest = some (sheet, tail) ∧
        readMarkerAt text (utf8Len head) = some (.ok (sheet, utf8Len (head ++ (markerPrefix ++ before)))) := by
  have line : lineEnd text (utf8Len head + utf8Len markerPrefix) =
      some (utf8Len head + utf8Len markerPrefix + utf8Len rest) := by
    rw [← String.utf8Len_append]
    exact lineEnd_eq (isText.trans (List.append_assoc ..).symm) noBreak ends
  have inLine : text = head ++ ((markerPrefix ++ rest) ++ more) := by rw [isText, List.append_assoc]
  have inRest : text = (head ++ markerPrefix) ++ (rest ++ more) := isText.trans (List.append_assoc ..).symm
  have markerLine : slice (utf8Len head) (utf8Len head + utf8Len markerPrefix + utf8Len rest) text =
      some (markerPrefix ++ rest) :=
    slice_eq inLine rfl (by rw [String.utf8Len_append, Nat.add_assoc])
  have behind : slice (utf8Len head + utf8Len markerPrefix)
    (utf8Len head + utf8Len markerPrefix + utf8Len rest) text =
      some rest :=
    slice_eq inRest (String.utf8Len_append ..).symm (by rw [String.utf8Len_append])
  rw [readMarkerAt, readMarker]
  simp only [line, markerLine, behind, Option.bind_eq_bind, Option.bind_some]
  rcases findBytes_cutAt markerInfix rest with ⟨found, cut⟩ | ⟨label, afterInfix, isRest, found, cut⟩
  · rw [found, cut]
    exact .inl ⟨rfl, _, rfl⟩
  rw [found, cut]
  have inInfix : text = (head ++ (markerPrefix ++ (label ++ markerInfix))) ++ (afterInfix ++ more) := by
    rw [isText, isRest]
    simp only [List.append_assoc]
  have behindInfix : slice (utf8Len head + utf8Len markerPrefix + utf8Len label + utf8Len markerInfix)
      (utf8Len head + utf8Len markerPrefix + utf8Len rest) text = some afterInfix :=
    slice_eq inInfix (by simp only [String.utf8Len_append, Nat.add_assoc])
      (by rw [isRest]; simp only [String.utf8Len_append, Nat.add_assoc])
  simp only [behindInfix, Option.bind_some]
  rcases findBytes_cutAt markerSuffix afterInfix with ⟨found', cut'⟩ | ⟨digits, tail, isAfter, found', cut'⟩
  · rw [found', cut']
    exact .inl ⟨rfl, _, rfl⟩
  rw [found', cut']
  have inDigits : text = (head ++ (markerPrefix ++ (label ++ markerInfix))) ++
    (digits ++ (markerSuffix ++ (tail ++ more))) := by
    rw [inInfix, isAfter]
    simp only [List.append_assoc]
  have sheetStr : slice (utf8Len head + utf8Len markerPrefix + utf8Len label + utf8Len markerInfix)
      (utf8Len head + utf8Len markerPrefix + utf8Len label + utf8Len markerInfix + utf8Len digits) text = some
        digits :=
    slice_eq inDigits (by simp only [String.utf8Len_append, Nat.add_assoc])
      (by simp only [String.utf8Len_append, Nat.add_assoc])
  simp only [sheetStr, Option.bind_some]
  cases isSheet : parseU32 (trim digits) with
  | none => exact .inl ⟨rfl, _, rfl⟩
  | some sheet =>
    refine .inr ⟨sheet, label ++ (markerInfix ++ (digits ++ markerSuffix)), tail, ?_, rfl, ?_⟩
    · rw [isRest, isAfter]
      simp only [List.append_assoc]
    · simp only [String.utf8Len_append, Nat.add_assoc]

/-! ### The pages -/

/-- A sheet and its lines, the first being what follows the marker on the marker's own. -/
structure Sheet where
  number : Nat
  lines : List (List Char)
  deriving DecidableEq, Repr

/-- The sheets of the markers, where each marker can be read. -/
def sheetsOf : List (List Char × List (List Char)) → Option (List Sheet)
  | [] => some []
  | (rest, lines) :: marks =>
    (readMarker rest).bind fun marker => (sheetsOf marks).map (⟨marker.1, marker.2 :: lines⟩ :: ·)

/-- Lines with line breaks between them. -/
def unlines : List (List Char) → List Char
  | [] => []
  | row :: rows => row ++ below rows

/-- A page holds a sheet's lines, with a line break behind the last where a marker follows. -/
structure Carries (page : Page) (sheet : Sheet) : Prop where
  number : page.sheet = sheet.number
  filled : sheet.lines ≠ []
  lines : ∀ line ∈ sheet.lines, '\n' ∉ line
  body : page.body = unlines sheet.lines ∨ page.body = unlines sheet.lines ++ ['\n']

theorem cleanAfter_break (clean : Bool) (text : List Char) : cleanAfter clean (text ++ ['\n']) = true := by
  rw [cleanAfter_append]
  rfl

theorem cleanAfter_boms {boms : List Char} (areBoms : ∀ c ∈ boms, c = bom) : cleanAfter true boms = true := by
  rw [cleanAfter_line fun isIn => absurd (areBoms _ isIn) (by decide), List.all_eq_true]
  exact fun c isIn => beq_iff_eq.mpr (areBoms c isIn)

/-- Without a marker below, the body of a page ends with the text. -/
theorem bodyEnd_last {text head tail : List Char} {after : List (List Char)}
    (isText : text = head ++ (tail ++ below after))
    (dirty : cleanAfter true head = false) (noBreak : ∀ row ∈ tail :: after, '\n' ∉ row)
      (none : (marksOf after).2 = []) :
    bodyEnd text (utf8Len head) = some (utf8Len text) := by
  obtain ⟨here, later⟩ := List.forall_mem_cons.mp noBreak
  rw [bodyEnd, findMarker_eq text isText, dirty, scan_dirty here, (scan_below_none later none false).1]
  rfl

/-- With one, it ends where the marker's line starts. -/
theorem bodyEnd_next {text head tail rest : List Char} {after lines : List (List Char)}
    {marks : List (List Char × List (List Char))} (isText : text = head ++ (tail ++ below after))
    (dirty : cleanAfter true head = false) (noBreak : ∀ row ∈ tail :: after, '\n' ∉ row)
    (next : (marksOf after).2 = (rest, lines) :: marks) :
    ∃ boms later, (∀ c ∈ boms, c = bom) ∧ after = (marksOf after).1 ++
      (boms ++ (markerPrefix ++ rest)) :: later ∧
      marksOf later = (lines, marks) ∧
      bodyEnd text (utf8Len head) = some (utf8Len (head ++ (tail ++ (below (marksOf after).1 ++ ['\n'])))) := by
  obtain ⟨here, others⟩ := List.forall_mem_cons.mp noBreak
  obtain ⟨boms, later, areBoms, isAfter, isLater, found⟩ := scan_below_some others next false
  refine ⟨boms, later, areBoms, isAfter, isLater, ?_⟩
  have split : below after =
      (below (marksOf after).1 ++ '\n' :: boms) ++ (markerPrefix ++ rest ++ below later) := by
    conv_lhs => rw [isAfter, below, Joined.trail_append, ← below, ← below, below_cons]
    simp only [List.append_assoc, List.cons_append]
  have taken : (tail ++ below after).take ((below (marksOf after).1 ++ '\n' :: boms).length + tail.length) =
      tail ++ (below (marksOf after).1 ++ '\n' :: boms) := by
    rw [take_behind, split, List.take_left]
  have free : '\n' ∉ boms := fun isIn => absurd (areBoms _ isIn) (by decide)
  have whole : text = (head ++ (tail ++ (below (marksOf after).1 ++ ['\n']))) ++ boms ++
    (markerPrefix ++ rest ++ below later) := by
    rw [isText, split]
    simp only [List.append_assoc, List.cons_append, List.nil_append]
  have line : head ++ (tail ++ (below (marksOf after).1 ++ '\n' :: boms)) =
      (head ++ (tail ++ (below (marksOf after).1 ++ ['\n']))) ++ boms := by
    simp only [List.append_assoc, List.cons_append, List.nil_append]
  rw [bodyEnd, findMarker_eq text isText, dirty, scan_dirty here, found]
  simp only [Option.map_some, Option.bind_eq_bind, Option.bind_some]
  rw [taken, line]
  conv_lhs => rw [whole]
  exact lineStart_eq free (.inr ⟨head ++ (tail ++ below (marksOf after).1), by simp only [List.append_assoc]⟩) _

/-- One turn of the loop, at a marker. -/
theorem scanFrom_step {text head boms rest : List Char} {after : List (List Char)} (fuel : Nat) (out : List Page)
    (isText : text = head ++ (boms ++ (markerPrefix ++ (rest ++ below after))))
      (clean : cleanAfter true head = true)
    (areBoms : ∀ c ∈ boms, c = bom) (noBreak : '\n' ∉ rest) :
    (readMarker rest = none ∧ ∃ malformed, scanFrom text (fuel + 1) (utf8Len head) out = some
      (.error malformed)) ∨
      ∃ number head' tail, readMarker rest = some (number, tail) ∧ '\n' ∉ tail ∧
        text = head' ++ (tail ++ below after) ∧ cleanAfter true head' = false ∧
        ∀ stop body, bodyEnd text (utf8Len head') = some stop → slice (utf8Len head') stop text = some body →
          scanFrom text (fuel + 1) (utf8Len head) out = scanFrom text fuel stop (out ++ [⟨number, body⟩]) := by
  have found : findMarker text (utf8Len head) = some (some (utf8Len (head ++ boms))) := by
    rw [findMarker_eq text isText, clean, scan_boms areBoms, scan_here, Option.map_some, Nat.zero_add,
      Option.map_some,
      List.take_left]
  have atMarker : text = (head ++ boms) ++ (markerPrefix ++ (rest ++ below after)) := by
    rw [isText, List.append_assoc]
  rw [scanFrom, found]
  simp only [Option.bind_eq_bind, Option.bind_some]
  rcases readMarkerAt_eq atMarker noBreak (head_below after) with
    ⟨unread, malformed, isRead⟩ | ⟨number, before, tail, rfl, isMarker, isRead⟩
  · rw [isRead]
    exact .inl ⟨unread, malformed, rfl⟩
  · rw [isRead]
    rw [List.mem_append, not_or] at noBreak
    refine .inr ⟨number, head ++ boms ++ (markerPrefix ++ before), tail, isMarker, noBreak.2, ?_, ?_, ?_⟩
    · rw [isText]
      simp only [List.append_assoc]
    · have dirty : cleanAfter true markerPrefix = false := by decide
      rw [cleanAfter_append _ (head ++ boms), cleanAfter_append _ head, clean, cleanAfter_boms areBoms,
        cleanAfter_append, dirty,
        cleanAfter_dirty noBreak.1]
    · intro stop body isStop isBody
      simp only [Option.bind_some, isStop, isBody]

/-- The pages from a marker on. -/
theorem scanFrom_eq {text : List Char} (marks : List (List Char × List (List Char))) :
    ∀ {head boms rest : List Char} {lines after : List (List Char)} {fuel : Nat} (out : List Page),
      text = head ++ (boms ++ (markerPrefix ++ (rest ++ below after))) → cleanAfter true head = true →
      (∀ c ∈ boms, c = bom) → (∀ row ∈ rest :: after, '\n' ∉ row) → marksOf after = (lines, marks) →
      marks.length + 1 < fuel →
      (sheetsOf ((rest, lines) :: marks) = none ∧
          ∃ malformed, scanFrom text fuel (utf8Len head) out = some (.error malformed)) ∨
        ∃ sheets pages, sheetsOf ((rest, lines) :: marks) = some sheets ∧ List.Forall₂ Carries pages sheets ∧
          scanFrom text fuel (utf8Len head) out = some (.ok (out ++ pages)) := by
  induction marks with
  | nil =>
    intro head boms rest lines after fuel out isText clean areBoms noBreak isMarks short
    obtain ⟨fuel, rfl⟩ : ∃ least, fuel = least + 2 := ⟨fuel - 2, by simp only [List.length_nil] at short; omega⟩
    obtain ⟨here, later⟩ := List.forall_mem_cons.mp noBreak
    obtain ⟨_, isLines⟩ := scan_below_none later (congrArg Prod.snd isMarks) false
    have same : lines = after := (congrArg Prod.fst isMarks).symm.trans isLines
    rcases scanFrom_step (fuel + 1) out isText clean areBoms here with
      ⟨unread, malformed⟩ | ⟨number, head', tail, isMarker, free, isText', dirty, turn⟩
    · exact .inl ⟨by rw [sheetsOf, unread]; rfl, malformed⟩
    · have stop := bodyEnd_last isText' dirty (List.forall_mem_cons.mpr ⟨free, later⟩)
        (congrArg Prod.snd isMarks)
      have body : slice (utf8Len head') (utf8Len text) text = some (tail ++ below after) := by
        have whole : text = head' ++ ((tail ++ below after) ++ []) := by rw [List.append_nil, ← isText']
        exact slice_eq whole rfl (by rw [isText', String.utf8Len_append])
      have done : findMarker text (utf8Len text) = some none := by
        rw [findMarker_eq text (List.append_nil text).symm]
        rfl
      refine .inr ⟨[⟨number, tail :: lines⟩], [⟨number, tail ++ below after⟩], ?_, ?_, ?_⟩
      · rw [sheetsOf, isMarker]
        rfl
      · rw [same]
        exact .cons ⟨rfl, List.cons_ne_nil _ _, List.forall_mem_cons.mpr ⟨free, later⟩, .inl rfl⟩ .nil
      · rw [turn _ _ stop body, scanFrom, done]
        rfl
  | cons mark marks ih =>
    intro head boms rest lines after fuel out isText clean areBoms noBreak isMarks short
    obtain ⟨fuel, rfl⟩ : ∃ least, fuel = least + 1 := ⟨fuel - 1, by omega⟩
    obtain ⟨here, later⟩ := List.forall_mem_cons.mp noBreak
    rcases scanFrom_step fuel out isText clean areBoms here with
      ⟨unread, malformed⟩ | ⟨number, head', tail, isMarker, free, isText', dirty, turn⟩
    · exact .inl ⟨by rw [sheetsOf, unread]; rfl, malformed⟩
    · obtain ⟨boms', after', areBoms', isAfter, isMarks', stop⟩ :=
        @bodyEnd_next text head' tail mark.1 after mark.2 marks isText' dirty
          (List.forall_mem_cons.mpr ⟨free, later⟩) (congrArg Prod.snd isMarks)
      rw [isMarks] at isAfter stop
      have split : below after = below lines ++
        ('\n' :: (boms' ++ (markerPrefix ++ (mark.1 ++ below after')))) := by
        rw [isAfter, below, Joined.trail_append, ← below, ← below, below_cons]
        simp only [List.append_assoc]
      have next : text = (head' ++ (tail ++ (below lines ++ ['\n']))) ++
          (boms' ++ (markerPrefix ++ (mark.1 ++ below after'))) := by
        rw [isText', split]
        simp only [List.append_assoc, List.singleton_append]
      have body : slice (utf8Len head') (utf8Len (head' ++ (tail ++ (below lines ++ ['\n'])))) text =
          some (tail ++ (below lines ++ ['\n'])) :=
        slice_eq (next.trans (List.append_assoc ..)) rfl (String.utf8Len_append ..)
      rw [isAfter, List.forall_mem_append, List.forall_mem_cons] at later
      obtain ⟨freeLines, freeMark, freeAfter⟩ := later
      have rows : ∀ row ∈ mark.1 :: after', '\n' ∉ row := by
        refine List.forall_mem_cons.mpr ⟨fun isIn => freeMark ?_, freeAfter⟩
        exact List.mem_append_right _ (List.mem_append_right _ isIn)
      have clean' : cleanAfter true (head' ++ (tail ++ (below lines ++ ['\n']))) = true := by
        simp only [← List.append_assoc]
        exact cleanAfter_break _ _
      rw [List.length_cons] at short
      rw [turn _ _ stop body]
      rcases ih (out ++ [⟨number, tail ++ (below lines ++ ['\n'])⟩]) next clean' areBoms' rows isMarks'
          (Nat.lt_of_succ_lt_succ short) with ⟨unread, malformed⟩ | ⟨sheets, pages, areSheets, carry, isRun⟩
      · exact .inl ⟨by rw [sheetsOf, isMarker, unread]; rfl, malformed⟩
      · refine .inr ⟨⟨number, tail :: lines⟩ :: sheets, ⟨number, tail ++ (below lines ++ ['\n'])⟩ :: pages, ?_,
          ?_, ?_⟩
        · rw [sheetsOf, isMarker, areSheets]
          rfl
        · exact .cons ⟨rfl, List.cons_ne_nil _ _, List.forall_mem_cons.mpr ⟨free, freeLines⟩,
            .inr (List.append_assoc ..).symm⟩ carry
        · rw [isRun, List.append_assoc]
          rfl

/-- Lines with a line break behind each. -/
abbrev above (rows : List (List Char)) : List Char := Joined.lead ['\n'] id rows

theorem below_break (rows : List (List Char)) (text : List Char) :
    below rows ++ '\n' :: text = '\n' :: (above rows ++ text) := by
  induction rows with
  | nil => rfl
  | cons row rows ih =>
    have first : above (row :: rows) = row ++ ['\n'] ++ above rows := Joined.lead_cons row rows
    rw [below_cons, List.cons_append, List.append_assoc, ih, first]
    simp only [List.append_assoc, List.cons_append, List.nil_append]

theorem above_ends (rows : List (List Char)) : above rows = [] ∨ ∃ lines, above rows = lines ++ ['\n'] := by
  induction rows using List.reverseRecOn with
  | nil => exact .inl rfl
  | append_singleton rows row _ =>
    refine .inr ⟨above rows ++ row, ?_⟩
    rw [above, Joined.lead_append, Joined.lead_cons, ← List.append_assoc, ← List.append_assoc]
    exact List.append_nil _

theorem clean_above (rows : List (List Char)) : cleanAfter true (above rows) = true := by
  obtain isNil | ⟨lines, isLines⟩ := above_ends rows
  · rw [isNil]
    rfl
  · rw [isLines, cleanAfter_break]

/-- **A package is malformed**: no line starts with a marker, there is text above the first one, or a
marker does not name its sheet. -/
def Unreadable (rows : List (List Char)) : Prop :=
  (marksOf rows).2 = [] ∨ (∃ row ∈ (marksOf rows).1, ∃ c ∈ row, isWhitespace c = false) ∨
    ∃ mark ∈ (marksOf rows).2, readMarker mark.1 = none

theorem sheetsOf_eq_none (marks : List (List Char × List (List Char))) :
    sheetsOf marks = none ↔ ∃ mark ∈ marks, readMarker mark.1 = none := by
  induction marks with
  | nil => simp [sheetsOf]
  | cons mark marks ih =>
    rw [sheetsOf, List.exists_mem_cons_iff, ← ih]
    cases readMarker mark.1 <;> simp

theorem trim_isEmpty (text : List Char) : (trim text).isEmpty = true ↔ ∀ c ∈ text, isWhitespace c = true := by
  rcases Normalize.trim_cases text with ⟨isNil, blank⟩ | ⟨lead, first, rest, trail, whole, isTrim, -, isText, -⟩
  · rw [isNil]
    exact iff_of_true rfl blank
  · rw [isTrim]
    refine iff_of_false Bool.false_ne_true fun blank => ?_
    exact Bool.false_ne_true (isText.symm.trans (blank first (by rw [whole]; simp)))

/-- Above the first marker there is no text. -/
theorem above_blank (rows : List (List Char)) :
    (trim (above rows)).isEmpty = true ↔ ¬ ∃ row ∈ rows, ∃ c ∈ row, isWhitespace c = false := by
  rw [trim_isEmpty]
  constructor
  · rintro blank ⟨row, isRow, c, isIn, isText⟩
    refine Bool.false_ne_true (isText.symm.trans (blank c ?_))
    exact List.mem_flatMap.mpr ⟨row, isRow, List.mem_append_left _ isIn⟩
  · intro none c isIn
    obtain ⟨row, isRow, isIn⟩ := List.mem_flatMap.mp isIn
    rcases List.mem_append.mp isIn with isIn | isBreak
    · by_contra isText
      exact none ⟨row, isRow, c, isIn, by simpa using isText⟩
    · rw [List.mem_singleton.mp isBreak]
      decide

/-- There are no more markers than line breaks. -/
theorem length_marksOf (rows : List (List Char)) : (marksOf rows).2.length ≤ (below rows).length := by
  induction rows with
  | nil => exact Nat.le_refl _
  | cons row rows ih =>
    rw [below_cons, List.length_cons, List.length_append]
    cases marks : anchored row with
    | some rest =>
      rw [marksOf_some marks, List.length_cons]
      omega
    | none =>
      rw [marksOf_none marks]
      dsimp only
      omega

/-- **The pages are read line by line.** -/
theorem scanPages_eq (text : List Char) :
    (Unreadable (text.splitOn '\n') ∧ ∃ malformed, scanPages text = some (.error malformed)) ∨
      ∃ sheets pages, ¬ Unreadable (text.splitOn '\n') ∧ sheetsOf (marksOf (text.splitOn '\n')).2 = some sheets ∧
        List.Forall₂ Carries pages sheets ∧ scanPages text = some (.ok pages) := by
  obtain ⟨row, rest, isSplit, isText, noBreak⟩ := Joined.splitOn_rows '\n' text
  have lines : below (text.splitOn '\n') = '\n' :: text := by
    rw [isSplit, below_cons]
    exact congrArg ('\n' :: ·) isText.symm
  have search : scan false (below (text.splitOn '\n')) = (scan true text).map (· + 1) := by
    rw [lines, scan_break]
  have start : findMarker text 0 = some ((scan true text).map fun count => utf8Len (text.take count)) :=
    @findMarker_eq [] text text rfl
  rw [← isSplit] at noBreak
  rw [Unreadable, scanPages, start]
  cases isMarks : (marksOf (text.splitOn '\n')).2 with
  | nil =>
    rw [(scan_below_none noBreak isMarks false).1] at search
    rw [Option.map_eq_none_iff.mp search.symm]
    exact .inl ⟨.inl rfl, _, rfl⟩
  | cons mark marks =>
    obtain ⟨boms, after, areBoms, isRows, isAfter, found⟩ := scan_below_some noBreak isMarks false
    generalize (marksOf (text.splitOn '\n')).1 = before at isRows found
    have behind : below (text.splitOn '\n') =
        below before ++ ('\n' :: (boms ++ (markerPrefix ++ (mark.1 ++ below after)))) := by
      rw [isRows, below, Joined.trail_append, ← below, ← below, below_cons]
      simp only [List.append_assoc]
    rw [below_break, lines] at behind
    have whole : text = (above before ++ boms) ++ (markerPrefix ++ (mark.1 ++ below after)) :=
      (List.cons.inj behind).2.trans (List.append_assoc ..).symm
    rw [search, below_break, List.length_cons, Option.map_eq_some_iff] at found
    obtain ⟨count, isCount, isLength⟩ := found
    obtain rfl := Nat.succ.inj isLength
    have free : '\n' ∉ boms := fun isIn => absurd (areBoms _ isIn) (by decide)
    have line : lineStart text (utf8Len (above before ++ boms)) = some (utf8Len (above before)) := by
      conv_lhs => rw [whole]
      exact lineStart_eq free (above_ends before) _
    have prelude : takeBytes (utf8Len (above before)) text = some (above before) := by
      rw [whole, List.append_assoc]
      exact takeBytes_append _ _
    have taken : text.take (above before ++ boms).length = above before ++ boms := by
      conv_lhs => rw [whole]
      exact List.take_left
    rw [isCount, Option.map_some, taken]
    simp only [Option.bind_eq_bind, Option.bind_some, line, prelude]
    by_cases blank : (trim (above before)).isEmpty = true
    · rw [if_pos blank]
      have rows : ∀ row ∈ mark.1 :: after, '\n' ∉ row := by
        rw [isRows, List.forall_mem_append, List.forall_mem_cons] at noBreak
        refine List.forall_mem_cons.mpr ⟨fun isIn => noBreak.2.1 ?_, noBreak.2.2⟩
        exact List.mem_append_right _ (List.mem_append_right _ isIn)
      have clean : cleanAfter true (above before ++ boms) = true := by
        rw [cleanAfter_append, clean_above, cleanAfter_boms areBoms]
      have short : marks.length + 1 < text.length + 1 := by
        have fewer := length_marksOf after
        have length := congrArg List.length whole
        have filled : 0 < markerPrefix.length := by decide
        rw [isAfter] at fewer
        simp only [List.length_append] at fewer length
        omega
      have read := scanFrom_eq marks [] whole clean
        (fun _ isIn => absurd isIn List.not_mem_nil) rows isAfter short
      have noText := (above_blank before).mp blank
      rw [← sheetsOf_eq_none]
      rcases read with ⟨unread, malformed⟩ | ⟨sheets, pages, areSheets, carry, isRun⟩
      · exact .inl ⟨.inr (.inr unread), malformed⟩
      · refine .inr ⟨sheets, pages, ?_, areSheets, carry, isRun⟩
        rintro (none | text | unread)
        · exact List.cons_ne_nil _ _ none
        · exact noText text
        · exact Option.some_ne_none _ (areSheets.symm.trans unread)
    · rw [if_neg blank]
      exact .inl ⟨.inr (.inl (not_not.mp (mt (above_blank before).mpr blank))), _, rfl⟩

end Bookrack.Extract
