/-
The numbers of the headings found by their text (`validate_sequence` of `extract/src/pdf_paper.rs`).

* `Sequence.accept_eq` — the five counters accept a candidate exactly where its number fits behind the
  headings so far, and then move to it as they move to a heading of the outline.
* `promoted_eq` — the iterator over the candidates never loses step with the blocks: promoting what is
  accepted colours each block as a single walk does.
* **`extractPaperStructured_numbers`** — a `Body` block becomes a numbered heading exactly where it
  passes the gate and its number fits at its place, and nothing else changes.
-/

import Bookrack.Base.Numbering
import Bookrack.Extract.Headings

namespace Bookrack.Extract

open Normalize (trim)
open Bookrack.Numbering (Follows counter)
open Structure (BlockKind TocEntry)

variable (classes : CharClasses)

/-! ### Where a number fits -/

/-- The Arabic number of a heading. -/
def NumberedPrefix.arabicNumber (found : NumberedPrefix) : Option (List Nat) :=
  if found.isAppendix || found.isRoman then none else some found.numbers

/-- The Roman number of a heading. -/
def NumberedPrefix.romanNumber (found : NumberedPrefix) : Option Nat :=
  if !found.isAppendix && found.isRoman then found.numbers.head? else none

/-- The numbered headings among the blocks, in order. -/
def headingNumbers (blocks : List PaperBlock) : List NumberedPrefix :=
  blocks.filterMap fun block =>
    if isHeading block.kind then parseNumberedPrefix classes (trim block.text) else none

/-- The number of the nearest preceding Arabic heading. -/
def lastArabic (headings : List NumberedPrefix) : Option (List Nat) :=
  (headings.filterMap NumberedPrefix.arabicNumber).getLast?

/-- The number of the nearest preceding Roman heading. -/
def lastRoman (headings : List NumberedPrefix) : Option Nat :=
  (headings.filterMap NumberedPrefix.romanNumber).getLast?

/-- A number fits behind the headings so far. -/
def Fits (headings : List NumberedPrefix) (found : NumberedPrefix) : Prop :=
  if found.isAppendix then ∀ heading ∈ headings, heading.isAppendix = false
  else if found.isRoman then found.numbers = [(lastRoman headings).getD 0 + 1]
  else Follows (lastArabic headings) found.numbers

/-! ### The counters -/

/-- The counters stand where the headings so far have put them. -/
structure Sequence.Tracks (counters : Sequence) (headings : List NumberedPrefix) : Prop where
  l1 : counters.l1 = counter (lastArabic headings) 0
  l2 : counters.l2 = counter (lastArabic headings) 1
  l3 : counters.l3 = counter (lastArabic headings) 2
  romanL1 : counters.romanL1 = (lastRoman headings).getD 0
  appendixSeen : counters.appendixSeen = headings.any NumberedPrefix.isAppendix

theorem tracks_start : (⟨0, 0, 0, 0, false⟩ : Sequence).Tracks [] := ⟨rfl, rfl, rfl, rfl, rfl⟩

theorem lastArabic_concat (headings : List NumberedPrefix) (found : NumberedPrefix) :
    lastArabic (headings ++ [found]) = found.arabicNumber.or (lastArabic headings) := by
  rw [lastArabic, List.filterMap_append, List.getLast?_append]
  cases isNumber : found.arabicNumber <;> simp [isNumber, lastArabic]

theorem lastRoman_concat (headings : List NumberedPrefix) (found : NumberedPrefix) :
    lastRoman (headings ++ [found]) = found.romanNumber.or (lastRoman headings) := by
  rw [lastRoman, List.filterMap_append, List.getLast?_append]
  cases isNumber : found.romanNumber <;> simp [isNumber, lastRoman]

variable {counters : Sequence} {headings : List NumberedPrefix} {found : NumberedPrefix}

/-- The shapes of an Arabic number. -/
theorem NumberedPrefix.WellFormed.shape {level : Nat} {numbers : List Nat} {isRoman isAppendix : Bool}
    (wellFormed : NumberedPrefix.WellFormed ⟨level, numbers, isRoman, isAppendix⟩)
    (noAppendix : isAppendix = false) (noRoman : isRoman = false) :
    (∃ n, level = 1 ∧ numbers = [n]) ∨ (∃ m n, level = 2 ∧ numbers = [m, n]) ∨
      ∃ l m n, level = 3 ∧ numbers = [l, m, n] := by
  obtain ⟨length, least, most, -⟩ := wellFormed.arabic noAppendix noRoman
  obtain rfl | rfl | rfl : level = 1 ∨ level = 2 ∨ level = 3 := by
    have low : 1 ≤ level := least
    have high : level ≤ 3 := most
    omega
  · obtain ⟨n, isOne⟩ := List.length_eq_one_iff.mp length
    exact .inl ⟨n, rfl, isOne⟩
  · obtain ⟨m, n, isTwo⟩ := List.length_eq_two.mp length
    exact .inr (.inl ⟨m, n, rfl, isTwo⟩)
  · obtain ⟨l, m, n, isThree⟩ := List.length_eq_three.mp length
    exact .inr (.inr ⟨l, m, n, rfl, isThree⟩)

/-- **One heading more** moves the counters to its number. -/
theorem Sequence.Tracks.absorb (tracks : counters.Tracks headings) (wellFormed : found.WellFormed) :
    (counters.absorb found).Tracks (headings ++ [found]) := by
  obtain ⟨level, numbers, isRoman, isAppendix⟩ := found
  obtain ⟨l1, l2, l3, romanL1, appendixSeen⟩ := tracks
  cases isAppendix with
  | true =>
    refine ⟨?_, ?_, ?_, ?_, ?_⟩ <;>
      simp [Sequence.absorb, lastArabic_concat, lastRoman_concat, NumberedPrefix.arabicNumber,
        NumberedPrefix.romanNumber, *]
  | false =>
    cases isRoman with
    | true =>
      obtain ⟨n, rfl⟩ := wellFormed.roman rfl rfl
      refine ⟨?_, ?_, ?_, ?_, ?_⟩ <;>
        simp [Sequence.absorb, lastArabic_concat, lastRoman_concat, NumberedPrefix.arabicNumber,
          NumberedPrefix.romanNumber, *]
    | false =>
      obtain ⟨n, rfl, rfl⟩ | ⟨m, n, rfl, rfl⟩ | ⟨l, m, n, rfl, rfl⟩ := wellFormed.shape rfl rfl <;>
        refine ⟨?_, ?_, ?_, ?_, ?_⟩ <;>
        simp [Sequence.absorb, lastArabic_concat, lastRoman_concat, NumberedPrefix.arabicNumber,
          NumberedPrefix.romanNumber, counter, *]

/-- A test against the counters is the law of the sequence. -/
theorem accept_or {test fits : Prop} [Decidable test] (same : test ↔ fits) {next absorbed : Sequence}
    (moves : test → next = absorbed) :
    fits ∧ (if test then some next else none) = some absorbed ∨
      ¬ fits ∧ (if test then some next else none) = none := by
  by_cases holds : test
  · exact .inl ⟨same.mp holds, by rw [if_pos holds, moves holds]⟩
  · exact .inr ⟨mt same.mpr holds, if_neg holds⟩

/-- **The counters accept what fits**, and then move to it as to any heading. -/
theorem Sequence.accept_eq (tracks : counters.Tracks headings) (wellFormed : found.WellFormed) :
    Fits headings found ∧ counters.accept found = some (counters.absorb found) ∨
      ¬ Fits headings found ∧ counters.accept found = none := by
  obtain ⟨level, numbers, isRoman, isAppendix⟩ := found
  cases isAppendix with
  | true =>
    have fits : Fits headings ⟨level, numbers, isRoman, true⟩ ↔ counters.appendixSeen = false := by
      rw [tracks.appendixSeen, List.any_eq_false]
      simp [Fits]
    rw [fits]
    cases isSeen : counters.appendixSeen with
    | true => exact .inr ⟨nofun, by simp [Sequence.accept, isSeen]⟩
    | false => exact .inl ⟨rfl, by simp [Sequence.accept, Sequence.absorb, isSeen]⟩
  | false =>
    cases isRoman with
    | true =>
      obtain ⟨n, rfl⟩ := wellFormed.roman rfl rfl
      have fits : Fits headings ⟨level, [n], true, false⟩ ↔ n = counters.romanL1 + 1 := by
        simp [Fits, tracks.romanL1]
      rw [fits]
      refine accept_or (by simp) fun same => ?_
      obtain rfl := Option.some.inj same
      rfl
    | false =>
      have positive := (wellFormed.arabic rfl rfl).2.2.2
      obtain ⟨n, rfl, rfl⟩ | ⟨m, n, rfl, rfl⟩ | ⟨l, m, n, rfl, rfl⟩ := wellFormed.shape rfl rfl
      · have fits : Fits headings ⟨1, [n], false, false⟩ ↔ n = counters.l1 + 1 := by
          rw [tracks.l1]
          exact (@Numbering.follows_iff _ [] n nofun).trans (by simp)
        rw [fits]
        refine accept_or (by simp) fun same => ?_
        obtain rfl := Option.some.inj same
        rfl
      · have fits : Fits headings ⟨2, [m, n], false, false⟩ ↔ m = counters.l1 ∧ n = counters.l2 + 1 := by
          rw [tracks.l1, tracks.l2]
          exact (@Numbering.follows_iff _ [m] n (by simpa using positive m)).trans (by simp)
        rw [fits]
        refine accept_or (by simp) fun same => ?_
        obtain rfl := Option.some.inj same.1
        obtain rfl := Option.some.inj same.2
        rfl
      · have fits : Fits headings ⟨3, [l, m, n], false, false⟩ ↔
            l = counters.l1 ∧ m = counters.l2 ∧ n = counters.l3 + 1 := by
          have leading : ∀ component ∈ [l, m], 0 < component := fun component member =>
            positive component (List.mem_append_left [n] member)
          have levels : (∀ level (inside : level < [l, m].length),
              [l, m][level] = counter (lastArabic headings) level) ↔
                l = counters.l1 ∧ m = counters.l2 := by
            rw [tracks.l1, tracks.l2]
            constructor
            · exact fun all => ⟨all 0 Nat.zero_lt_two, all 1 Nat.one_lt_two⟩
            · rintro ⟨isL, isM⟩ (_ | _ | level) inside
              · exact isL
              · exact isM
              · exact absurd inside (by simp)
          rw [tracks.l3, ← and_assoc, ← levels]
          exact @Numbering.follows_iff _ [l, m] n leading
        rw [fits]
        refine accept_or (by simp) fun same => ?_
        obtain rfl := Option.some.inj same.1
        obtain rfl := Option.some.inj same.2.1
        obtain rfl := Option.some.inj same.2.2
        rfl

/-! ### The walk -/

/-- The blocks as one walk with the counters colours them. -/
def numbered (blocks : List PaperBlock) : List PaperBlock → Sequence → List PaperBlock
  | [], _ => []
  | block :: rest, counters =>
    if isHeading block.kind then
      match parseNumberedPrefix classes (trim block.text) with
      | some found => block :: numbered blocks rest (counters.absorb found)
      | none => block :: numbered blocks rest counters
    else
      match strictPrefix classes blocks block with
      | none => block :: numbered blocks rest counters
      | some found =>
        match counters.accept found with
        | some next => block.colour (.heading found.level) :: numbered blocks rest next
        | none => block :: numbered blocks rest counters

section Walk

variable {classes} {blocks rest : List PaperBlock} {block : PaperBlock}

/-- A candidate is a `Body` block whose number is read. -/
theorem strictPrefix_spec (gate : strictPrefix classes blocks block = some found) :
    block.kind = .body ∧ parseNumberedPrefix classes (trim block.text) = some found := by
  rw [strictPrefix] at gate
  split at gate
  · cases gate
  · rename_i isBody
    refine ⟨not_not.mp isBody, ?_⟩
    split at gate
    · cases gate
    · dsimp only at gate
      split_ifs at gate
      split at gate
      · cases gate
      · rename_i isRead
        split_ifs at gate
        exact isRead.trans gate

theorem strictPrefix_heading (isTitle : isHeading block.kind = true) :
    strictPrefix classes blocks block = none := by
  rw [strictPrefix, if_pos]
  intro isBody
  rw [isBody] at isTitle
  cases isTitle

theorem not_heading_of_body (isBody : block.kind = .body) : isHeading block.kind = false := by
  rw [isBody]
  rfl

/-- The candidates of what is left come from what is left. -/
theorem collectFrom_ge {i : Nat} : ∀ cand ∈ collectFrom classes blocks i rest, i ≤ cand.blockIdx := by
  induction rest generalizing i with
  | nil => exact nofun
  | cons block rest ih =>
    intro cand member
    rw [collectFrom] at member
    split at member
    · exact (Nat.le_succ i).trans (ih cand member)
    · obtain rfl | member := List.mem_cons.mp member
      · exact le_rfl
      · exact (Nat.le_succ i).trans (ih cand member)

/-- The iterator waits at a block that is no candidate. -/
theorem validateFrom_wait {idx : Nat} (noTitle : isHeading block.kind = false)
    {cands : List StrictCandidate} (later : ∀ cand ∈ cands, idx < cand.blockIdx) :
    validateFrom classes idx (block :: rest) cands counters =
      validateFrom classes (idx + 1) rest cands counters := by
  cases cands with
  | nil => rw [validateFrom, if_neg (by rw [noTitle]; decide)]
  | cons cand more =>
    have ahead := later cand List.mem_cons_self
    rw [validateFrom, if_neg (by rw [noTitle]; decide), if_neg (by omega)]

/-- A heading that is there already is absorbed. -/
theorem validateFrom_heading {idx : Nat} (isTitle : isHeading block.kind = true)
    (cands : List StrictCandidate) :
    validateFrom classes idx (block :: rest) cands counters =
      match parseNumberedPrefix classes (trim block.text) with
      | some found => validateFrom classes (idx + 1) rest cands (counters.absorb found)
      | none => validateFrom classes (idx + 1) rest cands counters := by
  cases cands with
  | nil => exact if_pos isTitle
  | cons cand more => exact if_pos isTitle

theorem promote_body {front : List PaperBlock} {hits : Nat} (isBody : block.kind = .body) :
    promote (front ++ block :: rest, hits) ⟨front.length, found⟩ =
      (front ++ block.colour (.heading found.level) :: rest, hits + 1) := by
  simp [promote, isBody]

/-- **The candidates stay in step**: what is accepted and promoted is what the walk colours. -/
theorem promoted_eq (front rest : List PaperBlock) (counters : Sequence) (hits : Nat) :
    ((validateFrom classes front.length rest (collectFrom classes blocks front.length rest) counters).foldl
      promote (front ++ rest, hits)).1 = front ++ numbered classes blocks rest counters := by
  induction rest generalizing front counters hits with
  | nil => simp [validateFrom, numbered]
  | cons block rest ih =>
    have step (given : PaperBlock) : front ++ given :: rest = front ++ [given] ++ rest := by simp
    have next (given : PaperBlock) : (front ++ [given]).length = front.length + 1 := by simp
    have later := ih (front ++ [block])
    rw [next, ← step] at later
    rw [collectFrom, numbered]
    cases isTitle : isHeading block.kind with
    | true =>
      rw [strictPrefix_heading isTitle, validateFrom_heading isTitle]
      cases isRead : parseNumberedPrefix classes (trim block.text) <;>
        simpa using later _ hits
    | false =>
      cases gate : strictPrefix classes blocks block with
      | none =>
        simp only [Bool.false_eq_true, if_false]
        rw [validateFrom_wait isTitle fun cand member => collectFrom_ge cand member]
        simpa using later counters hits
      | some found =>
        rw [validateFrom, isTitle]
        simp only [Bool.false_eq_true, if_false, if_true]
        cases isNext : counters.accept found with
        | none => simpa using later counters hits
        | some after =>
          have isBody := (strictPrefix_spec gate).1
          have more := ih (front ++ [block.colour (.heading found.level)]) after (hits + 1)
          rw [next, ← step] at more
          show (List.foldl promote (promote (front ++ block :: rest, hits) ⟨front.length, found⟩) _).1 = _
          rw [promote_body isBody]
          simpa using more

end Walk

/-! ### What each block becomes -/

/-- What the numbered pass makes of a block behind the blocks it has coloured. -/
structure Placed (blocks before : List PaperBlock) (given final : PaperBlock) : Prop where
  others : given.kind ≠ .body → final = given
  coloured : final = given ∨ ∃ level, final = given.colour (.heading level)
  /-- A `Body` block becomes a heading exactly where it passes the gate and its number fits. -/
  promoted : given.kind = .body → ∀ level, final.kind = .heading level ↔
    ∃ found, strictPrefix classes blocks given = some found ∧ found.level = level ∧
      Fits (headingNumbers classes before) found

section Placed

variable {classes} {blocks before : List PaperBlock} {block : PaperBlock}

theorem headingNumbers_concat :
    headingNumbers classes (before ++ [block]) = headingNumbers classes before ++
      (if isHeading block.kind then parseNumberedPrefix classes (trim block.text) else none).toList := by
  rw [headingNumbers, List.filterMap_append, List.filterMap_cons, List.filterMap_nil]
  cases (if isHeading block.kind then parseNumberedPrefix classes (trim block.text) else none) <;> rfl

theorem headingNumbers_same (silent : isHeading block.kind = true →
    parseNumberedPrefix classes (trim block.text) = none) :
    headingNumbers classes (before ++ [block]) = headingNumbers classes before := by
  rw [headingNumbers_concat]
  split
  · rename_i isTitle
    rw [silent isTitle]
    exact List.append_nil _
  · exact List.append_nil _

theorem headingNumbers_found (isTitle : isHeading block.kind = true)
    (isRead : parseNumberedPrefix classes (trim block.text) = some found) :
    headingNumbers classes (before ++ [block]) = headingNumbers classes before ++ [found] := by
  rw [headingNumbers_concat, if_pos isTitle, isRead]
  rfl

/-- A block that stays as it is, where no number fits. -/
theorem placed_same (never : ∀ found, block.kind = .body → strictPrefix classes blocks block = some found →
    ¬ Fits (headingNumbers classes before) found) : Placed classes blocks before block block := by
  refine ⟨fun _ => rfl, .inl rfl, fun isBody level => iff_of_false ?_ ?_⟩
  · rw [isBody]
    exact nofun
  · rintro ⟨found, gate, -, fits⟩
    exact never found isBody gate fits

/-- A block that is promoted. -/
theorem placed_promoted (gate : strictPrefix classes blocks block = some found)
    (fits : Fits (headingNumbers classes before) found) :
    Placed classes blocks before block (block.colour (.heading found.level)) := by
  refine ⟨fun other => absurd (strictPrefix_spec gate).1 other, .inr ⟨_, rfl⟩, fun _ level => ?_⟩
  constructor
  · intro isKind
    exact ⟨found, gate, BlockKind.heading.inj isKind, fits⟩
  · rintro ⟨other, isOther, rfl, -⟩
    rw [gate, Option.some.injEq] at isOther
    rw [isOther]
    rfl

/-- **The walk places every block.** -/
theorem numbered_placed (rest : List PaperBlock) {counters : Sequence} (before : List PaperBlock)
    (tracks : counters.Tracks (headingNumbers classes before)) (n : Nat) (given final : PaperBlock)
    (isGiven : rest[n]? = some given) (isFinal : (numbered classes blocks rest counters)[n]? = some final) :
    Placed classes blocks (before ++ (numbered classes blocks rest counters).take n) given final := by
  induction rest generalizing counters before n with
  | nil => cases isGiven
  | cons block rest ih =>
    -- the block here stays or is promoted, and the counters go on with the headings so far
    obtain ⟨here, next, isWalk, placed, tracks'⟩ : ∃ here next,
        numbered classes blocks (block :: rest) counters = here :: numbered classes blocks rest next ∧
          Placed classes blocks before block here ∧
          next.Tracks (headingNumbers classes (before ++ [here])) := by
      rw [numbered]
      cases isTitle : isHeading block.kind with
      | true =>
        have placed : Placed classes blocks before block block := placed_same fun found isBody => by
          rw [not_heading_of_body isBody] at isTitle
          cases isTitle
        cases isRead : parseNumberedPrefix classes (trim block.text) with
        | some found =>
          refine ⟨block, counters.absorb found, rfl, placed, ?_⟩
          rw [headingNumbers_found isTitle isRead]
          exact tracks.absorb (parseNumberedPrefix_wellFormed classes isRead)
        | none =>
          refine ⟨block, counters, rfl, placed, ?_⟩
          rwa [headingNumbers_same fun _ => isRead]
      | false =>
        have stays : counters.Tracks (headingNumbers classes (before ++ [block])) := by
          rwa [headingNumbers_same fun other => absurd (isTitle.symm.trans other) Bool.false_ne_true]
        cases gate : strictPrefix classes blocks block with
        | none =>
          refine ⟨block, counters, rfl, placed_same fun found _ other => ?_, stays⟩
          rw [gate] at other
          cases other
        | some found =>
          obtain ⟨isBody, isRead⟩ := strictPrefix_spec gate
          have wellFormed := parseNumberedPrefix_wellFormed classes isRead
          obtain ⟨fits, isNext⟩ | ⟨misfits, isNext⟩ := Sequence.accept_eq tracks wellFormed
          · refine ⟨block.colour (.heading found.level), counters.absorb found, ?_,
              placed_promoted gate fits, ?_⟩
            · simp [isNext]
            · have isPromoted : headingNumbers classes (before ++ [block.colour (.heading found.level)]) =
                  headingNumbers classes before ++ [found] := headingNumbers_found rfl isRead
              rw [isPromoted]
              exact tracks.absorb wellFormed
          · refine ⟨block, counters, ?_, placed_same fun other _ isOther => ?_, stays⟩
            · simp [isNext]
            · rw [gate, Option.some.injEq] at isOther
              exact isOther ▸ misfits
    rw [isWalk] at isFinal ⊢
    cases n with
    | zero =>
      obtain rfl := Option.some.inj isGiven
      obtain rfl := Option.some.inj isFinal
      rw [List.take_zero, List.append_nil]
      exact placed
    | succ n =>
      have later := ih (before ++ [here]) tracks' n isGiven isFinal
      rw [List.append_assoc] at later
      exact later

end Placed

/-! ### The passes in front -/

/-- Only `Body` blocks have changed kind, and nothing else has changed. -/
def Recoloured (blocks out : List PaperBlock) : Prop :=
  out.length = blocks.length ∧ ∀ (n : Nat) given final, blocks[n]? = some given → out[n]? = some final →
    final = given ∨ given.kind = .body ∧ ∃ kind, final = given.colour kind

section Passes

variable {classes} {blocks middle out : List PaperBlock}

theorem Recoloured.refl (blocks : List PaperBlock) : Recoloured blocks blocks :=
  ⟨rfl, fun _ _ _ isGiven isFinal => .inl (Option.some.inj (isFinal.symm.trans isGiven))⟩

theorem Recoloured.trans (first : Recoloured blocks middle) (second : Recoloured middle out) :
    Recoloured blocks out := by
  refine ⟨second.1.trans first.1, fun n given final isGiven isFinal => ?_⟩
  have inside : n < middle.length := by
    rw [first.1]
    exact (List.getElem?_eq_some_iff.mp isGiven).1
  have isMiddle := List.getElem?_eq_getElem inside
  obtain same | ⟨isBody, kind, same⟩ := first.2 n given _ isGiven isMiddle
  · exact second.2 n given final (same ▸ isMiddle) isFinal
  · obtain again | ⟨-, kind', again⟩ := second.2 n _ final isMiddle isFinal
    · exact .inr ⟨isBody, kind, again.trans same⟩
    · exact .inr ⟨isBody, kind', by rw [again, same]; rfl⟩

theorem recoloured_captions (blocks : List PaperBlock) :
    Recoloured blocks (blocks.map (colourCaption classes)) := by
  refine ⟨List.length_map _, fun n given final isGiven isFinal => ?_⟩
  rw [List.getElem?_map, isGiven, Option.map_some, Option.some.injEq] at isFinal
  subst isFinal
  rw [colourCaption]
  split
  · rename_i isCaption
    exact .inr ⟨isCaption.1, _, rfl⟩
  · exact .inl rfl

/-- The outline finds a `Body` block. -/
theorem locateFrom_body {labelKey : List Char} {anchorPage idx target : Nat} {rest : List PaperBlock}
    (isTarget : locateFrom blocks labelKey anchorPage idx rest = some target) :
    ∃ offset block, target = idx + offset ∧ rest[offset]? = some block ∧ block.kind = .body := by
  induction rest generalizing idx with
  | nil => cases isTarget
  | cons block rest ih =>
    rw [locateFrom] at isTarget
    split_ifs at isTarget with isFar fits
    · obtain rfl := Option.some.inj isTarget
      refine ⟨0, block, rfl, rfl, ?_⟩
      simp only [matchesLabel, Bool.and_eq_true, decide_eq_true_eq] at fits
      exact fits.1.1.1.1
    · obtain ⟨offset, found, rfl, isFound, isBody⟩ := ih isTarget
      exact ⟨offset + 1, found, by omega, isFound, isBody⟩

theorem recoloured_entry (blocks : List PaperBlock) (entry : TocEntry) :
    Recoloured blocks (outlineEntry blocks entry).1 := by
  rw [outlineEntry]
  split
  · exact .refl blocks
  · split
    · exact .refl blocks
    · rename_i anchor _ target isTarget
      rw [locateOutlineHeading] at isTarget
      dsimp only at isTarget
      split_ifs at isTarget
      obtain ⟨offset, found, rfl, isFound, isBody⟩ := locateFrom_body isTarget
      rw [List.getElem?_drop] at isFound
      refine ⟨List.length_modify _ _ _, fun n given final isGiven isFinal => ?_⟩
      rw [List.getElem?_modify, isGiven] at isFinal
      have same := (Option.some.inj isFinal).symm
      split at same
      · rename_i isHere
        subst isHere
        obtain rfl := Option.some.inj (isFound.symm.trans isGiven)
        exact .inr ⟨isBody, _, same⟩
      · exact .inl same

theorem recoloured_outlined (blocks : List PaperBlock) (entries : List TocEntry) :
    Recoloured blocks (outlined classes blocks entries).1 := by
  have run (entries : List TocEntry) (middle : List PaperBlock) (hits : Nat) :
      Recoloured middle (entries.foldl (fun done entry =>
        ((outlineEntry done.1 entry).1, done.2 + (outlineEntry done.1 entry).2)) (middle, hits)).1 := by
    induction entries generalizing middle hits with
    | nil => exact .refl middle
    | cons entry entries ih => exact (recoloured_entry middle entry).trans (ih _ _)
  exact (recoloured_captions blocks).trans (run _ _ 0)

end Passes

/-- The blocks `extract_paper_structured` leaves are those of the walk. -/
theorem extractPaperStructured_eq (blocks : List PaperBlock) (entries : List TocEntry) :
    (extractPaperStructured classes blocks entries).1 =
      numbered classes (outlined classes blocks entries).1 (outlined classes blocks entries).1
        ⟨0, 0, 0, 0, false⟩ :=
  promoted_eq [] _ _ 0

theorem length_numbered (blocks rest : List PaperBlock) (counters : Sequence) :
    (numbered classes blocks rest counters).length = rest.length := by
  induction rest generalizing counters with
  | nil => rfl
  | cons block rest ih =>
    rw [numbered]
    split
    · split <;> exact congrArg (· + 1) (ih _)
    · split
      · exact congrArg (· + 1) (ih _)
      · split <;> exact congrArg (· + 1) (ih _)

/-- **Heuristic section numbers form one sequence.** Each block that was `Body` before the numbered
pass becomes a heading exactly where it passes the strict gate and its number fits behind the headings
in front of it, every other block stays as it is, and in all passes only `Body` blocks change kind. -/
theorem extractPaperStructured_numbers (blocks : List PaperBlock) (entries : List TocEntry) :
    Recoloured blocks (extractPaperStructured classes blocks entries).1 ∧
      ∀ (n : Nat) given final, (outlined classes blocks entries).1[n]? = some given →
        (extractPaperStructured classes blocks entries).1[n]? = some final →
        Placed classes (outlined classes blocks entries).1
          ((extractPaperStructured classes blocks entries).1.take n) given final := by
  rw [extractPaperStructured_eq]
  have placed := @numbered_placed classes (outlined classes blocks entries).1
    (outlined classes blocks entries).1 _ [] tracks_start
  refine ⟨(recoloured_outlined blocks entries).trans ⟨length_numbered classes _ _ _, ?_⟩, placed⟩
  intro n given final isGiven isFinal
  have here := placed n given final isGiven isFinal
  by_cases isBody : given.kind = .body
  · exact here.coloured.imp id fun ⟨level, same⟩ => ⟨isBody, _, same⟩
  · exact .inl (here.others isBody)

/-- A bold line of its own. -/
def boldLine (text : String) : PaperBlock := ⟨.body, text.toList, 0, some ⟨12, true, 1⟩⟩

/-- Of five bold lines three become headings: one has no number, and the number of the last does not fit
behind `2.1`. -/
theorem sections_numbered :
    let classes : CharClasses := ⟨Char.isAlphanum, Char.isDigit⟩
    let blocks := ["1 Introduction", "Prior work", "2 Methods", "2.1 Data", "4 Results"].map boldLine
    let out := (extractPaperStructured classes blocks []).1
    out.map (·.kind) = [.heading 1, .body, .heading 1, .heading 2, .body] ∧
      (∃ data, out[3]? = some data ∧ Placed classes blocks (out.take 3) (boldLine "2.1 Data") data) ∧
        ∃ results, out[4]? = some results ∧
          Placed classes blocks (out.take 4) (boldLine "4 Results") results := by
  intro classes blocks out
  have kinds : out.map (·.kind) = [.heading 1, .body, .heading 1, .heading 2, .body] := by decide +kernel
  have length : out.length = 5 := by rw [← List.length_map, kinds]; rfl
  have outline : (outlined classes blocks []).1 = blocks := rfl
  have placed := (extractPaperStructured_numbers classes blocks []).2
  rw [outline] at placed
  refine ⟨kinds, ⟨out[3], List.getElem?_eq_getElem _, ?_⟩, out[4], List.getElem?_eq_getElem _, ?_⟩
  · exact placed 3 _ _ rfl (List.getElem?_eq_getElem _)
  · exact placed 4 _ _ rfl (List.getElem?_eq_getElem _)

end Bookrack.Extract
