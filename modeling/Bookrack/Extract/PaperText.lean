/-
The text the identifier scans of a paper read (`extract/src/pdf_paper.rs`): the pages folded to ASCII
and joined until the References heading or the size cap.

**`window_stable`**: a heading found in the text so far is the heading of every longer text, so the page
by page search finds what one search over the whole text finds. The cap is only looked at between
pages and cuts nothing: **`metadataText_exact_iff`** says for which pages the window is the one the
constant's comment describes.
-/

import Bookrack.Core.Patterns
import Bookrack.Normalize.Breaks

namespace Bookrack.Extract

open Normalize (AllSpace)
open Regex

/-! ### The heading -/

/-- The words of `REFS_HEADING_RE`. -/
def refsKeyword : Regex Char :=
  .alt (folded "references") (.alt (folded "bibliography")
    (.seq (.one (· == '参')) (.seq spaces (.seq (.one (· == '考')) (.seq spaces
      (.seq (.one (· == '文')) (.seq spaces (.one (· == '献')))))))))

variable (isWord : Char → Bool)

/-- `REFS_HEADING_RE`. -/
def refsHeading : Regex Char := .seq atLineStart (.seq spaces (.seq refsKeyword (wordBoundary isWord)))

/-! ### The scan -/

/-- `MAX_METADATA_CHARS`. -/
def maxMetadataChars : Nat := 30000

/-- `fold_fullwidth_to_ascii` on one character. -/
def foldChar (c : Char) : Char :=
  if 0xFF01 ≤ c.toNat ∧ c.toNat ≤ 0xFF5E then Char.ofNat (c.toNat - 0xFEE0)
  else if c.toNat = 0x3000 then ' ' else c

/-- `fold_fullwidth_to_ascii`. -/
def foldFullwidthToAscii (text : List Char) : List Char := text.map foldChar

/-- One page as the scan appends it. -/
def pageText (text : List Char) : List Char := foldFullwidthToAscii text ++ ['\n']

/-- The loop of `metadata_text_from_pages`. -/
def scanWindow {ε : Type} (out : List Char) : List (Except ε (List Char)) → Except ε (List Char)
  | [] => .ok out
  | .error error :: _ => .error error
  | .ok text :: pages =>
    let out := out ++ pageText text
    match (refsHeading isWord).findStart out with
    | some start => .ok (out.take start)
    | none => if maxMetadataChars ≤ out.length then .ok out else scanWindow out pages

/-- What is returned of a text: `None` for a blank one. -/
def nonBlank (text : List Char) : Option (List Char) :=
  if Normalize.trim text = [] then none else some text

/-- `metadata_text_from_pages`. -/
def metadataTextFromPages {ε : Type} (pages : List (Except ε (List Char))) :
    Except ε (Option (List Char)) :=
  (scanWindow isWord [] pages).map nonBlank

/-! ### The window -/

/-- The texts of pages as the scan joins them. -/
def joined (texts : List (List Char)) : List Char := texts.flatMap pageText

/-- The texts of the pages that decode. -/
def decoded {ε : Type} (pages : List (Except ε (List Char))) : List (List Char) :=
  pages.filterMap fun page => page.toOption

/-- The text so far closes the window. -/
def Closed (text : List Char) : Prop :=
  (refsHeading isWord).findStart text ≠ none ∨ maxMetadataChars ≤ text.length

/-- No page of `texts` closes the window. -/
def StaysOpen (texts : List (List Char)) : Prop :=
  ∀ front behind, texts = front ++ behind → ¬ Closed isWord (joined front)

/-- The window closes at the last page of `texts`. -/
structure ClosesAt {ε : Type} (pages : List (Except ε (List Char))) (texts : List (List Char)) : Prop where
  read : ∃ behind, pages = texts.map .ok ++ behind
  closed : Closed isWord (joined texts)
  first : ∀ front behind, texts = front ++ behind → Closed isWord (joined front) → behind = []

/-- The whole text cut at its first heading or at the cap, whichever comes first. -/
def exactWindow {ε : Type} (pages : List (Except ε (List Char))) : List Char :=
  let whole := joined (decoded pages)
  whole.take (((refsHeading isWord).findStart whole).elim maxMetadataChars (min maxMetadataChars))

/-- What the scan is for. -/
structure WindowExact {ε : Type} (pages : List (Except ε (List Char))) : Prop where
  /-- It fails for a page that cannot be read before the window is closed, and only then. -/
  fails : (∃ error, metadataTextFromPages isWord pages = .error error) ↔
    ∃ texts error behind, pages = texts.map .ok ++ .error error :: behind ∧ StaysOpen isWord texts
  returns : ∀ result, metadataTextFromPages isWord pages = .ok result →
    result = nonBlank (exactWindow isWord pages) ∧ ∀ text ∈ result, text.length ≤ maxMetadataChars
  /-- Page by page the heading of the whole text is found. -/
  sameHeading : ∀ texts behind, pages = texts.map .ok ++ behind → ∀ start,
    (refsHeading isWord).findStart (joined texts) = some start →
      (refsHeading isWord).findStart (joined (decoded pages)) = some start

/-- The page that closes the window closes it at the right place: a heading begins within the cap, or
the text has reached the cap exactly with no heading of the whole text before it, or is blank. -/
def CutFits {ε : Type} (pages : List (Except ε (List Char))) : Prop :=
  ∀ texts, ClosesAt isWord pages texts →
    match (refsHeading isWord).findStart (joined texts) with
    | some start => start ≤ maxMetadataChars
    | none => AllSpace (joined texts) ∨ (joined texts).length = maxMetadataChars ∧
        ∀ start, (refsHeading isWord).findStart (joined (decoded pages)) = some start →
          maxMetadataChars ≤ start

/-! ### What the heading takes -/

/-- A character a keyword ends with. -/
def closes (c : Char) : Bool := foldsTo 's' c || foldsTo 'y' c || c == '献'

/-- What the proofs use of a keyword: it starts with text, and only its last character closes one,
unless it has no line break in it. -/
structure Keyword (key : List Char) : Prop where
  opens : ∃ c ∈ key.head?, isWhitespace c = false
  ends : ∃ c ∈ key.getLast?, closes c = true ∧ c ≠ '\n'
  single : '\n' ∈ key → ∀ c ∈ key.dropLast, closes c = false

theorem closes_space {c : Char} (space : isWhitespace c = true) : closes c = false := by
  have letter (l : Char) (isLetter : 97 ≤ l.toNat ∧ l.toNat ≤ 122) : foldsTo l c = false := by
    by_contra folds
    have text := not_space_of_foldsTo isLetter (Bool.not_eq_false _ ▸ folds)
    exact absurd (text.symm.trans space) Bool.false_ne_true
  have other : c ≠ '献' := by
    rintro rfl
    exact absurd space (by decide)
  simp [closes, letter 's' (by decide), letter 'y' (by decide), other]

theorem ne_break_of_closes {c : Char} (isEnd : closes c = true) : c ≠ '\n' := by
  rintro rfl
  exact absurd isEnd (by decide)

theorem keyword_word {letters : List Char} {first last : Char} {key : List Char}
    (begins : letters.head? = some first) (finishes : letters.reverse.head? = some last)
    (isLetter : 97 ≤ first.toNat ∧ first.toNat ≤ 122) (isLast : last = 's' ∨ last = 'y')
    (noBreak : ∀ letter ∈ letters, foldsTo letter '\n' = false)
    (takes : List.Forall₂ (fun letter c => foldsTo letter c = true) letters key) : Keyword key := by
  have head {xs ys : List Char} {x : Char} (all : List.Forall₂ (fun letter c => foldsTo letter c = true) xs ys)
      (isHead : xs.head? = some x) : ∃ y ∈ ys.head?, foldsTo x y = true := by
    cases all with
    | nil => cases isHead
    | cons folds _ =>
      obtain rfl := Option.some.inj isHead
      exact ⟨_, rfl, folds⟩
  refine ⟨?_, ?_, fun hasBreak => ?_⟩
  · obtain ⟨c, isHead, folds⟩ := head takes begins
    exact ⟨c, isHead, not_space_of_foldsTo isLetter folds⟩
  · obtain ⟨c, isHead, folds⟩ := head (List.rel_reverse takes) finishes
    rw [List.head?_reverse] at isHead
    have isEnd : closes c = true := by
      obtain rfl | rfl := isLast <;> simp [closes, folds]
    exact ⟨c, isHead, isEnd, ne_break_of_closes isEnd⟩
  · exfalso
    clear begins finishes
    induction takes with
    | nil => cases hasBreak
    | cons folds _ ih =>
      obtain rfl | later := List.mem_cons.mp hasBreak
      · exact absurd (noBreak _ List.mem_cons_self) (by rw [folds]; decide)
      · exact ih (fun letter member => noBreak letter (List.mem_cons_of_mem _ member)) later

theorem keyword_spaced {one two three : List Char} (blank : AllSpace one) (blank' : AllSpace two)
    (blank'' : AllSpace three) :
    Keyword ('参' :: (one ++ '考' :: (two ++ '文' :: (three ++ ['献'])))) := by
  have isBody : '参' :: (one ++ '考' :: (two ++ '文' :: (three ++ ['献']))) =
      ('参' :: (one ++ '考' :: (two ++ '文' :: three))) ++ ['献'] := by simp
  refine ⟨⟨'参', rfl, by decide⟩, ⟨'献', ?_, by decide, by decide⟩, fun _ => ?_⟩
  · rw [isBody, List.getLast?_append]
    rfl
  · rw [isBody, List.dropLast_concat]
    intro c member
    simp only [List.mem_cons, List.mem_append] at member
    obtain rfl | member | rfl | member | rfl | member := member
    · decide
    · exact closes_space (blank c member)
    · decide
    · exact closes_space (blank' c member)
    · decide
    · exact closes_space (blank'' c member)

theorem takes_keyword {before : Option Char} {key rest : List Char} {groups : List (List Char)}
    (takes : refsKeyword.Takes before key rest groups) : Keyword key := by
  obtain takes | takes | takes := takes
  · exact @keyword_word "references".toList 'r' 's' _ rfl rfl (by decide) (.inl rfl) (by decide)
      (List.forall₂_map_left_iff.mp (takes_word.mp takes).2)
  · exact @keyword_word "bibliography".toList 'b' 'y' _ rfl rfl (by decide) (.inr rfl) (by decide)
      (List.forall₂_map_left_iff.mp (takes_word.mp takes).2)
  · simp only [Takes, takes_spaces] at takes
    obtain ⟨-, -, -, -, rfl, -, ⟨_, rfl, -, isOne⟩, one, -, -, -, rfl, -, ⟨-, blank⟩, -, -, -, -, rfl, -,
      ⟨_, rfl, -, isTwo⟩, two, -, -, -, rfl, -, ⟨-, blank'⟩, -, -, -, -, rfl, -, ⟨_, rfl, -, isThree⟩,
      three, -, -, -, rfl, -, ⟨-, blank''⟩, _, rfl, -, isFour⟩ := takes
    rw [beq_iff_eq] at isOne isTwo isThree isFour
    subst isOne isTwo isThree isFour
    exact keyword_spaced blank blank' blank''

theorem takes_heading {before : Option Char} {taken rest : List Char} {groups : List (List Char)}
    (takes : (refsHeading isWord).Takes before taken rest groups) :
    ∃ lead key, taken = lead ++ key ∧ AllSpace lead ∧ Keyword key := by
  obtain ⟨_, _, _, _, rfl, _, ⟨rfl, -, -⟩, lead, _, _, _, rfl, _, space, key, _, _, _, rfl, _, isKey,
    rfl, -, -⟩ := takes
  exact ⟨lead, key, by simp, (takes_spaces.mp space).2, takes_keyword isKey⟩

/-! ### Longer texts -/

section Stable

variable {isWord}

/-- A heading does not end with the line break that ends a page. -/
theorem rest_ne_nil {text front taken rest behind : List Char} {before : Option Char}
    {groups : List (List Char)} (ends : text.getLast? = some '\n')
    (isText : text = front ++ (taken ++ rest))
    (takes : (refsHeading isWord).Takes before taken behind groups) : rest ≠ [] := by
  rintro rfl
  obtain ⟨lead, key, rfl, -, isKey⟩ := takes_heading isWord takes
  obtain ⟨c, isLast, -, noBreak⟩ := isKey.ends
  have last : text.getLast? = some c := by
    rw [isText, List.append_nil, List.getLast?_append, List.getLast?_append, isLast]
    rfl
  exact noBreak (Option.some.inj (last.symm.trans ends))

/-- **A heading of the text so far is found in every longer text, at the same place.** -/
theorem window_stable {text : List Char} {start : Nat} (ends : text.getLast? = some '\n')
    (found : (refsHeading isWord).findStart text = some start) (more : List Char) :
    (refsHeading isWord).findStart (text ++ more) = some start := by
  obtain ⟨front, rfl, ⟨taken, rest, groups, isText, takes⟩, isFirst⟩ := findStart_iff.mp found
  have more_head {rest : List Char} (some : rest ≠ []) : rest.head? = (rest ++ more).head? := by
    cases rest with
    | nil => exact absurd rfl some
    | cons c rest => rfl
  have hasRest := rest_ne_nil ends isText takes
  refine findStart_iff.mpr ⟨front, rfl, ⟨taken, rest ++ more, groups, ?_, ?_⟩, ?_⟩
  · rw [isText, List.append_assoc, List.append_assoc]
  · exact takes_congr (more_head hasRest) takes
  · rintro other ⟨taken', rest', groups', isOther, takes'⟩
    by_contra shorter
    rw [← List.append_assoc] at isOther
    obtain ⟨behind, isTaken, -⟩ | ⟨behind, isText', rfl⟩ := List.append_eq_append_iff.mp isOther
    · -- the other heading would run past the text, over the whole of this one
      obtain ⟨f, rfl⟩ : ∃ f, front = other ++ f := by
        have whole : front ++ (taken ++ rest ++ behind) = other ++ taken' := by
          rw [isTaken, isText]
          simp
        obtain ⟨f, isLong, -⟩ | ⟨f, isFront, -⟩ := List.append_eq_append_iff.mp whole
        · rw [isLong, List.length_append] at shorter
          omega
        · exact ⟨f, isFront⟩
      obtain ⟨lead, key, rfl, -, isKey⟩ := takes_heading isWord takes
      obtain ⟨lead', key', rfl, blank, isKey'⟩ := takes_heading isWord takes'
      have whole : lead' ++ key' = (f ++ lead) ++ (key ++ (rest ++ behind)) := by
        rw [isText] at isTaken
        simpa using isTaken
      obtain ⟨z, isKey'Word⟩ : ∃ z, key' = z ++ (key ++ (rest ++ behind)) := by
        obtain ⟨z, -, isKey'⟩ | ⟨z, isLead, isWhole⟩ := List.append_eq_append_iff.mp whole
        · exact ⟨z, isKey'⟩
        · cases z with
          | nil => exact ⟨[], isWhole.symm⟩
          | cons c z =>
            obtain ⟨first, isFirst, isText⟩ := isKey.opens
            cases key with
            | nil => cases isFirst
            | cons d key =>
              obtain rfl := Option.some.inj isFirst
              obtain ⟨rfl, -⟩ := List.cons.inj isWhole
              exact absurd (blank d (by simp [isLead])) (by rw [isText]; decide)
      have hasBreak : '\n' ∈ key' := by
        have last : rest.getLast? = some '\n' := by
          rw [isText, List.getLast?_append, List.getLast?_append] at ends
          cases isLast : rest.getLast? with
          | none => exact absurd (List.getLast?_eq_none_iff.mp isLast) hasRest
          | some c =>
            rw [isLast] at ends
            exact ends
        simp [isKey'Word, List.mem_of_getLast? last]
      obtain ⟨c, isLast, isEnd, -⟩ := isKey.ends
      have inside : c ∈ key'.dropLast := by
        rw [isKey'Word, ← List.append_assoc, List.dropLast_append_of_ne_nil (by simp [hasRest])]
        simp [List.mem_of_getLast? isLast]
      exact absurd (isKey'.single hasBreak c inside) (by rw [isEnd]; decide)
    · have isText' : text = other ++ (taken' ++ behind) := by rw [isText', List.append_assoc]
      by_cases hasBehind : behind = []
      · subst hasBehind
        exact rest_ne_nil ends isText' takes' rfl
      · exact shorter (isFirst other ⟨taken', behind, groups', isText',
          takes_congr (more_head hasBehind).symm takes'⟩)

/-- A heading with nothing but blanks in front begins the text. -/
theorem start_of_blank {text : List Char} {start : Nat}
    (found : (refsHeading isWord).findStart text = some start) (blank : AllSpace (text.take start)) :
    start = 0 := by
  obtain ⟨front, rfl, ⟨taken, rest, groups, rfl, takes⟩, isFirst⟩ := findStart_iff.mp found
  rw [List.take_left] at blank
  obtain ⟨_, _, _, _, rfl, rfl, ⟨rfl, rfl, -⟩, lead, key, one, two, rfl, rfl, space, keyed⟩ := takes
  have ⟨noGroups, blankLead⟩ := takes_spaces.mp space
  refine Nat.le_zero.mp (isFirst [] ⟨front ++ (lead ++ key), rest, two, by simp, [], _, [], two, rfl, rfl,
    ⟨rfl, rfl, rfl⟩, front ++ lead, key, [], two, by simp, rfl, takes_spaces.mpr ⟨rfl, ?_⟩, ?_⟩)
  · intro c member
    obtain member | member := List.mem_append.mp member
    · exact blank c member
    · exact blankLead c member
  · simpa using keyed

/-- No heading without a character that closes one. -/
theorem no_heading {text : List Char} (none : ∀ c ∈ text, closes c = false) :
    (refsHeading isWord).findStart text = Option.none := by
  rw [findStart_eq_none]
  rintro front ⟨taken, rest, groups, rfl, takes⟩
  obtain ⟨lead, key, rfl, -, isKey⟩ := takes_heading isWord takes
  obtain ⟨c, isLast, isEnd, -⟩ := isKey.ends
  exact absurd (none c (by simp [List.mem_of_getLast? isLast])) (by rw [isEnd]; decide)

end Stable

/-! ### A scan -/

section Scan

variable {isWord} {ε : Type} {pages : List (Except ε (List Char))}

theorem joined_append (texts more : List (List Char)) :
    joined (texts ++ more) = joined texts ++ joined more := List.flatMap_append

theorem joined_concat (texts : List (List Char)) (text : List Char) :
    joined (texts ++ [text]) = joined texts ++ pageText text := by
  rw [joined_append, joined, joined, List.flatMap_singleton]

theorem joined_ends {texts : List (List Char)} (some : texts ≠ []) :
    (joined texts).getLast? = Option.some '\n' := by
  rw [← List.dropLast_concat_getLast some, joined_concat, pageText, ← List.append_assoc,
    List.getLast?_concat]

theorem decoded_read (texts : List (List Char)) (behind : List (Except ε (List Char))) :
    decoded (texts.map .ok ++ behind) = texts ++ decoded behind := by
  rw [decoded, List.filterMap_append, List.filterMap_map]
  congr 1
  exact List.filterMap_some

theorem nothing_open : ¬ Closed isWord (joined []) := by
  rintro (found | full)
  · exact found rfl
  · exact absurd full (by decide)

/-- What is left of a text when the window closes. -/
def cut (isWord : Char → Bool) (text : List Char) : List Char :=
  match (refsHeading isWord).findStart text with
  | some start => text.take start
  | none => text

/-- How a scan of the pages can come out. -/
inductive Scanned (isWord : Char → Bool) (pages : List (Except ε (List Char))) :
    Except ε (List Char) → Prop
  | all (texts : List (List Char)) : pages = texts.map .ok → StaysOpen isWord texts →
      Scanned isWord pages (.ok (joined texts))
  | fails (texts : List (List Char)) (error : ε) (behind : List (Except ε (List Char))) :
      pages = texts.map .ok ++ .error error :: behind → StaysOpen isWord texts →
      Scanned isWord pages (.error error)
  | closes (texts : List (List Char)) : ClosesAt isWord pages texts →
      Scanned isWord pages (.ok (cut isWord (joined texts)))

/-- **One page more**: the window stays open or closes at that page. -/
theorem StaysOpen.concat {texts : List (List Char)} (isOpen : StaysOpen isWord texts) (text : List Char) :
    StaysOpen isWord (texts ++ [text]) ∨ Closed isWord (joined (texts ++ [text])) ∧
      ∀ front behind, texts ++ [text] = front ++ behind → Closed isWord (joined front) → behind = [] := by
  have inside (front behind : List (List Char)) (split : texts ++ [text] = front ++ behind)
      (some : behind ≠ []) : ¬ Closed isWord (joined front) := by
    rw [← List.dropLast_concat_getLast some, ← List.append_assoc] at split
    exact isOpen front behind.dropLast (List.append_inj_left' split rfl)
  by_cases closed : Closed isWord (joined (texts ++ [text]))
  · refine .inr ⟨closed, fun front behind split frontClosed => ?_⟩
    by_contra some
    exact inside front behind split some frontClosed
  · refine .inl fun front behind split => ?_
    by_cases some : behind = []
    · subst some
      rw [List.append_nil] at split
      exact split ▸ closed
    · exact inside front behind split some

theorem scanWindow_scanned (pages : List (Except ε (List Char))) {texts : List (List Char)}
    (isOpen : StaysOpen isWord texts) :
    Scanned isWord (texts.map .ok ++ pages) (scanWindow isWord (joined texts) pages) := by
  induction pages generalizing texts with
  | nil => exact .all texts (List.append_nil _) isOpen
  | cons page pages ih =>
    cases page with
    | error error => exact .fails texts error pages rfl isOpen
    | ok text =>
      have read : texts.map Except.ok ++ .ok text :: pages = (texts ++ [text]).map Except.ok ++ pages := by
        simp
      rw [read, scanWindow, ← joined_concat]
      obtain stays | ⟨closed, first⟩ := isOpen.concat text
      · have ⟨noHeading, small⟩ := not_or.mp (stays _ [] (List.append_nil _).symm)
        rw [not_not.mp noHeading]
        simp only [if_neg small]
        exact ih stays
      · have closes : Scanned isWord ((texts ++ [text]).map Except.ok ++ pages)
            (.ok (cut isWord (joined (texts ++ [text])))) := .closes _ ⟨⟨pages, rfl⟩, closed, first⟩
        rw [cut] at closes
        cases found : (refsHeading isWord).findStart (joined (texts ++ [text])) with
        | some start =>
          rw [found] at closes
          exact closes
        | none =>
          rw [found] at closes
          have full := closed.resolve_left (not_not.mpr found)
          simp only [if_pos full]
          exact closes

theorem metadataText_scanned : ∃ out, Scanned isWord pages out ∧
    metadataTextFromPages isWord pages = out.map nonBlank :=
  ⟨_, @scanWindow_scanned isWord ε pages [] fun front behind split => by
    rw [(List.append_eq_nil_iff.mp split.symm).1]
    exact nothing_open, rfl⟩

theorem error_not_mem_ok {texts : List (List Char)} {error : ε} : Except.error error ∉ texts.map Except.ok := by
  intro inside
  obtain ⟨text, -, isError⟩ := List.mem_map.mp inside
  cases isError

/-- Texts that were read, in front of others that were. -/
theorem eq_append_of_map_ok {texts other : List (List Char)} {behind : List (Except ε (List Char))}
    (isRead : other.map .ok = texts.map .ok ++ behind) : ∃ back, other = texts ++ back := by
  obtain ⟨front, back, rfl, isFront, -⟩ := List.map_eq_append_iff.mp isRead
  obtain rfl : front = texts := List.map_injective_iff.mpr (fun _ _ => Except.ok.inj) isFront
  exact ⟨back, rfl⟩

/-- What is read before a failing page does not close the window. -/
theorem ClosesAt.not_open {texts other : List (List Char)} {error : ε}
    {behind : List (Except ε (List Char))} (closes : ClosesAt isWord pages texts)
    (isPages : pages = other.map .ok ++ .error error :: behind) : ¬ StaysOpen isWord other := by
  intro isOpen
  obtain ⟨more, isRead⟩ := closes.read
  rw [isRead] at isPages
  obtain ⟨middle, isOther, -⟩ | ⟨middle, isTexts, isRest⟩ := List.append_eq_append_iff.mp isPages
  · obtain ⟨back, rfl⟩ := eq_append_of_map_ok isOther
    exact isOpen texts back rfl closes.closed
  · cases middle with
    | nil =>
      rw [List.append_nil] at isTexts
      obtain rfl : texts = other := List.map_injective_iff.mpr (fun _ _ => Except.ok.inj) isTexts
      exact isOpen texts [] (List.append_nil _).symm closes.closed
    | cons page middle =>
      obtain ⟨rfl, -⟩ := List.cons.inj isRest
      exact error_not_mem_ok (show Except.error error ∈ texts.map Except.ok by simp [isTexts])

/-- Two places where the window closes are one. -/
theorem ClosesAt.unique {texts other : List (List Char)} (closes : ClosesAt isWord pages texts)
    (closes' : ClosesAt isWord pages other) : texts = other := by
  obtain ⟨behind, isRead⟩ := closes.read
  obtain ⟨behind', isRead'⟩ := closes'.read
  obtain ⟨middle, isOther, -⟩ | ⟨middle, isTexts, -⟩ := List.append_eq_append_iff.mp (isRead.symm.trans isRead')
  · obtain ⟨back, rfl⟩ := eq_append_of_map_ok isOther
    rw [closes'.first texts back rfl closes.closed, List.append_nil]
  · obtain ⟨back, rfl⟩ := eq_append_of_map_ok isTexts
    rw [closes.first other back rfl closes'.closed, List.append_nil]

theorem nonBlank_of_blank {text : List Char} (blank : AllSpace text) : nonBlank text = none := by
  obtain ⟨isNil, -⟩ | ⟨lead, first, rest, trail, rfl, -, -, isText, -⟩ := Normalize.trim_cases text
  · exact if_pos isNil
  · exact absurd (blank first (by simp)) (by rw [isText]; decide)

theorem nonBlank_of_text {text : List Char} (hasText : ¬ AllSpace text) : nonBlank text = some text := by
  obtain ⟨-, blank⟩ | ⟨lead, first, rest, trail, -, isTrimmed, -⟩ := Normalize.trim_cases text
  · exact absurd blank hasText
  · rw [nonBlank, isTrimmed]
    exact if_neg (List.cons_ne_nil _ _)

theorem sameHeading (pages : List (Except ε (List Char))) (texts : List (List Char))
    (behind : List (Except ε (List Char))) (isRead : pages = texts.map .ok ++ behind) (start : Nat)
    (found : (refsHeading isWord).findStart (joined texts) = some start) :
    (refsHeading isWord).findStart (joined (decoded pages)) = some start := by
  have some : texts ≠ [] := by
    rintro rfl
    cases found
  rw [isRead, decoded_read, joined_append]
  exact window_stable (joined_ends some) found _

theorem take_read {texts : List (List Char)} {behind : List (Except ε (List Char))}
    (isRead : pages = texts.map .ok ++ behind) {count : Nat} (inside : count ≤ (joined texts).length) :
    (joined (decoded pages)).take count = (joined texts).take count := by
  rw [isRead, decoded_read, joined_append, List.take_append_of_le_length inside]

/-- **A window closed by a heading** is the exact one if the heading begins within the cap. -/
theorem heading_returns_iff {texts : List (List Char)} {behind : List (Except ε (List Char))}
    (isRead : pages = texts.map .ok ++ behind) {start : Nat}
    (found : (refsHeading isWord).findStart (joined texts) = some start) :
    (nonBlank ((joined texts).take start) = nonBlank (exactWindow isWord pages) ∧
      ∀ text ∈ nonBlank ((joined texts).take start), text.length ≤ maxMetadataChars) ↔
        start ≤ maxMetadataChars := by
  obtain ⟨front, isFront, ⟨taken, rest, -, isText, -⟩, -⟩ := findStart_iff.mp found
  have inside : start ≤ (joined texts).length := by
    rw [isText, List.length_append]
    omega
  constructor
  · rintro ⟨-, bounded⟩
    by_cases blank : AllSpace ((joined texts).take start)
    · rw [start_of_blank found blank]
      exact Nat.zero_le _
    · have := bounded _ (nonBlank_of_text blank)
      rwa [List.length_take_of_le inside] at this
  · intro fits
    constructor
    · rw [exactWindow, sameHeading pages texts behind isRead start found]
      show _ = nonBlank (List.take (min maxMetadataChars start) _)
      rw [Nat.min_eq_right fits, take_read isRead inside]
    · intro text isText
      rw [nonBlank] at isText
      split at isText
      · cases isText
      · obtain rfl := Option.some.inj isText
        exact (List.length_take_le _ _).trans fits

/-- **A window closed by the cap** is the exact one if the text is blank, or ends at the cap with no
earlier heading. -/
theorem cap_returns_iff {texts : List (List Char)} {behind : List (Except ε (List Char))}
    (isRead : pages = texts.map .ok ++ behind) (full : maxMetadataChars ≤ (joined texts).length) :
    (nonBlank (joined texts) = nonBlank (exactWindow isWord pages) ∧
      ∀ text ∈ nonBlank (joined texts), text.length ≤ maxMetadataChars) ↔
        AllSpace (joined texts) ∨ (joined texts).length = maxMetadataChars ∧
          ∀ start, (refsHeading isWord).findStart (joined (decoded pages)) = some start →
            maxMetadataChars ≤ start := by
  have isExact : ∃ count, exactWindow isWord pages = (joined texts).take count ∧
      (∀ start, (refsHeading isWord).findStart (joined (decoded pages)) = some start → count ≤ start) ∧
      ((∀ start, (refsHeading isWord).findStart (joined (decoded pages)) = some start →
        maxMetadataChars ≤ start) → count = maxMetadataChars) := by
    cases found : (refsHeading isWord).findStart (joined (decoded pages)) with
    | none =>
      refine ⟨maxMetadataChars, ?_, nofun, fun _ => rfl⟩
      rw [exactWindow, found]
      exact take_read isRead full
    | some start =>
      refine ⟨min maxMetadataChars start, ?_, ?_, fun late => Nat.min_eq_left (late start rfl)⟩
      · rw [exactWindow, found]
        exact take_read isRead ((Nat.min_le_left _ _).trans full)
      · intro other same
        exact Option.some.inj same ▸ Nat.min_le_right _ _
  obtain ⟨count, isExact, isBefore, isCount⟩ := isExact
  by_cases blank : AllSpace (joined texts)
  · refine iff_of_true ⟨?_, ?_⟩ (.inl blank)
    · rw [nonBlank_of_blank blank, isExact,
        nonBlank_of_blank fun c member => blank c (List.mem_of_mem_take member)]
    · rw [nonBlank_of_blank blank]
      exact nofun
  · rw [nonBlank_of_text blank]
    constructor
    · rintro ⟨same, bounded⟩
      have isCap := Nat.le_antisymm (bounded _ rfl) full
      refine .inr ⟨isCap, fun start found => ?_⟩
      have hasText : ¬ AllSpace (exactWindow isWord pages) := fun blank => by
        rw [nonBlank_of_blank blank] at same
        cases same
      rw [nonBlank_of_text hasText, isExact] at same
      have length := congrArg List.length (Option.some.inj same)
      rw [List.length_take] at length
      have := isBefore start found
      omega
    · rintro (blank' | ⟨isCap, late⟩)
      · exact absurd blank' blank
      · have whole : exactWindow isWord pages = joined texts := by
          rw [isExact, isCount late, ← isCap, List.take_length]
        refine ⟨by rw [whole, nonBlank_of_text blank], fun text isText => ?_⟩
        exact Option.some.inj isText ▸ isCap.le

end Scan

/-- What a window that never closes returns is all there is. -/
theorem open_returns {ε : Type} {texts : List (List Char)} (isOpen : StaysOpen isWord texts) :
    nonBlank (joined texts) = nonBlank (exactWindow isWord (texts.map (Except.ok (ε := ε)))) ∧
      ∀ text ∈ nonBlank (joined texts), text.length ≤ maxMetadataChars := by
  have ⟨noHeading, small⟩ := not_or.mp (isOpen texts [] (List.append_nil _).symm)
  have isWhole : decoded (texts.map (Except.ok (ε := ε))) = texts := by
    have read := decoded_read texts ([] : List (Except ε (List Char)))
    rwa [List.append_nil, show decoded ([] : List (Except ε (List Char))) = [] from rfl,
      List.append_nil] at read
  have short := Nat.le_of_not_le small
  constructor
  · rw [exactWindow, isWhole, not_not.mp noHeading]
    show _ = nonBlank (List.take maxMetadataChars _)
    rw [List.take_of_length_le short]
  · intro text isText
    rw [nonBlank] at isText
    split at isText
    · cases isText
    · exact Option.some.inj isText ▸ short

/-- **The window is exact for exactly the pages whose window closes within the cap.** -/
theorem metadataText_exact_iff {ε : Type} (pages : List (Except ε (List Char))) :
    WindowExact isWord pages ↔ CutFits isWord pages := by
  obtain ⟨out, scanned, isOut⟩ := @metadataText_scanned isWord ε pages
  cases scanned with
  | all texts isPages isOpen =>
    subst isPages
    have closesNever (other : List (List Char)) :
        ¬ ClosesAt isWord (texts.map (Except.ok (ε := ε))) other := by
      intro closes
      obtain ⟨behind, isRead⟩ := closes.read
      obtain ⟨back, rfl⟩ := eq_append_of_map_ok isRead
      exact isOpen other back rfl closes.closed
    refine iff_of_true ⟨?_, ?_, sameHeading _⟩ fun other closes => absurd closes (closesNever other)
    · rw [isOut]
      refine iff_of_false nofun ?_
      rintro ⟨other, error, behind, isPages, -⟩
      exact error_not_mem_ok (show Except.error error ∈ texts.map Except.ok by simp [isPages])
    · intro result isResult
      rw [isOut] at isResult
      obtain rfl := Except.ok.inj isResult
      exact open_returns isWord isOpen
  | fails texts error behind isPages isOpen =>
    refine iff_of_true ⟨?_, ?_, sameHeading _⟩ fun other closes => absurd isOpen (closes.not_open isPages)
    · rw [isOut]
      exact iff_of_true ⟨error, rfl⟩ ⟨texts, error, behind, isPages, isOpen⟩
    · intro result isResult
      rw [isOut] at isResult
      cases isResult
  | closes texts closes =>
    obtain ⟨behind, isRead⟩ := closes.read
    have failsNever : (∃ error, metadataTextFromPages isWord pages = .error error) ↔
        ∃ texts error behind, pages = texts.map .ok ++ .error error :: behind ∧
          StaysOpen isWord texts := by
      rw [isOut]
      refine iff_of_false nofun ?_
      rintro ⟨other, error, behind, isPages, isOpen⟩
      exact closes.not_open isPages isOpen
    have fits : CutFits isWord pages ↔
        nonBlank (cut isWord (joined texts)) = nonBlank (exactWindow isWord pages) ∧
          ∀ text ∈ nonBlank (cut isWord (joined texts)), text.length ≤ maxMetadataChars := by
      have only : CutFits isWord pages ↔
          match (refsHeading isWord).findStart (joined texts) with
          | some start => start ≤ maxMetadataChars
          | none => AllSpace (joined texts) ∨ (joined texts).length = maxMetadataChars ∧
              ∀ start, (refsHeading isWord).findStart (joined (decoded pages)) = some start →
                maxMetadataChars ≤ start :=
        ⟨fun all => all texts closes, fun here other closes' => closes.unique closes' ▸ here⟩
      rw [only, cut]
      cases found : (refsHeading isWord).findStart (joined texts) with
      | some start => exact (heading_returns_iff isRead found).symm
      | none => exact (cap_returns_iff isRead (closes.closed.resolve_left (not_not.mpr found))).symm
    rw [fits]
    constructor
    · intro exact
      exact exact.returns _ isOut
    · intro here
      refine ⟨failsNever, fun result isResult => ?_, sameHeading _⟩
      rw [isOut] at isResult
      obtain rfl := Except.ok.inj isResult
      exact here

variable {isWord} in
/-- A page past the cap with no heading is returned whole. -/
theorem metadataText_plain {ε : Type} {text : List Char} (plain : ∀ c ∈ joined [text], closes c = false)
    (long : maxMetadataChars ≤ (joined [text]).length) (hasText : ¬ AllSpace (joined [text])) :
    metadataTextFromPages isWord [Except.ok (ε := ε) text] = .ok (some (joined [text])) := by
  have isPage : [] ++ pageText text = joined [text] := by
    rw [joined, List.flatMap_singleton, List.nil_append]
  rw [metadataTextFromPages, scanWindow, isPage, no_heading plain]
  simp only [if_pos long]
  rw [Except.map, nonBlank_of_text hasText]

/-- One page that is longer than the cap is returned whole. -/
theorem metadataText_overflows :
    ¬ WindowExact Char.isAlphanum [Except.ok (ε := String) (List.replicate 30001 'a')] := by
  intro exact
  have page : joined [List.replicate 30001 'a'] = List.replicate 30001 'a' ++ ['\n'] := by
    rw [joined, List.flatMap_singleton, pageText, foldFullwidthToAscii, List.map_replicate]
    rfl
  have plain : ∀ c ∈ joined [List.replicate 30001 'a'], closes c = false := by
    intro c member
    rw [page, List.mem_append, List.mem_replicate, List.mem_singleton] at member
    obtain ⟨-, rfl⟩ | rfl := member <;> decide
  have length : (joined [List.replicate 30001 'a']).length = 30002 := by
    rw [page, List.length_append, List.length_replicate]
    rfl
  have hasText : ¬ AllSpace (joined [List.replicate 30001 'a']) := by
    intro blank
    rw [page] at blank
    exact absurd (blank 'a' (List.mem_append_left _ (List.mem_replicate.mpr ⟨by decide, rfl⟩))) (by decide)
  have result := @metadataText_plain Char.isAlphanum String _ plain (by rw [length]; decide) hasText
  have bounded := (exact.returns _ result).2 _ rfl
  rw [length] at bounded
  exact absurd bounded (by decide)

end Bookrack.Extract
