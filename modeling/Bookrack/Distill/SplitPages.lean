/-
Cutting a source into its pages (`SplitPages::run` in `distill/src/segment.rs`).

The page marker is `<!--\s*page\s+(\d+)\s*\(sheet\s+(\d+)\)\s*-->`. A `DigitClass` holds what `\d` matches;
no digit is a blank, so each step of the expression can go one way only.

* `cuts_alike` — texts that differ in the shape of their blanks have the same markers.
* **`splitPages_alike`** — a source can be cut exactly when one that differs in its blanks can.
-/

import Bookrack.Base.Fallible
import Bookrack.Base.Lines
import Bookrack.Base.Literal
import Bookrack.Normalize.Pipeline

namespace Bookrack.Distill

open Spaced (Alike)

/-! ### The marker -/

/-- `\d`: the decimal digits of Unicode. -/
structure DigitClass where
  isDigit : Char → Bool
  notSpace : ∀ c, isWhitespace c = true → isDigit c = false

/-- The captures of a marker, and the text behind it. -/
structure Marker where
  page : List Char
  sheet : List Char
  rest : List Char

variable (digits : DigitClass)

/-- `PAGE_MARKER_RE`, at the start of a text. -/
def markerAt (text : List Char) : Option Marker := do
  let text ← Spaced.literal "<!--".toList text
  let text ← Spaced.literal "page".toList (Spaced.blanks isWhitespace text)
  let (page, text) ← Spaced.number isWhitespace digits.isDigit text
  let text ← Spaced.literal "(sheet".toList (Spaced.blanks isWhitespace text)
  let (sheet, text) ← Spaced.number isWhitespace digits.isDigit text
  let text ← Spaced.literal ")".toList text
  let text ← Spaced.literal "-->".toList (Spaced.blanks isWhitespace text)
  pure ⟨page, sheet, text⟩

/-- A marker found in a text, with the text since the one before. -/
structure Cut where
  before : List Char
  marker : List Char
  page : List Char
  sheet : List Char

/-- `captures_iter`, and the text behind the last marker; `before` is what was passed since the marker before. -/
def cutFrom : Nat → List Char → List Char → List Cut × List Char
  | 0, before, text => ([], before ++ text)
  | fuel + 1, before, text =>
    match markerAt digits text with
    | some found =>
      let cut : Cut := ⟨before, text.take (text.length - found.rest.length), found.page, found.sheet⟩
      let (cuts, tail) := cutFrom fuel [] found.rest
      (cut :: cuts, tail)
    | none =>
      match text with
      | [] => ([], before)
      | c :: rest => cutFrom fuel (before ++ [c]) rest

/-- The markers of a text. -/
def cuts (text : List Char) : List Cut × List Char := cutFrom digits (text.length + 1) [] text

/-! ### The pages -/

/-- `Page`. -/
structure Page where
  page : Nat
  sheet : Nat
  text : List Char
  deriving DecidableEq, Repr

/-- `ParseError::InvalidPageMarker`. -/
structure InvalidPageMarker where
  marker : List Char
  byteOffset : Nat
  deriving DecidableEq, Repr

/-- `str::parse::<u32>`, of digits. -/
def parseU32 (digits : List Char) : Option Nat :=
  (Literal.readDigits digits).bind fun n => if n < 4294967296 then some n else none

/-- `parse_marker_number`. -/
def parseMarkerNumber (digits marker : List Char) (byteOffset : Nat) : Except InvalidPageMarker Nat :=
  match parseU32 digits with
  | some n => .ok n
  | none => .error ⟨marker, byteOffset⟩

/-- The page that ends here, if one has begun. -/
def closePage (last : Option (Nat × Nat)) (text : List Char) : List Page :=
  last.toList.map fun numbers => ⟨numbers.1, numbers.2, Normalize.trim text⟩

/-- The loop over the markers: where it stands, and the page it is on. -/
def pagesFrom : Nat → Option (Nat × Nat) → List Cut → List Char → Except InvalidPageMarker (List Page)
  | _, last, [], tail => .ok (closePage last tail)
  | offset, last, cut :: rest, tail => do
    let start := offset + String.utf8Len cut.before
    let page ← parseMarkerNumber cut.page cut.marker start
    let sheet ← parseMarkerNumber cut.sheet cut.marker start
    let pages ← pagesFrom (start + String.utf8Len cut.marker) (some (page, sheet)) rest tail
    pure (closePage last cut.before ++ pages)

/-- `SplitPages::run`: a source without markers is one page. -/
def splitPages (source : List Char) : Except InvalidPageMarker (List Page) := do
  let pages ← pagesFrom 0 none (cuts digits source).1 (cuts digits source).2
  let text := Normalize.trim source
  pure (if pages.isEmpty ∧ text ≠ [] then [⟨1, 1, text⟩] else pages)

/-! ### Which sources can be cut -/

/-- The numbers of a marker can be read. -/
def Cut.Readable (cut : Cut) : Prop := (parseU32 cut.page).isSome ∧ (parseU32 cut.sheet).isSome

theorem parseMarkerNumber_ok {number marker : List Char} {offset : Nat} :
    (∃ n, parseMarkerNumber number marker offset = .ok n) ↔ (parseU32 number).isSome := by
  unfold parseMarkerNumber
  cases parseU32 number <;> simp

theorem pagesFrom_ok {tail : List Char} (found : List Cut) : ∀ {offset : Nat} {last : Option (Nat × Nat)},
    (∃ pages, pagesFrom offset last found tail = .ok pages) ↔ ∀ cut ∈ found, cut.Readable := by
  induction found with
  | nil =>
    intro offset last
    exact ⟨fun _ cut member => (nomatch member), fun _ => ⟨_, rfl⟩⟩
  | cons cut rest ih =>
    intro offset last
    rw [List.forall_mem_cons]
    constructor
    · rintro ⟨pages, isOk⟩
      obtain ⟨page, isPage, next⟩ := except_bind_ok.mp isOk
      obtain ⟨sheet, isSheet, next'⟩ := except_bind_ok.mp next
      obtain ⟨others, areOthers, -⟩ := except_bind_ok.mp next'
      exact ⟨⟨parseMarkerNumber_ok.mp ⟨page, isPage⟩, parseMarkerNumber_ok.mp ⟨sheet, isSheet⟩⟩,
        ih.mp ⟨others, areOthers⟩⟩
    · rintro ⟨⟨page, sheet⟩, readable⟩
      obtain ⟨page, isPage⟩ := parseMarkerNumber_ok.mpr page
      obtain ⟨sheet, isSheet⟩ := parseMarkerNumber_ok.mpr sheet
      obtain ⟨pages, arePages⟩ := ih.mpr readable
      exact ⟨_, except_bind_ok.mpr ⟨page, isPage, except_bind_ok.mpr ⟨sheet, isSheet,
        except_bind_ok.mpr ⟨pages, arePages, rfl⟩⟩⟩⟩

theorem splitPages_ok {source : List Char} :
    (∃ pages, splitPages digits source = .ok pages) ↔ ∀ cut ∈ (cuts digits source).1, cut.Readable := by
  rw [← pagesFrom_ok]
  constructor
  · rintro ⟨pages, isOk⟩
    obtain ⟨taken, isTaken, -⟩ := except_bind_ok.mp isOk
    exact ⟨taken, isTaken⟩
  · rintro ⟨pages, isOk⟩
    exact ⟨_, except_bind_ok.mpr ⟨pages, isOk, rfl⟩⟩

/-! ### Markers and blanks -/

section Alike

variable {digits} {one other : List Char}

/-- **A marker stands at the start of both texts**, or of neither. -/
theorem markerAt_alike (alike : Alike isWhitespace one other) :
    Option.Rel (fun left right => left.page = right.page ∧ left.sheet = right.sheet ∧
      Alike isWhitespace left.rest right.rest) (markerAt digits one) (markerAt digits other) := by
  have reads : ∀ {expected one other : List Char}, (∀ c ∈ expected, isWhitespace c = false) →
      Alike isWhitespace one other →
        Option.Rel (Alike isWhitespace) (Spaced.literal expected one) (Spaced.literal expected other) :=
    fun isText alike => alike.literal isText
  have isOpening : ∀ c ∈ "<!--".toList, isWhitespace c = false := by decide
  have isPage : ∀ c ∈ "page".toList, isWhitespace c = false := by decide
  have isSheet : ∀ c ∈ "(sheet".toList, isWhitespace c = false := by decide
  have isParen : ∀ c ∈ ")".toList, isWhitespace c = false := by decide
  have isClosing : ∀ c ∈ "-->".toList, isWhitespace c = false := by decide
  refine Spaced.rel_bind (reads isOpening alike) fun opened => ?_
  refine Spaced.rel_bind (reads isPage opened.blanks) fun atPage => ?_
  refine Spaced.rel_bind (atPage.number digits.notSpace) ?_
  rintro ⟨page, _⟩ ⟨_, _⟩ ⟨rfl, behindPage⟩
  refine Spaced.rel_bind (reads isSheet behindPage.blanks) fun atSheet => ?_
  refine Spaced.rel_bind (atSheet.number digits.notSpace) ?_
  rintro ⟨sheet, _⟩ ⟨_, _⟩ ⟨rfl, behindSheet⟩
  refine Spaced.rel_bind (reads isParen behindSheet) fun closed => ?_
  refine Spaced.rel_bind (reads isClosing closed.blanks) fun rest => ?_
  exact .some ⟨rfl, rfl, rest⟩

theorem literal_length {expected text rest : List Char} (isRest : Spaced.literal expected text = some rest) :
    text.length = expected.length + rest.length := by
  induction expected generalizing text with
  | nil =>
    cases isRest
    simp
  | cons c expected ih =>
    cases text with
    | nil => cases isRest
    | cons d text =>
      unfold Spaced.literal at isRest
      split_ifs at isRest
      have shorter := ih isRest
      simp only [List.length_cons]
      omega

theorem number_length {read text rest : List Char}
    (isRest : Spaced.number isWhitespace digits.isDigit text = some (read, rest)) :
      rest.length ≤ text.length := by
  unfold Spaced.number at isRest
  obtain ⟨middle, isMiddle, isRest⟩ := Option.bind_eq_some_iff.mp isRest
  have skipped : middle.length ≤ text.length := by
    cases text with
    | nil => cases isMiddle
    | cons c text =>
      have isMiddle' : (if isWhitespace c = true then some (Spaced.blanks isWhitespace text) else none) = some
        middle :=
        isMiddle
      split_ifs at isMiddle'
      cases isMiddle'
      exact (List.dropWhile_suffix _).length_le.trans (Nat.le_succ _)
  unfold Spaced.digits1 at isRest
  split_ifs at isRest
  cases isRest
  exact (List.dropWhile_suffix _).length_le.trans skipped

/-- A marker takes some of the text. -/
theorem markerAt_length {text : List Char} {found : Marker} (isFound : markerAt digits text = some found) :
    found.rest.length < text.length := by
  unfold markerAt at isFound
  obtain ⟨opened, isOpened, next⟩ := Option.bind_eq_some_iff.mp isFound
  obtain ⟨atPage, isAtPage, next⟩ := Option.bind_eq_some_iff.mp next
  obtain ⟨⟨page, behindPage⟩, isBehindPage, next⟩ := Option.bind_eq_some_iff.mp next
  obtain ⟨atSheet, isAtSheet, next⟩ := Option.bind_eq_some_iff.mp next
  obtain ⟨⟨sheet, behindSheet⟩, isBehindSheet, next⟩ := Option.bind_eq_some_iff.mp next
  obtain ⟨closed, isClosed, next⟩ := Option.bind_eq_some_iff.mp next
  obtain ⟨rest, isRest, next⟩ := Option.bind_eq_some_iff.mp next
  cases next
  have skipped : ∀ text : List Char, (Spaced.blanks isWhitespace text).length ≤ text.length :=
    fun text => (List.dropWhile_suffix _).length_le
  have first := literal_length isOpened
  have second := literal_length isAtPage
  have third := number_length isBehindPage
  have fourth := literal_length isAtSheet
  have fifth := number_length isBehindSheet
  have sixth := literal_length isClosed
  have seventh := literal_length isRest
  have isPositive : 0 < "<!--".toList.length := by decide
  have skipped₁ := skipped opened
  have skipped₂ := skipped behindPage
  have skipped₃ := skipped closed
  show rest.length < text.length
  omega

/-- The numbers of a marker. -/
def Cut.numbers (cut : Cut) : List Char × List Char := (cut.page, cut.sheet)

theorem cutFrom_space {c : Char} (isSpace : isWhitespace c = true) (fuel : Nat) (before text : List Char) :
    cutFrom digits (fuel + 1) before (c :: text) = cutFrom digits fuel (before ++ [c]) text := by
  have noMarker : markerAt digits (c :: text) = none := by
    unfold markerAt
    have differ : '<' ≠ c := by
      rintro rfl
      exact absurd isSpace (by decide)
    show (Spaced.literal ('<' :: "!--".toList) (c :: text)).bind _ = none
    rw [Spaced.literal, if_neg differ]
    rfl
  rw [cutFrom, noMarker]

theorem cutFrom_spaces {gap : List Char} (isGap : ∀ c ∈ gap, isWhitespace c = true) (fuel : Nat)
    (before text : List Char) :
    cutFrom digits (fuel + gap.length) before (gap ++ text) = cutFrom digits fuel (before ++ gap) text := by
  induction gap generalizing before with
  | nil => rw [List.append_nil]; rfl
  | cons c gap ih =>
    obtain ⟨isSpace, isGap⟩ := List.forall_mem_cons.mp isGap
    rw [List.length_cons, ← Nat.add_assoc, List.cons_append, cutFrom_space isSpace, ih isGap, List.append_assoc]
    rfl

/-- **Texts that differ in the shape of their blanks have the same markers.** -/
theorem cutFrom_alike (bound : Nat) : ∀ {one other before before' : List Char} {fuel fuel' : Nat},
    one.length + other.length ≤ bound → one.length < fuel → other.length < fuel' → Alike isWhitespace one other →
      (cutFrom digits fuel before one).1.map Cut.numbers =
        (cutFrom digits fuel' before' other).1.map Cut.numbers := by
  have blank : ∀ {text before : List Char} {fuel : Nat}, text.length < fuel →
      (∀ c ∈ text, isWhitespace c = true) → (cutFrom digits fuel before text).1 = [] := by
    intro text before fuel inside isBlank
    obtain ⟨spare, rfl⟩ : ∃ spare, fuel = spare + 1 + text.length := ⟨fuel - text.length - 1, by omega⟩
    have passed := @cutFrom_spaces digits text isBlank (spare + 1) before []
    rw [List.append_nil] at passed
    rw [passed]
    rfl
  induction bound with
  | zero =>
    intro one other before before' fuel fuel' short inside inside' _
    obtain rfl : one = [] := List.length_eq_zero_iff.mp (by omega)
    obtain rfl : other = [] := List.length_eq_zero_iff.mp (by omega)
    rw [blank inside (fun _ member => nomatch member), blank inside' (fun _ member => nomatch member)]
  | succ bound ih =>
    intro one other before before' fuel fuel' short inside inside' alike
    cases alike with
    | blank isBlank isBlank' => rw [blank inside isBlank, blank inside' isBlank']
    | @run gap gap' one other first last isSpace isSpace' isGap isGap' rest =>
      simp only [List.length_cons, List.length_append] at short inside inside'
      obtain ⟨spare, rfl⟩ : ∃ spare, fuel = spare + gap.length + 1 := ⟨fuel - gap.length - 1, by omega⟩
      obtain ⟨spare', rfl⟩ : ∃ spare, fuel' = spare + gap'.length + 1 := ⟨fuel' - gap'.length - 1, by omega⟩
      rw [cutFrom_space isSpace, cutFrom_space isSpace', cutFrom_spaces isGap, cutFrom_spaces isGap']
      exact ih (by omega) (by omega) (by omega) rest
    | @char one other c rest =>
      simp only [List.length_cons] at short inside inside'
      obtain ⟨spare, rfl⟩ : ∃ spare, fuel = spare + 1 := ⟨fuel - 1, by omega⟩
      obtain ⟨spare', rfl⟩ : ∃ spare, fuel' = spare + 1 := ⟨fuel' - 1, by omega⟩
      have together := @markerAt_alike digits _ _ (.char c rest)
      rw [cutFrom, cutFrom]
      cases isFound : markerAt digits (c :: one) with
      | none =>
        cases isFound' : markerAt digits (c :: other) with
        | none => exact ih (by omega) (by omega) (by omega) rest
        | some found' =>
          rw [isFound, isFound'] at together
          cases together
      | some found =>
        cases isFound' : markerAt digits (c :: other) with
        | none =>
          rw [isFound, isFound'] at together
          cases together
        | some found' =>
          rw [isFound, isFound'] at together
          obtain ⟨samePage, sameSheet, sameRest⟩ : _ ∧ _ ∧ _ := by
            cases together with
            | some related => exact related
          have shorter := markerAt_length isFound
          have shorter' := markerAt_length isFound'
          simp only [List.length_cons] at shorter shorter'
          simp only [List.map_cons, Cut.numbers, samePage, sameSheet, List.cons.injEq, true_and]
          exact ih (by omega) (by omega) (by omega) sameRest

theorem cuts_alike (alike : Alike isWhitespace one other) :
    (cuts digits one).1.map Cut.numbers = (cuts digits other).1.map Cut.numbers :=
  cutFrom_alike _ le_rfl (Nat.lt_succ_self _) (Nat.lt_succ_self _) alike

/-- **A source can be cut** exactly when one that differs in the shape of its blanks can. -/
theorem splitPages_alike (alike : Alike isWhitespace one other) :
    (∃ pages, splitPages digits one = .ok pages) ↔ ∃ pages, splitPages digits other = .ok pages := by
  have byNumbers : ∀ text : List Char, (∀ cut ∈ (cuts digits text).1, cut.Readable) ↔
      ∀ numbers ∈ (cuts digits text).1.map Cut.numbers,
        (parseU32 numbers.1).isSome ∧ (parseU32 numbers.2).isSome := by
    intro text
    rw [List.forall_mem_map]
    rfl
  rw [splitPages_ok, splitPages_ok, byNumbers, byNumbers, cuts_alike alike]

end Alike

end Bookrack.Distill
