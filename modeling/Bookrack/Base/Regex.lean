/-
Regular expressions with leftmost-first matching.

A pattern is run at a place of a text, with the character in front of it known; `runs` lists the
ways to match there in order of preference: the first branch of an alternation before the second, the
longest repetition first. `find` takes the first way at the first place that has one.

`Takes` says the same without the order: `mem_runs`. What a pattern takes depends on what follows
only through the next character (`takes_congr`), and the place that is found is the first place where
it takes something (`findStart_iff`).
-/

import Mathlib.Data.List.Basic
import Mathlib.Data.List.Forall2

namespace Bookrack

/-- A pattern over characters of any kind. -/
inductive Regex (α : Type*) where
  /-- What must hold of the character in front and the next one. -/
  | look (holds : Option α → Option α → Bool)
  | one (accepts : α → Bool)
  | seq (first second : Regex α)
  | alt (first second : Regex α)
  /-- The longest run of accepted characters that lets the rest match. -/
  | many (accepts : α → Bool) (least : Nat) (most : Option Nat)
  | group (inner : Regex α)

namespace Regex

variable {α : Type*}

/-- A way to match: the text taken, the text behind it and what the groups took. -/
structure Way (α : Type*) where
  word : List α
  rest : List α
  groups : List (List α)
  deriving DecidableEq

/-- The character in front of what follows `word`. -/
def after (before : Option α) (word : List α) : Option α := word.getLast?.or before

@[simp] theorem after_nil (before : Option α) : after before [] = before := rfl

@[simp] theorem after_cons (before : Option α) (c : α) (word : List α) :
    after before (c :: word) = after (some c) word := by
  cases word with
  | nil => rfl
  | cons d word => simp [after, List.getLast?_cons]

@[simp] theorem after_append (before : Option α) (word more : List α) :
    after before (word ++ more) = after (after before word) more := by
  induction word generalizing before with
  | nil => rfl
  | cons c word ih => rw [List.cons_append, after_cons, ih, after_cons]

/-- The repetitions of a class, longest first. -/
def manyRuns (accepts : α → Bool) : Nat → Option Nat → List α → List (Way α)
  | least, _, [] => if least = 0 then [⟨[], [], []⟩] else []
  | least, most, c :: text =>
    (if accepts c && most != some 0 then
      (manyRuns accepts (least - 1) (most.map (· - 1)) text).map fun way => { way with word := c :: way.word }
    else []) ++ if least = 0 then [⟨[], c :: text, []⟩] else []

/-- The ways to match at a place, in order of preference. -/
def runs : Regex α → Option α → List α → List (Way α)
  | look holds, before, text => if holds before text.head? then [⟨[], text, []⟩] else []
  | one _, _, [] => []
  | one accepts, _, c :: text => if accepts c then [⟨[c], text, []⟩] else []
  | seq first second, before, text =>
    (first.runs before text).flatMap fun way =>
      (second.runs (after before way.word) way.rest).map fun next =>
        ⟨way.word ++ next.word, next.rest, way.groups ++ next.groups⟩
  | alt first second, before, text => first.runs before text ++ second.runs before text
  | many accepts least most, _, text => manyRuns accepts least most text
  | group inner, before, text =>
    (inner.runs before text).map fun way => { way with groups := way.word :: way.groups }

/-- The first place with a way to match, and its preferred way. -/
def findFrom (pattern : Regex α) : Option α → Nat → List α → Option (Nat × Way α)
  | before, start, [] => (pattern.runs before []).head?.map fun way => (start, way)
  | before, start, c :: text =>
    match (pattern.runs before (c :: text)).head? with
    | some way => some (start, way)
    | none => findFrom pattern (some c) (start + 1) text

/-- `Regex::find`. -/
def find (pattern : Regex α) (text : List α) : Option (Nat × Way α) := pattern.findFrom none 0 text

/-- `Match::start`, in characters. -/
def findStart (pattern : Regex α) (text : List α) : Option Nat := (pattern.find text).map Prod.fst

/-- `Regex::is_match`. -/
def isMatch (pattern : Regex α) (text : List α) : Bool := (pattern.find text).isSome

/-- `Regex::captures`, without the whole match. -/
def captures (pattern : Regex α) (text : List α) : Option (List (List α)) :=
  (pattern.find text).map fun found => found.2.groups

/-- One character class after the other. -/
def word : List (α → Bool) → Regex α
  | [] => look fun _ _ => true
  | accepts :: more => seq (one accepts) (word more)

/-- `?` on one character. -/
def optional (accepts : α → Bool) : Regex α := many accepts 0 (some 1)

/-- `^`. -/
def textStart : Regex α := look fun before _ => before.isNone

/-- `$`. -/
def textEnd : Regex α := look fun _ next => next.isNone

/-! ### What a pattern takes -/

/-- The pattern takes `word` in front of `rest`, behind the character `before`. -/
def Takes : Regex α → Option α → List α → List α → List (List α) → Prop
  | look holds, before, word, rest, groups => word = [] ∧ groups = [] ∧ holds before rest.head?
  | one accepts, _, word, _, groups => ∃ c, word = [c] ∧ groups = [] ∧ accepts c
  | seq first second, before, word, rest, groups => ∃ front back one two,
      word = front ++ back ∧ groups = one ++ two ∧ Takes first before front (back ++ rest) one ∧
        Takes second (after before front) back rest two
  | alt first second, before, word, rest, groups =>
    Takes first before word rest groups ∨ Takes second before word rest groups
  | many accepts least most, _, word, _, groups =>
    groups = [] ∧ (∀ c ∈ word, accepts c) ∧ least ≤ word.length ∧ ∀ bound ∈ most, word.length ≤ bound
  | group inner, before, word, rest, groups => ∃ inside, groups = word :: inside ∧
      Takes inner before word rest inside

theorem mem_manyRuns (accepts : α → Bool) (least : Nat) (most : Option Nat) (text : List α) (way : Way α) :
    way ∈ manyRuns accepts least most text ↔
      text = way.word ++ way.rest ∧ Takes (many accepts least most) none way.word way.rest way.groups := by
  induction text generalizing least most way with
  | nil =>
    obtain ⟨word, rest, groups⟩ := way
    by_cases none : least = 0
    · simp only [manyRuns, if_pos none, List.mem_singleton, Way.mk.injEq, Takes, List.nil_eq,
        List.append_eq_nil_iff]
      constructor
      · rintro ⟨rfl, rfl, rfl⟩
        exact ⟨⟨rfl, rfl⟩, rfl, by simp, by simp [none], by simp⟩
      · rintro ⟨⟨rfl, rfl⟩, rfl, -⟩
        exact ⟨rfl, rfl, rfl⟩
    · simp only [manyRuns, if_neg none, List.not_mem_nil, Takes, List.nil_eq, List.append_eq_nil_iff,
        false_iff]
      rintro ⟨⟨rfl, rfl⟩, -, -, enough, -⟩
      exact none (Nat.le_zero.mp enough)
  | cons c text ih =>
    obtain ⟨taken, rest, groups⟩ := way
    have stops : (Way.mk taken rest groups ∈ if least = 0 then [Way.mk [] (c :: text) []] else []) ↔
        taken = [] ∧ rest = c :: text ∧ groups = [] ∧ least = 0 := by
      split <;> rename_i none <;> simp [none]
    rw [manyRuns, List.mem_append, stops]
    cases taken with
    | nil =>
      have longer : (Way.mk [] rest groups ∉ if accepts c && most != some 0 then
          (manyRuns accepts (least - 1) (most.map (· - 1)) text).map
            fun way => { way with word := c :: way.word } else []) := by
        split <;> simp
      simp only [longer, false_or, List.nil_append, Takes, List.length_nil, Nat.le_zero, Nat.zero_le]
      constructor
      · rintro ⟨-, rfl, rfl, none⟩
        exact ⟨rfl, rfl, by simp, none, by simp⟩
      · rintro ⟨rfl, rfl, -, none, -⟩
        exact ⟨trivial, rfl, rfl, none⟩
    | cons d taken =>
      simp only [reduceCtorEq, false_and, or_false, List.cons_append, List.cons.injEq]
      by_cases goes : (accepts c && most != some 0) = true
      · rw [if_pos goes, List.mem_map]
        have ⟨accepted, room⟩ := Bool.and_eq_true_iff.mp goes
        have bounds : (∀ bound ∈ most.map (· - 1), taken.length ≤ bound) ↔
            ∀ bound ∈ most, taken.length + 1 ≤ bound := by
          cases most with
          | none => simp
          | some bound =>
            have positive : bound ≠ 0 := by simpa using room
            simp only [Option.map_some, Option.mem_some_iff, forall_eq']
            omega
        constructor
        · rintro ⟨way, isWay, same⟩
          obtain ⟨word', rest', groups'⟩ := way
          obtain ⟨⟨rfl, rfl⟩, rfl, rfl⟩ : (c = d ∧ word' = taken) ∧ rest' = rest ∧ groups' = groups := by
            simpa using same
          obtain ⟨isText, noGroups, all, enough, few⟩ := (ih _ _ _).mp isWay
          refine ⟨⟨rfl, isText⟩, noGroups, ?_, ?_, ?_⟩
          · simpa [accepted] using all
          · have enough : least - 1 ≤ word'.length := enough
            rw [List.length_cons]
            omega
          · simpa using bounds.mp few
        · rintro ⟨⟨rfl, isText⟩, noGroups, all, enough, few⟩
          refine ⟨⟨taken, rest, groups⟩, (ih _ _ _).mpr ⟨isText, noGroups, ?_, ?_, ?_⟩, rfl⟩
          · exact fun x member => all x (List.mem_cons_of_mem _ member)
          · show least - 1 ≤ taken.length
            rw [List.length_cons] at enough
            omega
          · exact bounds.mpr (by simpa using few)
      · rw [if_neg goes]
        simp only [List.not_mem_nil, false_iff]
        rintro ⟨⟨rfl, -⟩, -, all, -, few⟩
        have accepted : accepts c = true := all c List.mem_cons_self
        refine goes (Bool.and_eq_true_iff.mpr ⟨accepted, ?_⟩)
        rw [bne_iff_ne]
        rintro rfl
        simpa using few 0 rfl

/-- **The ways to match are what the pattern takes.** -/
theorem mem_runs (pattern : Regex α) (before : Option α) (text : List α) (way : Way α) :
    way ∈ pattern.runs before text ↔
      text = way.word ++ way.rest ∧ pattern.Takes before way.word way.rest way.groups := by
  induction pattern generalizing before text way with
  | look holds =>
    obtain ⟨taken, rest, groups⟩ := way
    by_cases here : holds before text.head? = true
    · simp only [runs, if_pos here, List.mem_singleton, Way.mk.injEq, Takes]
      constructor
      · rintro ⟨rfl, rfl, rfl⟩
        exact ⟨rfl, rfl, rfl, here⟩
      · rintro ⟨rfl, rfl, rfl, -⟩
        exact ⟨rfl, rfl, rfl⟩
    · simp only [runs, if_neg here, List.not_mem_nil, Takes, false_iff]
      rintro ⟨rfl, rfl, -, holds⟩
      exact here holds
  | one accepts =>
    obtain ⟨taken, rest, groups⟩ := way
    cases text with
    | nil =>
      simp only [runs, List.not_mem_nil, Takes, false_iff]
      rintro ⟨isText, c, rfl, -⟩
      exact List.cons_ne_nil _ _ isText.symm
    | cons c text =>
      by_cases accepted : accepts c = true
      · simp only [runs, if_pos accepted, List.mem_singleton, Way.mk.injEq, Takes]
        constructor
        · rintro ⟨rfl, rfl, rfl⟩
          exact ⟨rfl, c, rfl, rfl, accepted⟩
        · rintro ⟨isText, d, rfl, rfl, -⟩
          obtain ⟨rfl, rfl⟩ : c = d ∧ text = rest := by simpa using isText
          exact ⟨rfl, rfl, rfl⟩
      · simp only [runs, if_neg accepted, List.not_mem_nil, Takes, false_iff]
        rintro ⟨isText, d, rfl, -, other⟩
        obtain ⟨rfl, -⟩ : c = d ∧ text = rest := by simpa using isText
        exact accepted other
  | seq first second ihFirst ihSecond =>
    obtain ⟨taken, rest, groups⟩ := way
    simp only [runs, List.mem_flatMap, List.mem_map, Takes]
    constructor
    · rintro ⟨⟨front, middle, one⟩, isFirst, ⟨back, rest', two⟩, isSecond, same⟩
      obtain ⟨rfl, rfl, rfl⟩ : front ++ back = taken ∧ rest' = rest ∧ one ++ two = groups := by
        simpa using same
      obtain ⟨rfl, takesFirst⟩ := (ihFirst _ _ _).mp isFirst
      obtain ⟨isMiddle, takesSecond⟩ := (ihSecond _ _ _).mp isSecond
      subst isMiddle
      exact ⟨(List.append_assoc _ _ _).symm, front, back, one, two, rfl, rfl, takesFirst, takesSecond⟩
    · rintro ⟨rfl, front, back, one, two, rfl, rfl, takesFirst, takesSecond⟩
      exact ⟨⟨front, back ++ rest, one⟩, (ihFirst _ _ _).mpr ⟨List.append_assoc _ _ _, takesFirst⟩,
        ⟨back, rest, two⟩, (ihSecond _ _ _).mpr ⟨rfl, takesSecond⟩, rfl⟩
  | alt first second ihFirst ihSecond =>
    rw [runs, List.mem_append, ihFirst, ihSecond, Takes, and_or_left]
  | many accepts least most => exact mem_manyRuns accepts least most text way
  | group inner ih =>
    obtain ⟨taken, rest, groups⟩ := way
    simp only [runs, List.mem_map, Takes]
    constructor
    · rintro ⟨⟨word', rest', inside⟩, isWay, same⟩
      obtain ⟨rfl, rfl, rfl⟩ : word' = taken ∧ rest' = rest ∧ word' :: inside = groups := by
        simpa using same
      obtain ⟨isText, takes⟩ := (ih _ _ _).mp isWay
      exact ⟨isText, inside, rfl, takes⟩
    · rintro ⟨isText, inside, rfl, takes⟩
      exact ⟨⟨taken, rest, inside⟩, (ih _ _ _).mpr ⟨isText, takes⟩, rfl⟩

/-- What is taken depends on what follows through the next character only. -/
theorem takes_congr {pattern : Regex α} {before : Option α} {taken rest other : List α}
    {groups : List (List α)} (same : rest.head? = other.head?)
    (takes : pattern.Takes before taken rest groups) : pattern.Takes before taken other groups := by
  induction pattern generalizing before taken rest other groups with
  | look holds =>
    obtain ⟨isEmpty, noGroups, here⟩ := takes
    exact ⟨isEmpty, noGroups, same ▸ here⟩
  | one accepts => exact takes
  | seq first second ihFirst ihSecond =>
    obtain ⟨front, back, one, two, isWord, isGroups, takesFirst, takesSecond⟩ := takes
    refine ⟨front, back, one, two, isWord, isGroups, ihFirst ?_ takesFirst, ihSecond same takesSecond⟩
    rw [List.head?_append, List.head?_append, same]
  | alt first second ihFirst ihSecond => exact takes.imp (ihFirst same) (ihSecond same)
  | many accepts least most => exact takes
  | group inner ih =>
    obtain ⟨inside, isGroups, takes⟩ := takes
    exact ⟨inside, isGroups, ih same takes⟩

theorem takes_word {classes : List (α → Bool)} {before : Option α} {taken rest : List α}
    {groups : List (List α)} :
    (word classes).Takes before taken rest groups ↔
      groups = [] ∧ List.Forall₂ (fun accepts c => accepts c = true) classes taken := by
  induction classes generalizing before taken groups with
  | nil =>
    simp only [word, Takes, List.forall₂_nil_left_iff, and_true]
    exact and_comm
  | cons accepts classes ih =>
    simp only [word, Takes, ih, List.forall₂_cons_left_iff]
    constructor
    · rintro ⟨-, back, -, -, rfl, rfl, ⟨c, rfl, rfl, accepted⟩, rfl, more⟩
      exact ⟨rfl, c, back, accepted, more, rfl⟩
    · rintro ⟨rfl, c, back, accepted, more, rfl⟩
      exact ⟨[c], back, [], [], rfl, rfl, ⟨c, rfl, rfl, accepted⟩, rfl, more⟩

/-! ### The place that is found -/

/-- The pattern takes something of the text behind `front`. -/
def Begins (pattern : Regex α) (before : Option α) (text front : List α) : Prop :=
  ∃ taken rest groups, text = front ++ (taken ++ rest) ∧
    pattern.Takes (after before front) taken rest groups

theorem begins_nil_iff {pattern : Regex α} {before : Option α} {text : List α} :
    pattern.Begins before text [] ↔ (pattern.runs before text).head? ≠ none := by
  rw [ne_eq, List.head?_eq_none_iff]
  constructor
  · rintro ⟨taken, rest, groups, isText, takes⟩
    exact List.ne_nil_of_mem ((mem_runs _ _ _ ⟨taken, rest, groups⟩).mpr ⟨isText, takes⟩)
  · intro some
    obtain ⟨way, isWay⟩ := List.exists_mem_of_ne_nil _ some
    obtain ⟨isText, takes⟩ := (mem_runs _ _ _ _).mp isWay
    exact ⟨way.word, way.rest, way.groups, isText, takes⟩

theorem begins_cons_iff {pattern : Regex α} {before : Option α} {c : α} {text front : List α} :
    pattern.Begins before (c :: text) (c :: front) ↔ pattern.Begins (some c) text front := by
  simp [Begins]

theorem Begins.front {pattern : Regex α} {before : Option α} {c : α} {text front : List α}
    (begins : pattern.Begins before (c :: text) front) :
    front = [] ∨ ∃ more, front = c :: more ∧ pattern.Begins (some c) text more := by
  cases front with
  | nil => exact .inl rfl
  | cons d more =>
    have isText : c = d := by
      obtain ⟨taken, rest, groups, isText, -⟩ := begins
      exact (List.cons.inj isText).1
    subst isText
    exact .inr ⟨more, rfl, begins_cons_iff.mp begins⟩

theorem findFrom_spec (pattern : Regex α) (before : Option α) (start : Nat) (text : List α) :
    match pattern.findFrom before start text with
    | some (place, way) => ∃ front, place = start + front.length ∧ text = front ++ (way.word ++ way.rest) ∧
        pattern.Takes (after before front) way.word way.rest way.groups ∧
        ∀ other, pattern.Begins before text other → front.length ≤ other.length
    | none => ∀ front, ¬ pattern.Begins before text front := by
  induction text generalizing before start with
  | nil =>
    cases first : (pattern.runs before []).head? with
    | none =>
      simp only [findFrom, first, Option.map_none]
      intro front begins
      have isNil : front = [] := by
        obtain ⟨taken, rest, groups, isText, -⟩ := begins
        exact (List.append_eq_nil_iff.mp isText.symm).1
      exact begins_nil_iff.mp (isNil ▸ begins) first
    | some way =>
      simp only [findFrom, first, Option.map_some]
      obtain ⟨isText, takes⟩ := (mem_runs _ _ _ _).mp (List.mem_of_head? first)
      exact ⟨[], rfl, isText, takes, by simp⟩
  | cons c text ih =>
    cases first : (pattern.runs before (c :: text)).head? with
    | some way =>
      simp only [findFrom, first]
      obtain ⟨isText, takes⟩ := (mem_runs _ _ _ _).mp (List.mem_of_head? first)
      exact ⟨[], rfl, isText, takes, by simp⟩
    | none =>
      have later : pattern.findFrom before start (c :: text) =
          pattern.findFrom (some c) (start + 1) text := by
        rw [findFrom, first]
      have notHere : ¬ pattern.Begins before (c :: text) [] := fun begins =>
        begins_nil_iff.mp begins first
      have spec := ih (some c) (start + 1)
      rw [later]
      cases found : pattern.findFrom (some c) (start + 1) text with
      | none =>
        rw [found] at spec
        intro front begins
        obtain rfl | ⟨more, rfl, later⟩ := begins.front
        · exact notHere begins
        · exact spec more later
      | some result =>
        rw [found] at spec
        obtain ⟨front, isPlace, isText, takes, isFirst⟩ := spec
        refine ⟨c :: front, by rw [isPlace, List.length_cons]; omega, by rw [isText]; rfl,
          by rwa [after_cons], fun other begins => ?_⟩
        obtain rfl | ⟨more, rfl, later⟩ := begins.front
        · exact absurd begins notHere
        · exact Nat.succ_le_succ (isFirst more later)

/-- **The place found is the first place where the pattern takes something.** -/
theorem findStart_iff {pattern : Regex α} {text : List α} {start : Nat} :
    pattern.findStart text = some start ↔ ∃ front, front.length = start ∧ pattern.Begins none text front ∧
      ∀ other, pattern.Begins none text other → start ≤ other.length := by
  have spec := findFrom_spec pattern none 0 text
  rw [findStart, find]
  cases found : pattern.findFrom none 0 text with
  | none =>
    rw [found] at spec
    simp only [Option.map_none, reduceCtorEq, false_iff]
    rintro ⟨front, -, begins, -⟩
    exact spec front begins
  | some result =>
    rw [found] at spec
    obtain ⟨place, taken, rest, groups⟩ := result
    obtain ⟨front, isPlace, isText, takes, isFirst⟩ := spec
    obtain rfl : place = front.length := by omega
    have begins : pattern.Begins none text front := ⟨taken, rest, groups, isText, takes⟩
    simp only [Option.map_some, Option.some.injEq]
    constructor
    · rintro rfl
      exact ⟨front, rfl, begins, isFirst⟩
    · rintro ⟨other, rfl, otherBegins, otherFirst⟩
      exact Nat.le_antisymm (isFirst other otherBegins) (otherFirst front begins)

theorem captures_eq_some {pattern : Regex α} {text : List α} {groups : List (List α)}
    (found : pattern.captures text = some groups) : ∃ front taken rest,
      text = front ++ (taken ++ rest) ∧ pattern.Takes (after none front) taken rest groups := by
  have spec := findFrom_spec pattern none 0 text
  obtain ⟨⟨place, taken, rest, groups'⟩, isFound, rfl⟩ := Option.map_eq_some_iff.mp found
  rw [find] at isFound
  rw [isFound] at spec
  obtain ⟨front, -, isText, takes, -⟩ := spec
  exact ⟨front, taken, rest, isText, takes⟩

theorem captures_eq_none {pattern : Regex α} {text : List α} :
    pattern.captures text = none ↔ pattern.isMatch text = false := by
  rw [captures, isMatch, Option.map_eq_none_iff, Option.isSome_eq_false_iff, Option.isNone_iff_eq_none]

theorem findStart_eq_none {pattern : Regex α} {text : List α} :
    pattern.findStart text = none ↔ ∀ front, ¬ pattern.Begins none text front := by
  have spec := findFrom_spec pattern none 0 text
  rw [findStart, find]
  cases found : pattern.findFrom none 0 text with
  | none =>
    rw [found] at spec
    exact iff_of_true rfl spec
  | some result =>
    rw [found] at spec
    obtain ⟨place, taken, rest, groups⟩ := result
    obtain ⟨front, -, isText, takes, -⟩ := spec
    exact iff_of_false nofun fun never => never front ⟨taken, rest, groups, isText, takes⟩

theorem isMatch_iff {pattern : Regex α} {text : List α} :
    pattern.isMatch text = true ↔ ∃ front, pattern.Begins none text front := by
  have never := @findStart_eq_none _ pattern text
  rw [findStart, Option.map_eq_none_iff] at never
  rw [isMatch, Option.isSome_iff_ne_none, ne_eq, never]
  push Not
  exact Iff.rfl

/-! ### Patterns at the start of a text -/

theorem eq_nil_of_textStart {front : List α} (atStart : (after none front).isNone = true) : front = [] := by
  cases front with
  | nil => rfl
  | cons c front =>
    rw [after, Option.isNone_iff_eq_none, Option.or_eq_none_iff] at atStart
    cases List.getLast?_eq_none_iff.mp atStart.1

theorem begins_textStart {pattern : Regex α} {text front : List α} :
    (seq textStart pattern).Begins none text front ↔
      front = [] ∧ ∃ taken rest groups, text = taken ++ rest ∧ pattern.Takes none taken rest groups := by
  constructor
  · rintro ⟨-, rest, -, isText, -, taken, -, groups, rfl, rfl, ⟨rfl, rfl, atStart⟩, takes⟩
    obtain rfl := eq_nil_of_textStart atStart
    exact ⟨rfl, taken, rest, groups, isText, takes⟩
  · rintro ⟨rfl, taken, rest, groups, rfl, takes⟩
    exact ⟨taken, rest, groups, rfl, [], taken, [], groups, rfl, rfl, ⟨rfl, rfl, rfl⟩, takes⟩

/-- **An anchored pattern** is matched by what it takes at the start. -/
theorem isMatch_textStart {pattern : Regex α} {text : List α} :
    (seq textStart pattern).isMatch text = true ↔
      ∃ taken rest groups, text = taken ++ rest ∧ pattern.Takes none taken rest groups := by
  rw [isMatch_iff]
  constructor
  · rintro ⟨front, begins⟩
    exact (begins_textStart.mp begins).2
  · exact fun takes => ⟨[], begins_textStart.mpr ⟨rfl, takes⟩⟩

theorem captures_textStart_takes {pattern : Regex α} {text : List α} {groups : List (List α)}
    (captured : (seq textStart pattern).captures text = some groups) :
    ∃ taken rest, text = taken ++ rest ∧ pattern.Takes none taken rest groups := by
  obtain ⟨front, taken, rest, isText, -, taken', -, groups', rfl, rfl, ⟨rfl, rfl, atStart⟩, takes⟩ :=
    captures_eq_some captured
  obtain rfl := eq_nil_of_textStart atStart
  exact ⟨taken', rest, isText, takes⟩

theorem captures_of_takes {pattern : Regex α} {text taken rest : List α} {groups : List (List α)}
    (isText : text = taken ++ rest) (takes : pattern.Takes none taken rest groups) :
    ∃ groups, (seq textStart pattern).captures text = some groups := by
  refine Option.ne_none_iff_exists'.mp fun none => ?_
  rw [captures_eq_none, Bool.eq_false_iff] at none
  exact none (isMatch_textStart.mpr ⟨taken, rest, groups, isText, takes⟩)

/-- An anchored pattern is found at the start. -/
theorem findStart_textStart {pattern : Regex α} {text : List α} :
    (seq textStart pattern).findStart text =
      if (seq textStart pattern).isMatch text then some 0 else none := by
  split
  · rename_i isMatched
    obtain ⟨front, begins⟩ := isMatch_iff.mp isMatched
    obtain ⟨rfl, -⟩ := begins_textStart.mp begins
    exact findStart_iff.mpr ⟨[], rfl, begins, fun _ _ => Nat.zero_le _⟩
  · rename_i unmatched
    rw [findStart_eq_none]
    exact fun front begins => unmatched (isMatch_iff.mpr ⟨front, begins⟩)

/-- Two anchored patterns are found at the same place where both match. -/
theorem findStart_textStart_eq_iff {pattern strict : Regex α} {text : List α}
    (matched : (seq textStart pattern).isMatch text = true) :
    (seq textStart strict).findStart text = (seq textStart pattern).findStart text ↔
      (seq textStart strict).isMatch text = true := by
  rw [findStart_textStart, findStart_textStart, if_pos matched]
  split <;> simp [*]

theorem takes_textEnd {before : Option α} {taken rest : List α} {groups : List (List α)} :
    textEnd.Takes before taken rest groups ↔ taken = [] ∧ groups = [] ∧ rest = [] := by
  simp [textEnd, Takes]

/-! ### Patterns with a stricter one -/

/-- **The first place of a pattern is that of a stricter one** if the stricter one begins there. -/
theorem findStart_strict {pattern strict : Regex α} {text : List α} {start : Nat}
    (narrower : ∀ front, strict.Begins none text front → pattern.Begins none text front)
    (found : pattern.findStart text = some start) :
    strict.findStart text = pattern.findStart text ↔ strict.Begins none text (text.take start) := by
  obtain ⟨front, rfl, begins, isFirst⟩ := findStart_iff.mp found
  have isFront : text.take front.length = front := by
    obtain ⟨taken, rest, groups, rfl, -⟩ := begins
    exact List.take_left
  rw [found, isFront, findStart_iff]
  constructor
  · rintro ⟨other, sameLength, otherBegins, -⟩
    obtain ⟨taken, rest, groups, isText, takes⟩ := begins
    obtain ⟨taken', rest', groups', isText', takes'⟩ := otherBegins
    obtain ⟨rfl, -⟩ := List.append_inj (isText.symm.trans isText') sameLength.symm
    exact ⟨taken', rest', groups', isText', takes'⟩
  · exact fun strictBegins => ⟨front, rfl, strictBegins, fun other otherBegins =>
      isFirst other (narrower other otherBegins)⟩

/-! ### One group -/

/-- The pattern captures nothing. -/
def Groupless (pattern : Regex α) : Prop :=
  ∀ before taken rest groups, pattern.Takes before taken rest groups → groups = []

theorem groupless_look (holds : Option α → Option α → Bool) : (look holds).Groupless :=
  fun _ _ _ _ takes => takes.2.1

theorem groupless_one (accepts : α → Bool) : (one accepts).Groupless :=
  fun _ _ _ _ ⟨_, _, noGroups, _⟩ => noGroups

theorem groupless_many (accepts : α → Bool) (least : Nat) (most : Option Nat) :
    (many accepts least most).Groupless := fun _ _ _ _ takes => takes.1

theorem Groupless.seq {first second : Regex α} (noFirst : first.Groupless) (noSecond : second.Groupless) :
    (seq first second).Groupless := by
  rintro before taken rest groups ⟨_, _, _, _, -, rfl, takesFirst, takesSecond⟩
  rw [noFirst _ _ _ _ takesFirst, noSecond _ _ _ _ takesSecond]
  rfl

theorem Groupless.alt {first second : Regex α} (noFirst : first.Groupless) (noSecond : second.Groupless) :
    (alt first second).Groupless :=
  fun _ _ _ _ takes => takes.elim (noFirst _ _ _ _) (noSecond _ _ _ _)

theorem groupless_word (classes : List (α → Bool)) : (word classes).Groupless := by
  induction classes with
  | nil => exact groupless_look _
  | cons accepts classes ih => exact (groupless_one accepts).seq ih

/-- One group between a head and a tail. -/
def around (head core tail : Regex α) : Regex α := seq head (seq (group core) tail)

/-- What the only group took. -/
def firstGroup (pattern : Regex α) (text : List α) : Option (List α) := (pattern.captures text).bind List.head?

section Around

variable {head core strict tail : Regex α} {before : Option α} {text taken rest inner : List α}
  {groups : List (List α)} (noHead : head.Groupless) (noCore : core.Groupless) (noTail : tail.Groupless)
include noHead noCore noTail

theorem takes_around : (around head core tail).Takes before taken rest groups ↔
    ∃ front inner back, taken = front ++ (inner ++ back) ∧ groups = [inner] ∧
      head.Takes before front (inner ++ (back ++ rest)) [] ∧
      core.Takes (after before front) inner (back ++ rest) [] ∧
      tail.Takes (after (after before front) inner) back rest [] := by
  constructor
  · rintro ⟨front, -, _, -, rfl, rfl, takesHead, inner, back, -, _, rfl, rfl, ⟨_, rfl, takesCore⟩, takesTail⟩
    obtain rfl := noHead _ _ _ _ takesHead
    obtain rfl := noCore _ _ _ _ takesCore
    obtain rfl := noTail _ _ _ _ takesTail
    rw [List.append_assoc] at takesHead
    exact ⟨front, inner, back, rfl, rfl, takesHead, takesCore, takesTail⟩
  · rintro ⟨front, inner, back, rfl, rfl, takesHead, takesCore, takesTail⟩
    refine ⟨front, inner ++ back, [], [inner], rfl, rfl, ?_, inner, back, [inner], [], rfl, rfl,
      ⟨[], rfl, takesCore⟩, takesTail⟩
    rwa [List.append_assoc]

theorem firstGroup_eq_none : (around head core tail).firstGroup text = none ↔
    (around head core tail).isMatch text = false := by
  rw [firstGroup, captures, isMatch]
  have spec := findFrom_spec (around head core tail) none 0 text
  rw [find]
  cases found : (around head core tail).findFrom none 0 text with
  | none => exact iff_of_true rfl rfl
  | some result =>
    rw [found] at spec
    obtain ⟨place, taken, rest, groups⟩ := result
    obtain ⟨_, -, -, takes, -⟩ := spec
    obtain ⟨_, inner, _, -, isGroups, -⟩ := (takes_around noHead noCore noTail).mp takes
    have isGroups : groups = [inner] := isGroups
    rw [isGroups]
    exact iff_of_false nofun nofun

/-- **What is captured is plain where a stricter pattern first matches at the same place**: the
stricter core takes what the core takes and is plain, and one place is plain or not for all ways to
match there. -/
theorem firstGroup_strict (plain : List α → Prop) (noStrict : strict.Groupless)
    (narrows : ∀ before taken rest, strict.Takes before taken rest [] ↔
      core.Takes before taken rest [] ∧ plain taken)
    (onePlace : ∀ before front inner back rest front' inner' back' rest',
      head.Takes before front (inner ++ (back ++ rest)) [] →
      core.Takes (after before front) inner (back ++ rest) [] →
      tail.Takes (after (after before front) inner) back rest [] →
      head.Takes before front' (inner' ++ (back' ++ rest')) [] →
      core.Takes (after before front') inner' (back' ++ rest') [] →
      tail.Takes (after (after before front') inner') back' rest' [] →
      front ++ (inner ++ (back ++ rest)) = front' ++ (inner' ++ (back' ++ rest')) →
      plain inner → plain inner')
    (captured : (around head core tail).firstGroup text = some inner) :
    (∃ before rest, core.Takes before inner rest []) ∧ (plain inner ↔
      (around head strict tail).findStart text = (around head core tail).findStart text) := by
  have spec := findFrom_spec (around head core tail) none 0 text
  obtain ⟨groups, isCaptured, isHead⟩ := Option.bind_eq_some_iff.mp captured
  obtain ⟨⟨place, taken, rest, groups'⟩, isFound, rfl⟩ := Option.map_eq_some_iff.mp isCaptured
  have found : (around head core tail).findStart text = some place := by rw [findStart, isFound]; rfl
  rw [find] at isFound
  rw [isFound] at spec
  obtain ⟨lead, isPlace, isText, takes, -⟩ := spec
  have isText : text = lead ++ (taken ++ rest) := isText
  obtain ⟨front, inner', back, isTaken, isGroups, takesHead, takesCore, takesTail⟩ :=
    (takes_around noHead noCore noTail).mp takes
  have isTaken : taken = front ++ (inner' ++ back) := isTaken
  have isGroups : groups' = [inner'] := isGroups
  subst isTaken isGroups
  obtain rfl : inner' = inner := Option.some.inj isHead
  have narrower (other : List α) (begins : (around head strict tail).Begins none text other) :
      (around head core tail).Begins none text other := by
    obtain ⟨taken', rest', groups', isText', takes'⟩ := begins
    obtain ⟨front', inner', back', rfl, rfl, takesHead', takesStrict, takesTail'⟩ :=
      (takes_around noHead noStrict noTail).mp takes'
    exact ⟨_, rest', _, isText', (takes_around noHead noCore noTail).mpr ⟨front', inner', back', rfl, rfl,
      takesHead', ((narrows _ _ _).mp takesStrict).1, takesTail'⟩⟩
  refine ⟨⟨_, _, takesCore⟩, ?_⟩
  rw [findStart_strict narrower found, show text.take place = lead by
    rw [isPlace, isText, Nat.zero_add, List.take_left]]
  constructor
  · intro isPlain
    refine ⟨_, rest, _, isText, (takes_around noHead noStrict noTail).mpr ⟨front, inner', back, rfl, rfl,
      takesHead, (narrows _ _ _).mpr ⟨takesCore, isPlain⟩, takesTail⟩⟩
  · rintro ⟨taken', rest', groups', isText', takes'⟩
    obtain ⟨front', inner'', back', rfl, rfl, takesHead', takesStrict, takesTail'⟩ :=
      (takes_around noHead noStrict noTail).mp takes'
    obtain ⟨takesCore', isPlain⟩ := (narrows _ _ _).mp takesStrict
    have same := List.append_cancel_left (isText'.symm.trans isText)
    simp only [List.append_assoc] at same
    exact onePlace _ _ _ _ _ _ _ _ _ takesHead' takesCore' takesTail' takesHead takesCore takesTail same
      isPlain

end Around

/-! ### Match after match -/

/-- The pattern that takes nothing. -/
def always : Regex α := look fun _ _ => true

/-- `?` on a pattern. -/
def maybe (pattern : Regex α) : Regex α := alt pattern always

/-- `*` on a pattern that takes something each time, for texts with at most `room` characters. -/
def star (pattern : Regex α) : Nat → Regex α
  | 0 => always
  | room + 1 => maybe (seq pattern (star pattern room))

/-- The matches one behind the other. -/
def findIterFrom (pattern : Regex α) : Nat → Option α → List α → List (List α)
  | 0, _, _ => []
  | more + 1, before, text =>
    match pattern.findFrom before 0 text with
    | none => []
    | some (start, way) =>
      way.word :: findIterFrom pattern more (after before (text.take start ++ way.word)) way.rest

/-- `Regex::find_iter` of a pattern that takes something each time. -/
def findIter (pattern : Regex α) (text : List α) : List (List α) :=
  pattern.findIterFrom (text.length + 1) none text

/-- What a match took. -/
def Took (pattern : Regex α) (taken : List α) : Prop :=
  ∃ before rest groups, pattern.Takes before taken rest groups

theorem took_of_mem_findIterFrom {pattern : Regex α} {more : Nat} {before : Option α} {text taken : List α}
    (member : taken ∈ pattern.findIterFrom more before text) : pattern.Took taken := by
  induction more generalizing before text with
  | zero => cases member
  | succ more ih =>
    have spec := findFrom_spec pattern before 0 text
    rw [findIterFrom] at member
    cases found : pattern.findFrom before 0 text with
    | none =>
      rw [found] at member
      cases member
    | some result =>
      rw [found] at member spec
      obtain ⟨front, -, -, takes, -⟩ := spec
      obtain rfl | later := List.mem_cons.mp member
      · exact ⟨_, _, _, takes⟩
      · exact ih later

theorem took_of_mem_findIter {pattern : Regex α} {text taken : List α}
    (member : taken ∈ pattern.findIter text) : pattern.Took taken := took_of_mem_findIterFrom member

/-- `Regex::find`, the text of the match. -/
def findText (pattern : Regex α) (text : List α) : Option (List α) :=
  (pattern.find text).map fun found => found.2.word

theorem took_of_findText {pattern : Regex α} {text taken : List α} (found : pattern.findText text = some taken) :
    pattern.Took taken := by
  have spec := findFrom_spec pattern none 0 text
  obtain ⟨⟨place, way⟩, isFound, rfl⟩ := Option.map_eq_some_iff.mp found
  rw [find] at isFound
  rw [isFound] at spec
  obtain ⟨front, -, -, takes, -⟩ := spec
  exact ⟨_, _, _, takes⟩

end Regex

end Bookrack
