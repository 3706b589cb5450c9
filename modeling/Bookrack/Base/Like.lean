/-
The `LIKE … ESCAPE` operator: `%` stands for any text, `_` for one character, the escape character
takes the next one literally, and letters are compared without regard to ASCII case. Texts and patterns
hold no U+0000, where an implementation over C strings stops reading.

`like_contains`: a pattern of the form `%` needle `%`, with the needle's metacharacters escaped,
matches exactly the texts that contain the needle.
-/

import Mathlib.Data.List.Infix

namespace Like

/-- One piece of a pattern. An escape character at the end matches nothing. -/
inductive Piece
  | any
  | one
  | char (c : Char)
  | never
  deriving DecidableEq, Repr

/-- An unescaped character of a pattern. -/
def piece (c : Char) : Piece := if c = '%' then .any else if c = '_' then .one else .char c

/-- The pieces of a pattern. -/
def pieces (escape : Char) : List Char → List Piece
  | [] => []
  | [c] => if c = escape then [.never] else [piece c]
  | c :: d :: rest =>
    if c = escape then .char d :: pieces escape rest else piece c :: pieces escape (d :: rest)

/-- The pieces cover the text. -/
def covers : List Piece → List Char → Bool
  | [], text => text.isEmpty
  | .any :: rest, text => text.tails.any (covers rest)
  | .one :: rest, _ :: text => covers rest text
  | .char a :: rest, c :: text => a.toLower == c.toLower && covers rest text
  | _, _ => false

/-- `text LIKE pattern ESCAPE escape`. -/
def like (escape : Char) (pattern text : List Char) : Bool := covers (pieces escape pattern) text

/-- A needle with the metacharacters and the escape character escaped. -/
def escaped (escape : Char) (needle : List Char) : List Char :=
  needle.flatMap fun c => if c = '%' ∨ c = '_' ∨ c = escape then [escape, c] else [c]

/-- The text contains the needle, but for the case of ASCII letters. -/
def Contains (needle text : List Char) : Prop :=
  ∃ before middle after, text = before ++ middle ++ after ∧
    middle.map Char.toLower = needle.map Char.toLower

section Patterns

variable {escape c : Char} {rest : List Piece} {needle text tail : List Char}

theorem pieces_cons (isOther : ¬c = escape) :
    pieces escape (c :: tail) = piece c :: pieces escape tail := by
  cases tail with
  | nil => simp only [pieces, if_neg isOther]
  | cons d tail => rw [pieces, if_neg isOther]

theorem pieces_escape : pieces escape (escape :: c :: tail) = .char c :: pieces escape tail := by
  rw [pieces, if_pos rfl]

/-- An escaped needle stands for itself. -/
theorem pieces_escaped :
    pieces escape (escaped escape needle ++ tail) = needle.map .char ++ pieces escape tail := by
  induction needle with
  | nil => rfl
  | cons c needle ih =>
    rw [escaped, List.flatMap_cons, ← escaped, List.append_assoc]
    by_cases isMeta : c = '%' ∨ c = '_' ∨ c = escape
    · rw [if_pos isMeta, List.cons_append, List.singleton_append, pieces_escape, ih]
      rfl
    · have isPlain : piece c = .char c := by
        unfold piece
        rw [if_neg fun isAny => isMeta (.inl isAny), if_neg fun isOne => isMeta (.inr (.inl isOne))]
      rw [if_neg isMeta, List.singleton_append, pieces_cons fun isEscape => isMeta (.inr (.inr isEscape)),
        ih, isPlain]
      rfl

theorem covers_any :
    covers (.any :: rest) text = true ↔ ∃ before after, text = before ++ after ∧ covers rest after = true := by
  rw [covers, List.any_eq_true]
  constructor
  · rintro ⟨after, isTail, covered⟩
    obtain ⟨before, isText⟩ := (List.mem_tails _ _).mp isTail
    exact ⟨before, after, isText.symm, covered⟩
  · rintro ⟨before, after, rfl, covered⟩
    exact ⟨after, (List.mem_tails _ _).mpr (List.suffix_append before after), covered⟩

theorem covers_chars :
    covers (needle.map .char ++ rest) text = true ↔ ∃ middle after, text = middle ++ after ∧
      middle.map Char.toLower = needle.map Char.toLower ∧ covers rest after = true := by
  induction needle generalizing text with
  | nil =>
    constructor
    · exact fun covered => ⟨[], text, rfl, rfl, covered⟩
    · rintro ⟨middle, after, rfl, isNil, covered⟩
      rw [List.map_nil, List.map_eq_nil_iff] at isNil
      rwa [isNil]
  | cons a needle ih =>
    cases text with
    | nil =>
      refine ⟨fun covered => (by cases covered), ?_⟩
      rintro ⟨middle, after, isNil, sameLower, -⟩
      obtain ⟨rfl, -⟩ := List.append_eq_nil_iff.mp isNil.symm
      cases sameLower
    | cons c text =>
      rw [List.map_cons, List.cons_append, covers, Bool.and_eq_true, beq_iff_eq, ih]
      constructor
      · rintro ⟨same, middle, after, rfl, sameLower, covered⟩
        exact ⟨c :: middle, after, rfl, by rw [List.map_cons, sameLower, List.map_cons, same], covered⟩
      · rintro ⟨middle, after, isText, sameLower, covered⟩
        cases middle with
        | nil => cases sameLower
        | cons first middle =>
          obtain ⟨rfl, rfl⟩ := List.cons.inj isText
          obtain ⟨same, sameLower⟩ := List.cons.inj sameLower
          exact ⟨same.symm, middle, after, rfl, sameLower, covered⟩

/-- **Substring search through `LIKE`** is literal and ignores ASCII case. -/
theorem like_contains (notAny : ¬ '%' = escape) :
    like escape ('%' :: escaped escape needle ++ ['%']) text = true ↔ Contains needle text := by
  have isPattern : pieces escape ('%' :: escaped escape needle ++ ['%']) =
      .any :: (needle.map .char ++ [.any]) := by
    rw [List.cons_append, pieces_cons notAny, pieces_escaped, pieces_cons notAny]
    rfl
  have anyAfter : ∀ after : List Char, covers [.any] after = true := by
    intro after
    rw [covers_any]
    exact ⟨after, [], (List.append_nil after).symm, rfl⟩
  rw [like, isPattern, covers_any]
  constructor
  · rintro ⟨before, later, rfl, covered⟩
    obtain ⟨middle, after, rfl, sameLower, -⟩ := covers_chars.mp covered
    exact ⟨before, middle, after, (List.append_assoc ..).symm, sameLower⟩
  · rintro ⟨before, middle, after, rfl, sameLower⟩
    exact ⟨before, middle ++ after, List.append_assoc .., covers_chars.mpr
      ⟨middle, after, rfl, sameLower, anyAfter after⟩⟩

end Patterns

end Like
