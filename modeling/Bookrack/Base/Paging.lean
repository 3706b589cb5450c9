/-
Reading a list page by page: each page hands out a cursor, and the next one is asked for with it.

`Turn` is what one page owes the reader: a first part of what is left, not empty unless nothing is
left, and the position of its last item as the cursor unless it was everything. `follow_complete`:
where every page met on the way is a turn, following the cursors ends, within one page per item, and
the pages are the list.
-/

import Mathlib.Data.List.Basic
import Mathlib.Data.Int.Notation

namespace Paging

variable {α Page : Type} (items : Page → List α) (next : Page → Option Int) (position : α → Int)

/-- Read from a cursor, then from the one each page hands out, until one hands out none. -/
def follow (read : Option Int → Option Page) : Nat → Option Int → Option (List Page)
  | 0, _ => none
  | fuel + 1, cursor =>
    (read cursor).bind fun page =>
      match next page with
      | none => some [page]
      | some last => (follow read fuel (some last)).map fun pages => page :: pages

/-- The cursor behind what has been read. -/
def cursor (done : List α) : Option Int := done.getLast?.map position

/-- What a page owes when `rest` is left. -/
def Turn (rest : List α) (page : Page) : Prop :=
  ∃ left, rest = items page ++ left ∧ (left = [] → next page = none) ∧
    (left ≠ [] → items page ≠ [] ∧ next page = cursor position (items page))

/-- The pages are the list: in order, none before the last empty, and a page without a cursor is
exactly the one that completes it. -/
structure Complete (rows : List α) (pages : List Page) : Prop where
  covered : pages.flatMap items = rows
  nonempty : ∀ page ∈ pages.dropLast, items page ≠ []
  ends : ∀ before page after, pages = before ++ page :: after →
    (next page = none ↔ (before ++ [page]).flatMap items = rows)

variable {items next position} {rows rest : List α} {page : Page} {pages : List Page}

theorem cursor_append (done : List α) {last : List α} (notEmpty : last ≠ []) :
    cursor position (done ++ last) = cursor position last := by
  rw [cursor, List.getLast?_append_of_ne_nil _ notEmpty, cursor]

/-- A page that is everything. -/
theorem Complete.single (ended : next page = none) : Complete items next (items page) [page] := by
  refine ⟨by simp, by simp, fun before other after isList => ?_⟩
  obtain ⟨rfl, rfl, rfl⟩ : before = [] ∧ page = other ∧ after = [] := by
    cases before with
    | nil => simpa using isList
    | cons _ _ => simp at isList
  simp [ended]

/-- A page in front of the pages of what it left. -/
theorem Complete.cons {left : List α} (notLast : left ≠ []) (notEmpty : items page ≠ [])
    (more : next page ≠ none) (rest : Complete items next left pages) :
    Complete items next (items page ++ left) (page :: pages) := by
  have someLeft : pages ≠ [] := by
    rintro rfl
    exact notLast rest.covered.symm
  refine ⟨by simp [rest.covered], ?_, fun before other after isList => ?_⟩
  · rw [List.dropLast_cons_of_ne_nil someLeft]
    exact List.forall_mem_cons.mpr ⟨notEmpty, rest.nonempty⟩
  · cases before with
    | nil =>
      obtain ⟨rfl, rfl⟩ := List.cons.inj isList
      simp [more, notLast]
    | cons first before =>
      obtain ⟨rfl, isRest⟩ := List.cons.inj isList
      rw [rest.ends before other after isRest]
      simp

variable (position) in
/-- **Following the cursors reads the list**, with fuel for one page more than it has items. -/
theorem follow_complete {read : Option Int → Option Page}
    (turns : ∀ done rest, rows = done ++ rest → (done ≠ [] → rest ≠ []) →
      ∃ page, read (cursor position done) = some page ∧ Turn items next position rest page)
    {fuel : Nat} (enough : rows.length < fuel) :
    ∃ pages, follow next read fuel none = some pages ∧ Complete items next rows pages := by
  have from_ : ∀ fuel done rest, rows = done ++ rest → (done ≠ [] → rest ≠ []) → rest.length < fuel →
      ∃ pages, follow next read fuel (cursor position done) = some pages ∧
        Complete items next rest pages := by
    intro fuel
    induction fuel with
    | zero => exact fun _ _ _ _ enough => absurd enough (Nat.not_lt_zero _)
    | succ fuel ih =>
      intro done rest isRows more enough
      obtain ⟨page, isPage, left, rfl, ended, continued⟩ := turns done rest isRows more
      rw [follow, isPage, Option.bind_some]
      by_cases isLast : left = []
      · subst isLast
        refine ⟨[page], by simp [ended rfl], ?_⟩
        rw [List.append_nil]
        exact .single (ended rfl)
      · obtain ⟨notEmpty, isNext⟩ := continued isLast
        obtain ⟨pages, follows, complete⟩ := ih (done ++ items page) left
          (by rw [List.append_assoc, isRows]) (fun _ => isLast) (by
            have := List.length_pos_of_ne_nil notEmpty
            rw [List.length_append] at enough
            omega)
        rw [cursor_append done notEmpty] at follows
        have isSome : ∃ last, next page = some last := by
          rw [isNext, cursor, List.getLast?_eq_some_getLast notEmpty]
          exact ⟨_, rfl⟩
        obtain ⟨last, isLast'⟩ := isSome
        rw [← isNext, isLast'] at follows
        exact ⟨page :: pages, by simp [isLast', follows],
          .cons isLast notEmpty (by simp [isLast']) complete⟩
  exact from_ fuel [] rows rfl (absurd rfl) enough

end Paging
