/-
Deletion that cascades along parent references.

A table's rows have a key and may name the key of a parent row. Deleting the chosen rows deletes
their children, the children of these, and so on.

* `remove_subset` — a row that is removed has every property that the chosen rows have and that
  passes from a parent to its child.
-/

import Mathlib.Data.List.Basic

namespace Cascade

variable {α κ : Type} [DecidableEq κ] (key : α → κ) (up : α → Option κ) (table : List α)
  (chosen : α → Bool)

/-- A row is struck after so many rounds: it is chosen, or its parent was struck a round before. -/
def struck : Nat → α → Bool
  | 0, row => chosen row
  | rounds + 1, row =>
    struck rounds row ||
      table.any fun parent => decide (up row = some (key parent)) && struck rounds parent

/-- The table without the chosen rows and their descendants. -/
def remove : List α := table.filter fun row => !struck key up table chosen table.length row

variable {key up table chosen}

theorem mem_remove {row : α} : row ∈ remove key up table chosen ↔
    row ∈ table ∧ struck key up table chosen table.length row = false := by
  simp [remove, List.mem_filter]

theorem struck_succ {rounds : Nat} {row : α} :
    struck key up table chosen (rounds + 1) row = true ↔ struck key up table chosen rounds row = true ∨
      ∃ parent ∈ table, up row = some (key parent) ∧
        struck key up table chosen rounds parent = true := by
  simp only [struck, Bool.or_eq_true, List.any_eq_true, Bool.and_eq_true, decide_eq_true_iff]

theorem struck_mono {first last : Nat} (earlier : first ≤ last) {row : α}
    (isStruck : struck key up table chosen first row = true) :
    struck key up table chosen last row = true := by
  induction earlier with
  | refl => exact isStruck
  | step _ ih => exact struck_succ.mpr (.inl ih)

/-- What the chosen rows have and a parent passes to its child, every struck row has. -/
theorem struck_induction {P : α → Prop} (ofChosen : ∀ row, chosen row = true → P row)
    (ofParent : ∀ row ∈ table, ∀ parent ∈ table, up row = some (key parent) → P parent → P row)
    (rounds : Nat) : ∀ row ∈ table, struck key up table chosen rounds row = true → P row := by
  induction rounds with
  | zero => exact fun row _ isChosen => ofChosen row isChosen
  | succ rounds ih =>
    intro row isRow isStruck
    rcases struck_succ.mp isStruck with before | ⟨parent, isParent, names, before⟩
    · exact ih row isRow before
    · exact ofParent row isRow parent isParent names (ih parent isParent before)

/-- **A removed row is like the chosen ones.** -/
theorem remove_subset {P : α → Prop} (ofChosen : ∀ row, chosen row = true → P row)
    (ofParent : ∀ row ∈ table, ∀ parent ∈ table, up row = some (key parent) → P parent → P row)
    {row : α} (isRow : row ∈ table) (isGone : row ∉ remove key up table chosen) : P row := by
  refine struck_induction ofChosen ofParent table.length row isRow ?_
  by_contra spared
  exact isGone (mem_remove.mpr ⟨isRow, by simpa using spared⟩)

theorem not_chosen_of_mem_remove {row : α} (isLeft : row ∈ remove key up table chosen) :
    chosen row = false := by
  by_contra isChosen
  have isStruck : struck key up table chosen table.length row = true :=
    struck_mono (Nat.zero_le _) (by simpa [struck] using isChosen)
  rw [(mem_remove.mp isLeft).2] at isStruck
  cases isStruck

end Cascade
