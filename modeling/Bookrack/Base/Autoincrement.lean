/-
Tables whose integer key is declared AUTOINCREMENT, with the side table that remembers the keys.

* `Store`: named tables of keyed rows and the rows `(name, seq)` of the side table. An insert takes
  one more than the larger of the table's entry and its largest key; dropping a table drops its
  entry, renaming it carries the entry along.
* `Settled store name top`: the entry is `top` and no key is above it. Inserts and deletes keep it
  (`Settled.insert`, `Settled.delete`), so no key is given twice while it is kept.
-/

import Mathlib.Data.List.Basic
import Mathlib.Order.MinMax
import Mathlib.Data.Int.Order.Basic

namespace Autoincrement

/-- The largest key. -/
def maxKey : Int := 9223372036854775807

/-- Tables by name, and the side table of the largest key each has had. -/
structure Store (ρ : Type) where
  tables : String → Option (List (Int × ρ))
  sequence : List (String × Int)

/-- No table yet. -/
def Store.empty {ρ : Type} : Store ρ := ⟨fun _ => none, []⟩

/-- The largest key of some rows; keys start at 1. -/
def largest {ρ : Type} (rows : List (Int × ρ)) : Int :=
  rows.foldr (fun row top => max row.1 top) 0

/-- The entry of a table: the first row of the side table that names it. -/
def entryOf (sequence : List (String × Int)) (name : String) : Int :=
  ((sequence.find? fun entry => decide (entry.1 = name)).map Prod.snd).getD 0

/-- Updates the first row that names the table, or adds one. -/
def setEntry (name : String) (value : Int) : List (String × Int) → List (String × Int)
  | [] => [(name, value)]
  | entry :: rest =>
    if entry.1 = name then (name, value) :: rest else entry :: setEntry name value rest

namespace Store

variable {ρ : Type}

/-- The rows of a table. -/
def rows (store : Store ρ) (name : String) : List (Int × ρ) := (store.tables name).getD []

/-- The table with other rows. -/
def setRows (store : Store ρ) (name : String) (rows : Option (List (Int × ρ))) : Store ρ :=
  { store with tables := fun other => if other = name then rows else store.tables other }

/-- The largest key the table has or has had, as far as is remembered. -/
def counter (store : Store ρ) (name : String) : Int :=
  max (entryOf store.sequence name) (largest (store.rows name))

/-- `CREATE TABLE IF NOT EXISTS`. -/
def create (store : Store ρ) (name : String) : Store ρ :=
  if (store.tables name).isSome then store else store.setRows name (some [])

/-- `INSERT` without a key: the key given, unless there is no such table or no key left. -/
def insert (store : Store ρ) (name : String) (row : ρ) : Option (Int × Store ρ) :=
  match store.tables name with
  | none => none
  | some rows =>
    let key := store.counter name + 1
    if key ≤ maxKey then
      some (key,
        { store.setRows name (some (rows ++ [(key, row)])) with
          sequence := setEntry name key store.sequence })
    else none

/-- `INSERT … SELECT` with the keys given. -/
def copyInto (store : Store ρ) (name : String) (copied : List (Int × ρ)) : Store ρ :=
  { store.setRows name (some (store.rows name ++ copied)) with
    sequence := setEntry name (max (entryOf store.sequence name) (largest copied)) store.sequence }

/-- `DELETE … WHERE key = :key`. -/
def delete (store : Store ρ) (name : String) (key : Int) : Store ρ :=
  store.setRows name ((store.tables name).map fun rows => rows.filter fun row => decide (row.1 ≠ key))

/-- `DROP TABLE`. -/
def drop (store : Store ρ) (name : String) : Store ρ :=
  { store.setRows name none with
    sequence := store.sequence.filter fun entry => decide (entry.1 ≠ name) }

/-- `ALTER TABLE … RENAME TO`. -/
def rename (store : Store ρ) (name newName : String) : Store ρ :=
  { (store.setRows newName (store.tables name)).setRows name none with
    sequence := store.sequence.map fun entry => if entry.1 = name then (newName, entry.2) else entry }

/-- `INSERT OR REPLACE INTO sqlite_sequence`: the side table has no unique column, so a row is added. -/
def addEntry (store : Store ρ) (name : String) (value : Int) : Store ρ :=
  { store with sequence := store.sequence ++ [(name, value)] }

end Store

/-! ### Entries and keys -/

section Entries

variable {ρ : Type} {sequence : List (String × Int)} {name other : String} {value : Int}

@[simp] theorem entryOf_setEntry : entryOf (setEntry name value sequence) name = value := by
  induction sequence with
  | nil => simp [setEntry, entryOf]
  | cons entry rest ih =>
    rw [setEntry]
    by_cases isName : entry.1 = name
    · simp [isName, entryOf]
    · rw [if_neg isName, entryOf, List.find?_cons_of_neg (by simpa using isName)]
      exact ih

theorem entryOf_setEntry_other (isOther : other ≠ name) :
    entryOf (setEntry name value sequence) other = entryOf sequence other := by
  induction sequence with
  | nil => simp [setEntry, entryOf, isOther.symm]
  | cons entry rest ih =>
    rw [setEntry]
    by_cases isName : entry.1 = name
    · simp [isName, entryOf, isOther.symm]
    · rw [if_neg isName]
      by_cases found : entry.1 = other
      · simp [entryOf, found]
      · unfold entryOf at ih ⊢
        rw [List.find?_cons_of_neg (by simpa using found), ih,
          List.find?_cons_of_neg (by simpa using found)]

/-- A second row of the value the table has changes nothing. -/
theorem entryOf_append_same (isEntry : entryOf sequence name = value) :
    entryOf (sequence ++ [(name, value)]) name = value := by
  unfold entryOf at isEntry ⊢
  rw [List.find?_append]
  cases found : sequence.find? fun entry => decide (entry.1 = name) with
  | none => simp
  | some entry =>
    rw [found] at isEntry
    exact isEntry

theorem entryOf_append_other (isOther : other ≠ name) :
    entryOf (sequence ++ [(name, value)]) other = entryOf sequence other := by
  unfold entryOf
  rw [List.find?_append, List.find?_cons_of_neg (by simpa using isOther.symm), List.find?_nil,
    Option.or_none]

/-- A table renamed over a dropped one has its own entry. -/
theorem entryOf_renamed (sequence : List (String × Int)) (isOther : other ≠ name) :
    entryOf ((sequence.filter fun entry => decide (entry.1 ≠ name)).map fun entry =>
      if entry.1 = other then (name, entry.2) else entry) name = entryOf sequence other := by
  unfold entryOf
  induction sequence with
  | nil => rfl
  | cons entry rest ih =>
    by_cases isName : entry.1 = name
    · rw [List.filter_cons_of_neg (by simpa using isName),
        List.find?_cons_of_neg (by simpa [isName] using isOther.symm)]
      exact ih
    · rw [List.filter_cons_of_pos (by simpa using isName), List.map_cons]
      by_cases isOld : entry.1 = other
      · simp [isOld]
      · rw [if_neg isOld, List.find?_cons_of_neg (by simpa using isName),
          List.find?_cons_of_neg (by simpa using isOld)]
        exact ih

/-- No entry is left under the old name. -/
theorem entryOf_renamed_away (sequence : List (String × Int)) (isOther : other ≠ name) :
    entryOf (sequence.map fun entry => if entry.1 = other then (name, entry.2) else entry) other =
      0 := by
  rw [entryOf, List.find?_eq_none.mpr]
  · rfl
  · intro entry member
    obtain ⟨before, -, rfl⟩ := List.mem_map.mp member
    split_ifs with isOld
    · simpa using isOther.symm
    · simpa using isOld

theorem le_largest {rows : List (Int × ρ)} {row : Int × ρ} (member : row ∈ rows) :
    row.1 ≤ largest rows := by
  induction rows with
  | nil => cases member
  | cons head rest ih =>
    rw [largest, List.foldr_cons]
    rcases List.mem_cons.mp member with rfl | later
    · exact le_max_left _ _
    · exact (ih later).trans (le_max_right _ _)

theorem largest_le_iff {rows : List (Int × ρ)} {top : Int} (nonneg : 0 ≤ top) :
    largest rows ≤ top ↔ ∀ row ∈ rows, row.1 ≤ top := by
  induction rows with
  | nil => simpa [largest] using nonneg
  | cons head rest ih =>
    rw [largest, List.foldr_cons, max_le_iff, List.forall_mem_cons]
    exact and_congr_right fun _ => ih

theorem largest_nonneg (rows : List (Int × ρ)) : 0 ≤ largest rows := by
  induction rows with
  | nil => exact le_rfl
  | cons head rest ih => exact ih.trans (le_max_right _ _)

/-- The largest key is the key of a row, unless it is 0. -/
theorem largest_mem {rows : List (Int × ρ)} (positive : 0 < largest rows) :
    ∃ row ∈ rows, row.1 = largest rows := by
  induction rows with
  | nil => exact absurd positive (lt_irrefl 0)
  | cons head rest ih =>
    rw [largest, List.foldr_cons] at positive ⊢
    rcases max_choice head.1 (largest rest) with isHead | isRest
    · exact ⟨head, List.mem_cons_self, isHead.symm⟩
    · rw [show rest.foldr (fun row top => max row.1 top) 0 = largest rest from rfl, isRest] at positive ⊢
      obtain ⟨row, member, isLargest⟩ := ih positive
      exact ⟨row, List.mem_cons_of_mem _ member, isLargest⟩

end Entries

/-! ### A settled table -/

namespace Store

variable {ρ : Type} {store : Store ρ} {name : String} {top : Int}

@[simp] theorem setRows_rows (rows : Option (List (Int × ρ))) :
    (store.setRows name rows).rows name = rows.getD [] := by
  simp [Store.rows, setRows]

/-- The table's entry is `top`, no key is above it, and it is itself a possible key. -/
structure Settled (store : Store ρ) (name : String) (top : Int) : Prop where
  entry : entryOf store.sequence name = top
  below : ∀ row ∈ store.rows name, row.1 ≤ top
  nonneg : 0 ≤ top
  inside : top ≤ maxKey

namespace Settled

theorem counter (settled : Settled store name top) : store.counter name = top := by
  rw [Store.counter, settled.entry]
  exact max_eq_left ((largest_le_iff settled.nonneg).mpr settled.below)

/-- An insert into a settled table gives the next key and leaves the table settled there. -/
theorem insert (settled : Settled store name top) {row : ρ} {key : Int} {after : Store ρ}
    (inserts : store.insert name row = some (key, after)) :
    key = top + 1 ∧ Settled after name key ∧
      after.rows name = store.rows name ++ [(key, row)] := by
  unfold Store.insert at inserts
  split at inserts
  · cases inserts
  · rename_i rows isTable
    dsimp only at inserts
    split_ifs at inserts with fits
    obtain ⟨rfl, rfl⟩ := Prod.mk.inj (Option.some.inj inserts)
    rw [settled.counter] at fits ⊢
    have nonneg := settled.nonneg
    have isRows : store.rows name = rows := by rw [Store.rows, isTable]; rfl
    have isAfter : Store.rows
        { store.setRows name (some (rows ++ [(top + 1, row)])) with
          sequence := setEntry name (top + 1) store.sequence } name = rows ++ [(top + 1, row)] :=
      setRows_rows _
    refine ⟨rfl, ⟨entryOf_setEntry, ?_, by omega, fits⟩, by rw [isAfter, isRows]⟩
    intro other member
    rw [isAfter] at member
    rcases List.mem_append.mp member with before | isNew
    · have := settled.below other (isRows ▸ before)
      omega
    · rw [List.mem_singleton.mp isNew]

theorem delete (settled : Settled store name top) (key : Int) :
    Settled (store.delete name key) name top := by
  refine ⟨settled.entry, fun row member => ?_, settled.nonneg, settled.inside⟩
  rw [Store.delete, setRows_rows] at member
  cases isTable : store.tables name with
  | none =>
    rw [isTable] at member
    cases member
  | some rows =>
    rw [isTable] at member
    refine settled.below row ?_
    rw [Store.rows, isTable]
    exact List.mem_of_mem_filter member

/-- A table with a key left takes a row. -/
theorem insert_isSome (settled : Settled store name top) (isTable : (store.tables name).isSome = true)
    (fits : top + 1 ≤ maxKey) (row : ρ) : (store.insert name row).isSome = true := by
  obtain ⟨rows, isRows⟩ := Option.isSome_iff_exists.mp isTable
  unfold Store.insert
  rw [isRows]
  dsimp only
  rw [settled.counter, if_pos fits]
  rfl

end Settled

end Store

end Autoincrement
