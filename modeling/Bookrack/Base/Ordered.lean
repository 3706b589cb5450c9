/-
Maps kept in the order of their names, as lists of pairs.

* `lookup_insert` — what is put under a name is found there, and the other names keep what they have.
* `lookup_ofList` — of pairs under one name the last one counts.
-/

import Mathlib.Data.List.Basic
import Mathlib.Order.Lattice

namespace Ordered

variable {κ β : Type} [LinearOrder κ]

/-- `BTreeMap::insert`. -/
def insert (name : κ) (value : β) : List (κ × β) → List (κ × β)
  | [] => [(name, value)]
  | pair :: rest =>
    if name = pair.1 then (name, value) :: rest
    else if name < pair.1 then (name, value) :: pair :: rest
    else pair :: insert name value rest

/-- `collect::<BTreeMap<_, _>>()`. -/
def ofList (pairs : List (κ × β)) : List (κ × β) :=
  pairs.foldl (fun map pair => insert pair.1 pair.2 map) []

variable {name other : κ} {value : β} {map : List (κ × β)}

theorem lookup_first : ((name, value) :: map).lookup other = if other = name then some value else map.lookup
    other := by
  rw [List.lookup_cons]
  by_cases same : other = name
  · rw [if_pos same, beq_iff_eq.mpr same]
  · rw [if_neg same, beq_false_of_ne same]

theorem insert_cons {known : κ} {old : β} : insert name value ((known, old) :: map) =
    if name = known then (name, value) :: map
    else if name < known then (name, value) :: (known, old) :: map
    else (known, old) :: insert name value map := rfl

theorem lookup_insert :
    (insert name value map).lookup other = if other = name then some value else map.lookup other := by
  induction map with
  | nil => exact lookup_first
  | cons pair rest ih =>
    obtain ⟨known, old⟩ := pair
    rw [insert_cons]
    by_cases here : name = known
    · rw [if_pos here, lookup_first, lookup_first, here]
      by_cases same : other = known
      · rw [if_pos same, if_pos same]
      · rw [if_neg same, if_neg same, if_neg same]
    · rw [if_neg here]
      by_cases before : name < known
      · rw [if_pos before, lookup_first]
      · rw [if_neg before, lookup_first, lookup_first, ih]
        by_cases there : other = known
        · rw [if_pos there, if_pos there, if_neg fun same => here (same.symm.trans there)]
        · rw [if_neg there, if_neg there]

/-- **The last pair under a name counts.** -/
theorem lookup_ofList (pairs : List (κ × β)) : (ofList pairs).lookup name = pairs.reverse.lookup name := by
  have grown : ∀ map : List (κ × β), (pairs.foldl (fun map pair => insert pair.1 pair.2 map) map).lookup name =
      (pairs.reverse.lookup name).or (map.lookup name) := by
    induction pairs with
    | nil => exact fun _ => rfl
    | cons pair rest ih =>
      intro map
      rw [List.foldl_cons, ih, lookup_insert, List.reverse_cons, List.lookup_append, Option.or_assoc,
        lookup_first]
      congr 1
      by_cases same : name = pair.1
      · rw [if_pos same, if_pos same]
        rfl
      · rw [if_neg same, if_neg same]
        rfl
  exact (grown []).trans (Option.or_none ..)

/-- A name is in a map exactly when it is found there. -/
theorem mem_names_iff : name ∈ map.map Prod.fst ↔ (map.lookup name).isSome := by
  induction map with
  | nil => simp
  | cons pair rest ih =>
    rw [List.map_cons, List.mem_cons, ih, lookup_first]
    by_cases same : name = pair.1
    · simp [same]
    · simp [same]

/-- A name is looked up among the pairs made of rows. -/
theorem lookup_pairs {α : Type} (f : α → κ) (g : α → β) (rows : List α) :
    (rows.map fun row => (f row, g row)).lookup name = (rows.find? fun row => f row = name).map g := by
  induction rows with
  | nil => rfl
  | cons row rest ih =>
    rw [List.map_cons, lookup_first, ih]
    by_cases same : name = f row
    · rw [if_pos same, List.find?_cons_of_pos (by simpa using same.symm)]
      rfl
    · rw [if_neg same, List.find?_cons_of_neg (by simpa using Ne.symm same)]

end Ordered
