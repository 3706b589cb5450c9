/-
The nearest rows of a collection: `Nearest le k rows hits` says that `hits` are `k` of the rows, or all
where there are fewer, listed in order, and that no row left out comes before one of them.

* **`Nearest.merge`** — the nearest rows of two collections, sorted together and cut, are those of the
  two put together.
-/

import Mathlib.Data.List.Sort
import Mathlib.Order.Defs.Unbundled

namespace Bookrack

variable {α : Type*} {le : α → α → Prop}

/-- The `k` nearest rows, nearest first; rows equally near come in any order. -/
structure Nearest (le : α → α → Prop) (k : Nat) (rows hits : List α) : Prop where
  ordered : hits.Pairwise le
  length_eq : hits.length = min k rows.length
  chosen : ∃ left, rows.Perm (hits ++ left) ∧ ∀ hit ∈ hits, ∀ row ∈ left, le hit row

namespace Nearest

variable {k : Nat} {rows rows' hits hits' left : List α}

/-- A list in order splits into what comes first and what comes no earlier. -/
theorem take_le_drop (ordered : rows.Pairwise le) :
    ∀ hit ∈ rows.take k, ∀ row ∈ rows.drop k, le hit row := by
  rw [← List.take_append_drop k rows, List.pairwise_append] at ordered
  exact ordered.2.2

/-- Labelled rows are as near as the rows. -/
theorem map {β : Type*} {le' : β → β → Prop} (near : Nearest le k rows hits) (label : α → β)
    (keeps : ∀ one other, le one other → le' (label one) (label other)) :
    Nearest le' k (rows.map label) (hits.map label) where
  ordered := near.ordered.map label keeps
  length_eq := by rw [List.length_map, List.length_map, near.length_eq]
  chosen := by
    obtain ⟨left, perm, before⟩ := near.chosen
    refine ⟨left.map label, ?_, ?_⟩
    · rw [← List.map_append]
      exact perm.map label
    · intro hit isHit row isLeft
      obtain ⟨one, isOne, rfl⟩ := List.mem_map.mp isHit
      obtain ⟨other, isOther, rfl⟩ := List.mem_map.mp isLeft
      exact keeps one other (before one isOne other isOther)

/-- Where `k` listed rows come no later than a row, neither do the first `k` of the list. -/
theorem take_le [IsTrans α le] {row : α} (ordered : rows.Pairwise le) (listed : hits.Subperm rows)
    (enough : k ≤ hits.length) (before : ∀ hit ∈ hits, le hit row) :
    ∀ hit ∈ rows.take k, le hit row := by
  classical
  intro hit isHit
  by_cases cut : ∃ other ∈ hits, other ∈ rows.drop k
  · obtain ⟨other, isOther, isCut⟩ := cut
    exact IsTrans.trans _ _ _ (take_le_drop ordered hit isHit other isCut) (before other isOther)
  · -- All of `hits` are among the first `k`, so they are the first `k`.
    have within : hits.Subperm (rows.take k) := by
      rw [List.subperm_ext_iff]
      intro other isOther
      have counted := listed.count_le other
      have none : (rows.drop k).count other = 0 :=
        List.count_eq_zero.mpr fun isCut => cut ⟨other, isOther, isCut⟩
      rw [← List.take_append_drop k rows, List.count_append, none] at counted
      exact counted
    have short : (rows.take k).length ≤ hits.length := (List.length_take_le _ _).trans enough
    exact before hit ((within.perm_of_length_le short).mem_iff.mpr isHit)

/-- Where a row was left out, there are `k` hits. -/
theorem full (near : Nearest le k rows hits) {row : α} (perm : rows.Perm (hits ++ left))
    (isLeft : row ∈ left) : k ≤ hits.length := by
  have total := perm.length_eq
  have some := List.length_pos_of_mem isLeft
  rw [List.length_append] at total
  have length_eq := near.length_eq
  omega

/-- **The nearest rows of the union** are among the nearest rows of its parts. -/
theorem merge [DecidableRel le] [Std.Total le] [IsTrans α le] (near : Nearest le k rows hits)
    (near' : Nearest le k rows' hits') :
    Nearest le k (rows ++ rows') (((hits ++ hits').insertionSort le).take k) where
  ordered := (List.pairwise_insertionSort le _).sublist (List.take_sublist _ _)
  length_eq := by
    rw [List.length_take, List.length_insertionSort, List.length_append, List.length_append,
      near.length_eq, near'.length_eq]
    omega
  chosen := by
    obtain ⟨left, perm, before⟩ := near.chosen
    obtain ⟨left', perm', before'⟩ := near'.chosen
    have ordered := List.pairwise_insertionSort le (hits ++ hits')
    have sorted := List.perm_insertionSort le (hits ++ hits')
    refine ⟨((hits ++ hits').insertionSort le).drop k ++ (left ++ left'), ?_, ?_⟩
    · rw [← List.append_assoc, List.take_append_drop]
      refine (perm.append perm').trans (List.Perm.trans ?_ (sorted.symm.append_right _))
      rw [List.append_assoc, List.append_assoc]
      refine List.Perm.append_left hits ?_
      rw [← List.append_assoc, ← List.append_assoc]
      exact List.perm_append_comm.append_right left'
    · intro hit isHit row isLeft
      rcases List.mem_append.mp isLeft with isCut | isLeft
      · exact take_le_drop ordered hit isHit row isCut
      · rcases List.mem_append.mp isLeft with isLeft | isLeft
        · exact take_le ordered ((List.sublist_append_left _ _).subperm.trans sorted.symm.subperm)
            (near.full perm isLeft) (fun other isOther => before other isOther row isLeft) hit isHit
        · exact take_le ordered ((List.sublist_append_right _ _).subperm.trans sorted.symm.subperm)
            (near'.full perm' isLeft) (fun other isOther => before' other isOther row isLeft) hit isHit

end Nearest

end Bookrack
