/-
The segments of a group, and the byte positions that are looked up in them.

* `gather_spec`: the concatenation is the join of the texts with ink, the segments are where each
  of them begins.
* **`locate_segmentsFrom`**: a position inside a text is mapped to the leaf and the number of
  characters before it.
-/

import Bookrack.Base.Joined
import Bookrack.Chunk.Plan

namespace Bookrack.Chunk

open Bookrack.Joined
open String (utf8Len utf8Len_append utf8Len_eq_zero)

/-! ### Gathering -/

/-- The characters of a leaf. -/
def ChunkLeaf.chars (leaf : ChunkLeaf) : List Char := leaf.text.toList

/-- The leaves of a group that have a text. -/
def inked (group : List ChunkLeaf) : List ChunkLeaf := group.filter (·.text ≠ "")

/-- The characters of the separator. -/
def separator : List Char := groupSeparator.toList

theorem length_chars (leaf : ChunkLeaf) : leaf.chars.length = leaf.text.length :=
  String.length_toList

/-- The segments of leaves with a text, the first of them at byte `pos`. -/
def segmentsFrom (pos : Nat) : List ChunkLeaf → List Segment
  | [] => []
  | leaf :: rest =>
    leaf.segment pos :: segmentsFrom (pos + utf8Len leaf.chars + utf8Len separator) rest

/-- Once something is gathered, every text comes behind a separator. -/
theorem gather_more (group : List ChunkLeaf) : ∀ {concat : String} (segments : List Segment),
    concat ≠ "" →
      (group.foldl gatherStep (concat, segments)).1.toList =
        concat.toList ++ trail separator ChunkLeaf.chars (inked group) ∧
      (group.foldl gatherStep (concat, segments)).2 = segments ++
        segmentsFrom (utf8Len concat.toList + utf8Len separator) (inked group) := by
  induction group with
  | nil => exact fun _ _ => ⟨(List.append_nil _).symm, (List.append_nil _).symm⟩
  | cons leaf group ih =>
    intro concat segments some
    rw [List.foldl_cons]
    by_cases isEmpty : leaf.text = ""
    · have step : gatherStep (concat, segments) leaf = (concat, segments) := if_pos isEmpty
      have skip : inked (leaf :: group) = inked group := List.filter_cons_of_neg (by simp [isEmpty])
      rw [step, skip]
      exact ih segments some
    · have keep : inked (leaf :: group) = leaf :: inked group :=
        List.filter_cons_of_pos (by simp [isEmpty])
      have step : gatherStep (concat, segments) leaf = (concat ++ groupSeparator ++ leaf.text,
          segments ++ [leaf.segment (concat ++ groupSeparator).utf8ByteSize]) := by
        rw [gatherStep, if_neg isEmpty, if_neg some]
      have more : concat ++ groupSeparator ++ leaf.text ≠ "" := by
        rw [Ne, String.append_eq_empty_iff]
        exact fun both => isEmpty both.2
      rw [step, keep]
      obtain ⟨isConcat, isSegments⟩ := ih _ more
      refine ⟨?_, ?_⟩
      · rw [isConcat]
        simp only [String.toList_append, trail, List.flatMap_cons, List.append_assoc]
        rfl
      · have lead : (concat ++ groupSeparator).utf8ByteSize =
            utf8Len concat.toList + utf8Len separator := by
          rw [utf8ByteSize_eq, String.toList_append, utf8Len_append]
          rfl
        rw [isSegments, segmentsFrom, String.toList_append, utf8Len_append, ← utf8ByteSize_eq, lead,
          List.append_assoc, List.singleton_append]
        rfl

/-- **The concatenation joins the texts, the segments say where each begins.** -/
theorem gather_spec (group : List ChunkLeaf) :
    (gather group).1.toList = separator.intercalate ((inked group).map ChunkLeaf.chars) ∧
      (gather group).2 = segmentsFrom 0 (inked group) := by
  unfold gather
  induction group with
  | nil => exact ⟨rfl, rfl⟩
  | cons leaf group ih =>
    rw [List.foldl_cons]
    by_cases isEmpty : leaf.text = ""
    · have step : gatherStep ("", []) leaf = ("", []) := if_pos isEmpty
      have skip : inked (leaf :: group) = inked group := List.filter_cons_of_neg (by simp [isEmpty])
      rw [step, skip]
      exact ih
    · have keep : inked (leaf :: group) = leaf :: inked group :=
        List.filter_cons_of_pos (by simp [isEmpty])
      have step : gatherStep ("", []) leaf =
          (leaf.text, [leaf.segment 0]) := by
        rw [gatherStep, if_neg isEmpty]
        simp
      obtain ⟨isConcat, isSegments⟩ := gather_more group [leaf.segment 0] isEmpty
      rw [step, keep, intercalate_cons, isConcat, isSegments, segmentsFrom, Nat.zero_add]
      exact ⟨rfl, rfl⟩

/-! ### Locating -/

/-- A position that is not before the segment: inside, or further on. -/
theorem locateFrom_segment {segments rest : List Segment} {bytePos pos : Nat} (snap : Snap)
    (prev : Option Segment) (leaf : ChunkLeaf) (reached : pos ≤ bytePos) :
    locateFrom segments bytePos snap prev (leaf.segment pos :: rest) =
      if snap.within bytePos (pos + utf8Len leaf.chars) then
        (sliceTo leaf.text (bytePos - pos)).map fun part => (leaf.nodeId, asI32 part.length)
      else locateFrom segments bytePos snap (some (leaf.segment pos)) rest := by
  have notBefore : ¬bytePos < (leaf.segment pos).byteStart := not_lt.mpr reached
  rw [locateFrom, if_neg notBefore, ChunkLeaf.chars, ← utf8ByteSize_eq]
  rfl

/-- A position in one text lies in its segment and in no earlier one. -/
theorem locateFrom_segmentsFrom {segments : List Segment} {snap : Snap} {leaf : ChunkLeaf}
    {back : List ChunkLeaf} {head rest : List Char} (isText : leaf.chars = head ++ rest)
    (inside : snap = .start → rest ≠ []) : ∀ {front : List ChunkLeaf} {pos : Nat}
      {prev : Option Segment},
      locateFrom segments (pos + utf8Len (lead separator ChunkLeaf.chars front ++ head)) snap prev
        (segmentsFrom pos (front ++ leaf :: back)) = some (leaf.nodeId, asI32 head.length) := by
  intro front
  induction front with
  | nil =>
    intro pos prev
    have within : snap.within (pos + utf8Len head) (pos + utf8Len leaf.chars) = true := by
      rw [isText, utf8Len_append]
      cases snap with
      | start =>
        have some : utf8Len rest ≠ 0 := fun none => inside rfl (utf8Len_eq_zero.mp none)
        exact decide_eq_true (by omega)
      | stop => exact decide_eq_true (by omega)
    rw [List.nil_append, segmentsFrom, lead, List.flatMap_nil, List.nil_append,
      locateFrom_segment snap prev leaf (Nat.le_add_right _ _), if_pos within,
      Nat.add_sub_cancel_left, sliceTo_utf8Len isText, Option.map_some, String.length_ofList]
  | cons earlier front ih =>
    intro pos prev
    have gap : utf8Len separator = 2 := by decide
    have split : pos + utf8Len (lead separator ChunkLeaf.chars (earlier :: front) ++ head) =
        pos + utf8Len earlier.chars + utf8Len separator +
          utf8Len (lead separator ChunkLeaf.chars front ++ head) := by
      rw [lead_cons]
      simp only [utf8Len_append]
      omega
    have past : ∀ {bytePos}, pos + utf8Len earlier.chars < bytePos →
        ¬snap.within bytePos (pos + utf8Len earlier.chars) = true := by
      intro bytePos later within
      cases snap with
      | start => exact absurd (of_decide_eq_true within) (by omega)
      | stop => exact absurd (of_decide_eq_true within) (by omega)
    rw [split, List.cons_append, segmentsFrom, locateFrom_segment snap prev earlier (by omega),
      if_neg (past (by omega)), ih]

/-- **A position inside a text is mapped to its leaf and the characters before it.** -/
theorem locate_segmentsFrom {snap : Snap} {leaf : ChunkLeaf} {front back : List ChunkLeaf}
    {head rest : List Char} (isText : leaf.chars = head ++ rest)
    (inside : snap = .start → rest ≠ []) :
    locate (segmentsFrom 0 (front ++ leaf :: back))
      (utf8Len (lead separator ChunkLeaf.chars front ++ head)) snap =
        some (leaf.nodeId, asI32 head.length) := by
  rw [locate, ← Nat.zero_add (utf8Len _)]
  exact locateFrom_segmentsFrom isText inside

end Bookrack.Chunk
