/-
Pairing the two languages of a sheet and taking the pairs apart again: `PairBilingualEntries::run`
(`distill/src/segment.rs`), `split_headline_only` (`distill/src/splitter.rs`) and `UnpackPairedBody::run`
(`distill/src/extractor.rs`).

* `pairBilingualEntries_places` — the stage renders the places of its entries.
* `placements_perm` — with two languages each entry has one place.
* **`placements_mates`** — two entries share a place only as mates.
-/

import Bookrack.Base.Json
import Bookrack.Base.Occurrence
import Bookrack.Distill.Segment
import Mathlib.Data.List.SplitBy

namespace Bookrack.Distill

/-! ### The pairing stage -/

/-- `PairBilingualEntries`. -/
structure PairRule where
  primaryLang : String
  secondaryLang : String
  mergeKey : String
  deriving DecidableEq, Repr

/-- The marker between the primary body and the secondary anchor. -/
def headMarker (mergeKey : String) : List Char := "<<<".toList ++ mergeKey.toList ++ "_head>>>".toList

/-- The marker between the secondary anchor and the secondary body. -/
def bodyMarker (mergeKey : String) : List Char := "<<<".toList ++ mergeKey.toList ++ "_body>>>".toList

/-- `body.join(" ")`. -/
def joinedBody (entry : RawEntry) : List Char := [' '].intercalate (entry.body.map String.toList)

/-- `is_lang`. -/
def isLang (lang : String) (entry : RawEntry) : Bool := entry.lang == some lang

/-- `emit_solo`. -/
def RawEntry.solo (entry : RawEntry) : RawEntry :=
  { entry with
    qualityFlags :=
      if entry.qualityFlags.any (· == "pair_mismatch") then entry.qualityFlags
      else entry.qualityFlags ++ ["pair_mismatch"] }

/-- `merged_body`. -/
def mergedBody (mergeKey : String) (a b : RawEntry) : List Char :=
  joinedBody a ++ (headMarker mergeKey ++ (b.anchor.toList ++ (bodyMarker mergeKey ++ joinedBody b)))

/-- The entry two paired entries become. -/
def mergePair (mergeKey : String) (a b : RawEntry) : RawEntry :=
  { a with body := [String.ofList (mergedBody mergeKey a b)] }

/-- Entries of one page and sheet. -/
def sameSheet (one other : RawEntry) : Bool := one.page == other.page && one.sheet == other.sheet

/-- What one sheet becomes, and how many of its entries stay alone. -/
def pairSheet (rule : PairRule) (group : List RawEntry) : List RawEntry × Nat :=
  let primaries := group.filter (isLang rule.primaryLang)
  let secondaries := group.filter (isLang rule.secondaryLang)
  if primaries.isEmpty ∨ primaries.length ≠ secondaries.length then
    (group.map RawEntry.solo, group.length)
  else
    let others := group.filter fun entry =>
      !isLang rule.primaryLang entry && !isLang rule.secondaryLang entry
    (List.zipWith (mergePair rule.mergeKey) primaries secondaries ++ others.map RawEntry.solo,
      others.length)

/-- `PairBilingualEntries::run`: the entries, and `coverage.pair_mismatch`. -/
def pairBilingualEntries (rule : PairRule) (raws : List RawEntry) : List RawEntry × Nat :=
  (raws.splitBy sameSheet).foldl
    (fun state group =>
      (state.1 ++ (pairSheet rule group).1, state.2 + (pairSheet rule group).2)) ([], 0)

/-! ### The unpacking stage -/

/-- `SplitEntry`. -/
structure SplitEntry where
  page : Nat
  sheet : Nat
  headword : String
  body : String
  lang : Option String
  payload : List (String × Json)
  qualityFlags : List String

/-- `split_headline_only`. -/
def splitHeadlineOnly (raw : RawEntry) : SplitEntry where
  page := raw.page
  sheet := raw.sheet
  headword := raw.anchor
  body := String.ofList (Normalize.trim (joinedBody raw))
  lang := raw.lang
  payload := []
  qualityFlags := raw.qualityFlags

/-- `UnpackPairedBody`. -/
structure UnpackRule where
  headMarker : List Char
  bodyMarker : List Char
  headTo : String
  bodyTo : String
  originalTo : String

/-- The three texts between the markers. -/
def unpackBody (headMarker bodyMarker body : List Char) : Option (List Char × List Char × List Char) :=
  match Occurrence.find headMarker body, Occurrence.find bodyMarker body with
  | some headStart, some bodyStart =>
    if headStart + headMarker.length ≤ bodyStart then
      some (Normalize.trim (body.take headStart),
        Normalize.trim ((body.take bodyStart).drop (headStart + headMarker.length)),
        Normalize.trim (body.drop (bodyStart + bodyMarker.length)))
    else none
  | _, _ => none

/-- A text as a value of the payload. -/
def textValue (text : List Char) : Json := .str (String.ofList text)

/-- `UnpackPairedBody::run`, on one entry. -/
def unpackPairedBody (rule : UnpackRule) (split : SplitEntry) : SplitEntry :=
  match unpackBody rule.headMarker rule.bodyMarker split.body.toList with
  | some (original, head, body) =>
    { split with
      payload := Json.put rule.bodyTo (textValue body) (Json.put rule.headTo (textValue head)
        (Json.put rule.originalTo (textValue original) split.payload))
      body := String.ofList original }
  | none =>
    let unpaired := Normalize.trim split.body.toList
    if unpaired.isEmpty then split
    else { split with payload := Json.put rule.originalTo (textValue unpaired) split.payload }

/-! ### Where the entries go -/

/-- The place an entry goes to: half of a pair, or alone. -/
inductive Placement (α : Type)
  | pair (primary secondary : α)
  | solo (entry : α)

namespace Placement

variable {α β : Type}

/-- The entries at a place. -/
def sources : Placement α → List α
  | .pair primary secondary => [primary, secondary]
  | .solo entry => [entry]

def isSolo : Placement α → Bool
  | .pair _ _ => false
  | .solo _ => true

/-- The entry that comes out. -/
def render (mergeKey : String) (entry : α → RawEntry) : Placement α → RawEntry
  | .pair primary secondary => mergePair mergeKey (entry primary) (entry secondary)
  | .solo alone => (entry alone).solo

end Placement

section Place

variable {α : Type} (rule : PairRule) (entry : α → RawEntry)

/-- The entries of a language. -/
def ofLang (lang : String) (group : List α) : List α := group.filter fun row => isLang lang (entry row)

/-- The entries of neither language. -/
def ofNeither (group : List α) : List α :=
  group.filter fun row =>
    !isLang rule.primaryLang (entry row) && !isLang rule.secondaryLang (entry row)

/-- The places of one sheet. -/
def placeSheet (group : List α) : List (Placement α) :=
  let primaries := ofLang entry rule.primaryLang group
  let secondaries := ofLang entry rule.secondaryLang group
  if primaries.isEmpty ∨ primaries.length ≠ secondaries.length then group.map Placement.solo
  else List.zipWith Placement.pair primaries secondaries ++
    (ofNeither rule entry group).map Placement.solo

/-- The sheets of labelled entries. -/
def sheets (rows : List α) : List (List α) :=
  rows.splitBy fun one other => sameSheet (entry one) (entry other)

/-- The places of all entries. -/
def placements (rows : List α) : List (Placement α) := (sheets entry rows).flatMap (placeSheet rule entry)

/-- What the sheets are: the entries in order, cut where the page or the sheet changes and only there. -/
theorem sheets_spec (rows : List α) : rows = (sheets entry rows).flatten ∧ [] ∉ sheets entry rows ∧
    (∀ group ∈ sheets entry rows,
      group.IsChain fun one other => sameSheet (entry one) (entry other) = true) ∧
    (sheets entry rows).IsChain fun one other => ∃ some some',
      sameSheet (entry (one.getLast some)) (entry (other.head some')) = false :=
  List.splitBy_eq_iff.mp rfl

/-- The sheets of labelled entries are the sheets of the entries. -/
theorem sheets_map (rows : List α) :
    (rows.map entry).splitBy sameSheet = (sheets entry rows).map (List.map entry) := by
  obtain ⟨isFlat, noEmpty, chained, apart⟩ := sheets_spec entry rows
  rw [List.splitBy_eq_iff]
  refine ⟨?_, ?_, ?_, ?_⟩
  · conv_lhs => rw [isFlat]
    rw [List.map_flatten]
  · intro member
    obtain ⟨group, isGroup, empty⟩ := List.mem_map.mp member
    rw [List.map_eq_nil_iff] at empty
    exact noEmpty (empty ▸ isGroup)
  · intro group member
    obtain ⟨labelled, isGroup, rfl⟩ := List.mem_map.mp member
    rw [List.isChain_map]
    exact chained labelled isGroup
  · rw [List.isChain_map]
    refine apart.imp fun one other => ?_
    rintro ⟨some, some', differ⟩
    refine ⟨by simpa using some, by simpa using some', ?_⟩
    rw [List.getLast_map, List.head_map]
    exact differ

theorem filter_map_comm (p : RawEntry → Bool) (group : List α) :
    (group.map entry).filter p = (group.filter fun row => p (entry row)).map entry := by
  rw [List.filter_map]
  rfl

theorem countP_pairs (primaries secondaries : List α) :
    (List.zipWith Placement.pair primaries secondaries).countP Placement.isSolo = 0 := by
  rw [List.countP_eq_zero]
  intro placement member
  rw [← List.map_uncurry_zip_eq_zipWith] at member
  obtain ⟨both, -, rfl⟩ := List.mem_map.mp member
  exact Bool.false_ne_true

theorem countP_solos (group : List α) : (group.map Placement.solo).countP Placement.isSolo = group.length := by
  rw [List.countP_map, List.countP_eq_length]
  exact fun _ _ => rfl

/-- **One sheet renders its places.** -/
theorem pairSheet_places (group : List α) :
    pairSheet rule (group.map entry) =
      ((placeSheet rule entry group).map (Placement.render rule.mergeKey entry),
        (placeSheet rule entry group).countP Placement.isSolo) := by
  unfold pairSheet placeSheet ofLang ofNeither
  simp only [filter_map_comm, List.length_map, List.isEmpty_map]
  split_ifs with uneven
  · rw [countP_solos, List.map_map, List.map_map]
    rfl
  · rw [List.map_append, List.map_zipWith, List.zipWith_map, List.countP_append, countP_pairs,
      countP_solos, Nat.zero_add, List.map_map, List.map_map]
    rfl

/-- **The stage renders the places of its entries.** -/
theorem pairBilingualEntries_places (rows : List α) :
    pairBilingualEntries rule (rows.map entry) =
      ((placements rule entry rows).map (Placement.render rule.mergeKey entry),
        (placements rule entry rows).countP Placement.isSolo) := by
  have folded : ∀ (groups : List (List α)) (state : List RawEntry × Nat),
      (groups.map (List.map entry)).foldl
        (fun state group => (state.1 ++ (pairSheet rule group).1, state.2 + (pairSheet rule group).2))
        state =
      (state.1 ++ (groups.flatMap (placeSheet rule entry)).map (Placement.render rule.mergeKey entry),
        state.2 + (groups.flatMap (placeSheet rule entry)).countP Placement.isSolo) := by
    intro groups
    induction groups with
    | nil =>
      intro state
      simp
    | cons group groups ih =>
      intro state
      rw [List.map_cons, List.foldl_cons, ih, pairSheet_places, List.flatMap_cons, List.map_append,
        List.countP_append, List.append_assoc, Nat.add_assoc]
  rw [pairBilingualEntries, sheets_map, folded, List.nil_append, Nat.zero_add]
  rfl

/-! ### Nothing is lost -/

theorem sources_pairs {primaries secondaries : List α} (even : primaries.length = secondaries.length) :
    ((List.zipWith Placement.pair primaries secondaries).flatMap Placement.sources).Perm
      (primaries ++ secondaries) := by
  induction primaries generalizing secondaries with
  | nil =>
    rw [List.eq_nil_of_length_eq_zero even.symm]
    exact .refl _
  | cons primary primaries ih =>
    cases secondaries with
    | nil => cases even
    | cons secondary secondaries =>
      rw [List.zipWith_cons_cons, List.flatMap_cons, List.cons_append]
      refine List.Perm.cons primary ?_
      exact ((ih (Nat.succ.inj even)).cons secondary).trans List.perm_middle.symm

theorem sources_solos (group : List α) : (group.map Placement.solo).flatMap Placement.sources = group := by
  rw [List.flatMap_map]
  exact List.flatMap_singleton' group

/-- With two languages each entry is of one of them or of neither. -/
theorem langs_perm (differ : rule.primaryLang ≠ rule.secondaryLang) (group : List α) :
    (ofLang entry rule.primaryLang group ++ ofLang entry rule.secondaryLang group ++
      ofNeither rule entry group).Perm group := by
  induction group with
  | nil => exact .refl _
  | cons row rest ih =>
    unfold ofLang ofNeither at ih ⊢
    by_cases isPrimary : isLang rule.primaryLang (entry row) = true
    · have notSecondary : ¬ isLang rule.secondaryLang (entry row) = true := by
        unfold isLang at isPrimary ⊢
        rw [beq_iff_eq] at isPrimary ⊢
        rw [isPrimary]
        exact fun same => differ (Option.some.inj same)
      simp only [List.filter_cons, isPrimary, notSecondary, if_true, if_false, Bool.not_true,
        Bool.false_and, Bool.false_eq_true, List.cons_append]
      exact ih.cons row
    · by_cases isSecondary : isLang rule.secondaryLang (entry row) = true
      · simp only [List.filter_cons, isPrimary, isSecondary, if_true, if_false, Bool.not_true,
          Bool.and_false, Bool.false_eq_true]
        rw [List.append_assoc, List.cons_append]
        refine List.perm_middle.trans (List.Perm.cons row ?_)
        rw [← List.append_assoc]
        exact ih
      · rw [Bool.not_eq_true] at isPrimary isSecondary
        simp only [List.filter_cons, isPrimary, isSecondary, if_true, if_false, Bool.not_false,
          Bool.and_true, Bool.false_eq_true]
        exact List.perm_middle.trans (ih.cons row)

theorem placeSheet_perm (differ : rule.primaryLang ≠ rule.secondaryLang) (group : List α) :
    ((placeSheet rule entry group).flatMap Placement.sources).Perm group := by
  unfold placeSheet
  simp only
  split_ifs with uneven
  · rw [sources_solos]
  · rw [not_or, not_not] at uneven
    rw [List.flatMap_append, sources_solos]
    exact ((sources_pairs uneven.2).append_right _).trans (langs_perm rule entry differ group)

/-- **Each entry has one place.** -/
theorem placements_perm (differ : rule.primaryLang ≠ rule.secondaryLang) (rows : List α) :
    ((placements rule entry rows).flatMap Placement.sources).Perm rows := by
  have isFlat : (sheets entry rows).flatten = rows := List.flatten_splitBy _ _
  conv_rhs => rw [← isFlat]
  unfold placements
  induction sheets entry rows with
  | nil => exact .refl _
  | cons group groups ih =>
    rw [List.flatMap_cons, List.flatMap_append, List.flatten_cons]
    exact (placeSheet_perm rule entry differ group).append ih

/-- A maximal run of entries of one page and sheet. -/
structure IsRun (rows before group after : List α) (page sheet : Nat) : Prop where
  parts : rows = before ++ group ++ after
  together : ∀ row ∈ group, (entry row).page = page ∧ (entry row).sheet = sheet
  opens : ∀ row ∈ before.getLast?, ¬ ((entry row).page = page ∧ (entry row).sheet = sheet)
  closes : ∀ row ∈ after.head?, ¬ ((entry row).page = page ∧ (entry row).sheet = sheet)

/-- Two entries of the same rank in a run with as many of the one language as of the other. -/
def Mates (rows : List α) (primary secondary : α) : Prop :=
  ∃ before group after page sheet, IsRun entry rows before group after page sheet ∧
    (ofLang entry rule.primaryLang group).length = (ofLang entry rule.secondaryLang group).length ∧
    ∃ rank : Nat, (ofLang entry rule.primaryLang group)[rank]? = some primary ∧
      (ofLang entry rule.secondaryLang group)[rank]? = some secondary

theorem sameSheet_iff {one other : RawEntry} :
    sameSheet one other = true ↔ one.page = other.page ∧ one.sheet = other.sheet := by
  simp [sameSheet]

/-- The entries of a chain are all on one sheet. -/
theorem together_of_chain {first : α} {rest : List α}
    (chained : (first :: rest).IsChain fun one other => sameSheet (entry one) (entry other) = true) :
    ∀ row ∈ first :: rest, (entry row).page = (entry first).page ∧ (entry row).sheet = (entry first).sheet := by
  induction rest generalizing first with
  | nil =>
    intro row member
    rw [List.mem_singleton.mp member]
    exact ⟨rfl, rfl⟩
  | cons second rest ih =>
    intro row member
    rw [List.isChain_cons_cons] at chained
    have same := sameSheet_iff.mp chained.1
    rcases List.mem_cons.mp member with rfl | member
    · exact ⟨rfl, rfl⟩
    · have later := ih chained.2 row member
      exact ⟨later.1.trans same.1.symm, later.2.trans same.2.symm⟩

/-- **Each sheet is a maximal run.** -/
theorem sheet_isRun {rows group : List α} (isSheet : group ∈ sheets entry rows) :
    ∃ before after page sheet, IsRun entry rows before group after page sheet := by
  obtain ⟨isFlat, noEmpty, chained, apart⟩ := sheets_spec entry rows
  have inside := chained group isSheet
  cases group with
  | nil => exact absurd isSheet noEmpty
  | cons first rest =>
    obtain ⟨front, back, isSplit⟩ := List.append_of_mem isSheet
    rw [isSplit] at apart isFlat
    have together := together_of_chain entry inside
    have isEnd : (first :: rest).getLast (List.cons_ne_nil _ _) ∈ first :: rest := List.getLast_mem _
    refine ⟨front.flatten, back.flatten, (entry first).page, (entry first).sheet, ?_, together, ?_, ?_⟩
    · rw [isFlat, List.flatten_append, List.flatten_cons, List.append_assoc]
    · intro row isLast same
      rcases List.eq_nil_or_concat front with rfl | ⟨front, last, rfl⟩
      · cases isLast
      · rw [List.concat_eq_append, List.append_assoc] at apart
        obtain ⟨some, some', differ⟩ := (List.isChain_append.mp apart).2.1.rel
        rw [List.concat_eq_append, List.flatten_append, List.flatten_singleton,
          List.getLast?_append_of_ne_nil _ some, List.getLast?_eq_some_getLast some] at isLast
        cases isLast
        exact absurd (sameSheet_iff.mpr same) (by simpa using differ)
    · intro row isFirst same
      cases back with
      | nil => cases isFirst
      | cons next back =>
        obtain ⟨some, some', differ⟩ := (List.isChain_append.mp apart).2.1.rel
        rw [List.flatten_cons, List.head?_append_of_ne_nil _ some', List.head?_eq_some_head some'] at isFirst
        cases isFirst
        have ends := together _ isEnd
        have same' := sameSheet_iff.mpr ⟨ends.1.trans same.1.symm, ends.2.trans same.2.symm⟩
        rw [same'] at differ
        cases differ

/-- **Only mates are paired.** -/
theorem placements_mates {rows : List α} {primary secondary : α}
    (paired : Placement.pair primary secondary ∈ placements rule entry rows) :
    Mates rule entry rows primary secondary := by
  obtain ⟨group, isSheet, isPlaced⟩ := List.mem_flatMap.mp paired
  obtain ⟨before, after, page, sheet, isRun⟩ := sheet_isRun entry isSheet
  unfold placeSheet at isPlaced
  simp only at isPlaced
  split_ifs at isPlaced with uneven
  · obtain ⟨row, -, same⟩ := List.mem_map.mp isPlaced
    cases same
  · rw [not_or, not_not] at uneven
    refine ⟨before, group, after, page, sheet, isRun, uneven.2, ?_⟩
    rcases List.mem_append.mp isPlaced with isPair | isAlone
    · rw [← List.map_uncurry_zip_eq_zipWith] at isPair
      obtain ⟨both, isBoth, same⟩ := List.mem_map.mp isPair
      cases same
      obtain ⟨rank, inside, isRank⟩ := List.getElem_of_mem isBoth
      rw [List.getElem_zip] at isRank
      rw [List.length_zip] at inside
      refine ⟨rank, ?_, ?_⟩
      · rw [← isRank]
        exact List.getElem?_eq_getElem _
      · rw [← isRank]
        exact List.getElem?_eq_getElem _
    · obtain ⟨row, -, same⟩ := List.mem_map.mp isAlone
      cases same

end Place

end Bookrack.Distill
