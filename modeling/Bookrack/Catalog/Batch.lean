/-
The effective metadata of many items in two queries (`catalog/src/effective.rs`,
`catalog/src/node_overrides.rs`, `catalog/src/node_publication_attrs.rs`).

The batch takes the overrides of an item out of the map it read them into. An item asked for again
is merged a second time, from the base layer alone, and that value replaces the first:
`lookup_mergeAll`. `batch_agrees_iff` says when the batch is the single read of every item.
-/

import Bookrack.Catalog.Effective

namespace Bookrack.Catalog

open Queue (ItemKind)

/-! ### The two queries -/

section Queries

variable (variableLimit : Nat) (db : CatalogDb) (intakeIds : List Int) (kind : ItemKind)

/-- A statement with one parameter for the scope and one for each id. SQLite prepares none with more
parameters than it allows. -/
def prepared {Result : Type} (result : Result) : Option Result :=
  if intakeIds.length + 1 ≤ variableLimit then some result else none

/-- The rows of the base query. -/
def baseRows : List (Int × PublicationAttrs) :=
  db.publicationAttrs.entries.filterMap fun entry =>
    if entry.1.2 = kind ∧ entry.1.1 ∈ intakeIds then some (entry.1.1, entry.2) else none

/-- `Catalog::publication_attrs_for_intakes`. -/
def CatalogDb.publicationAttrsForIntakes : Option (AList fun _ : Int => PublicationAttrs) :=
  if intakeIds = [] then some ∅
  else prepared variableLimit intakeIds
    ((baseRows db intakeIds kind).foldl (fun out row => out.insert row.1 row.2) ∅)

/-- The rows of the overrides query: by intake, then by field. -/
def overrideRows : List (Int × String × NodeOverride) :=
  (db.nodeOverrides.entries.filterMap fun entry =>
    if entry.1.1.2 = kind ∧ entry.1.1.1 ∈ intakeIds then some (entry.1.1.1, entry.1.2, entry.2)
    else none).insertionSort fun one other =>
      one.1 < other.1 ∨ one.1 = other.1 ∧ one.2.1 ≤ other.2.1

/-- A row pushed to the list of its intake. -/
def pushRow (out : AList fun _ : Int => List (String × NodeOverride))
    (row : Int × String × NodeOverride) : AList fun _ : Int => List (String × NodeOverride) :=
  out.insert row.1 ((out.lookup row.1).getD [] ++ [row.2])

/-- `Catalog::overrides_for_addresses`. -/
def CatalogDb.overridesForAddresses :
    Option (AList fun _ : Int => List (String × NodeOverride)) :=
  if intakeIds = [] then some ∅
  else prepared variableLimit intakeIds ((overrideRows db intakeIds kind).foldl pushRow ∅)

end Queries

/-! ### The merge -/

/-- The base pairs with the overrides applied. -/
def mergeFields (base : Option PublicationAttrs) (overrides : List (String × NodeOverride)) :
    AList fun _ : String => String :=
  overrides.foldl applyOverride
    (((base.map basePairs).getD []).foldl (fun fields pair => fields.insert pair.1 pair.2) ∅)

/-- What the loop of the batch carries: the overrides not yet taken, and the values so far. -/
structure Merging where
  overrides : AList fun _ : Int => List (String × NodeOverride)
  out : AList fun _ : Int => EffectiveAttrs

/-- One turn of the loop: the overrides of the id are taken out of the map. -/
def mergeOne (bases : AList fun _ : Int => PublicationAttrs) (kind : ItemKind) (state : Merging)
    (intakeId : Int) : Merging :=
  let fields := mergeFields (bases.lookup intakeId) ((state.overrides.lookup intakeId).getD [])
  ⟨state.overrides.erase intakeId, state.out.insert intakeId ⟨(intakeId, kind), fields⟩⟩

/-- The loop of the batch. -/
def mergeAll (bases : AList fun _ : Int => PublicationAttrs) (kind : ItemKind)
    (overrides : AList fun _ : Int => List (String × NodeOverride)) (intakeIds : List Int) : Merging :=
  intakeIds.foldl (mergeOne bases kind) ⟨overrides, ∅⟩

/-- `Catalog::effective_publication_attrs_for_intakes`. -/
def CatalogDb.effectivePublicationAttrsForIntakes (variableLimit : Nat) (db : CatalogDb)
    (intakeIds : List Int) (kind : ItemKind) : Option (AList fun _ : Int => EffectiveAttrs) :=
  if intakeIds = [] then some ∅
  else do
    let bases ← db.publicationAttrsForIntakes variableLimit intakeIds kind
    let overrides ← db.overridesForAddresses variableLimit intakeIds kind
    return (mergeAll bases kind overrides intakeIds).out

/-- The same node with the same effective value of every field. -/
def EffectiveAttrs.Agrees (attrs other : EffectiveAttrs) : Prop :=
  attrs.address = other.address ∧ ∀ field, attrs.get field = other.get field

/-- The batch has the items asked for, each as it is read on its own. -/
def BatchAgrees (db : CatalogDb) (intakeIds : List Int) (kind : ItemKind)
    (result : AList fun _ : Int => EffectiveAttrs) : Prop :=
  (∀ intakeId, intakeId ∈ result ↔ intakeId ∈ intakeIds) ∧
    ∀ intakeId attrs, result.lookup intakeId = some attrs →
      attrs.Agrees (db.effectivePublicationAttrs (intakeId, kind))

/-! ### What the queries read -/

section Reads

variable {db : CatalogDb} {intakeIds : List Int} {kind : ItemKind} {intakeId : Int}

theorem mem_baseRows {attrs : PublicationAttrs} :
    (intakeId, attrs) ∈ baseRows db intakeIds kind ↔
      intakeId ∈ intakeIds ∧ db.publicationAttrsAt (intakeId, kind) = some attrs := by
  rw [baseRows, List.mem_filterMap, CatalogDb.publicationAttrsAt,
    ← Option.mem_def, AList.mem_lookup_iff]
  constructor
  · rintro ⟨⟨⟨id, scope⟩, row⟩, onFile, isRow⟩
    split_ifs at isRow with asked
    obtain ⟨rfl, isAsked⟩ := asked
    obtain ⟨rfl, rfl⟩ := Prod.mk.inj (Option.some.inj isRow)
    exact ⟨isAsked, onFile⟩
  · rintro ⟨asked, onFile⟩
    exact ⟨_, onFile, if_pos ⟨rfl, asked⟩⟩

theorem baseRows_distinct (db : CatalogDb) (intakeIds : List Int) (kind : ItemKind) :
    ((baseRows db intakeIds kind).map Prod.fst).Nodup := by
  refine picked_distinct db.publicationAttrs
    (fun key => if key.2 = kind ∧ key.1 ∈ intakeIds then some key.1 else none) ?_ ?_
  · intro entry
    split_ifs <;> rfl
  · rintro ⟨id, scope⟩ ⟨id', scope'⟩ named isName isName'
    split_ifs at isName isName' with asked asked'
    exact Prod.ext ((Option.some.inj isName).trans (Option.some.inj isName').symm)
      (asked.1.trans asked'.1.symm)

theorem lookup_insertBase (out : AList fun _ : Int => PublicationAttrs) (row : Int × PublicationAttrs)
    (wanted : Int) : (out.insert row.1 row.2).lookup wanted =
      if wanted = row.1 then some row.2 else out.lookup wanted := by
  by_cases isHere : wanted = row.1
  · rw [if_pos isHere, isHere, AList.lookup_insert]
  · rw [if_neg isHere, AList.lookup_insert_ne isHere]

/-- The base layer of an item asked for is the one on file. -/
theorem lookup_bases (asked : intakeId ∈ intakeIds) :
    ((baseRows db intakeIds kind).foldl (fun out row => out.insert row.1 row.2)
      (∅ : AList fun _ : Int => PublicationAttrs)).lookup intakeId =
      db.publicationAttrsAt (intakeId, kind) := by
  have tabulated : (Rows.lookup Prod.fst intakeId (baseRows db intakeIds kind)).map Prod.snd =
      if intakeId ∈ intakeIds then db.publicationAttrsAt (intakeId, kind) else none := by
    refine Rows.lookup_tabulated (baseRows_distinct db intakeIds kind)
      (fun id => if id ∈ intakeIds then db.publicationAttrsAt (id, kind) else none) ?_ intakeId
    intro id attrs
    rw [mem_baseRows]
    split_ifs with isAsked
    · exact and_iff_right isAsked
    · exact iff_of_false (fun both => isAsked both.1) (fun found => by cases found)
  rw [if_pos asked] at tabulated
  rw [Rows.foldl_lookup AList.lookup lookup_insertBase (baseRows_distinct db intakeIds kind),
    AList.lookup_empty, ← tabulated]
  cases Rows.lookup Prod.fst intakeId (baseRows db intakeIds kind) <;> rfl

/-! ### The overrides by intake -/

theorem mem_overrideRows {row : String × NodeOverride} :
    (intakeId, row) ∈ overrideRows db intakeIds kind ↔
      intakeId ∈ intakeIds ∧ db.nodeOverrides.lookup ((intakeId, kind), row.1) = some row.2 := by
  rw [overrideRows, List.mem_insertionSort, List.mem_filterMap,
    ← Option.mem_def, AList.mem_lookup_iff]
  constructor
  · rintro ⟨⟨⟨⟨id, scope⟩, field⟩, stored⟩, onFile, isRow⟩
    split_ifs at isRow with asked
    obtain ⟨rfl, isAsked⟩ := asked
    obtain ⟨rfl, rfl⟩ := Prod.mk.inj (Option.some.inj isRow)
    exact ⟨isAsked, onFile⟩
  · rintro ⟨asked, onFile⟩
    exact ⟨_, onFile, if_pos ⟨rfl, asked⟩⟩

/-- The rows of one intake, in the order the query has them. -/
def rowsOf (intakeId : Int) (rows : List (Int × String × NodeOverride)) :
    List (String × NodeOverride) :=
  rows.filterMap fun row => if row.1 = intakeId then some row.2 else none

theorem lookup_pushed (rows : List (Int × String × NodeOverride))
    (out : AList fun _ : Int => List (String × NodeOverride)) :
    ((rows.foldl pushRow out).lookup intakeId).getD [] =
      (out.lookup intakeId).getD [] ++ rowsOf intakeId rows := by
  induction rows generalizing out with
  | nil => exact (List.append_nil _).symm
  | cons row rest ih =>
    rw [List.foldl_cons, ih, pushRow, rowsOf, rowsOf, List.filterMap_cons]
    by_cases isHere : row.1 = intakeId
    · rw [if_pos isHere, ← isHere, AList.lookup_insert]
      simp
    · rw [if_neg isHere, AList.lookup_insert_ne (Ne.symm isHere)]

theorem mem_rowsOf {row : String × NodeOverride} :
    row ∈ rowsOf intakeId (overrideRows db intakeIds kind) ↔
      intakeId ∈ intakeIds ∧ db.nodeOverrides.lookup ((intakeId, kind), row.1) = some row.2 := by
  rw [← mem_overrideRows, rowsOf, List.mem_filterMap]
  constructor
  · rintro ⟨⟨id, stored⟩, member, isRow⟩
    split_ifs at isRow with isHere
    obtain rfl := Option.some.inj isRow
    exact isHere ▸ member
  · intro member
    exact ⟨_, member, if_pos rfl⟩

theorem rowsOf_distinct (db : CatalogDb) (intakeIds : List Int) (kind : ItemKind) (intakeId : Int) :
    ((rowsOf intakeId (overrideRows db intakeIds kind)).map Prod.fst).Nodup := by
  rw [rowsOf, overrideRows,
    ((List.perm_insertionSort _ _).filterMap _ |>.map Prod.fst).nodup_iff, List.filterMap_filterMap]
  refine picked_distinct db.nodeOverrides (fun key =>
    if key.1.2 = kind ∧ key.1.1 ∈ intakeIds ∧ key.1.1 = intakeId then some key.2 else none) ?_ ?_
  · intro entry
    by_cases asked : entry.1.1.2 = kind ∧ entry.1.1.1 ∈ intakeIds
    · rw [if_pos asked]
      by_cases isHere : entry.1.1.1 = intakeId
      · rw [if_pos ⟨asked.1, asked.2, isHere⟩]
        simp [isHere]
      · rw [if_neg fun all => isHere all.2.2]
        simp [isHere]
    · rw [if_neg asked, if_neg fun all => asked ⟨all.1, all.2.1⟩]
      rfl
  · rintro ⟨⟨id, scope⟩, field⟩ ⟨⟨id', scope'⟩, field'⟩ named isName isName'
    split_ifs at isName isName' with asked asked'
    obtain ⟨rfl, -, rfl⟩ := asked
    obtain ⟨rfl, -, rfl⟩ := asked'
    exact Prod.ext rfl ((Option.some.inj isName).trans (Option.some.inj isName').symm)

theorem lookup_rowsOf (asked : intakeId ∈ intakeIds) (field : String) :
    (Rows.lookup Prod.fst field (rowsOf intakeId (overrideRows db intakeIds kind))).map Prod.snd =
      db.nodeOverrides.lookup ((intakeId, kind), field) := by
  refine Rows.lookup_tabulated (rowsOf_distinct db intakeIds kind intakeId)
    (fun field => db.nodeOverrides.lookup ((intakeId, kind), field)) ?_ field
  intro field row
  rw [mem_rowsOf]
  exact and_iff_right asked

end Reads

/-! ### What the loop leaves -/

section Loop

variable {db : CatalogDb} {intakeIds : List Int} {kind : ItemKind} {intakeId : Int}
  {bases : AList fun _ : Int => PublicationAttrs}
  {overrides : AList fun _ : Int => List (String × NodeOverride)}

/-- The item as one turn of the loop merges it. -/
def merged (bases : AList fun _ : Int => PublicationAttrs) (kind : ItemKind) (intakeId : Int)
    (overrides : List (String × NodeOverride)) : EffectiveAttrs :=
  ⟨(intakeId, kind), mergeFields (bases.lookup intakeId) overrides⟩

/-- **The loop invariant**: an id met has lost its overrides; its value has them if it was met once,
and none of them if it was met again. -/
theorem lookup_mergeAll (bases : AList fun _ : Int => PublicationAttrs) (kind : ItemKind)
    (overrides : AList fun _ : Int => List (String × NodeOverride)) (intakeIds : List Int)
    (intakeId : Int) :
    (mergeAll bases kind overrides intakeIds).overrides.lookup intakeId =
        (if intakeId ∈ intakeIds then none else overrides.lookup intakeId) ∧
      (mergeAll bases kind overrides intakeIds).out.lookup intakeId =
        (if intakeId ∈ intakeIds then
          some (merged bases kind intakeId
            (if 1 < intakeIds.count intakeId then [] else (overrides.lookup intakeId).getD []))
        else none) := by
  induction intakeIds using List.reverseRecOn with
  | nil => exact ⟨rfl, rfl⟩
  | append_singleton before next ih =>
    obtain ⟨left, values⟩ := ih
    have isStep : mergeAll bases kind overrides (before ++ [next]) =
        mergeOne bases kind (mergeAll bases kind overrides before) next := List.foldl_concat _ _ _ _
    rw [isStep, mergeOne]
    by_cases isNext : intakeId = next
    · subst isNext
      have isMember : intakeId ∈ before ++ [intakeId] := List.mem_append_right _ (List.mem_singleton_self _)
      refine ⟨?_, ?_⟩
      · rw [AList.lookup_erase, if_pos isMember]
      · rw [AList.lookup_insert, if_pos isMember, left, List.count_append, List.count_singleton_self]
        unfold merged
        by_cases isMet : intakeId ∈ before
        · have again : 1 < before.count intakeId + 1 := Nat.succ_lt_succ (List.count_pos_iff.mpr isMet)
          rw [if_pos isMet, if_pos again]
          rfl
        · have first : ¬1 < before.count intakeId + 1 := by
            rw [List.count_eq_zero_of_not_mem isMet]
            decide
          rw [if_neg isMet, if_neg first]
    · have sameMembers : intakeId ∈ before ++ [next] ↔ intakeId ∈ before := by simp [isNext]
      have sameCount : (before ++ [next]).count intakeId = before.count intakeId := by
        rw [List.count_append, List.count_singleton, Nat.add_eq_left]
        simpa using Ne.symm isNext
      refine ⟨?_, ?_⟩
      · rw [AList.lookup_erase_ne isNext, left]
        simp only [sameMembers]
      · rw [AList.lookup_insert_ne isNext, values, sameCount]
        simp only [sameMembers]

theorem get_merged (isBase : bases.lookup intakeId = db.publicationAttrsAt (intakeId, kind))
    {overrides : List (String × NodeOverride)} (distinct : (overrides.map Prod.fst).Nodup)
    (field : String) : (merged bases kind intakeId overrides).get field =
      (((Rows.lookup Prod.fst field overrides).map Prod.snd).map NodeOverride.value).getD
        (db.baseValue (intakeId, kind) field) := by
  show AList.lookup field (mergeFields _ _) = _
  rw [mergeFields, isBase, Rows.foldl_lookup AList.lookup lookup_applyOverride distinct,
    lookup_baseFields, Option.map_map]
  rfl

/-- A merge agrees with the single read exactly when the overrides it left out change nothing. -/
theorem merged_agrees_iff (asked : intakeId ∈ intakeIds)
    (isBase : bases.lookup intakeId = db.publicationAttrsAt (intakeId, kind)) {left : Prop}
    [Decidable left] :
    (merged bases kind intakeId
      (if left then [] else rowsOf intakeId (overrideRows db intakeIds kind))).Agrees
        (db.effectivePublicationAttrs (intakeId, kind)) ↔
      (left → ∀ field row, db.nodeOverrides.lookup ((intakeId, kind), field) = some row →
        row.value = db.baseValue (intakeId, kind) field) := by
  have noRows : (([] : List (String × NodeOverride)).map Prod.fst).Nodup := List.nodup_nil
  by_cases isLeft : left
  · rw [if_pos isLeft, EffectiveAttrs.Agrees]
    refine ⟨fun ⟨_, same⟩ _ field row isRow => ?_, fun idle => ⟨rfl, fun field => ?_⟩⟩
    · have isSame := same field
      rw [get_merged isBase noRows, effective_get, isRow] at isSame
      exact isSame.symm
    · rw [get_merged isBase noRows, effective_get]
      cases isRow : db.nodeOverrides.lookup ((intakeId, kind), field) with
      | none => rfl
      | some row => exact (idle isLeft field row isRow).symm
  · rw [if_neg isLeft]
    refine iff_of_true ⟨rfl, fun field => ?_⟩ (fun holds => absurd holds isLeft)
    rw [get_merged isBase (rowsOf_distinct db intakeIds kind intakeId), lookup_rowsOf asked,
      effective_get]

/-- The batch of a slice that is not empty, within the bound. -/
theorem batch_eq {variableLimit : Nat} (notEmpty : intakeIds ≠ [])
    (fits : intakeIds.length + 1 ≤ variableLimit) :
    db.effectivePublicationAttrsForIntakes variableLimit intakeIds kind =
      some (mergeAll ((baseRows db intakeIds kind).foldl (fun out row => out.insert row.1 row.2) ∅)
        kind ((overrideRows db intakeIds kind).foldl pushRow ∅) intakeIds).out := by
  unfold CatalogDb.effectivePublicationAttrsForIntakes CatalogDb.publicationAttrsForIntakes
    CatalogDb.overridesForAddresses prepared
  rw [if_neg notEmpty, if_neg notEmpty, if_neg notEmpty, if_pos fits, if_pos fits]
  rfl

theorem batch_none {variableLimit : Nat} (notEmpty : intakeIds ≠ [])
    (exceeds : ¬intakeIds.length + 1 ≤ variableLimit) :
    db.effectivePublicationAttrsForIntakes variableLimit intakeIds kind = none := by
  unfold CatalogDb.effectivePublicationAttrsForIntakes CatalogDb.publicationAttrsForIntakes prepared
  rw [if_neg notEmpty, if_neg notEmpty, if_neg exceeds]
  rfl

end Loop

/-- **When the batch is the single read**: the statement can be prepared, and no item asked for
twice has an override that changes its base layer. -/
theorem batch_agrees_iff (variableLimit : Nat) (db : CatalogDb) (intakeIds : List Int)
    (kind : ItemKind) :
    (∃ result, db.effectivePublicationAttrsForIntakes variableLimit intakeIds kind = some result ∧
        BatchAgrees db intakeIds kind result) ↔
      (intakeIds = [] ∨ intakeIds.length + 1 ≤ variableLimit) ∧
        ∀ intakeId, 1 < intakeIds.count intakeId → ∀ field row,
          db.nodeOverrides.lookup ((intakeId, kind), field) = some row →
            row.value = db.baseValue (intakeId, kind) field := by
  by_cases isEmpty : intakeIds = []
  · subst isEmpty
    refine iff_of_true ⟨∅, rfl, ?_, ?_⟩ ⟨.inl rfl, ?_⟩
    · intro intakeId
      exact iff_of_false (AList.notMem_empty intakeId) List.not_mem_nil
    · intro intakeId attrs found
      cases found
    · intro intakeId twice
      exact absurd twice (Nat.not_lt_zero 1)
  by_cases fits : intakeIds.length + 1 ≤ variableLimit
  · have values := fun intakeId => (lookup_mergeAll
      ((baseRows db intakeIds kind).foldl (fun out row => out.insert row.1 row.2) ∅) kind
      ((overrideRows db intakeIds kind).foldl pushRow ∅) intakeIds intakeId).2
    have pushed : ∀ intakeId, (((overrideRows db intakeIds kind).foldl pushRow ∅).lookup
        intakeId).getD [] = rowsOf intakeId (overrideRows db intakeIds kind) :=
      fun intakeId => lookup_pushed _ _
    rw [batch_eq isEmpty fits]
    constructor
    · rintro ⟨result, isResult, -, agrees⟩
      obtain rfl := Option.some.inj isResult
      refine ⟨.inr fits, fun intakeId twice => ?_⟩
      have asked : intakeId ∈ intakeIds := List.count_pos_iff.mp (Nat.lt_trans Nat.zero_lt_one twice)
      have agreed := agrees intakeId _ ((values intakeId).trans (if_pos asked))
      rw [pushed] at agreed
      exact (merged_agrees_iff asked (lookup_bases asked)).mp agreed twice
    · rintro ⟨-, idle⟩
      refine ⟨_, rfl, fun intakeId => ?_, fun intakeId attrs found => ?_⟩
      · rw [← AList.lookup_isSome, values intakeId]
        by_cases asked : intakeId ∈ intakeIds <;> simp [asked]
      · rw [values intakeId, pushed] at found
        by_cases asked : intakeId ∈ intakeIds
        · rw [if_pos asked] at found
          obtain rfl := Option.some.inj found
          exact (merged_agrees_iff asked (lookup_bases asked)).mpr (idle intakeId)
        · rw [if_neg asked] at found
          cases found
  · rw [batch_none isEmpty fits]
    refine iff_of_false ?_ ?_
    · rintro ⟨result, isResult, -⟩
      cases isResult
    · rintro ⟨isEmpty' | fits', -⟩
      · exact isEmpty isEmpty'
      · exact fits fits'

/-- Intake 1 with an override of its title. -/
def titledIntake : CatalogDb where
  intakes := AList.singleton 1 ⟨.embedded, none⟩
  publicationAttrs := ∅
  nodeOverrides := AList.singleton ((1, .book), "title") ⟨some "A Title", true, "human", none⟩
  nodeContributors := ∅
  contributorSeq := 0
  nodeReviews := ∅
  nodeCategories := []
  metadataAudit := []
  auditSeq := 0

/-- An item asked for twice loses its title. -/
theorem repeated_without_override :
    ¬∃ result, titledIntake.effectivePublicationAttrsForIntakes 32766 [1, 1] .book = some result ∧
      BatchAgrees titledIntake [1, 1] .book result := by
  rintro ⟨result, isResult, keys, agrees⟩
  have isLost : (titledIntake.effectivePublicationAttrsForIntakes 32766 [1, 1] .book).bind
      (fun out => (out.lookup 1).bind fun attrs => attrs.get "title") = none := by decide
  have isTitle : (titledIntake.effectivePublicationAttrs (1, .book)).get "title" = some "A Title" := by
    decide
  obtain ⟨attrs, found⟩ := Option.isSome_iff_exists.mp
    (AList.lookup_isSome.mpr ((keys 1).mpr (List.mem_cons_self ..)))
  rw [isResult] at isLost
  have isSame : attrs.get "title" = some "A Title" := ((agrees 1 attrs found).2 "title").trans isTitle
  have isNone : (result.lookup 1).bind (fun attrs => attrs.get "title") = none := isLost
  rw [found, Option.bind_some, isSame] at isNone
  cases isNone

end Bookrack.Catalog
