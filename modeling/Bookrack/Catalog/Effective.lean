/-
The effective metadata of an item (`catalog/src/effective.rs`): the base layer with the curator's
overrides applied.

`effective_get`: a field with an override row has that row's value, none if it is NULL; a field
without one has its base value.
-/

import Bookrack.Base.Rows
import Bookrack.Catalog.Tables

namespace Bookrack.Catalog

/-- `EDITABLE_FIELDS`. -/
def editableFields : List String :=
  ["title", "subtitle", "publisher", "year", "publication_date", "isbn", "series", "series_number",
    "edition", "language", "pub_place", "original_title", "original_language", "original_year", "doi",
    "arxiv_id", "issn", "container_title", "abstract_text", "csl_type"]

/-- The columns of the base layer by name. -/
def PublicationAttrs.columns (attrs : PublicationAttrs) : List (String × Option String) :=
  [("title", attrs.title), ("subtitle", attrs.subtitle), ("publisher", attrs.publisher),
    ("year", attrs.year), ("publication_date", attrs.publicationDate), ("isbn", attrs.isbn),
    ("series", attrs.series), ("series_number", attrs.seriesNumber), ("edition", attrs.edition),
    ("language", attrs.language), ("pub_place", attrs.pubPlace),
    ("original_title", attrs.originalTitle), ("original_language", attrs.originalLanguage),
    ("original_year", attrs.originalYear), ("source_format", attrs.sourceFormat),
    ("source", attrs.source), ("confidence", attrs.confidence),
    ("audit_verdict", attrs.auditVerdict), ("enriched_by", attrs.enrichedBy), ("doi", attrs.doi),
    ("arxiv_id", attrs.arxivId), ("issn", attrs.issn), ("container_title", attrs.containerTitle),
    ("abstract_text", attrs.abstractText), ("csl_type", attrs.cslType)]

/-- One column of the base layer; a name that is no column has no value. -/
def PublicationAttrs.column (attrs : PublicationAttrs) (name : String) : Option String :=
  (Rows.lookup Prod.fst name attrs.columns).bind Prod.snd

/-- `base_pairs`: the set columns. -/
def basePairs (attrs : PublicationAttrs) : List (String × String) :=
  attrs.columns.filterMap fun column => column.2.map fun value => (column.1, value)

/-- `EffectiveAttrs`: the fields with an effective value. -/
structure EffectiveAttrs where
  address : Address
  fields : AList fun _ : String => String

/-- `EffectiveAttrs::get`. -/
def EffectiveAttrs.get (attrs : EffectiveAttrs) (field : String) : Option String :=
  attrs.fields.lookup field

/-- One override applied to the merged fields. -/
def applyOverride (fields : AList fun _ : String => String) (override : String × NodeOverride) :
    AList fun _ : String => String :=
  match override.2.value with
  | some value => fields.insert override.1 value
  | none => fields.erase override.1

/-- `Catalog::effective_publication_attrs`. -/
def CatalogDb.effectivePublicationAttrs (db : CatalogDb) (address : Address) : EffectiveAttrs :=
  let base := ((db.publicationAttrsAt address).map basePairs).getD []
  let fields := base.foldl (fun fields pair => fields.insert pair.1 pair.2) ∅
  ⟨address, (db.overridesForAddress address).foldl applyOverride fields⟩

/-- What the base layer has for a field. -/
def CatalogDb.baseValue (db : CatalogDb) (address : Address) (field : String) : Option String :=
  (db.publicationAttrsAt address).bind fun attrs => attrs.column field

/-! ### What is effective -/

variable {db : CatalogDb} {address : Address}

theorem columns_distinct (attrs : PublicationAttrs) : (attrs.columns.map Prod.fst).Nodup := by
  show (["title", "subtitle", "publisher", "year", "publication_date", "isbn", "series",
    "series_number", "edition", "language", "pub_place", "original_title", "original_language",
    "original_year", "source_format", "source", "confidence", "audit_verdict", "enriched_by", "doi",
    "arxiv_id", "issn", "container_title", "abstract_text", "csl_type"] : List String).Nodup
  decide

/-- The set pairs of a list of columns, looked up by name. -/
theorem lookup_set {columns : List (String × Option String)}
    (distinct : (columns.map Prod.fst).Nodup) (field : String) :
    (Rows.lookup Prod.fst field
      (columns.filterMap fun column => column.2.map fun value => (column.1, value))).map Prod.snd =
      (Rows.lookup Prod.fst field columns).bind Prod.snd := by
  induction columns with
  | nil => rfl
  | cons column rest ih =>
    obtain ⟨name, stored⟩ := column
    rw [List.map_cons, List.nodup_cons] at distinct
    have later := ih distinct.2
    by_cases isHere : name = field
    · subst isHere
      rw [Rows.lookup_absent distinct.1] at later
      cases stored with
      | none => simpa [Rows.lookup] using later
      | some value => simp [Rows.lookup]
    · cases stored with
      | none => simpa [Rows.lookup, isHere] using later
      | some value => simpa [Rows.lookup, isHere] using later

theorem basePairs_distinct (attrs : PublicationAttrs) : ((basePairs attrs).map Prod.fst).Nodup := by
  have sublist : ((basePairs attrs).map Prod.fst).Sublist (attrs.columns.map Prod.fst) := by
    unfold basePairs
    generalize attrs.columns = columns
    induction columns with
    | nil => exact .slnil
    | cons column rest ih =>
      obtain ⟨name, stored⟩ := column
      cases stored with
      | none => exact ih.cons _
      | some value => exact ih.cons_cons _
  exact (columns_distinct attrs).sublist sublist

theorem mem_overridesForAddress {override : String × NodeOverride} :
    override ∈ db.overridesForAddress address ↔
      db.nodeOverrides.lookup (address, override.1) = some override.2 := by
  rw [CatalogDb.overridesForAddress, List.mem_insertionSort, List.mem_filterMap,
    ← Option.mem_def, AList.mem_lookup_iff]
  constructor
  · rintro ⟨⟨⟨place, field⟩, row⟩, member, isOver⟩
    split_ifs at isOver with isHere
    obtain rfl := Option.some.inj isOver
    exact isHere ▸ member
  · intro member
    exact ⟨_, member, if_pos rfl⟩

/-- Rows picked from a table, each named by its key alone and no two keys alike, have distinct names. -/
theorem picked_distinct {κ ι β γ : Type} [DecidableEq κ] (table : AList fun _ : κ => β)
    {pick : (Sigma fun _ : κ => β) → Option (ι × γ)} (name : κ → Option ι)
    (names : ∀ entry, (pick entry).map Prod.fst = name entry.1)
    (apart : ∀ {key other named}, name key = some named → name other = some named → key = other) :
    ((table.entries.filterMap pick).map Prod.fst).Nodup := by
  have keys : (table.entries.filterMap pick).map Prod.fst =
      (table.entries.map Sigma.fst).filterMap name := by
    rw [List.map_filterMap, List.filterMap_map]
    exact congrArg (List.filterMap · _) (funext names)
  rw [keys]
  refine List.Nodup.filterMap ?_ table.nodupKeys
  intro key other named isName isName'
  exact apart isName isName'

theorem overrides_distinct (db : CatalogDb) (address : Address) :
    ((db.overridesForAddress address).map Prod.fst).Nodup := by
  rw [CatalogDb.overridesForAddress, (List.Perm.map _ (List.perm_insertionSort _ _)).nodup_iff]
  refine picked_distinct db.nodeOverrides
    (fun key => if key.1 = address then some key.2 else none) ?_ ?_
  · intro entry
    split_ifs <;> rfl
  · rintro ⟨place, field⟩ ⟨place', field'⟩ named isName isName'
    split_ifs at isName isName' with isHere isHere'
    exact Prod.ext (isHere.trans isHere'.symm)
      ((Option.some.inj isName).trans (Option.some.inj isName').symm)

theorem lookup_overrides (db : CatalogDb) (address : Address) (field : String) :
    (Rows.lookup Prod.fst field (db.overridesForAddress address)).map Prod.snd =
      db.nodeOverrides.lookup (address, field) :=
  Rows.lookup_tabulated (overrides_distinct db address)
    (fun field => db.nodeOverrides.lookup (address, field)) mem_overridesForAddress field

theorem lookup_applyOverride (fields : AList fun _ : String => String) (override : String × NodeOverride)
    (field : String) : (applyOverride fields override).lookup field =
      if field = override.1 then override.2.value else fields.lookup field := by
  obtain ⟨name, row⟩ := override
  unfold applyOverride
  dsimp only
  by_cases isHere : field = name
  · subst isHere
    cases row.value with
    | none => rw [if_pos rfl, AList.lookup_erase]
    | some value => rw [if_pos rfl, AList.lookup_insert]
  · cases row.value with
    | none => rw [if_neg isHere, AList.lookup_erase_ne isHere]
    | some value => rw [if_neg isHere, AList.lookup_insert_ne isHere]

theorem lookup_insertPair (fields : AList fun _ : String => String) (pair : String × String)
    (field : String) : (fields.insert pair.1 pair.2).lookup field =
      if field = pair.1 then some pair.2 else fields.lookup field := by
  by_cases isHere : field = pair.1
  · rw [if_pos isHere, isHere, AList.lookup_insert]
  · rw [if_neg isHere, AList.lookup_insert_ne isHere]

/-- The base pairs merged into one map. -/
theorem lookup_baseFields (db : CatalogDb) (address : Address) (field : String) :
    ((((db.publicationAttrsAt address).map basePairs).getD []).foldl
      (fun fields pair => fields.insert pair.1 pair.2) (∅ : AList fun _ : String => String)).lookup
        field = db.baseValue address field := by
  unfold CatalogDb.baseValue
  cases db.publicationAttrsAt address with
  | none => rfl
  | some attrs =>
    show AList.lookup field ((basePairs attrs).foldl
      (fun fields pair => fields.insert pair.1 pair.2) (∅ : AList fun _ : String => String)) =
        attrs.column field
    have set : (Rows.lookup Prod.fst field (basePairs attrs)).map Prod.snd = attrs.column field :=
      lookup_set (columns_distinct attrs) field
    rw [Rows.foldl_lookup AList.lookup lookup_insertPair (basePairs_distinct attrs), ← set]
    cases Rows.lookup Prod.fst field (basePairs attrs) <;> rfl

/-- **The effective value of a field**: its override row decides where there is one. -/
theorem effective_get (db : CatalogDb) (address : Address) (field : String) :
    (db.effectivePublicationAttrs address).get field =
      ((db.nodeOverrides.lookup (address, field)).map NodeOverride.value).getD
        (db.baseValue address field) := by
  show AList.lookup field ((db.overridesForAddress address).foldl applyOverride _) = _
  rw [Rows.foldl_lookup AList.lookup lookup_applyOverride
    (overrides_distinct db address), lookup_baseFields, ← lookup_overrides, Option.map_map]
  rfl

end Bookrack.Catalog
