/-
The effective-layer search agrees with the effective view (`catalog/src/intake.rs`,
`catalog/src/effective.rs`).

No text holds U+0000, where SQLite's `LIKE` stops reading.

* `Selects`: the intakes a filter asks for, by `effective_publication_attrs` and the other columns.
* `scopes_ne_nil_iff`: the statement keeps exactly these.
* **`search_agrees`**: on every catalog content, the pages are the selected intakes in id order, each
  once, and the count is their total length.
-/

import Bookrack.Catalog.Statement

namespace Bookrack.Catalog

open Queue (ItemKind)
open Sql

/-! ### The intakes a filter asks for -/

/-- What the filter asks of one intake on file, but for its contributors. -/
structure Fits (db : CatalogDb) (filter : IntakeFilter) (intakeId : Int) (intake : Intake) : Prop where
  title : ∀ needle ∈ filter.titleSubstring,
    ∃ value, (db.effectivePublicationAttrs (intakeId, filter.kind)).get "title" = some value ∧
      Like.Contains needle.toList value.toList
  venue : ∀ needle ∈ filter.venueSubstring,
    ∃ value, (db.effectivePublicationAttrs (intakeId, filter.kind)).get "container_title" = some value ∧
      Like.Contains needle.toList value.toList
  year : ∀ year ∈ filter.year,
    (db.effectivePublicationAttrs (intakeId, filter.kind)).get "year" = some year
  doi : ∀ doi ∈ filter.doi,
    (db.effectivePublicationAttrs (intakeId, filter.kind)).get "doi" = some doi
  language : filter.language ≠ [] → ∃ value ∈ filter.language,
    (db.effectivePublicationAttrs (intakeId, filter.kind)).get "language" = some value
  status : filter.statuses ≠ [] → intake.status ∈ filter.statuses
  format : ∀ format ∈ filter.format, intake.format = some format
  confidence : filter.confidenceIn ≠ [] → ∃ value ∈ filter.confidenceIn,
    db.baseValue (intakeId, filter.kind) "confidence" = some value
  review : filter.reviewStatusIn ≠ [] →
    ((db.nodeReviews.lookup (intakeId, filter.kind)).map NodeReview.status).getD "pending" ∈
      filter.reviewStatusIn
  category : filter.categories ≠ [] → ∃ category ∈ filter.categories,
    ((intakeId, filter.kind), category) ∈ db.nodeCategories

/-- What the filter asks of one intake on file. -/
structure Selects (db : CatalogDb) (filter : IntakeFilter) (intakeId : Int) (intake : Intake) : Prop
    extends Fits db filter intakeId intake where
  contributor : ∀ name ∈ filter.contributorName, ∃ entry ∈ db.nodeContributors.entries,
    (entry.2.intakeId, entry.2.scope) = (intakeId, filter.kind) ∧ entry.2.name = name ∧
      ∀ role ∈ filter.contributorRole, entry.2.role = role

/-! ### Rows by key -/

theorem IntakeStatus.asStr_injective {status other : IntakeStatus} (same : status.asStr = other.asStr) :
    status = other := by
  cases status <;> cases other <;> first | rfl | (exfalso; revert same; decide)

section Keys

variable {α : Type} {β : α → Type} [DecidableEq α]

/-- The row of a key, the null row when it has none. -/
def rowAt (toRow : Sigma β → Row) (key : α) (table : AList β) : Row :=
  ((table.lookup key).map fun value => toRow ⟨key, value⟩).getD nullRow

theorem filter_key {entries : List (Sigma β)} (distinct : entries.NodupKeys) (key : α) :
    entries.filter (fun entry => decide (entry.1 = key)) =
      (entries.dlookup key).toList.map (Sigma.mk key) := by
  induction entries with
  | nil => rfl
  | cons entry rest ih =>
    obtain ⟨name, value⟩ := entry
    obtain ⟨absent, later⟩ := List.nodupKeys_cons.mp distinct
    by_cases isHere : name = key
    · subst isHere
      rw [List.filter_cons_of_pos (by simp), ih later, List.dlookup_cons_eq,
        List.dlookup_eq_none.mpr absent]
      rfl
    · rw [List.filter_cons_of_neg (by simpa using isHere), ih later,
        List.dlookup_cons_ne _ _ (Ne.symm isHere)]

/-- A join whose `ON` is the primary key has one option. -/
theorem options_eq_rowAt {tables : Tables} {scope : Sql.Scope} {join : Join Datum}
    {toRow : Sigma β → Row} {table : AList β} {key : α}
    (isTable : tables join.table = table.entries.map toRow)
    (onKey : ∀ entry : Sigma β,
      (∀ cond ∈ join.on, cond.True (Function.update scope join.source (toRow entry))) ↔ entry.1 = key) :
    join.options tables scope = [rowAt toRow key table] := by
  have isMatching : join.matching tables scope =
      (table.lookup key).toList.map fun value => toRow ⟨key, value⟩ := by
    rw [Join.matching, isTable, List.filter_map]
    have sameTest : (table.entries.filter ((fun row => decide (∀ cond ∈ join.on,
        cond.True (Function.update scope join.source row))) ∘ toRow)) =
        table.entries.filter fun entry => decide (entry.1 = key) :=
      List.filter_congr fun entry _ => decide_eq_decide.mpr (onKey entry)
    rw [sameTest, filter_key table.nodupKeys, List.map_map]
    rfl
  rw [Join.options, isMatching, rowAt]
  cases table.lookup key <;> rfl

end Keys

/-! ### The joins -/

section Joins

variable {scope : Sql.Scope} {entry : Sigma fun _ : Int => Intake} {kind : ItemKind}
  {source table column : String}

theorem on_address (isBase : scope "i" = intakeRow entry) (notBase : "i" ≠ source)
    (address : Address) (columns : Row) :
    ((Cond.eq (.column source "intake_id") (.column "i" "intake_id")).True
        (Function.update scope source (addressed address columns)) ∧
      (Cond.eq (.column source "scope") (.param (.text (asScopeStr kind)))).True
        (Function.update scope source (addressed address columns))) ↔ address = (entry.1, kind) := by
  have isId : addressed address columns "intake_id" = .int address.1 := rfl
  have isScope : addressed address columns "scope" = .text (asScopeStr address.2) := by
    rw [addressed, if_neg (by decide), if_pos rfl]
  have isIntake : intakeRow entry "intake_id" = .int entry.1 := rfl
  rw [Cond.eq_true, Cond.eq_true]
  simp only [Expr.eval, Function.update_self, Function.update_of_ne notBase, isBase, isId, isScope,
    isIntake]
  constructor
  · rintro ⟨⟨sameId, -⟩, sameScope, -⟩
    exact Prod.ext (Datum.int.inj sameId) (asScopeStr_injective (Datum.text.inj sameScope))
  · rintro rfl
    exact ⟨⟨rfl, by simp⟩, rfl, by simp⟩

theorem scopeJoin_on (isBase : scope "i" = intakeRow entry) (notBase : "i" ≠ source)
    (address : Address) (columns : Row) :
    (∀ cond ∈ (scopeJoin table source (.text (asScopeStr kind))).on,
      cond.True (Function.update scope source (addressed address columns))) ↔
        address = (entry.1, kind) := by
  rw [← on_address isBase notBase, scopeJoin, List.forall_mem_cons, List.forall_mem_singleton]

theorem overrideJoin_on (isBase : scope "i" = intakeRow entry) (notBase : "i" ≠ overrideAlias column)
    (override : Sigma fun _ : Address × String => NodeOverride) :
    (∀ cond ∈ (overrideJoin column (.text (asScopeStr kind))).on,
      cond.True (Function.update scope (overrideAlias column) (overrideRow override))) ↔
        override.1 = ((entry.1, kind), column) := by
  have isField : overrideRow override "field" = .text override.1.2 := by
    rw [overrideRow, addressed, if_neg (by decide), if_neg (by decide), if_pos rfl]
  have onField : (Cond.eq (.column (overrideAlias column) "field") (.literal column)).True
      (Function.update scope (overrideAlias column) (overrideRow override)) ↔ override.1.2 = column := by
    rw [Cond.eq_true]
    simp only [Expr.eval, Function.update_self, isField]
    exact ⟨fun same => Datum.text.inj same.1, fun same => ⟨congrArg _ same, by simp⟩⟩
  rw [overrideJoin, List.forall_mem_cons, List.forall_mem_cons, List.forall_mem_singleton, onField,
    ← and_assoc, Prod.ext_iff]
  exact and_congr_left fun _ => on_address isBase notBase override.1.1 _

theorem scopeJoin_onlyBase {tables : Tables} {datum : Datum} (notBase : "i" ≠ source) :
    (scopeJoin table source datum).OnlyBase tables "i" := by
  refine Join.onlyBase_of notBase fun cond isCond scope scope' sameBase sameSource => ?_
  simp only [scopeJoin, List.mem_cons, List.not_mem_nil, or_false] at isCond sameSource
  rcases isCond with rfl | rfl
  · exact Cond.eq_congr (congrFun sameSource _) (congrFun sameBase _)
  · exact Cond.eq_congr (congrFun sameSource _) rfl

theorem overrideJoin_onlyBase {tables : Tables} {datum : Datum} (notBase : "i" ≠ overrideAlias column) :
    (overrideJoin column datum).OnlyBase tables "i" := by
  refine Join.onlyBase_of notBase fun cond isCond scope scope' sameBase sameSource => ?_
  simp only [overrideJoin, List.mem_cons, List.not_mem_nil, or_false] at isCond sameSource
  rcases isCond with rfl | rfl | rfl
  · exact Cond.eq_congr (congrFun sameSource _) (congrFun sameBase _)
  · exact Cond.eq_congr (congrFun sameSource _) rfl
  · exact Cond.eq_congr (congrFun sameSource _) rfl

end Joins

theorem active_sublist (columns : List (String × Bool)) :
    (columns.filterMap fun active => if active.2 then some active.1 else none).Sublist
      (columns.map Prod.fst) := by
  induction columns with
  | nil => exact .slnil
  | cons active rest ih =>
    obtain ⟨column, isActive⟩ := active
    cases isActive with
    | true => exact ih.cons_cons _
    | false => exact ih.cons _

theorem overriddenColumns_sublist (filter : IntakeFilter) :
    (overriddenColumns filter).Sublist ["title", "year", "container_title", "doi", "language"] := by
  unfold overriddenColumns
  split_ifs
  · exact List.nil_sublist _
  · exact active_sublist _

/-- The names of the joins are among these. -/
theorem aliases_sublist (filter : IntakeFilter) :
    ((wantedJoins filter).map Join.source).Sublist
      (["npa"] ++ ["title", "year", "container_title", "doi", "language"].map overrideAlias ++
        ["nc"] ++ ["nr"]) := by
  unfold wantedJoins
  rw [List.map_append, List.map_append, List.map_append, List.map_map]
  refine .append (.append (.append ?_ ((overriddenColumns_sublist filter).map _)) ?_) ?_
  · split_ifs
    · exact .refl _
    · exact List.nil_sublist _
  · split_ifs
    · exact .refl _
    · exact List.nil_sublist _
  · split_ifs
    · exact List.nil_sublist _
    · exact .refl _

theorem aliases_nodup (filter : IntakeFilter) :
    ("i" :: (wantedJoins filter).map Join.source).Nodup := by
  refine List.Nodup.sublist ((aliases_sublist filter).cons_cons "i") ?_
  decide

/-- The joins of the statement, one by one. -/
theorem mem_wantedJoins {filter : IntakeFilter} {join : Join Datum} : join ∈ wantedJoins filter ↔
    (needNpa filter = true ∧ join = scopeJoin "node_publication_attrs" "npa"
      (.text (asScopeStr filter.kind))) ∨
    (∃ column ∈ overriddenColumns filter, overrideJoin column (.text (asScopeStr filter.kind)) = join) ∨
    (filter.contributorName.isSome = true ∧ join = scopeJoin "node_contributors" "nc"
      (.text (asScopeStr filter.kind))) ∨
    (filter.reviewStatusIn.isEmpty = false ∧ join = scopeJoin "node_reviews" "nr"
      (.text (asScopeStr filter.kind))) := by
  simp only [wantedJoins, List.mem_append, List.mem_ite_nil_right, List.mem_ite_nil_left,
    List.mem_singleton, List.mem_map, Bool.not_eq_true, or_assoc]

theorem notBase_of_mem {filter : IntakeFilter} {join : Join Datum} (isJoin : join ∈ wantedJoins filter) :
    "i" ≠ join.source := by
  intro isBase
  exact (List.nodup_cons.mp (aliases_nodup filter)).1 (isBase ▸ List.mem_map_of_mem isJoin)

theorem joins_independent (db : CatalogDb) (filter : IntakeFilter) :
    Independent db.tables "i" (wantedJoins filter) := by
  refine ⟨aliases_nodup filter, fun join isJoin => ?_⟩
  have notBase := notBase_of_mem isJoin
  rcases mem_wantedJoins.mp isJoin with ⟨-, rfl⟩ | ⟨column, -, rfl⟩ | ⟨-, rfl⟩ | ⟨-, rfl⟩
  · exact scopeJoin_onlyBase notBase
  · exact overrideJoin_onlyBase notBase
  · exact scopeJoin_onlyBase notBase
  · exact scopeJoin_onlyBase notBase

/-! ### The scopes of one intake -/

section Scopes

variable {db : CatalogDb} {filter : IntakeFilter} {entry : Sigma fun _ : Int => Intake} {scope : Sql.Scope}

/-- The rows of the contributors at an address, the null row when there are none. -/
def contributorOptions (db : CatalogDb) (address : Address) : List Row :=
  let rows := (db.nodeContributors.entries.filter fun entry =>
    decide ((entry.2.intakeId, entry.2.scope) = address)).map contributorRow
  if rows = [] then [nullRow] else rows

/-- A scope of the statement over one intake. -/
structure Placed (db : CatalogDb) (filter : IntakeFilter) (entry : Sigma fun _ : Int => Intake)
    (scope : Sql.Scope) : Prop where
  base : scope "i" = intakeRow entry
  npa : needNpa filter = true →
    scope "npa" = rowAt publicationRow (entry.1, filter.kind) db.publicationAttrs
  override : ∀ column ∈ overriddenColumns filter,
    scope (overrideAlias column) = rowAt overrideRow ((entry.1, filter.kind), column) db.nodeOverrides
  contributor : filter.contributorName.isSome = true →
    scope "nc" ∈ contributorOptions db (entry.1, filter.kind)
  review : filter.reviewStatusIn.isEmpty = false →
    scope "nr" = rowAt reviewRow (entry.1, filter.kind) db.nodeReviews

theorem npa_options (isBase : scope "i" = intakeRow entry) :
    (scopeJoin "node_publication_attrs" "npa" (.text (asScopeStr filter.kind))).options db.tables scope =
      [rowAt publicationRow (entry.1, filter.kind) db.publicationAttrs] :=
  options_eq_rowAt rfl fun _ => scopeJoin_on isBase (by decide) _ _

theorem review_options (isBase : scope "i" = intakeRow entry) :
    (scopeJoin "node_reviews" "nr" (.text (asScopeStr filter.kind))).options db.tables scope =
      [rowAt reviewRow (entry.1, filter.kind) db.nodeReviews] :=
  options_eq_rowAt rfl fun _ => scopeJoin_on isBase (by decide) _ _

theorem override_options (isBase : scope "i" = intakeRow entry) {column : String}
    (notBase : "i" ≠ overrideAlias column) :
    (overrideJoin column (.text (asScopeStr filter.kind))).options db.tables scope =
      [rowAt overrideRow ((entry.1, filter.kind), column) db.nodeOverrides] :=
  options_eq_rowAt rfl fun override => overrideJoin_on isBase notBase override

theorem contributor_options (isBase : scope "i" = intakeRow entry) :
    (scopeJoin "node_contributors" "nc" (.text (asScopeStr filter.kind))).options db.tables scope =
      contributorOptions db (entry.1, filter.kind) := by
  have isMatching : (scopeJoin "node_contributors" "nc" (.text (asScopeStr filter.kind))).matching
      db.tables scope = (db.nodeContributors.entries.filter fun row =>
        decide ((row.2.intakeId, row.2.scope) = (entry.1, filter.kind))).map contributorRow := by
    show List.filter _ (db.nodeContributors.entries.map contributorRow) = _
    rw [List.filter_map]
    refine congrArg _ (List.filter_congr fun row _ => decide_eq_decide.mpr ?_)
    exact scopeJoin_on isBase (by decide) _ _
  rw [Join.options, isMatching, contributorOptions]

/-- **The joins place the rows of the intake.** -/
theorem placed_of_joined (isBase : scope "i" = intakeRow entry) {after : Sql.Scope}
    (member : after ∈ joined db.tables scope (wantedJoins filter)) : Placed db filter entry after := by
  obtain ⟨sameBase, picked⟩ := mem_joined (joins_independent db filter) member
  have pickedFrom : ∀ {join : Join Datum} {options : List Row}, join ∈ wantedJoins filter →
      join.options db.tables scope = options → after join.source ∈ options :=
    fun isJoin isOptions => isOptions ▸ picked _ isJoin
  refine ⟨sameBase.trans isBase, fun needed => ?_, fun column isColumn => ?_, fun needed => ?_,
    fun needed => ?_⟩
  · exact List.mem_singleton.mp (pickedFrom (mem_wantedJoins.mpr (.inl ⟨needed, rfl⟩))
      (npa_options isBase))
  · have isJoin : overrideJoin column (.text (asScopeStr filter.kind)) ∈ wantedJoins filter :=
      mem_wantedJoins.mpr (.inr (.inl ⟨column, isColumn, rfl⟩))
    refine List.mem_singleton.mp (pickedFrom isJoin (override_options isBase ?_))
    exact notBase_of_mem isJoin
  · exact pickedFrom (mem_wantedJoins.mpr (.inr (.inr (.inl ⟨needed, rfl⟩)))) (contributor_options isBase)
  · exact List.mem_singleton.mp (pickedFrom (mem_wantedJoins.mpr (.inr (.inr (.inr ⟨needed, rfl⟩))))
      (review_options isBase))

/-- Any of the contributors is placed by some scope. -/
theorem joined_contributor (isBase : scope "i" = intakeRow entry)
    (needed : filter.contributorName.isSome = true) {row : Row}
    (isOption : row ∈ contributorOptions db (entry.1, filter.kind)) :
    ∃ after ∈ joined db.tables scope (wantedJoins filter), after "nc" = row := by
  refine joined_of_pick (joins_independent db filter)
    (mem_wantedJoins.mpr (.inr (.inr (.inl ⟨needed, rfl⟩)))) ?_
  rw [contributor_options isBase]
  exact isOption

/-- Without a contributor filter an intake has one scope. -/
theorem joined_single (isBase : scope "i" = intakeRow entry) (unneeded : filter.contributorName = none) :
    (joined db.tables scope (wantedJoins filter)).length = 1 := by
  refine length_joined (joins_independent db filter) fun join isJoin => ?_
  have notBase := notBase_of_mem isJoin
  rcases mem_wantedJoins.mp isJoin with ⟨-, rfl⟩ | ⟨column, -, rfl⟩ | ⟨needed, -⟩ | ⟨-, rfl⟩
  · rw [npa_options isBase, List.length_singleton]
  · rw [override_options isBase notBase, List.length_singleton]
  · rw [unneeded] at needed
    cases needed
  · rw [review_options isBase, List.length_singleton]

/-! ### The tests on a placed scope -/

theorem forall_someTest {predicate : Option String} {test : Datum → Test Datum}
    {value : String → String} {holds : Test Datum → Prop} :
    (∀ one ∈ someTest predicate test value, holds one) ↔
      ∀ wanted ∈ predicate, holds (test (.text (value wanted))) := by
  cases predicate with
  | none => simp [someTest]
  | some wanted => simp [someTest]

theorem forall_anyTest {wanted : List String} {test : List Datum → Test Datum}
    {holds : Test Datum → Prop} :
    (∀ one ∈ anyTest wanted test, holds one) ↔ (wanted ≠ [] → holds (test (wanted.map .text))) := by
  cases wanted with
  | nil => simp [anyTest]
  | cons first rest => simp [anyTest]

theorem likePattern_toList (needle : String) :
    (likePattern needle).toList = '%' :: Like.escaped '\\' needle.toList ++ ['%'] := by
  unfold likePattern likeEscape
  simp only [String.toList_append, String.toList_ofList]
  rfl

theorem likeTest_true {tables : Tables} {expr : Expr Datum} {found : Option String} {needle : String}
    (isFound : expr.eval scope = .ofText found) :
    (likeTest expr (.text (likePattern needle))).True tables scope ↔
      ∃ value, found = some value ∧ Like.Contains needle.toList value.toList := by
  show (Cond.like expr (.param (.text (likePattern needle))) '\\').True scope ↔ _
  rw [Cond.like_true, isFound]
  refine exists_congr fun value => ?_
  rw [likePattern_toList, Like.like_contains (by decide)]
  refine and_congr_left fun _ => ?_
  cases found with
  | none => simp [Datum.ofText]
  | some found => simp [Datum.ofText]

theorem equalTest_text {tables : Tables} {expr : Expr Datum} {value : String} :
    (equalTest expr (.text value)).True tables scope ↔ expr.eval scope = .text value := by
  show (Cond.eq expr (.param (.text value))).True scope ↔ _
  rw [Cond.eq_true]
  refine ⟨And.left, fun same => ⟨same, ?_⟩⟩
  rw [same]
  exact fun isNull => by cases isNull

theorem equalTest_true {tables : Tables} {expr : Expr Datum} {found : Option String} {value : String}
    (isFound : expr.eval scope = .ofText found) :
    (equalTest expr (.text value)).True tables scope ↔ found = some value := by
  rw [equalTest_text, isFound]
  cases found with
  | none => simp [Datum.ofText]
  | some found => simp [Datum.ofText]

theorem amongTest_true {tables : Tables} {expr : Expr Datum} {found : Option String}
    {values : List String} (isFound : expr.eval scope = .ofText found) :
    (amongTest expr (values.map .text)).True tables scope ↔ ∃ value ∈ values, found = some value := by
  show (Cond.among expr ((values.map Datum.text).map .param)).True scope ↔ _
  rw [Cond.among_true (by simp), isFound]
  cases found with
  | none => simp [Datum.ofText]
  | some found => simp [Datum.ofText]

theorem npa_eval (placed : Placed db filter entry scope) (needed : needNpa filter = true)
    {column : String} (notKey : column ≠ "intake_id" ∧ column ≠ "scope") :
    scope "npa" column = .ofText (db.baseValue (entry.1, filter.kind) column) := by
  rw [placed.npa needed, rowAt, CatalogDb.baseValue, CatalogDb.publicationAttrsAt]
  cases db.publicationAttrs.lookup (entry.1, filter.kind) with
  | none => rfl
  | some attrs =>
    show publicationRow ⟨(entry.1, filter.kind), attrs⟩ column = .ofText (attrs.column column)
    rw [publicationRow, addressed, if_neg notKey.1, if_neg notKey.2]

/-- The columns the overlay can read, and whether the filter reads them. -/
def askedColumns (filter : IntakeFilter) : List (String × Bool) :=
  [("title", filter.titleSubstring.isSome), ("year", filter.year.isSome),
    ("container_title", filter.venueSubstring.isSome), ("doi", filter.doi.isSome),
    ("language", !filter.language.isEmpty)]

theorem overridden_of_asked (isEffective : filter.layer = .effective) {column : String}
    (isAsked : (column, true) ∈ askedColumns filter) : column ∈ overriddenColumns filter := by
  rw [overriddenColumns, if_neg (by rw [isEffective]; decide)]
  exact List.mem_filterMap.mpr ⟨(column, true), isAsked, rfl⟩

theorem needNpa_of_asked {column : String} (isAsked : (column, true) ∈ askedColumns filter) :
    needNpa filter = true := by
  simp only [askedColumns, List.mem_cons, Prod.mk.injEq, List.not_mem_nil, or_false] at isAsked
  unfold needNpa
  rcases isAsked with ⟨-, isSome⟩ | ⟨-, isSome⟩ | ⟨-, isSome⟩ | ⟨-, isSome⟩ | ⟨-, isSome⟩
  all_goals simp [← isSome]

/-- **The overridden expression is the effective value.** -/
theorem attrExpr_eval (placed : Placed db filter entry scope) (isEffective : filter.layer = .effective)
    {column : String} (isAsked : (column, true) ∈ askedColumns filter) :
    (attrExpr filter column).eval scope =
      .ofText ((db.effectivePublicationAttrs (entry.1, filter.kind)).get column) := by
  have isColumn := overridden_of_asked isEffective isAsked
  have notKey : column ≠ "intake_id" ∧ column ≠ "scope" := by
    have isOne := (overriddenColumns_sublist filter).subset isColumn
    constructor
    · rintro rfl
      exact absurd isOne (by decide)
    · rintro rfl
      exact absurd isOne (by decide)
  rw [effective_get, attrExpr, isEffective]
  simp only [Expr.eval, npa_eval placed (needNpa_of_asked isAsked) notKey]
  rw [placed.override column isColumn, rowAt]
  cases db.nodeOverrides.lookup ((entry.1, filter.kind), column) with
  | none => rfl
  | some override => rfl

theorem review_eval (placed : Placed db filter entry scope)
    (needed : filter.reviewStatusIn.isEmpty = false) :
    (Expr.coalesce (.column "nr" "status") (.literal "pending")).eval scope =
      .ofText (some (((db.nodeReviews.lookup (entry.1, filter.kind)).map NodeReview.status).getD
        "pending")) := by
  show (if scope "nr" "status" = .null then Datum.text "pending" else scope "nr" "status") = _
  rw [placed.review needed, rowAt]
  cases db.nodeReviews.lookup (entry.1, filter.kind) with
  | none => rfl
  | some review => rfl

theorem categoryTest_true (placed : Placed db filter entry scope) {categories : List String} :
    (categoryTest (.text (asScopeStr filter.kind)) (categories.map .text)).True db.tables scope ↔
      ∃ category ∈ categories, ((entry.1, filter.kind), category) ∈ db.nodeCategories := by
  have onRow : ∀ row : Address × String,
      (∀ cond ∈ ([.eq (.column "nc_cat" "intake_id") (.column "i" "intake_id"),
        .eq (.column "nc_cat" "scope") (.param (.text (asScopeStr filter.kind))),
        .among (.column "nc_cat" "category") ((categories.map .text).map .param)] : List (Cond Datum)),
        cond.True (Function.update scope "nc_cat" (categoryRow row))) ↔
          row.1 = (entry.1, filter.kind) ∧ row.2 ∈ categories := by
    intro row
    have isCategory : categoryRow row "category" = .text row.2 := by
      rw [categoryRow, addressed, if_neg (by decide), if_neg (by decide), if_pos rfl]
    rw [List.forall_mem_cons, List.forall_mem_cons, List.forall_mem_singleton, ← and_assoc,
      Cond.among_true (by simp)]
    refine and_congr (on_address placed.base (by decide) row.1 _) ?_
    simp only [Expr.eval, Function.update_self, isCategory, List.mem_map, Datum.text.injEq,
      exists_eq_right]
  show (∃ row ∈ db.nodeCategories.map categoryRow, _) ↔ _
  constructor
  · rintro ⟨columns, isColumns, holds⟩
    obtain ⟨row, isRow, rfl⟩ := List.mem_map.mp isColumns
    obtain ⟨isHere, isWanted⟩ := (onRow row).mp holds
    exact ⟨row.2, isWanted, isHere ▸ isRow⟩
  · rintro ⟨category, isWanted, isRow⟩
    exact ⟨_, List.mem_map_of_mem isRow, (onRow _).mpr ⟨rfl, isWanted⟩⟩

theorem forall_ite {tests : List (Test Datum)} {needed : Bool} {holds : Test Datum → Prop} :
    (∀ one ∈ if needed = true then tests else [], holds one) ↔
      (needed = true → ∀ one ∈ tests, holds one) := by
  cases needed with
  | true => simp
  | false => simp

/-- **The tests of a placed scope**: what the filter asks, the contributor the scope's own. -/
theorem tests_iff (placed : Placed db filter entry scope) (isEffective : filter.layer = .effective) :
    (∀ test ∈ wantedTests filter, test.True db.tables scope) ↔
      Fits db filter entry.1 entry.2 ∧
        ∀ name ∈ filter.contributorName, scope "nc" "name" = .text name ∧
          ∀ role ∈ filter.contributorRole, scope "nc" "role" = .text role := by
  have asked : ∀ {column : String} (_ : (column, true) ∈ askedColumns filter),
      (attrExpr filter column).eval scope =
        .ofText ((db.effectivePublicationAttrs (entry.1, filter.kind)).get column) :=
    attrExpr_eval placed isEffective
  have isStatus : (Expr.column "i" "status").eval scope = .ofText (some entry.2.status.asStr) := by
    rw [Expr.eval, placed.base]
    rfl
  have isFormat : (Expr.column "i" "format").eval scope = .ofText entry.2.format := by
    rw [Expr.eval, placed.base]
    rfl
  have isConfidence : filter.confidenceIn ≠ [] → (Expr.column "npa" "confidence").eval scope =
      .ofText (db.baseValue (entry.1, filter.kind) "confidence") := by
    intro isAny
    exact npa_eval placed (by simp [needNpa, isAny]) (by decide)
  have likes {needles : Option String} (column : String)
      (isAsked : ∀ needle ∈ needles, (column, true) ∈ askedColumns filter) :
      (∀ needle ∈ needles,
        (likeTest (attrExpr filter column) (.text (likePattern needle))).True db.tables scope) ↔
        ∀ needle ∈ needles, ∃ value,
          (db.effectivePublicationAttrs (entry.1, filter.kind)).get column = some value ∧
            Like.Contains needle.toList value.toList :=
    forall₂_congr fun needle isNeedle => likeTest_true (asked (isAsked needle isNeedle))
  have equals {wanted : Option String} (column : String)
      (isAsked : ∀ value ∈ wanted, (column, true) ∈ askedColumns filter) :
      (∀ value ∈ wanted, (equalTest (attrExpr filter column) (.text value)).True db.tables scope) ↔
        ∀ value ∈ wanted, (db.effectivePublicationAttrs (entry.1, filter.kind)).get column = some value :=
    forall₂_congr fun value isWanted => equalTest_true (asked (isAsked value isWanted))
  have title := likes "title" fun needle (isNeedle : needle ∈ filter.titleSubstring) => by
    simp [askedColumns, Option.mem_def.mp isNeedle]
  have venue := likes "container_title" fun needle (isNeedle : needle ∈ filter.venueSubstring) => by
    simp [askedColumns, Option.mem_def.mp isNeedle]
  have year := equals "year" fun value (isWanted : value ∈ filter.year) => by
    simp [askedColumns, Option.mem_def.mp isWanted]
  have doi := equals "doi" fun value (isWanted : value ∈ filter.doi) => by
    simp [askedColumns, Option.mem_def.mp isWanted]
  have status : (amongTest (.column "i" "status") ((filter.statuses.map IntakeStatus.asStr).map .text)).True
      db.tables scope ↔ entry.2.status ∈ filter.statuses := by
    rw [amongTest_true isStatus]
    constructor
    · rintro ⟨value, isValue, same⟩
      obtain ⟨wanted, isWanted, rfl⟩ := List.mem_map.mp isValue
      exact IntakeStatus.asStr_injective (Option.some.inj same) ▸ isWanted
    · exact fun member => ⟨_, List.mem_map_of_mem member, rfl⟩
  have review (isAny : filter.reviewStatusIn ≠ []) : (amongTest (.coalesce (.column "nr" "status")
      (.literal "pending")) (filter.reviewStatusIn.map .text)).True db.tables scope ↔
      ((db.nodeReviews.lookup (entry.1, filter.kind)).map NodeReview.status).getD "pending" ∈
        filter.reviewStatusIn := by
    rw [amongTest_true (review_eval placed (by simpa using isAny))]
    constructor
    · rintro ⟨value, isValue, same⟩
      exact Option.some.inj same ▸ isValue
    · exact fun member => ⟨_, member, rfl⟩
  have language (isAny : filter.language ≠ []) :
      (amongTest (attrExpr filter "language") (filter.language.map .text)).True db.tables scope ↔ _ :=
    amongTest_true (asked (by simp [askedColumns, isAny]))
  have confidence (isAny : filter.confidenceIn ≠ []) :
      (amongTest (.column "npa" "confidence") (filter.confidenceIn.map .text)).True db.tables scope ↔ _ :=
    amongTest_true (isConfidence isAny)
  simp only [wantedTests, List.forall_mem_append, forall_someTest, forall_anyTest, forall_ite, and_assoc, id_eq]
  rw [title, venue, year, doi, status, imp_congr_right language, imp_congr_right confidence,
    imp_congr_right review, forall₂_congr fun _ _ => equalTest_true isFormat,
    imp_congr_right fun _ => categoryTest_true placed]
  simp only [equalTest_text]
  constructor
  · rintro ⟨title, name, role, status, format, confidence, review, year, venue, doi, language, category⟩
    refine ⟨⟨title, venue, year, doi, language, fun isAny => status (by simpa using isAny), format, confidence,
      review, category⟩, fun wanted isWanted => ⟨name wanted isWanted, role (Option.isSome_of_mem isWanted)⟩⟩
  · rintro ⟨⟨title, venue, year, doi, language, status, format, confidence, review, category⟩, contributor⟩
    refine ⟨title, fun wanted isWanted => (contributor wanted isWanted).1, fun isSome => ?_,
      fun isAny => status (by simpa using isAny), format, confidence, review, year, venue, doi, language,
        category⟩
    obtain ⟨name, isName⟩ := Option.isSome_iff_exists.mp isSome
    exact (contributor name isName).2

/-- A contributor option is a row of the address, or the null row. -/
theorem mem_contributorOptions {address : Address} {row : Row}
    (isOption : row ∈ contributorOptions db address) : row = nullRow ∨
      ∃ entry ∈ db.nodeContributors.entries,
        (entry.2.intakeId, entry.2.scope) = address ∧ row = contributorRow entry := by
  unfold contributorOptions at isOption
  dsimp only at isOption
  split_ifs at isOption with isEmpty
  · exact .inl (List.mem_singleton.mp isOption)
  · obtain ⟨entry, isEntry, rfl⟩ := List.mem_map.mp isOption
    obtain ⟨onFile, isHere⟩ := List.mem_filter.mp isEntry
    exact .inr ⟨entry, onFile, of_decide_eq_true isHere, rfl⟩

theorem contributorRow_mem {address : Address} {entry : Sigma fun _ : Int => NodeContributor}
    (onFile : entry ∈ db.nodeContributors.entries)
    (isHere : (entry.2.intakeId, entry.2.scope) = address) :
    contributorRow entry ∈ contributorOptions db address := by
  have member : contributorRow entry ∈ (db.nodeContributors.entries.filter fun entry =>
      decide ((entry.2.intakeId, entry.2.scope) = address)).map contributorRow :=
    List.mem_map_of_mem (List.mem_filter.mpr ⟨onFile, decide_eq_true isHere⟩)
  unfold contributorOptions
  dsimp only
  rw [if_neg (List.ne_nil_of_mem member)]
  exact member

theorem contributorRow_name (row : Sigma fun _ : Int => NodeContributor) :
    contributorRow row "name" = .text row.2.name := by
  rw [contributorRow, addressed, if_neg (by decide), if_neg (by decide), if_pos rfl]

theorem contributorRow_role (row : Sigma fun _ : Int => NodeContributor) :
    contributorRow row "role" = .text row.2.role := by
  rw [contributorRow, addressed, if_neg (by decide), if_neg (by decide), if_neg (by decide), if_pos rfl]

/-- **The statement keeps the intakes the filter asks for.** -/
theorem scopes_ne_nil_iff (isEffective : filter.layer = .effective) :
    (wantedQuery filter).scopes db.tables (intakeRow entry) ≠ [] ↔
      Selects db filter entry.1 entry.2 := by
  have isBase : (wantedQuery filter).start (intakeRow entry) "i" = intakeRow entry :=
    Function.update_self ..
  constructor
  · intro isHit
    obtain ⟨scope, isScope⟩ := List.exists_mem_of_ne_nil _ isHit
    obtain ⟨isJoined, passes⟩ := List.mem_filter.mp isScope
    have placed := placed_of_joined isBase isJoined
    obtain ⟨fits, contributor⟩ := (tests_iff placed isEffective).mp (of_decide_eq_true passes)
    refine ⟨fits, fun name isName => ?_⟩
    obtain ⟨sameName, sameRole⟩ := contributor name isName
    rcases mem_contributorOptions (placed.contributor (Option.isSome_of_mem isName)) with
      isNull | ⟨row, onFile, isHere, isRow⟩
    · rw [isNull] at sameName
      cases sameName
    · rw [isRow] at sameName sameRole
      rw [contributorRow_name] at sameName
      refine ⟨row, onFile, isHere, Datum.text.inj sameName, fun role isRole => ?_⟩
      have same := sameRole role isRole
      rw [contributorRow_role] at same
      exact Datum.text.inj same
  · rintro ⟨fits, contributor⟩
    obtain ⟨scope, isJoined, named⟩ : ∃ scope ∈ joined db.tables
        ((wantedQuery filter).start (intakeRow entry)) (wantedJoins filter),
        ∀ name ∈ filter.contributorName, scope "nc" "name" = .text name ∧
          ∀ role ∈ filter.contributorRole, scope "nc" "role" = .text role := by
      cases isName : filter.contributorName with
      | none =>
        obtain ⟨scope, isJoined⟩ := List.exists_mem_of_ne_nil (joined db.tables
          ((wantedQuery filter).start (intakeRow entry)) (wantedJoins filter)) joined_ne_nil
        exact ⟨scope, isJoined, fun name isSome => (by cases isSome)⟩
      | some name =>
        obtain ⟨row, onFile, isHere, rfl, sameRole⟩ := contributor name isName
        obtain ⟨scope, isJoined, isRow⟩ := joined_contributor isBase
          (Option.isSome_of_mem isName) (contributorRow_mem onFile isHere)
        refine ⟨scope, isJoined, fun wanted isWanted => ?_⟩
        rw [isRow, contributorRow_name, contributorRow_role]
        obtain rfl := Option.some.inj isWanted
        exact ⟨rfl, fun role isRole => congrArg _ (sameRole role isRole)⟩
    have passes := (tests_iff (placed_of_joined isBase isJoined) isEffective).mpr ⟨fits, named⟩
    exact List.ne_nil_of_mem (List.mem_filter.mpr ⟨isJoined, decide_eq_true passes⟩)

end Scopes

/-! ### Pages and counts -/

section Pages

variable {db : CatalogDb} {filter : IntakeFilter}

/-- The intakes the statement keeps, by id. -/
def CatalogDb.kept (db : CatalogDb) (filter : IntakeFilter) : List (Sigma fun _ : Int => Intake) :=
  (db.intakes.entries.filter fun entry =>
    decide ((wantedQuery filter).scopes db.tables (intakeRow entry) ≠ [])).insertionSort
      fun one other => one.1 ≤ other.1

theorem intakes_primary (db : CatalogDb) : PrimaryKey (db.tables "intake") "intake_id" := by
  have isTable : db.tables "intake" = db.intakes.entries.map intakeRow := rfl
  rw [isTable]
  refine ⟨fun row isRow => ?_, ?_⟩
  · obtain ⟨entry, -, rfl⟩ := List.mem_map.mp isRow
    exact ⟨entry.1, rfl⟩
  · have keys : (db.intakes.entries.map intakeRow).map (fun row => row "intake_id") =
        (db.intakes.entries.map Sigma.fst).map Datum.int := by
      rw [List.map_map, List.map_map]
      rfl
    rw [keys]
    exact db.intakes.nodupKeys.map fun _ _ same => Datum.int.inj same

theorem hits_sorted (db : CatalogDb) (filter : IntakeFilter) :
    ((wantedQuery filter).hits db.tables).insertionSort (Row.Before "intake_id") =
      (db.kept filter).map intakeRow := by
  have isHits : (wantedQuery filter).hits db.tables = (db.intakes.entries.filter fun entry =>
      decide ((wantedQuery filter).scopes db.tables (intakeRow entry) ≠ [])).map intakeRow := by
    show (db.intakes.entries.map intakeRow).filter _ = _
    rw [List.filter_map]
    rfl
  rw [isHits, CatalogDb.kept]
  exact (List.map_insertionSort (fun one other : Sigma fun _ : Int => Intake => one.1 ≤ other.1)
    (Row.Before "intake_id") intakeRow _ fun _ _ _ _ => Iff.rfl).symm

theorem page_prepared (filter : IntakeFilter) (limit offset : Nat) :
    (pageSelect filter).prepare ((buildFilterFragments filter).params ++ [.int limit] ++ [.int offset]) =
      some ⟨wantedQuery filter, (pageSelect filter).groupBy, "intake_id",
        .param (.int limit), .param (.int offset)⟩ := by
  rw [Select.prepare, pageSelect, List.append_assoc, fragments_bind]
  rfl

theorem ordered_kept (db : CatalogDb) (filter : IntakeFilter) (limit offset : Expr Datum) :
    Select.ordered db.tables ⟨wantedQuery filter, (pageSelect filter).groupBy, "intake_id", limit, offset⟩ =
      (db.kept filter).map intakeRow := by
  rw [← hits_sorted]
  refine ordered_eq (intakes_primary db) ?_
  show (if filter.contributorName.isSome then some "intake_id" else none) = some "intake_id" ∨
    (if filter.contributorName.isSome then some "intake_id" else none) = none ∧ _
  cases isName : filter.contributorName with
  | some name => exact .inl rfl
  | none =>
    refine .inr ⟨rfl, fun row isRow => ?_⟩
    obtain ⟨entry, -, rfl⟩ := List.mem_map.mp isRow
    have single : (joined db.tables ((wantedQuery filter).start (intakeRow entry))
        (wantedJoins filter)).length = 1 :=
      joined_single (Function.update_self ..) isName
    exact (List.length_filter_le _ _).trans single.le

theorem fromRow_intakeRow (entry : Sigma fun _ : Int => Intake) :
    Intake.fromRow (intakeRow entry) = some (entry.1, entry.2) := by
  obtain ⟨intakeId, status, format⟩ := entry
  have isStatus : IntakeStatus.fromDbStr status.asStr = some status := by
    cases status <;> rfl
  cases format with
  | none =>
    show (IntakeStatus.fromDbStr status.asStr).map _ = _
    rw [isStatus]
    rfl
  | some format =>
    show (IntakeStatus.fromDbStr status.asStr).map _ = _
    rw [isStatus]
    rfl

theorem mapM_fromRow (entries : List (Sigma fun _ : Int => Intake)) :
    (entries.map intakeRow).mapM Intake.fromRow = some (entries.map fun entry => (entry.1, entry.2)) := by
  induction entries with
  | nil => rfl
  | cons entry rest ih =>
    rw [List.map_cons, List.mapM_cons, fromRow_intakeRow, ih]
    rfl

theorem findIntakes_eq (db : CatalogDb) (filter : IntakeFilter) (limit offset : Nat) :
    db.findIntakes filter limit offset =
      some ((((db.kept filter).map fun entry => (entry.1, entry.2)).drop offset).take limit) := by
  unfold CatalogDb.findIntakes
  by_cases isZero : limit = 0
  · rw [if_pos isZero, isZero, List.take_zero]
  · rw [if_neg isZero, page_prepared, Option.bind_eq_bind, Option.bind_some, Select.run, ordered_kept]
    show ((((db.kept filter).map intakeRow).drop offset).take limit).mapM Intake.fromRow = _
    rw [← List.map_drop, ← List.map_take, mapM_fromRow, List.map_take, List.map_drop]

theorem countFindIntakes_eq (db : CatalogDb) (filter : IntakeFilter) :
    db.countFindIntakes filter = some (db.kept filter).length := by
  have bound := fragments_bind filter []
  rw [List.append_nil] at bound
  unfold CatalogDb.countFindIntakes
  rw [bound, Option.bind_eq_bind, Option.bind_some]
  show some ((wantedQuery filter).countDistinct db.tables "intake_id") = _
  have sameLength := congrArg List.length (hits_sorted db filter)
  rw [List.length_insertionSort, List.length_map] at sameLength
  rw [countDistinct_eq (intakes_primary db), sameLength]

/-- Consecutive pages are the start of the list. -/
theorem pages_flatten {α : Type} (found : List α) (limit pages : Nat) :
    ((List.range pages).map fun page => (found.drop (page * limit)).take limit).flatten =
      found.take (pages * limit) := by
  induction pages with
  | zero => simp
  | succ pages ih =>
    rw [List.range_succ, List.map_append, List.flatten_append, ih, Nat.succ_mul, List.take_add]
    simp

theorem kept_sorted (db : CatalogDb) (filter : IntakeFilter) :
    ((db.kept filter).map Sigma.fst).Pairwise (· < ·) := by
  have perm : (db.kept filter).Perm _ := List.perm_insertionSort _ _
  have distinct : ((db.kept filter).map Sigma.fst).Nodup :=
    (perm.map _).nodup_iff.mpr
      (List.Nodup.sublist (List.filter_sublist.map Sigma.fst) db.intakes.nodupKeys)
  have sorted : ((db.kept filter).map Sigma.fst).Pairwise (· ≤ ·) :=
    List.pairwise_map.mpr (List.pairwise_insertionSort _ _)
  exact (sorted.and distinct).imp fun both => lt_of_le_of_ne both.1 both.2

theorem mem_kept (isEffective : filter.layer = .effective) (entry : Sigma fun _ : Int => Intake) :
    entry ∈ db.kept filter ↔
      db.intakeById entry.1 = some entry.2 ∧ Selects db filter entry.1 entry.2 := by
  rw [CatalogDb.kept, List.mem_insertionSort, List.mem_filter, decide_eq_true_iff,
    scopes_ne_nil_iff isEffective]
  exact and_congr_left fun _ => AList.mem_lookup_iff.symm

/-- **An effective-layer search agrees with the effective view.** -/
theorem search_agrees (db : CatalogDb) (filter : IntakeFilter) (isEffective : filter.layer = .effective) :
    (buildFilterFragments filter).query.bind (buildFilterFragments filter).params =
      some (wantedQuery filter, []) ∧
    ∃ found : List (Int × Intake),
      (found.map Prod.fst).Pairwise (· < ·) ∧
      (∀ intakeId intake, (intakeId, intake) ∈ found ↔
        db.intakeById intakeId = some intake ∧ Selects db filter intakeId intake) ∧
      (∀ limit offset, db.findIntakes filter limit offset = some ((found.drop offset).take limit)) ∧
      db.countFindIntakes filter = some found.length ∧
      (∀ limit offset, db.findIntakesPage filter limit offset =
        some ((found.drop offset).take limit, found.length)) ∧
      ∀ limit pages, found.length ≤ pages * limit →
        ∃ parts, ((List.range pages).mapM fun page => db.findIntakes filter limit (page * limit)) =
          some parts ∧ parts.flatten = found := by
  have bound := fragments_bind filter []
  rw [List.append_nil] at bound
  have counted := countFindIntakes_eq db filter
  refine ⟨bound, (db.kept filter).map fun entry => (entry.1, entry.2), ?_, fun intakeId intake => ?_,
    findIntakes_eq db filter, ?_, fun limit offset => ?_, fun limit pages covers => ?_⟩
  · rw [List.map_map]
    exact kept_sorted db filter
  · rw [← mem_kept isEffective ⟨intakeId, intake⟩, List.mem_map]
    constructor
    · rintro ⟨⟨_, _⟩, isKept, same⟩
      cases same
      exact isKept
    · exact fun isKept => ⟨_, isKept, rfl⟩
  · rw [List.length_map]
    exact counted
  · rw [CatalogDb.findIntakesPage, counted, findIntakes_eq, List.length_map]
    rfl
  · refine ⟨_, ?_, (pages_flatten _ limit pages).trans (List.take_of_length_le covers)⟩
    simp only [findIntakes_eq]
    exact List.mapM_pure

/-- A title search finds the intake whose base title has the words, and not the one whose override
hides them. -/
theorem search_agrees_title :
    let attrs : PublicationAttrs := { title := some "Rust 101%" }
    let db : CatalogDb :=
      { intakes := (AList.insert 1 ⟨.embedded, none⟩ (AList.insert 2 ⟨.embedded, none⟩ ∅) :
          AList fun _ : Int => Intake)
        publicationAttrs := AList.insert (1, .book) attrs (AList.insert (2, .book) attrs ∅)
        nodeOverrides := AList.singleton ((2, .book), "title") ⟨none, true, "curator", none⟩
        nodeContributors := ∅, contributorSeq := 0, nodeReviews := ∅, nodeCategories := []
        metadataAudit := [], auditSeq := 0 }
    let filter : IntakeFilter := { layer := .effective, titleSubstring := some "UST 101%" }
    (∃ found : List (Int × Intake), db.countFindIntakes filter = some found.length ∧
      ∀ limit offset, db.findIntakes filter limit offset = some ((found.drop offset).take limit)) ∧
    db.findIntakes filter 10 0 = some [(1, ⟨.embedded, none⟩)] := by
  intro attrs db filter
  obtain ⟨-, found, -, -, pages, count, -⟩ := search_agrees db filter rfl
  exact ⟨⟨found, count, pages⟩, by decide⟩

end Pages

end Bookrack.Catalog
