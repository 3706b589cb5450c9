/-
Searching the intakes (`catalog/src/intake.rs`): the filter, the statement built from it, and the
queries that run it.

The text of the statement is a term with blanks for its `?`; what the source pushes onto the text and
onto the parameters is pushed together. The debug assertions on the lengths of the lists are left out.
-/

import Bookrack.Base.Sql
import Bookrack.Catalog.Effective

namespace Bookrack.Catalog

open Queue (ItemKind)
open Sql

/-- `ItemKind::as_scope_str`. -/
def asScopeStr : ItemKind → String
  | .book => "book"
  | .paper => "paper"
  | .reference => "reference"

theorem asScopeStr_injective {kind other : ItemKind} (same : asScopeStr kind = asScopeStr other) :
    kind = other := by
  cases kind <;> cases other <;> first | rfl | (exfalso; revert same; decide)

/-- `IntakeStatus::from_db_str`. -/
def IntakeStatus.fromDbStr (s : String) : Option IntakeStatus :=
  [IntakeStatus.pending, .extracted, .dedupHold, .embedded, .aborted, .needsOcr].find? fun status =>
    decide (status.asStr = s)

/-! ### The tables as SQL sees them -/

def intakeRow (entry : Sigma fun _ : Int => Intake) : Row := fun name =>
  if name = "intake_id" then .int entry.1
  else if name = "status" then .text entry.2.status.asStr
  else if name = "format" then .ofText entry.2.format
  else .null

/-- The columns of a row at an address. -/
def addressed (address : Address) (columns : Row) : Row := fun name =>
  if name = "intake_id" then .int address.1
  else if name = "scope" then .text (asScopeStr address.2)
  else columns name

def publicationRow (entry : Sigma fun _ : Address => PublicationAttrs) : Row :=
  addressed entry.1 fun name => .ofText (entry.2.column name)

def overrideRow (entry : Sigma fun _ : Address × String => NodeOverride) : Row :=
  addressed entry.1.1 fun name =>
    if name = "field" then .text entry.1.2
    else if name = "value" then .ofText entry.2.value
    else .null

def contributorRow (entry : Sigma fun _ : Int => NodeContributor) : Row :=
  addressed (entry.2.intakeId, entry.2.scope) fun name =>
    if name = "name" then .text entry.2.name
    else if name = "role" then .text entry.2.role
    else .null

def reviewRow (entry : Sigma fun _ : Address => NodeReview) : Row :=
  addressed entry.1 fun name => if name = "status" then .text entry.2.status else .null

def categoryRow (entry : Address × String) : Row :=
  addressed entry.1 fun name => if name = "category" then .text entry.2 else .null

/-- The tables a search reads. -/
def CatalogDb.tables (db : CatalogDb) : Tables := fun table =>
  if table = "intake" then db.intakes.entries.map intakeRow
  else if table = "node_publication_attrs" then db.publicationAttrs.entries.map publicationRow
  else if table = "node_overrides" then db.nodeOverrides.entries.map overrideRow
  else if table = "node_contributors" then db.nodeContributors.entries.map contributorRow
  else if table = "node_reviews" then db.nodeReviews.entries.map reviewRow
  else if table = "node_categories" then db.nodeCategories.map categoryRow
  else []

/-- `Intake::from_row`. -/
def Intake.fromRow (row : Row) : Option (Int × Intake) :=
  match row "intake_id", row "status", row "format" with
  | .int intakeId, .text status, .null =>
    (IntakeStatus.fromDbStr status).map fun status => (intakeId, ⟨status, none⟩)
  | .int intakeId, .text status, .text format =>
    (IntakeStatus.fromDbStr status).map fun status => (intakeId, ⟨status, some format⟩)
  | _, _, _ => none

/-! ### The filter -/

/-- `MatchLayer`. -/
inductive MatchLayer
  | base
  | effective
  deriving DecidableEq, Repr

/-- `IntakeFilter`. -/
structure IntakeFilter where
  kind : ItemKind := .book
  layer : MatchLayer := .base
  titleSubstring : Option String := none
  contributorName : Option String := none
  contributorRole : Option String := none
  statuses : List IntakeStatus := []
  format : Option String := none
  confidenceIn : List String := []
  reviewStatusIn : List String := []
  year : Option String := none
  venueSubstring : Option String := none
  doi : Option String := none
  categories : List String := []
  language : List String := []
  deriving DecidableEq, Repr

/-- `overridden_columns`. -/
def overriddenColumns (filter : IntakeFilter) : List String :=
  if filter.layer = .base then []
  else
    [("title", filter.titleSubstring.isSome), ("year", filter.year.isSome),
      ("container_title", filter.venueSubstring.isSome), ("doi", filter.doi.isSome),
      ("language", !filter.language.isEmpty)].filterMap fun active =>
        if active.2 then some active.1 else none

/-- `override_alias`. -/
def overrideAlias (column : String) : String := "o_" ++ column

/-- `attr_expr`. -/
def attrExpr {π : Type} (filter : IntakeFilter) (column : String) : Expr π :=
  match filter.layer with
  | .base => .column "npa" column
  | .effective =>
    .caseNull (.column (overrideAlias column) "intake_id") (.column "npa" column)
      (.column (overrideAlias column) "value")

/-- `like_escape`. -/
def likeEscape (s : String) : String :=
  String.ofList (s.toList.flatMap fun c => if c = '%' ∨ c = '_' ∨ c = '\\' then ['\\', c] else [c])

/-! ### The pieces of the statement -/

section Pieces

variable {π : Type}

/-- `LEFT JOIN table source ON source.intake_id = i.intake_id AND source.scope = ?`. -/
def scopeJoin (table source : String) (scope : π) : Join π :=
  ⟨table, source, [.eq (.column source "intake_id") (.column "i" "intake_id"),
    .eq (.column source "scope") (.param scope)]⟩

/-- The join of one column's override, `… AND source.field = 'column'`. -/
def overrideJoin (column : String) (scope : π) : Join π :=
  ⟨"node_overrides", overrideAlias column,
    [.eq (.column (overrideAlias column) "intake_id") (.column "i" "intake_id"),
      .eq (.column (overrideAlias column) "scope") (.param scope),
      .eq (.column (overrideAlias column) "field") (.literal column)]⟩

/-- `expr LIKE ? ESCAPE '\\'`. -/
def likeTest (expr : Expr π) (pattern : π) : Test π := .holds (.like expr (.param pattern) '\\')

/-- `expr = ?`. -/
def equalTest (expr : Expr π) (value : π) : Test π := .holds (.eq expr (.param value))

/-- `expr IN (?, …)`. -/
def amongTest (expr : Expr π) (values : List π) : Test π := .holds (.among expr (values.map .param))

/-- `EXISTS (SELECT 1 FROM node_categories nc_cat WHERE …)`. -/
def categoryTest (scope : π) (categories : List π) : Test π :=
  .present "node_categories" "nc_cat"
    [.eq (.column "nc_cat" "intake_id") (.column "i" "intake_id"),
      .eq (.column "nc_cat" "scope") (.param scope),
      .among (.column "nc_cat" "category") (categories.map .param)]

end Pieces

/-- The text built so far, with blanks, and the parameters pushed so far. -/
structure Fragments where
  joins : List (Join Unit)
  tests : List (Test Unit)
  params : List Datum

namespace Fragments

def join (fragments : Fragments) (join : Join Unit) (values : List Datum) : Fragments :=
  { fragments with joins := fragments.joins ++ [join], params := fragments.params ++ values }

def test (fragments : Fragments) (test : Test Unit) (values : List Datum) : Fragments :=
  { fragments with tests := fragments.tests ++ [test], params := fragments.params ++ values }

/-- Pushed for a predicate the filter has. -/
def testSome (fragments : Fragments) (predicate : Option String) (test : Test Unit)
    (value : String → String) : Fragments :=
  match predicate with
  | some wanted => fragments.test test [.text (value wanted)]
  | none => fragments

/-- Pushed for a set the filter restricts to; one `?` for each member. -/
def testAny (fragments : Fragments) (wanted : List String) (test : List Unit → Test Unit)
    (before : List Datum) : Fragments :=
  if wanted.isEmpty then fragments
  else fragments.test (test (wanted.map blank)) (before ++ wanted.map .text)

end Fragments

/-- `build_filter_fragments`. -/
def buildFilterFragments (filter : IntakeFilter) : Fragments :=
  let scope := Datum.text (asScopeStr filter.kind)
  let needNpa := filter.titleSubstring.isSome || !filter.confidenceIn.isEmpty ||
    filter.year.isSome || filter.venueSubstring.isSome || filter.doi.isSome ||
    !filter.language.isEmpty
  let fragments : Fragments := ⟨[], [], []⟩
  let fragments :=
    if needNpa then fragments.join (scopeJoin "node_publication_attrs" "npa" ()) [scope]
    else fragments
  let fragments := (overriddenColumns filter).foldl
    (fun fragments column => fragments.join (overrideJoin column ()) [scope]) fragments
  let fragments :=
    if filter.contributorName.isSome then
      fragments.join (scopeJoin "node_contributors" "nc" ()) [scope]
    else fragments
  let fragments :=
    if filter.reviewStatusIn.isEmpty then fragments
    else fragments.join (scopeJoin "node_reviews" "nr" ()) [scope]
  let fragments := fragments.testSome filter.titleSubstring (likeTest (attrExpr filter "title") ())
    fun needle => "%" ++ likeEscape needle ++ "%"
  let fragments := fragments.testSome filter.contributorName (equalTest (.column "nc" "name") ()) id
  let fragments :=
    if filter.contributorName.isSome then
      fragments.testSome filter.contributorRole (equalTest (.column "nc" "role") ()) id
    else fragments
  let fragments := fragments.testAny (filter.statuses.map IntakeStatus.asStr)
    (amongTest (.column "i" "status")) []
  let fragments := fragments.testSome filter.format (equalTest (.column "i" "format") ()) id
  let fragments := fragments.testAny filter.confidenceIn (amongTest (.column "npa" "confidence")) []
  let fragments := fragments.testAny filter.reviewStatusIn
    (amongTest (.coalesce (.column "nr" "status") (.literal "pending"))) []
  let fragments := fragments.testSome filter.year (equalTest (attrExpr filter "year") ()) id
  let fragments := fragments.testSome filter.venueSubstring
    (likeTest (attrExpr filter "container_title") ()) fun needle => "%" ++ likeEscape needle ++ "%"
  let fragments := fragments.testSome filter.doi (equalTest (attrExpr filter "doi") ()) id
  let fragments := fragments.testAny filter.language (amongTest (attrExpr filter "language")) []
  fragments.testAny filter.categories (categoryTest ()) [scope]

/-! ### The queries -/

/-- `FROM intake i{joins}{where_clause}`. -/
def Fragments.query (fragments : Fragments) : Query Unit :=
  ⟨"intake", "i", fragments.joins, fragments.tests⟩

/-- The page statement. -/
def pageSelect (filter : IntakeFilter) : Select Unit :=
  ⟨(buildFilterFragments filter).query,
    if filter.contributorName.isSome then some "intake_id" else none, "intake_id", .param (), .param ()⟩

/-- `Catalog::find_intakes`; `none` is an error. -/
def CatalogDb.findIntakes (db : CatalogDb) (filter : IntakeFilter) (limit offset : Nat) :
    Option (List (Int × Intake)) :=
  if limit = 0 then some []
  else do
    let select ← (pageSelect filter).prepare
      ((buildFilterFragments filter).params ++ [.int limit] ++ [.int offset])
    (select.run db.tables).mapM Intake.fromRow

/-- `Catalog::count_find_intakes`. -/
def CatalogDb.countFindIntakes (db : CatalogDb) (filter : IntakeFilter) : Option Nat := do
  let (query, values) ← (buildFilterFragments filter).query.bind (buildFilterFragments filter).params
  if values.isEmpty then some (query.countDistinct db.tables "intake_id") else none

/-- `Catalog::find_intakes_page`: both statements in one read transaction. -/
def CatalogDb.findIntakesPage (db : CatalogDb) (filter : IntakeFilter) (limit offset : Nat) :
    Option (List (Int × Intake) × Nat) := do
  let total ← db.countFindIntakes filter
  let page ← db.findIntakes filter limit offset
  return (page, total)

end Bookrack.Catalog
