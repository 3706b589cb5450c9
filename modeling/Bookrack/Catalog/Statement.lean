/-
The statement of a search and its parameters (`catalog/src/intake.rs`).

* `wantedQuery`: the statement a filter asks for, with its values in place.
* **`fragments_bind`**: the text and the parameters of `buildFilterFragments` are that statement's;
  SQLite fills each `?` with the value it was pushed for.
-/

import Bookrack.Catalog.Filter

namespace Bookrack.Catalog

open Queue (ItemKind)
open Sql

/-! ### The statement with its values -/

def someTest (predicate : Option String) (test : Datum → Test Datum) (value : String → String) :
    List (Test Datum) :=
  predicate.toList.map fun wanted => test (.text (value wanted))

def anyTest (wanted : List String) (test : List Datum → Test Datum) : List (Test Datum) :=
  if wanted.isEmpty then [] else [test (wanted.map .text)]

/-- Some predicate reads `node_publication_attrs`. -/
def needNpa (filter : IntakeFilter) : Bool :=
  filter.titleSubstring.isSome || !filter.confidenceIn.isEmpty || filter.year.isSome ||
    filter.venueSubstring.isSome || filter.doi.isSome || !filter.language.isEmpty

def wantedJoins (filter : IntakeFilter) : List (Join Datum) :=
  let scope := Datum.text (asScopeStr filter.kind)
  (if needNpa filter then [scopeJoin "node_publication_attrs" "npa" scope] else []) ++
    (overriddenColumns filter).map (overrideJoin · scope) ++
    (if filter.contributorName.isSome then [scopeJoin "node_contributors" "nc" scope] else []) ++
    (if filter.reviewStatusIn.isEmpty then [] else [scopeJoin "node_reviews" "nr" scope])

/-- A needle as a `LIKE` pattern. -/
def likePattern (needle : String) : String := "%" ++ likeEscape needle ++ "%"

def wantedTests (filter : IntakeFilter) : List (Test Datum) :=
  someTest filter.titleSubstring (likeTest (attrExpr filter "title")) likePattern ++
  someTest filter.contributorName (equalTest (.column "nc" "name")) id ++
  (if filter.contributorName.isSome then
    someTest filter.contributorRole (equalTest (.column "nc" "role")) id else []) ++
  anyTest (filter.statuses.map IntakeStatus.asStr) (amongTest (.column "i" "status")) ++
  someTest filter.format (equalTest (.column "i" "format")) id ++
  anyTest filter.confidenceIn (amongTest (.column "npa" "confidence")) ++
  anyTest filter.reviewStatusIn
    (amongTest (.coalesce (.column "nr" "status") (.literal "pending"))) ++
  someTest filter.year (equalTest (attrExpr filter "year")) id ++
  someTest filter.venueSubstring (likeTest (attrExpr filter "container_title")) likePattern ++
  someTest filter.doi (equalTest (attrExpr filter "doi")) id ++
  anyTest filter.language (amongTest (attrExpr filter "language")) ++
  anyTest filter.categories (categoryTest (.text (asScopeStr filter.kind)))

/-- The statement a filter asks for. -/
def wantedQuery (filter : IntakeFilter) : Query Datum :=
  ⟨"intake", "i", wantedJoins filter, wantedTests filter⟩

/-! ### What is bound where -/

/-- The fragments are the text of these joins and tests, and hold their values. -/
structure Built (fragments : Fragments) (joins : List (Join Datum)) (tests : List (Test Datum)) :
    Prop where
  isJoins : fragments.joins = joins.map (Join.map blank)
  isTests : fragments.tests = tests.map (Test.map blank)
  isParams : fragments.params = joins.flatMap Join.params ++ tests.flatMap Test.params

section Building

variable {fragments : Fragments} {joins : List (Join Datum)} {tests : List (Test Datum)}

/-- Joins are pushed before any test. -/
theorem Built.join (built : Built fragments joins []) (join : Join Datum) :
    Built (fragments.join (join.map blank) join.params) (joins ++ [join]) [] := by
  obtain ⟨isJoins, isTests, isParams⟩ := built
  refine ⟨?_, isTests, ?_⟩
  · simp only [Fragments.join, isJoins, List.map_append, List.map_cons, List.map_nil]
  · simp only [Fragments.join, isParams, List.flatMap_append, List.flatMap_cons, List.flatMap_nil,
      List.append_nil]

theorem Built.joinIf (built : Built fragments joins []) (needed : Bool) (join : Join Datum) :
    Built (if needed = true then fragments.join (join.map blank) join.params else fragments)
      (joins ++ if needed = true then [join] else []) [] := by
  cases needed with
  | true => exact built.join join
  | false => rwa [if_neg Bool.false_ne_true, if_neg Bool.false_ne_true, List.append_nil]

theorem Built.joinUnless (built : Built fragments joins []) (unneeded : Bool) (join : Join Datum) :
    Built (if unneeded = true then fragments else fragments.join (join.map blank) join.params)
      (joins ++ if unneeded = true then [] else [join]) [] := by
  cases unneeded with
  | true => rwa [if_pos rfl, if_pos rfl, List.append_nil]
  | false => exact built.join join

theorem Built.joins_of (built : Built fragments joins []) (wanted : List (Join Datum)) :
    Built (wanted.foldl (fun fragments join => fragments.join (join.map blank) join.params) fragments)
      (joins ++ wanted) [] := by
  induction wanted generalizing fragments joins with
  | nil => rwa [List.append_nil]
  | cons join rest ih =>
    rw [show joins ++ join :: rest = (joins ++ [join]) ++ rest by simp]
    exact ih (built.join join)

theorem Built.test (built : Built fragments joins tests) (test : Test Datum) :
    Built (fragments.test (test.map blank) test.params) joins (tests ++ [test]) := by
  obtain ⟨isJoins, isTests, isParams⟩ := built
  refine ⟨isJoins, ?_, ?_⟩
  · simp only [Fragments.test, isTests, List.map_append, List.map_cons, List.map_nil]
  · simp only [Fragments.test, isParams, List.flatMap_append, List.flatMap_cons, List.flatMap_nil,
      List.append_nil, List.append_assoc]

theorem Built.testSome (built : Built fragments joins tests) {predicate : Option String}
    {test : Datum → Test Datum} {text : Test Unit} {value : String → String}
    (isText : ∀ datum, (test datum).map blank = text) (isParam : ∀ datum, (test datum).params = [datum]) :
    Built (fragments.testSome predicate text value) joins (tests ++ someTest predicate test value) := by
  cases predicate with
  | none => simpa [someTest, Fragments.testSome] using built
  | some wanted =>
    have pushed := built.test (test (.text (value wanted)))
    rw [isText, isParam] at pushed
    exact pushed

theorem Built.testAny (built : Built fragments joins tests) {wanted : List String}
    {test : List Datum → Test Datum} {text : List Unit → Test Unit} {before : List Datum}
    (isText : ∀ data, (test data).map blank = text (data.map blank))
    (isParams : ∀ data, (test data).params = before ++ data) :
    Built (fragments.testAny wanted text before) joins (tests ++ anyTest wanted test) := by
  unfold Fragments.testAny anyTest
  by_cases isEmpty : wanted.isEmpty = true
  · rw [if_pos isEmpty, if_pos isEmpty, List.append_nil]
    exact built
  · rw [if_neg isEmpty, if_neg isEmpty]
    have pushed := built.test (test (wanted.map .text))
    rw [isText, isParams, List.map_map] at pushed
    exact pushed

@[simp] theorem attrExpr_map (filter : IntakeFilter) (column : String) :
    (attrExpr filter column : Expr Datum).map blank = attrExpr filter column := by
  unfold attrExpr
  cases filter.layer <;> rfl

@[simp] theorem attrExpr_params (filter : IntakeFilter) (column : String) :
    (attrExpr filter column : Expr Datum).params = [] := by
  unfold attrExpr
  cases filter.layer <;> rfl

theorem map_params (data : List Datum) :
    (data.map Expr.param).map (Expr.map blank) = (data.map blank).map Expr.param := by
  rw [List.map_map, List.map_map]
  rfl

theorem flatMap_params (data : List Datum) : (data.map Expr.param).flatMap Expr.params = data := by
  induction data with
  | nil => rfl
  | cons datum rest ih => rw [List.map_cons, List.flatMap_cons, ih]; rfl

theorem Built.testIf (built : Built fragments joins tests) (needed : Bool) {after : Fragments}
    {more : List (Test Datum)} (next : Built fragments joins tests → Built after joins (tests ++ more)) :
    Built (if needed = true then after else fragments) joins
      (tests ++ if needed = true then more else []) := by
  cases needed with
  | true => exact next built
  | false => rwa [if_neg Bool.false_ne_true, if_neg Bool.false_ne_true, List.append_nil]

variable {expr : Expr Datum} {text : Expr Unit}

/-- A text predicate on an expression without parameters. -/
theorem Built.likeTest (built : Built fragments joins tests) (wanted : Option String)
    (isText : expr.map blank = text) (noParams : expr.params = []) :
    Built (fragments.testSome wanted (Catalog.likeTest text ()) likePattern) joins
      (tests ++ someTest wanted (Catalog.likeTest expr) likePattern) := by
  refine built.testSome (fun datum => ?_) (fun datum => ?_)
  · simp only [Catalog.likeTest, Test.map, Cond.map, Expr.map, isText]
  · simp only [Catalog.likeTest, Test.params, Cond.params, Expr.params, noParams, List.nil_append]

theorem Built.equalTest (built : Built fragments joins tests) (wanted : Option String)
    (isText : expr.map blank = text) (noParams : expr.params = []) :
    Built (fragments.testSome wanted (Catalog.equalTest text ()) id) joins
      (tests ++ someTest wanted (Catalog.equalTest expr) id) := by
  refine built.testSome (fun datum => ?_) (fun datum => ?_)
  · simp only [Catalog.equalTest, Test.map, Cond.map, Expr.map, isText]
  · simp only [Catalog.equalTest, Test.params, Cond.params, Expr.params, noParams, List.nil_append]

theorem Built.amongTest (built : Built fragments joins tests) (wanted : List String)
    (isText : expr.map blank = text) (noParams : expr.params = []) :
    Built (fragments.testAny wanted (Catalog.amongTest text) []) joins
      (tests ++ anyTest wanted (Catalog.amongTest expr)) := by
  refine built.testAny (fun data => ?_) (fun data => ?_)
  · simp only [Catalog.amongTest, Test.map, Cond.map, map_params, isText]
  · simp only [Catalog.amongTest, Test.params, Cond.params, flatMap_params, noParams]

/-- **The fragments are those of the wanted statement.** -/
theorem fragments_built (filter : IntakeFilter) :
    Built (buildFilterFragments filter) (wantedJoins filter) (wantedTests filter) := by
  have start : Built ⟨[], [], []⟩ [] [] := ⟨rfl, rfl, rfl⟩
  have npa := start.joinIf (needNpa filter)
    (scopeJoin "node_publication_attrs" "npa" (.text (asScopeStr filter.kind)))
  have overrides := npa.joins_of
    ((overriddenColumns filter).map (overrideJoin · (.text (asScopeStr filter.kind))))
  rw [List.foldl_map] at overrides
  have nc := overrides.joinIf filter.contributorName.isSome
    (scopeJoin "node_contributors" "nc" (.text (asScopeStr filter.kind)))
  have nr := nc.joinUnless filter.reviewStatusIn.isEmpty
    (scopeJoin "node_reviews" "nr" (.text (asScopeStr filter.kind)))
  rw [List.nil_append] at nr
  unfold buildFilterFragments wantedTests
  dsimp only
  refine Built.testAny ?_ (fun data => ?_) (fun data => ?_)
  · refine Built.amongTest ?_ _ (attrExpr_map filter _) (attrExpr_params filter _)
    refine Built.equalTest ?_ _ (attrExpr_map filter _) (attrExpr_params filter _)
    refine Built.likeTest ?_ _ (attrExpr_map filter _) (attrExpr_params filter _)
    refine Built.equalTest ?_ _ (attrExpr_map filter _) (attrExpr_params filter _)
    refine Built.amongTest ?_ _ rfl rfl
    refine Built.amongTest ?_ _ rfl rfl
    refine Built.equalTest ?_ _ rfl rfl
    refine Built.amongTest ?_ _ rfl rfl
    refine Built.testIf ?_ _ fun built => Built.equalTest built _ rfl rfl
    refine Built.equalTest ?_ _ rfl rfl
    exact Built.likeTest nr _ (attrExpr_map filter _) (attrExpr_params filter _)
  · simp only [categoryTest, Test.map, Cond.map, Expr.map, List.map_cons, List.map_nil, map_params]
  · simp only [categoryTest, Test.params, Cond.params, Expr.params, List.flatMap_cons,
      List.flatMap_nil, flatMap_params, List.nil_append, List.append_nil]

theorem fragments_bind (filter : IntakeFilter) (rest : List Datum) :
    (buildFilterFragments filter).query.bind ((buildFilterFragments filter).params ++ rest) =
      some (wantedQuery filter, rest) := by
  obtain ⟨isJoins, isTests, isParams⟩ := fragments_built filter
  have isText : (buildFilterFragments filter).query = (wantedQuery filter).map blank := by
    rw [Fragments.query, isJoins, isTests]
    rfl
  rw [isText, isParams]
  exact Query.bind_params (wantedQuery filter) rest

end Building

end Bookrack.Catalog
