/-
`SELECT` statements with positional parameters: one table with left joins, a conjunction of tests,
`GROUP BY`, `ORDER BY`, `LIMIT` and `OFFSET`.

* A statement over `Unit` has blanks for its `?`; `bind` fills them from a list of values in the order
  of the text. `Query.bind_params`: the blanks of a statement are filled with the values it was built
  with.
* `Query.joined`: the scopes the joins lead from one row to. `mem_joined`, `joined_of_pick`,
  `length_joined`: each join picks one of its options, independently of the others.
* `Select.run`, `Query.countDistinct`: `run_eq_page`, `countDistinct_eq`: rows with distinct keys are
  paged in key order, each once.
-/

import Bookrack.Base.Like
import Mathlib.Data.List.Dedup
import Mathlib.Data.List.Sort
import Mathlib.Logic.Function.Basic

namespace Sql

/-! ### Values and statements -/

/-- A value of a column. -/
inductive Datum
  | null
  | int (n : Int)
  | text (s : String)
  deriving DecidableEq, Repr

/-- A nullable text. -/
def Datum.ofText : Option String → Datum
  | none => .null
  | some s => .text s

/-- An expression; its parameters carry a `π`. -/
inductive Expr (π : Type)
  | column (source name : String)
  | literal (text : String)
  | param (value : π)
  | caseNull (test whenNull otherwise : Expr π)
  | coalesce (first second : Expr π)

/-- A comparison. -/
inductive Cond (π : Type)
  | eq (left right : Expr π)
  | like (left pattern : Expr π) (escape : Char)
  | among (left : Expr π) (options : List (Expr π))

/-- A conjunct of a `WHERE`: a comparison, or `EXISTS (SELECT 1 FROM table source WHERE …)`. -/
inductive Test (π : Type)
  | holds (cond : Cond π)
  | present (table source : String) (conds : List (Cond π))

/-- `LEFT JOIN table source ON …`. -/
structure Join (π : Type) where
  table : String
  source : String
  on : List (Cond π)

/-- `FROM table source … WHERE …`. -/
structure Query (π : Type) where
  table : String
  source : String
  joins : List (Join π)
  tests : List (Test π)

/-! ### Parameters -/

section Parameters

variable {π ρ α β : Type}

def Expr.map (f : π → ρ) : Expr π → Expr ρ
  | column source name => column source name
  | literal text => literal text
  | param value => param (f value)
  | caseNull test whenNull otherwise => caseNull (test.map f) (whenNull.map f) (otherwise.map f)
  | coalesce first second => coalesce (first.map f) (second.map f)

def Cond.map (f : π → ρ) : Cond π → Cond ρ
  | eq left right => eq (left.map f) (right.map f)
  | like left pattern escape => like (left.map f) (pattern.map f) escape
  | among left options => among (left.map f) (options.map (Expr.map f))

def Test.map (f : π → ρ) : Test π → Test ρ
  | holds cond => holds (cond.map f)
  | present table source conds => present table source (conds.map (Cond.map f))

def Join.map (f : π → ρ) (join : Join π) : Join ρ := ⟨join.table, join.source, join.on.map (Cond.map f)⟩

def Query.map (f : π → ρ) (query : Query π) : Query ρ :=
  ⟨query.table, query.source, query.joins.map (Join.map f), query.tests.map (Test.map f)⟩

/-- The parameters, in the order of the text. -/
def Expr.params : Expr π → List π
  | column .. | literal _ => []
  | param value => [value]
  | caseNull test whenNull otherwise => test.params ++ (whenNull.params ++ otherwise.params)
  | coalesce first second => first.params ++ second.params

def Cond.params : Cond π → List π
  | eq left right => left.params ++ right.params
  | like left pattern _ => left.params ++ pattern.params
  | among left options => left.params ++ options.flatMap Expr.params

def Test.params : Test π → List π
  | holds cond => cond.params
  | present _ _ conds => conds.flatMap Cond.params

def Join.params (join : Join π) : List π := join.on.flatMap Cond.params

def Query.params (query : Query π) : List π :=
  query.joins.flatMap Join.params ++ query.tests.flatMap Test.params

/-- Each item takes its values off the front, in order. -/
def bindAll (bindOne : α → List ρ → Option (β × List ρ)) : List α → List ρ → Option (List β × List ρ)
  | [], values => some ([], values)
  | item :: rest, values => do
    let (bound, values) ← bindOne item values
    let (others, values) ← bindAll bindOne rest values
    return (bound :: others, values)

/-- Fills the blanks, left to right. -/
def Expr.bind : Expr Unit → List ρ → Option (Expr ρ × List ρ)
  | column source name, values => some (.column source name, values)
  | literal text, values => some (.literal text, values)
  | param (), value :: values => some (.param value, values)
  | param (), [] => none
  | caseNull test whenNull otherwise, values => do
    let (test, values) ← test.bind values
    let (whenNull, values) ← whenNull.bind values
    let (otherwise, values) ← otherwise.bind values
    return (.caseNull test whenNull otherwise, values)
  | coalesce first second, values => do
    let (first, values) ← first.bind values
    let (second, values) ← second.bind values
    return (.coalesce first second, values)

def Cond.bind : Cond Unit → List ρ → Option (Cond ρ × List ρ)
  | eq left right, values => do
    let (left, values) ← left.bind values
    let (right, values) ← right.bind values
    return (.eq left right, values)
  | like left pattern escape, values => do
    let (left, values) ← left.bind values
    let (pattern, values) ← pattern.bind values
    return (.like left pattern escape, values)
  | among left options, values => do
    let (left, values) ← left.bind values
    let (options, values) ← bindAll Expr.bind options values
    return (.among left options, values)

def Test.bind : Test Unit → List ρ → Option (Test ρ × List ρ)
  | holds cond, values => do
    let (cond, values) ← cond.bind values
    return (.holds cond, values)
  | present table source conds, values => do
    let (conds, values) ← bindAll Cond.bind conds values
    return (.present table source conds, values)

def Join.bind (join : Join Unit) (values : List ρ) : Option (Join ρ × List ρ) := do
  let (on, values) ← bindAll Cond.bind join.on values
  return (⟨join.table, join.source, on⟩, values)

/-- The joins come before the tests. -/
def Query.bind (query : Query Unit) (values : List ρ) : Option (Query ρ × List ρ) := do
  let (joins, values) ← bindAll Join.bind query.joins values
  let (tests, values) ← bindAll Test.bind query.tests values
  return (⟨query.table, query.source, joins, tests⟩, values)

/-- The statement with its values taken out. -/
abbrev blank (_ : ρ) : Unit := ()

theorem bindAll_params {bindOne : α → List ρ → Option (β × List ρ)} {erase : β → α}
    {params : β → List ρ} (each : ∀ item rest, bindOne (erase item) (params item ++ rest) = some (item, rest))
    (items : List β) (rest : List ρ) :
    bindAll bindOne (items.map erase) (items.flatMap params ++ rest) = some (items, rest) := by
  induction items with
  | nil => rfl
  | cons item items ih =>
    simp only [List.map_cons, List.flatMap_cons, List.append_assoc, bindAll, each, ih,
      Option.pure_def, Option.bind_eq_bind, Option.bind_some]

theorem Expr.bind_params (expr : Expr ρ) (rest : List ρ) :
    (expr.map blank).bind (expr.params ++ rest) = some (expr, rest) := by
  induction expr generalizing rest with
  | column => rfl
  | literal => rfl
  | param => rfl
  | caseNull test whenNull otherwise ih ih' ih'' =>
    simp only [Expr.map, Expr.params, Expr.bind, List.append_assoc, ih, ih', ih'',
      Option.pure_def, Option.bind_eq_bind, Option.bind_some]
  | coalesce first second ih ih' =>
    simp only [Expr.map, Expr.params, Expr.bind, List.append_assoc, ih, ih',
      Option.pure_def, Option.bind_eq_bind, Option.bind_some]

theorem Cond.bind_params (cond : Cond ρ) (rest : List ρ) :
    (cond.map blank).bind (cond.params ++ rest) = some (cond, rest) := by
  cases cond with
  | eq left right =>
    simp only [Cond.map, Cond.params, Cond.bind, List.append_assoc, Expr.bind_params,
      Option.pure_def, Option.bind_eq_bind, Option.bind_some]
  | like left pattern escape =>
    simp only [Cond.map, Cond.params, Cond.bind, List.append_assoc, Expr.bind_params,
      Option.pure_def, Option.bind_eq_bind, Option.bind_some]
  | among left options =>
    simp only [Cond.map, Cond.params, Cond.bind, List.append_assoc, Expr.bind_params,
      bindAll_params Expr.bind_params,
      Option.pure_def, Option.bind_eq_bind, Option.bind_some]

theorem Test.bind_params (test : Test ρ) (rest : List ρ) :
    (test.map blank).bind (test.params ++ rest) = some (test, rest) := by
  cases test with
  | holds cond =>
    simp only [Test.map, Test.params, Test.bind, Cond.bind_params,
      Option.pure_def, Option.bind_eq_bind, Option.bind_some]
  | present table source conds =>
    simp only [Test.map, Test.params, Test.bind, bindAll_params Cond.bind_params,
      Option.pure_def, Option.bind_eq_bind, Option.bind_some]

theorem Join.bind_params (join : Join ρ) (rest : List ρ) :
    (join.map blank).bind (join.params ++ rest) = some (join, rest) := by
  simp only [Join.map, Join.params, Join.bind, bindAll_params Cond.bind_params,
    Option.pure_def, Option.bind_eq_bind, Option.bind_some]

/-- **Each value lands on the parameter it was built for.** -/
theorem Query.bind_params (query : Query ρ) (rest : List ρ) :
    (query.map blank).bind (query.params ++ rest) = some (query, rest) := by
  simp only [Query.map, Query.params, Query.bind, List.append_assoc, bindAll_params Join.bind_params,
    bindAll_params Test.bind_params,
    Option.pure_def, Option.bind_eq_bind, Option.bind_some]

end Parameters

/-! ### Evaluation -/

/-- A row: its columns by name. -/
abbrev Row := String → Datum

/-- The tables by name. -/
abbrev Tables := String → List Row

/-- The row each name of a `FROM` stands for. -/
abbrev Scope := String → Row

/-- The row of a left join without a match. -/
def nullRow : Row := fun _ => .null

def Expr.eval (scope : Scope) : Expr Datum → Datum
  | column source name => scope source name
  | literal text => .text text
  | param value => value
  | caseNull test whenNull otherwise =>
    if test.eval scope = .null then whenNull.eval scope else otherwise.eval scope
  | coalesce first second => if first.eval scope = .null then second.eval scope else first.eval scope

/-- A comparison is true, false, or unknown. -/
def Cond.eval (scope : Scope) : Cond Datum → Option Bool
  | eq left right =>
    if left.eval scope = .null ∨ right.eval scope = .null then none
    else some (decide (left.eval scope = right.eval scope))
  | like left pattern escape =>
    match left.eval scope, pattern.eval scope with
    | .text text, .text pattern => some (Like.like escape pattern.toList text.toList)
    | _, _ => none
  | among left options =>
    if left.eval scope = .null then none
    else if left.eval scope ∈ options.map (Expr.eval scope) then some true
    else if .null ∈ options.map (Expr.eval scope) then none
    else some false

/-- The comparison is true; `ON` and `WHERE` keep nothing else. -/
def Cond.True (scope : Scope) (cond : Cond Datum) : Prop := cond.eval scope = some true

instance (scope : Scope) (cond : Cond Datum) : Decidable (cond.True scope) :=
  inferInstanceAs (Decidable (_ = _))

def Test.True (tables : Tables) (scope : Scope) : Test Datum → Prop
  | holds cond => cond.True scope
  | present table source conds =>
    ∃ row ∈ tables table, ∀ cond ∈ conds, cond.True (Function.update scope source row)

instance (tables : Tables) (scope : Scope) (test : Test Datum) : Decidable (test.True tables scope) :=
  match test with
  | .holds cond => inferInstanceAs (Decidable (cond.True scope))
  | .present table source conds => inferInstanceAs (Decidable
      (∃ row ∈ tables table, ∀ cond ∈ conds, cond.True (Function.update scope source row)))

section Conditions

variable {scope : Scope} {left right : Expr Datum}

theorem Cond.eq_congr {scope' : Scope} (sameLeft : left.eval scope = left.eval scope')
    (sameRight : right.eval scope = right.eval scope') :
    (Cond.eq left right).eval scope = (Cond.eq left right).eval scope' := by
  rw [Cond.eval, Cond.eval, sameLeft, sameRight]

theorem Cond.eq_true :
    (Cond.eq left right).True scope ↔ left.eval scope = right.eval scope ∧ left.eval scope ≠ .null := by
  rw [Cond.True, Cond.eval]
  split_ifs with isNull
  · refine ⟨fun unknown => (by cases unknown), ?_⟩
    rintro ⟨same, notNull⟩
    exact absurd (isNull.resolve_left notNull) (same ▸ notNull)
  · rw [Option.some_inj, decide_eq_true_iff]
    exact ⟨fun same => ⟨same, fun isLeft => isNull (.inl isLeft)⟩, And.left⟩

theorem Cond.like_true {pattern : String} {escape : Char} :
    (Cond.like left (.param (.text pattern)) escape).True scope ↔
      ∃ text, left.eval scope = .text text ∧ Like.like escape pattern.toList text.toList = true := by
  rw [Cond.True, Cond.eval, Expr.eval]
  cases left.eval scope with
  | null =>
    refine ⟨fun unknown => (by cases unknown), ?_⟩
    rintro ⟨_, isText, -⟩
    cases isText
  | int n =>
    refine ⟨fun unknown => (by cases unknown), ?_⟩
    rintro ⟨_, isText, -⟩
    cases isText
  | text found =>
    constructor
    · exact fun isTrue => ⟨found, rfl, Option.some.inj isTrue⟩
    · rintro ⟨text, isText, covered⟩
      obtain rfl := Datum.text.inj isText
      exact congrArg some covered

theorem Cond.among_true {data : List Datum} (notNull : .null ∉ data) :
    (Cond.among left (data.map .param)).True scope ↔ left.eval scope ∈ data := by
  have evaluated : (data.map Expr.param).map (Expr.eval scope) = data := by
    rw [List.map_map]
    exact List.map_id data
  rw [Cond.True, Cond.eval, evaluated]
  split_ifs with isNull isMember
  · exact ⟨fun unknown => (by cases unknown), fun member => absurd (isNull ▸ member) notNull⟩
  · exact ⟨fun _ => isMember, fun _ => rfl⟩
  · exact ⟨fun isFalse => (by cases isFalse), fun member => absurd member isMember⟩

end Conditions

namespace Join

/-- The rows of the joined table that match. -/
def matching (tables : Tables) (scope : Scope) (join : Join Datum) : List Row :=
  (tables join.table).filter fun row =>
    decide (∀ cond ∈ join.on, cond.True (Function.update scope join.source row))

/-- What the join adds to a scope: the matching rows, or the null row when there are none. -/
def options (tables : Tables) (scope : Scope) (join : Join Datum) : List Row :=
  if join.matching tables scope = [] then [nullRow] else join.matching tables scope

end Join

/-- The scopes some joins lead from one scope to. -/
def joined (tables : Tables) (scope : Scope) : List (Join Datum) → List Scope
  | [] => [scope]
  | join :: rest => (join.options tables scope).flatMap fun row =>
      joined tables (Function.update scope join.source row) rest

namespace Query

/-- The scope of one row of the table, before any join. -/
def start (query : Query Datum) (row : Row) : Scope :=
  Function.update (fun _ => nullRow) query.source row

/-- The scopes of one row of the table that pass the tests. -/
def scopes (tables : Tables) (query : Query Datum) (row : Row) : List Scope :=
  (joined tables (query.start row) query.joins).filter fun scope =>
    decide (∀ test ∈ query.tests, test.True tables scope)

/-- The rows selected from the table, once for each scope. -/
def rows (tables : Tables) (query : Query Datum) : List Row :=
  (tables query.table).flatMap fun row => (query.scopes tables row).map fun _ => row

end Query

/-! ### Independent joins -/

section Joins

variable {tables : Tables} {scope : Scope} {base : String} {joins : List (Join Datum)}

/-- The join looks at the base row and at its own row only. -/
def Join.OnlyBase (tables : Tables) (base : String) (join : Join Datum) : Prop :=
  ∀ scope scope' : Scope, scope base = scope' base →
    join.options tables scope = join.options tables scope'

theorem Join.onlyBase_of {join : Join Datum} (notBase : base ≠ join.source)
    (same : ∀ cond ∈ join.on, ∀ scope scope' : Scope, scope base = scope' base →
      scope join.source = scope' join.source → cond.eval scope = cond.eval scope') :
    join.OnlyBase tables base := by
  intro scope scope' sameBase
  have sameMatching : join.matching tables scope = join.matching tables scope' := by
    refine List.filter_congr fun row _ => decide_eq_decide.mpr (forall₂_congr fun cond isCond => ?_)
    unfold Cond.True
    rw [same cond isCond (Function.update scope join.source row)
      (Function.update scope' join.source row)]
    · rw [Function.update_of_ne notBase, Function.update_of_ne notBase, sameBase]
    · rw [Function.update_self, Function.update_self]
  rw [Join.options, sameMatching, ← Join.options]

/-- The joins have distinct names, none of them the base's, and look at the base row only. -/
structure Independent (tables : Tables) (base : String) (joins : List (Join Datum)) : Prop where
  distinct : (base :: joins.map Join.source).Nodup
  onlyBase : ∀ join ∈ joins, join.OnlyBase tables base

theorem Independent.tail {join : Join Datum} (independent : Independent tables base (join :: joins)) :
    Independent tables base joins := by
  obtain ⟨distinct, onlyBase⟩ := independent
  rw [List.map_cons, List.nodup_cons, List.nodup_cons] at distinct
  refine ⟨List.nodup_cons.mpr ⟨fun isBase => distinct.1 (List.mem_cons_of_mem _ isBase), distinct.2.2⟩,
    fun join member => onlyBase join (List.mem_cons_of_mem _ member)⟩

/-- Joins leave the names that are not theirs alone. -/
theorem joined_other {name : String} (isOther : name ∉ joins.map Join.source) {after : Scope}
    (member : after ∈ joined tables scope joins) : after name = scope name := by
  induction joins generalizing scope with
  | nil => rw [List.mem_singleton.mp member]
  | cons join joins ih =>
    rw [List.map_cons, List.mem_cons, not_or] at isOther
    obtain ⟨row, -, later⟩ := List.mem_flatMap.mp member
    rw [ih isOther.2 later, Function.update_of_ne isOther.1]

/-- **Every join picks one of its options.** -/
theorem mem_joined (independent : Independent tables base joins) {after : Scope}
    (member : after ∈ joined tables scope joins) :
    after base = scope base ∧ ∀ join ∈ joins, after join.source ∈ join.options tables scope := by
  induction joins generalizing scope with
  | nil => exact ⟨by rw [List.mem_singleton.mp member], fun _ isJoin => by cases isJoin⟩
  | cons join joins ih =>
    have distinct := independent.distinct
    rw [List.map_cons, List.nodup_cons, List.nodup_cons, List.mem_cons, not_or] at distinct
    obtain ⟨⟨notFirst, -⟩, notLater, -⟩ := distinct
    obtain ⟨row, isOption, later⟩ := List.mem_flatMap.mp member
    obtain ⟨sameBase, each⟩ := ih independent.tail later
    rw [Function.update_of_ne notFirst] at sameBase
    refine ⟨sameBase, fun other isJoin => ?_⟩
    rcases List.mem_cons.mp isJoin with rfl | isLater
    · rw [joined_other notLater later, Function.update_self]
      exact isOption
    · rw [independent.onlyBase other isJoin scope (Function.update scope join.source row)
        (Function.update_of_ne notFirst _ _).symm]
      exact each other isLater

theorem Join.options_ne_nil (join : Join Datum) : join.options tables scope ≠ [] := by
  unfold Join.options
  split_ifs with isEmpty
  · exact List.cons_ne_nil _ _
  · exact isEmpty

theorem joined_ne_nil : joined tables scope joins ≠ [] := by
  induction joins generalizing scope with
  | nil => exact List.cons_ne_nil _ _
  | cons join joins ih =>
    obtain ⟨row, isOption⟩ := List.exists_mem_of_ne_nil (join.options tables scope) join.options_ne_nil
    obtain ⟨after, isAfter⟩ := List.exists_mem_of_ne_nil
      (joined tables (Function.update scope join.source row) joins) ih
    exact List.ne_nil_of_mem (List.mem_flatMap.mpr ⟨row, isOption, isAfter⟩)

/-- **Any option of any join is reached.** -/
theorem joined_of_pick (independent : Independent tables base joins) {join : Join Datum}
    (isJoin : join ∈ joins) {row : Row} (isOption : row ∈ join.options tables scope) :
    ∃ after ∈ joined tables scope joins, after join.source = row := by
  induction joins generalizing scope with
  | nil => cases isJoin
  | cons first joins ih =>
    have distinct := independent.distinct
    rw [List.map_cons, List.nodup_cons, List.nodup_cons, List.mem_cons, not_or] at distinct
    obtain ⟨⟨notFirst, -⟩, notLater, -⟩ := distinct
    rcases List.mem_cons.mp isJoin with rfl | isLater
    · obtain ⟨after, isAfter⟩ := List.exists_mem_of_ne_nil (joined tables _ joins) joined_ne_nil
      refine ⟨after, List.mem_flatMap.mpr ⟨row, isOption, isAfter⟩, ?_⟩
      rw [joined_other notLater isAfter, Function.update_self]
    · obtain ⟨other, isOther⟩ := List.exists_mem_of_ne_nil (first.options tables scope) first.options_ne_nil
      rw [independent.onlyBase join isJoin scope (Function.update scope first.source other)
        (Function.update_of_ne notFirst _ _).symm] at isOption
      obtain ⟨after, isAfter, picked⟩ := ih independent.tail isLater isOption
      exact ⟨after, List.mem_flatMap.mpr ⟨other, isOther, isAfter⟩, picked⟩

/-- Joins with one option each lead to one scope. -/
theorem length_joined (independent : Independent tables base joins)
    (single : ∀ join ∈ joins, (join.options tables scope).length = 1) :
    (joined tables scope joins).length = 1 := by
  induction joins generalizing scope with
  | nil => rfl
  | cons join joins ih =>
    have distinct := independent.distinct
    rw [List.map_cons, List.nodup_cons, List.mem_cons, not_or] at distinct
    obtain ⟨row, isRow⟩ := List.length_eq_one_iff.mp (single join List.mem_cons_self)
    rw [joined, isRow, List.flatMap_singleton]
    refine ih independent.tail fun other isLater => ?_
    rw [← independent.onlyBase other (List.mem_cons_of_mem _ isLater) scope _
      (Function.update_of_ne distinct.1.1 _ _).symm]
    exact single other (List.mem_cons_of_mem _ isLater)

end Joins

/-! ### Pages and counts -/

/-- `SELECT source.* … GROUP BY … ORDER BY … LIMIT … OFFSET …`, by columns of the table. -/
structure Select (π : Type) where
  query : Query π
  groupBy : Option String
  orderBy : String
  limit : Expr π
  offset : Expr π

/-- An integer column. -/
def Row.key (name : String) (row : Row) : Int :=
  match row name with
  | .int n => n
  | _ => 0

/-- The order of an `ORDER BY` on an integer column. -/
def Row.Before (name : String) (one other : Row) : Prop := one.key name ≤ other.key name

instance (name : String) : DecidableRel (Row.Before name) :=
  fun one other => inferInstanceAs (Decidable (one.key name ≤ other.key name))

instance (name : String) : Std.Total (Row.Before name) := ⟨fun _ _ => le_total _ _⟩

instance (name : String) : IsTrans Row (Row.Before name) := ⟨fun _ _ _ => le_trans⟩

/-- One row for each value of the column. -/
def firstOfEach (name : String) (rows : List Row) : List Row :=
  (rows.map fun row => row name).dedup.filterMap fun key =>
    rows.find? fun row => decide (row name = key)

/-- The count a `LIMIT` or `OFFSET` gives. -/
def Datum.count : Datum → Nat
  | int n => n.toNat
  | _ => 0

/-- Fills the blanks; a statement takes all the values. -/
def Select.prepare {ρ : Type} (select : Select Unit) (values : List ρ) : Option (Select ρ) := do
  let (query, values) ← select.query.bind values
  let (limit, values) ← select.limit.bind values
  let (offset, values) ← select.offset.bind values
  if values.isEmpty then some ⟨query, select.groupBy, select.orderBy, limit, offset⟩ else none

/-- The rows before they are cut to a page. -/
def Select.ordered (tables : Tables) (select : Select Datum) : List Row :=
  let rows := select.query.rows tables
  let rows := match select.groupBy with
    | some name => firstOfEach name rows
    | none => rows
  rows.insertionSort (Row.Before select.orderBy)

def Select.run (tables : Tables) (select : Select Datum) : List Row :=
  ((select.ordered tables).drop (select.offset.eval fun _ => nullRow).count).take
    (select.limit.eval fun _ => nullRow).count

/-- `SELECT COUNT(DISTINCT source.name) …`. -/
def Query.countDistinct (tables : Tables) (query : Query Datum) (name : String) : Nat :=
  (((query.rows tables).map fun row => row name).filter fun key => decide (key ≠ .null)).dedup.length

section Pages

variable {tables : Tables} {query : Query Datum} {name : String}

/-- The table's rows that pass for some choice of the joins. -/
def Query.hits (tables : Tables) (query : Query Datum) : List Row :=
  (tables query.table).filter fun row => decide (query.scopes tables row ≠ [])

/-- A primary key: an integer in every row, in no two the same. -/
structure PrimaryKey (rows : List Row) (name : String) : Prop where
  isInt : ∀ row ∈ rows, ∃ n, row name = .int n
  distinct : (rows.map fun row => row name).Nodup

theorem mem_rows {row : Row} : row ∈ query.rows tables ↔ row ∈ query.hits tables := by
  rw [Query.rows, Query.hits, List.mem_flatMap, List.mem_filter, decide_eq_true_iff]
  constructor
  · rintro ⟨row, isRow, isCopy⟩
    obtain ⟨scope, isScope, rfl⟩ := List.mem_map.mp isCopy
    exact ⟨isRow, List.ne_nil_of_mem isScope⟩
  · rintro ⟨isRow, isHit⟩
    obtain ⟨scope, isScope⟩ := List.exists_mem_of_ne_nil _ isHit
    exact ⟨row, isRow, List.mem_map.mpr ⟨scope, isScope, rfl⟩⟩

theorem PrimaryKey.inj {rows : List Row} (primary : PrimaryKey rows name) {one other : Row}
    (isOne : one ∈ rows) (isOther : other ∈ rows) (same : one name = other name) : one = other :=
  List.inj_on_of_nodup_map primary.distinct isOne isOther same

theorem PrimaryKey.hits (primary : PrimaryKey (tables query.table) name) :
    PrimaryKey (query.hits tables) name :=
  ⟨fun row isRow => primary.isInt row (List.mem_of_mem_filter isRow),
    primary.distinct.sublist (List.filter_sublist.map _)⟩

/-- Grouped by a primary key, the rows are the hits. -/
theorem firstOfEach_perm (primary : PrimaryKey (tables query.table) name) :
    (firstOfEach name (query.rows tables)).Perm (query.hits tables) := by
  have isTable : ∀ row ∈ query.rows tables, row ∈ tables query.table := fun row isRow =>
    List.mem_of_mem_filter (mem_rows.mp isRow)
  refine (List.perm_ext_iff_of_nodup ?_ (List.Nodup.of_map _ primary.hits.distinct)).mpr fun row => ?_
  · refine List.Nodup.filterMap ?_ (List.nodup_dedup _)
    intro key key' row found found'
    have isKey := List.find?_some found
    have isKey' := List.find?_some found'
    exact (of_decide_eq_true isKey).symm.trans (of_decide_eq_true isKey')
  · rw [← mem_rows, firstOfEach, List.mem_filterMap]
    constructor
    · rintro ⟨key, -, found⟩
      exact List.mem_of_find?_eq_some found
    · intro isRow
      refine ⟨row name, List.mem_dedup.mpr (List.mem_map.mpr ⟨row, isRow, rfl⟩), ?_⟩
      cases found : (query.rows tables).find? fun other => decide (other name = row name) with
      | none => exact absurd (decide_eq_true rfl) (List.find?_eq_none.mp found row isRow)
      | some other =>
        have sameKey : other name = row name := by simpa using List.find?_some found
        rw [primary.inj (isTable other (List.mem_of_find?_eq_some found)) (isTable row isRow) sameKey]

/-- Joins that do not fan out select each hit once. -/
theorem rows_eq_hits (single : ∀ row ∈ tables query.table, (query.scopes tables row).length ≤ 1) :
    query.rows tables = query.hits tables := by
  unfold Query.rows Query.hits
  generalize tables query.table = table at single
  induction table with
  | nil => rfl
  | cons row rest ih =>
    rw [List.flatMap_cons, ih fun row later => single row (List.mem_cons_of_mem _ later)]
    have atMost := single row List.mem_cons_self
    cases isScopes : query.scopes tables row with
    | nil =>
      rw [List.filter_cons_of_neg (by simp [isScopes])]
      rfl
    | cons scope others =>
      rw [isScopes, List.length_cons] at atMost
      have isOnly : others = [] := List.eq_nil_of_length_eq_zero (by omega)
      rw [isOnly, List.filter_cons_of_pos (by simp [isScopes])]
      rfl

/-- Two lists of rows with the same rows, by distinct keys, are sorted to the same list. -/
theorem sorted_eq {one other : List Row} (same : one.Perm other) (primary : PrimaryKey other name) :
    one.insertionSort (Row.Before name) = other.insertionSort (Row.Before name) := by
  have perm : (one.insertionSort (Row.Before name)).Perm (other.insertionSort (Row.Before name)) :=
    ((List.perm_insertionSort _ _).trans same).trans (List.perm_insertionSort _ _).symm
  refine List.Perm.eq_of_pairwise ?_ (List.pairwise_insertionSort _ _) (List.pairwise_insertionSort _ _)
    perm
  intro row row' isRow isRow' before before'
  have inOther : row ∈ other := same.mem_iff.mp ((List.perm_insertionSort _ _).mem_iff.mp isRow)
  have inOther' : row' ∈ other := (List.perm_insertionSort _ _).mem_iff.mp isRow'
  obtain ⟨n, isInt⟩ := primary.isInt row inOther
  obtain ⟨n', isInt'⟩ := primary.isInt row' inOther'
  refine primary.inj inOther inOther' ?_
  have isKey : row.key name = n := by rw [Row.key, isInt]
  have isKey' : row'.key name = n' := by rw [Row.key, isInt']
  unfold Row.Before at before before'
  rw [isKey, isKey'] at before before'
  rw [isInt, isInt', le_antisymm before before']

/-- **The statement yields the hits in key order**, each once. -/
theorem ordered_eq {select : Select Datum}
    (primary : PrimaryKey (tables select.query.table) select.orderBy)
    (grouped : select.groupBy = some select.orderBy ∨ select.groupBy = none ∧
      ∀ row ∈ tables select.query.table, (select.query.scopes tables row).length ≤ 1) :
    select.ordered tables =
      (select.query.hits tables).insertionSort (Row.Before select.orderBy) := by
  unfold Select.ordered
  rcases grouped with isGrouped | ⟨isPlain, single⟩
  · rw [isGrouped]
    exact sorted_eq (firstOfEach_perm primary) primary.hits
  · rw [isPlain]
    exact congrArg _ (rows_eq_hits single)

/-- **The count is the number of hits.** -/
theorem countDistinct_eq (primary : PrimaryKey (tables query.table) name) :
    query.countDistinct tables name = (query.hits tables).length := by
  unfold Query.countDistinct
  have keys : ∀ key, key ∈ (((query.rows tables).map fun row => row name).filter
      fun key => decide (key ≠ .null)).dedup ↔ key ∈ (query.hits tables).map fun row => row name := by
    intro key
    rw [List.mem_dedup, List.mem_filter, decide_eq_true_iff, List.mem_map, List.mem_map]
    constructor
    · rintro ⟨⟨row, isRow, rfl⟩, -⟩
      exact ⟨row, mem_rows.mp isRow, rfl⟩
    · rintro ⟨row, isHit, rfl⟩
      obtain ⟨n, isInt⟩ := primary.hits.isInt row isHit
      exact ⟨⟨row, mem_rows.mpr isHit, rfl⟩, by simp [isInt]⟩
  have perm := (List.perm_ext_iff_of_nodup (List.nodup_dedup _) primary.hits.distinct).mpr keys
  rw [perm.length_eq, List.length_map]

end Pages

end Sql
