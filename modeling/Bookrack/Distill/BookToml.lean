/-
The declaration of a book and the pipeline it stands for (`distill/src/book_toml.rs`,
`distill/src/catalogs.rs`).

`Setup.dispatch` stands for `dispatch_stage`; nothing is assumed of it. The versions and titles a book
declares go to columns no lookup reads and are left out.
-/

import Bookrack.Distill.Pipeline

namespace Bookrack.Distill

/-! ### Declarations -/

/-- `toml::Value`. -/
inductive TomlValue
  | string (text : String)
  | integer (value : Int)
  | float (text : String)
  | boolean (value : Bool)
  | datetime (text : String)
  | array (items : List TomlValue)
  | table (members : List (String × TomlValue))

/-- `as_str`. -/
def TomlValue.str? : TomlValue → Option String
  | .string text => some text
  | _ => none

/-- `StageRef`: a bare name has no parameters. -/
structure StageRef where
  name : String
  params : Option (List (String × TomlValue))

/-- `IndexEntry`. -/
structure IndexEntry where
  field : String
  kind : String
  deriving DecidableEq, Repr

/-- `BookToml`. -/
structure BookToml where
  bookSlug : String
  authorityRank : Int
  writesProperties : List String
  stages : List StageRef
  indexes : List IndexEntry

/-! ### Catalogs -/

/-- `ParamSpec`. -/
structure ParamSpec where
  name : String
  type : String
  required : Bool
  deriving DecidableEq, Repr

/-- `StageSpec`, as far as a book is judged by it. -/
structure StageSpec where
  writesProperties : List String
  params : List ParamSpec
  deriving DecidableEq, Repr

/-- `Catalogs`. -/
structure Catalogs where
  properties : List String
  qualityFlags : List String
  stages : List (String × StageSpec)

/-- What the commands take as given. -/
structure Setup where
  digits : DigitClass
  letters : Letters
  catalogs : Catalogs
  dispatch : StageRef → Except ParseError Stage

namespace Catalogs

variable (catalogs : Catalogs)

/-- Rule 8: `[a-z0-9_-]+`. -/
def isBookSlug (slug : String) : Bool :=
  !slug.toList.isEmpty && slug.toList.all fun c => c.isLower || c.isDigit || c == '_' || c == '-'

/-- The body of the loop of `validate_stage_params`. -/
def paramViolation (slug : String) (stageRef : StageRef) (param : ParamSpec) : Option Violation :=
  let value := (stageRef.params.getD []).lookup param.name
  if param.required ∧ value.isNone then some (.missingParam slug stageRef.name param.name)
  else if param.type = "quality_flag_ref" then
    match value.bind TomlValue.str? with
    | some flag =>
      if flag ∈ catalogs.qualityFlags then none
      else some (.unknownFlag slug stageRef.name param.name flag)
    | none => none
  else none

/-- The body of the loop over the stages: what the stage writes. -/
def validateStage (slug : String) (stageRef : StageRef) : Except ParseError (List String) :=
  match Spaced.literal "@script::".toList stageRef.name.toList with
  | some script => .error (.scriptRefForbidden (String.ofList script))
  | none =>
    match Spaced.literal "@llm::".toList stageRef.name.toList with
    | some hook => .error (.llmHookNotImplemented (String.ofList hook))
    | none =>
      match catalogs.stages.lookup stageRef.name with
      | none => .error (.stageNotFound stageRef.name)
      | some spec =>
        match spec.params.findSome? (catalogs.paramViolation slug stageRef) with
        | some violation => .error (.catalogViolation violation)
        | none => .ok spec.writesProperties

/-- `validate_book`. -/
def validateBook (book : BookToml) : Except ParseError Unit :=
  if !isBookSlug book.bookSlug then .error (.catalogViolation (.bookSlug book.bookSlug))
  else
    match book.writesProperties.find? (· ∉ catalogs.properties) with
    | some property => .error (.catalogViolation (.unknownProperty book.bookSlug property))
    | none => do
      let writes ← book.stages.mapM (catalogs.validateStage book.bookSlug)
      let chainWrites := (Ordered.ofList (writes.flatten.map fun property => (property, ()))).map Prod.fst
      match chainWrites.find? (· ∉ book.writesProperties) with
      | some property => .error (.catalogViolation (.undeclaredWrite book.bookSlug property))
      | none => .ok ()

end Catalogs

/-- `into_pipeline`. -/
def BookToml.intoPipeline (setup : Setup) (book : BookToml) : Except ParseError Pipeline := do
  setup.catalogs.validateBook book
  let stages ← book.stages.mapM setup.dispatch
  pure ⟨book.bookSlug, stages⟩

/-- `compose_extras`. -/
def composeExtras (slug distillRunId : String) : Extras :=
  Ordered.ofList [("book_slug", .str slug), ("distill_run_id", .str distillRunId)]

theorem stampedSlug_composeExtras (slug distillRunId : String) :
    stampedSlug (composeExtras slug distillRunId) = slug := by
  unfold stampedSlug composeExtras
  rw [Ordered.lookup_ofList]
  rfl

/-- The drafts of a book: its pipeline, loaded and run on a source. -/
def BookToml.draft (setup : Setup) (book : BookToml) (source : List Char) (distillRunId : String) :
    Except ParseError (List EntryDraft × List StageReport) := do
  let pipeline ← book.intoPipeline setup
  pipeline.run setup.digits setup.letters source (composeExtras book.bookSlug distillRunId)

/-- **The drafts of two runs on a source** are made of the same splits. -/
theorem draft_restamped {setup : Setup} {book : BookToml} {source : List Char} {runId : String}
    {drafts : List EntryDraft} {reports : List StageReport}
    (ran : book.draft setup source runId = .ok (drafts, reports)) (runId' : String) :
    ∃ (rule : ToEntryDraft) (splits : List SplitEntry) (reports' : List StageReport),
      drafts = splits.map (oneDraft setup.letters rule (composeExtras book.bookSlug runId)) ∧
        book.draft setup source runId' =
          .ok (splits.map (oneDraft setup.letters rule (composeExtras book.bookSlug runId')), reports') := by
  obtain ⟨pipeline, loaded, ran⟩ := except_bind_ok.mp ran
  obtain ⟨rule, splits, reports', isDrafts, again⟩ := run_restamped (composeExtras book.bookSlug runId') ran
  exact ⟨rule, splits, reports', isDrafts, except_bind_ok.mpr ⟨pipeline, loaded, again⟩⟩

end Bookrack.Distill
