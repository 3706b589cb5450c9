/-
The stages of a distill pipeline in turn (`distill/src/core.rs`, `distill/src/pipeline.rs`,
`distill/src/finalize.rs`).

Of the stages between the first and the last the kinds they read and write and their results are kept. The
counters and samples a stage leaves for its report are not.

* **`run_restamped`** — runs that differ in what they stamp on the drafts make them of the same splits.
* **`run_alike`** — a source runs through exactly when one that differs in its blanks does.
-/

import Bookrack.Base.Ordered
import Bookrack.Distill.Pairing
import Bookrack.Distill.SplitPages
import Bookrack.Refs.Lookup

namespace Bookrack.Distill

open Spaced (Alike)

/-! ### Data -/

/-- `StageData::kind`. -/
inductive Kind
  | source
  | pages
  | blocks
  | raws
  | splits
  | drafts
  deriving DecidableEq, Repr

/-- `EntryDraft`. -/
structure EntryDraft where
  bookSlug : String
  entryKey : String
  headword : String
  aliases : List String
  payload : List (String × Json)
  ftsText : String
  source : Json
  qualityFlags : List String

/-- `StageData`. -/
inductive StageData
  | source (text : List Char)
  | pages (pages : List Page)
  | blocks (blocks : List Block)
  | raws (raws : List RawEntry)
  | splits (splits : List SplitEntry)
  | drafts (drafts : List EntryDraft)

/-- What `ParseError::CatalogViolation` is raised for, with the names its text has. -/
inductive Violation
  | bookSlug (slug : String)
  | unknownProperty (slug property : String)
  | missingParam (slug stage param : String)
  | unknownFlag (slug stage param flag : String)
  | undeclaredWrite (slug property : String)
  | stageParam (reason : String)
  deriving DecidableEq, Repr

/-- `ParseError`. -/
inductive ParseError
  | stageMismatch (stage : String) (expected actual : Kind)
  | stageNotFound (stage : String)
  | tomlParse
  | catalogViolation (violation : Violation)
  | scriptRefForbidden (script : String)
  | llmHookNotImplemented (hook : String)
  | invalidPageMarker (error : InvalidPageMarker)
  | invalidPattern (pattern : String)
  deriving DecidableEq, Repr

namespace StageData

/-- `StageData::kind`. -/
def kind : StageData → Kind
  | .source _ => .source
  | .pages _ => .pages
  | .blocks _ => .blocks
  | .raws _ => .raws
  | .splits _ => .splits
  | .drafts _ => .drafts

/-- `cardinality`. -/
def cardinality : StageData → Nat
  | .source _ => 1
  | .pages items => items.length
  | .blocks items => items.length
  | .raws items => items.length
  | .splits items => items.length
  | .drafts items => items.length

/-- `expect_source`. -/
def expectSource (stage : String) : StageData → Except ParseError (List Char)
  | .source text => .ok text
  | other => .error (.stageMismatch stage .source other.kind)

/-- `expect_pages`. -/
def expectPages (stage : String) : StageData → Except ParseError (List Page)
  | .pages items => .ok items
  | other => .error (.stageMismatch stage .pages other.kind)

/-- `expect_blocks`. -/
def expectBlocks (stage : String) : StageData → Except ParseError (List Block)
  | .blocks items => .ok items
  | other => .error (.stageMismatch stage .blocks other.kind)

/-- `expect_raws`. -/
def expectRaws (stage : String) : StageData → Except ParseError (List RawEntry)
  | .raws items => .ok items
  | other => .error (.stageMismatch stage .raws other.kind)

/-- `expect_splits`. -/
def expectSplits (stage : String) : StageData → Except ParseError (List SplitEntry)
  | .splits items => .ok items
  | other => .error (.stageMismatch stage .splits other.kind)

end StageData

/-! ### Drafts -/

/-- The cases and classes of Unicode's letters, as far as the keys ask. -/
structure Letters where
  lowercase : String → String
  isAlphanumeric : Char → Bool

/-- `KeyNormalizer`. -/
inductive KeyNormalizer
  | normalizeLatinKey
  | normalizeCjkKey
  deriving DecidableEq, Repr

/-- `KeyNormalizer::normalize`. -/
def KeyNormalizer.normalize (letters : Letters) (headword : String) : KeyNormalizer → String
  | .normalizeLatinKey => Refs.latinFallbackKey letters.lowercase letters.isAlphanumeric headword
  | .normalizeCjkKey => String.ofList (Normalize.trim headword.toList)

/-- `ToEntryDraft`; no composer stands for the default one. -/
structure ToEntryDraft where
  keyNormalizer : KeyNormalizer
  carryPayloadKeys : List String
  aliasesFromPayload : List String
  ftsComposer : Option (SplitEntry → List String → String)

/-- `Ctx::extras`. -/
abbrev Extras := List (String × Json)

/-- The texts among the values an alias is taken from. -/
def aliasTexts : Json → List String
  | .str text => if text = "" then [] else [text]
  | .arr items => (items.filterMap Json.str?).filter (· ≠ "")
  | _ => []

/-- `aliases_from`. -/
def aliasesFrom (keys : List String) (payload : List (String × Json)) : List String :=
  keys.flatMap fun key => ((payload.lookup key).map aliasTexts).getD []

mutual

/-- `push_string_leaves`. -/
def stringLeaves : Json → List String
  | .str text => [text]
  | .arr items => itemLeaves items
  | .obj members => memberLeaves members
  | _ => []

def itemLeaves : List Json → List String
  | [] => []
  | item :: rest => stringLeaves item ++ itemLeaves rest

def memberLeaves : List (String × Json) → List String
  | [] => []
  | (_, value) :: rest => stringLeaves value ++ memberLeaves rest

end

/-- `compose_default`. -/
def composeDefault (headword : String) (aliases : List String) (payload : List (String × Json)) : String :=
  " ".intercalate ((headword :: aliases ++ memberLeaves payload).filter (· ≠ ""))

/-- The payload a draft carries on. -/
def carriedPayload (keys : List String) (payload : List (String × Json)) : List (String × Json) :=
  Ordered.ofList (keys.filterMap fun key => (payload.lookup key).map fun value => (key, value))

/-- The slug stamped on the drafts. -/
def stampedSlug (extras : Extras) : String := ((extras.lookup "book_slug").bind Json.str?).getD ""

/-- `one_draft`. -/
def oneDraft (letters : Letters) (rule : ToEntryDraft) (extras : Extras) (split : SplitEntry) : EntryDraft :=
  let payload := carriedPayload rule.carryPayloadKeys split.payload
  let aliases := aliasesFrom rule.aliasesFromPayload split.payload
  { bookSlug := stampedSlug extras
    entryKey := rule.keyNormalizer.normalize letters split.headword
    headword := split.headword
    aliases := aliases
    payload := payload
    ftsText :=
      match rule.ftsComposer with
      | some compose => compose split aliases
      | none => composeDefault split.headword aliases payload
    source := .obj (Ordered.ofList
      [("book_slug", .str (stampedSlug extras)), ("page", .number (toString split.page)),
        ("sheet", .number (toString split.sheet)),
        ("distill_run_id", (extras.lookup "distill_run_id").getD .null),
        ("ocr_engine", (extras.lookup "ocr_engine").getD .null)])
    qualityFlags := split.qualityFlags }

/-! ### Stages -/

/-- A stage: the first and the last one, and those between by the kinds they read and write. -/
inductive Stage
  | splitPages
  | segment (name : String) (run : List Page → List Block)
  | walk (name : String) (run : List Block → List RawEntry)
  | pair (name : String) (run : List RawEntry → List RawEntry)
  | split (name : String) (run : List RawEntry → List SplitEntry)
  | extract (name : String) (run : List SplitEntry → List SplitEntry)
  | toEntryDraft (rule : ToEntryDraft)

variable (digits : DigitClass) (letters : Letters)

namespace Stage

/-- `Stage::name`. -/
def name : Stage → String
  | .splitPages => "split_pages"
  | .segment name _ | .walk name _ | .pair name _ | .split name _ | .extract name _ => name
  | .toEntryDraft _ => "to_entry_draft"

/-- `Stage::run`. -/
def run (extras : Extras) (data : StageData) (stage : Stage) : Except ParseError StageData :=
  match stage with
  | .splitPages => do
    let source ← data.expectSource stage.name
    let pages ← (Distill.splitPages digits source).mapError .invalidPageMarker
    pure (.pages pages)
  | .segment name run => do
    let pages ← data.expectPages name
    pure (.blocks (run pages))
  | .walk name run => do
    let blocks ← data.expectBlocks name
    pure (.raws (run blocks))
  | .pair name run => do
    let raws ← data.expectRaws name
    pure (.raws (run raws))
  | .split name run => do
    let raws ← data.expectRaws name
    pure (.splits (run raws))
  | .extract name run => do
    let splits ← data.expectSplits name
    pure (.splits (run splits))
  | .toEntryDraft rule => do
    let splits ← data.expectSplits stage.name
    pure (.drafts (splits.map (oneDraft letters rule extras)))

end Stage

/-- `StageReport`. -/
structure StageReport where
  stageName : String
  inKind : Kind
  inLen : Nat
  outKind : Kind
  outLen : Nat
  deriving DecidableEq, Repr

/-- `Pipeline`. -/
structure Pipeline where
  name : String
  stages : List Stage

/-- The loop over the stages, with the report of each. -/
def runStages (extras : Extras) : List Stage → StageData → Except ParseError (StageData × List StageReport)
  | [], data => .ok (data, [])
  | stage :: rest, data => do
    let out ← stage.run digits letters extras data
    let (final, reports) ← runStages extras rest out
    pure (final, ⟨stage.name, data.kind, data.cardinality, out.kind, out.cardinality⟩ :: reports)

/-- `run_with_extras`. -/
def Pipeline.run (pipeline : Pipeline) (source : List Char) (extras : Extras) :
    Except ParseError (List EntryDraft × List StageReport) := do
  let (final, reports) ← runStages digits letters extras pipeline.stages (.source source)
  match final with
  | .drafts drafts => pure (drafts, reports)
  | other => .error (.stageMismatch ("<pipeline:" ++ pipeline.name ++ ">") .drafts other.kind)

/-! ### What a stage takes -/

/-- The kind a stage expects. -/
def Stage.input : Stage → Kind
  | .splitPages => .source
  | .segment _ _ => .pages
  | .walk _ _ => .blocks
  | .pair _ _ | .split _ _ => .raws
  | .extract _ _ | .toEntryDraft _ => .splits

/-- The kind a stage makes. -/
def Stage.output : Stage → Kind
  | .splitPages => .pages
  | .segment _ _ => .blocks
  | .walk _ _ | .pair _ _ => .raws
  | .split _ _ | .extract _ _ => .splits
  | .toEntryDraft _ => .drafts

section Runs

variable {digits letters} {extras extras' : Extras} {stage : Stage} {data out : StageData}

theorem Stage.run_output (ran : stage.run digits letters extras data = .ok out) : out.kind = stage.output := by
  cases stage <;> obtain ⟨_, -, rest⟩ := except_bind_ok.mp ran
  case splitPages =>
    obtain ⟨_, -, isOut⟩ := except_bind_ok.mp rest
    cases isOut
    rfl
  all_goals
    cases rest
    rfl

/-- **A stage runs** on data of its kind, the first one on a source whose markers can be read. -/
theorem Stage.run_ok : (∃ out, stage.run digits letters extras data = .ok out) ↔
    data.kind = stage.input ∧ ∀ text, data = .source text → ∃ pages,
      Distill.splitPages digits text = .ok pages := by
  constructor
  · rintro ⟨out, ran⟩
    cases stage <;> obtain ⟨_, expected, rest⟩ := except_bind_ok.mp ran <;> cases data <;> cases expected
    case splitPages.source.refl text =>
      refine ⟨rfl, ?_⟩
      rintro _ ⟨⟩
      obtain ⟨pages, arePages, -⟩ := except_bind_ok.mp rest
      cases cut : Distill.splitPages digits text with
      | ok pages => exact ⟨pages, rfl⟩
      | error error =>
        rw [cut] at arePages
        cases arePages
    all_goals exact ⟨rfl, fun _ isSource => nomatch isSource⟩
  · rintro ⟨isKind, readable⟩
    cases stage <;> cases data <;> cases isKind
    case splitPages.source.refl text =>
      obtain ⟨pages, cut⟩ := readable text rfl
      refine ⟨.pages pages, ?_⟩
      have isMapped : (Distill.splitPages digits text).mapError ParseError.invalidPageMarker = .ok pages := by
        rw [cut]
        rfl
      exact except_bind_ok.mpr ⟨text, rfl, except_bind_ok.mpr ⟨pages, isMapped, rfl⟩⟩
    all_goals exact ⟨_, rfl⟩

/-! ### What the stamps change -/

/-- The same data, or drafts of the same splits under other stamps. -/
inductive Restamped (letters : Letters) (extras extras' : Extras) : StageData → StageData → Prop
  | same (data : StageData) (isOpen : data.kind ≠ .drafts) : Restamped letters extras extras' data data
  | drafts (rule : ToEntryDraft) (splits : List SplitEntry) :
      Restamped letters extras extras' (.drafts (splits.map (oneDraft letters rule extras)))
        (.drafts (splits.map (oneDraft letters rule extras')))

theorem Stage.run_restamped {data' : StageData} (restamped : Restamped letters extras extras' data data')
    (ran : stage.run digits letters extras data = .ok out) :
    ∃ out', stage.run digits letters extras' data' = .ok out' ∧ Restamped letters extras extras' out out' := by
  cases restamped with
  | drafts rule splits =>
    have isKind := (Stage.run_ok.mp ⟨out, ran⟩).1
    cases stage <;> cases isKind
  | same _ _ =>
    have isKind := Stage.run_output ran
    cases stage with
    | toEntryDraft rule =>
      obtain ⟨splits, expected, isOut⟩ := except_bind_ok.mp ran
      cases isOut
      exact ⟨_, except_bind_ok.mpr ⟨splits, expected, rfl⟩, .drafts rule splits⟩
    | splitPages => exact ⟨out, ran, .same out (isKind ▸ nofun)⟩
    | segment => exact ⟨out, ran, .same out (isKind ▸ nofun)⟩
    | walk => exact ⟨out, ran, .same out (isKind ▸ nofun)⟩
    | pair => exact ⟨out, ran, .same out (isKind ▸ nofun)⟩
    | split => exact ⟨out, ran, .same out (isKind ▸ nofun)⟩
    | extract => exact ⟨out, ran, .same out (isKind ▸ nofun)⟩

theorem runStages_restamped {stages : List Stage} {data' final : StageData} {reports : List StageReport}
    (restamped : Restamped letters extras extras' data data')
    (ran : runStages digits letters extras stages data = .ok (final, reports)) :
    ∃ final' reports', runStages digits letters extras' stages data' = .ok (final', reports') ∧
      Restamped letters extras extras' final final' := by
  induction stages generalizing data data' final reports with
  | nil =>
    cases ran
    exact ⟨data', [], rfl, restamped⟩
  | cons stage rest ih =>
    obtain ⟨out, turn, next⟩ := except_bind_ok.mp ran
    obtain ⟨⟨last, others⟩, turns, isFinal⟩ := except_bind_ok.mp next
    cases isFinal
    obtain ⟨out', turn', restamped'⟩ := Stage.run_restamped restamped turn
    obtain ⟨final', reports', turns', restamped''⟩ := ih restamped' turns
    exact ⟨final', _, except_bind_ok.mpr ⟨out', turn', except_bind_ok.mpr ⟨_, turns', rfl⟩⟩, restamped''⟩

/-- **Runs that differ in what they stamp** make their drafts of the same splits. -/
theorem run_restamped {pipeline : Pipeline} {source : List Char} {drafts : List EntryDraft}
    {reports : List StageReport} (extras' : Extras)
    (ran : pipeline.run digits letters source extras = .ok (drafts, reports)) :
    ∃ (rule : ToEntryDraft) (splits : List SplitEntry) (reports' : List StageReport),
      drafts = splits.map (oneDraft letters rule extras) ∧
      pipeline.run digits letters source extras' = .ok
        (splits.map (oneDraft letters rule extras'), reports') := by
  obtain ⟨⟨final, taken⟩, turns, isFinal⟩ := except_bind_ok.mp ran
  have isOpen : (StageData.source source).kind ≠ .drafts := nofun
  obtain ⟨final', reports', turns', restamped⟩ := runStages_restamped (.same _ isOpen) turns
  cases restamped with
  | same _ isOpen =>
    cases final <;> first | exact absurd rfl isOpen | cases isFinal
  | drafts rule splits =>
    cases isFinal
    exact ⟨rule, splits, reports', rfl, except_bind_ok.mpr ⟨_, turns', rfl⟩⟩

/-! ### What the blanks of a source change -/

/-- Data of one kind; sources of one shape. -/
def SameShape (one other : StageData) : Prop :=
  one.kind = other.kind ∧ ∀ text text', one = .source text → other = .source text' →
    Alike isWhitespace text text'

theorem sameShape_of_kind {one other : StageData} (same : one.kind = other.kind) (isLater : one.kind ≠ .source) :
    SameShape one other := by
  refine ⟨same, ?_⟩
  rintro _ _ rfl _
  exact absurd rfl isLater

theorem runStages_alike {stages : List Stage} {data' : StageData} (sameShape : SameShape data data') :
    ∀ {final' : StageData} {reports' : List StageReport},
      runStages digits letters extras stages data' = .ok (final', reports') →
        ∃ final reports, runStages digits letters extras' stages data = .ok (final, reports) ∧
          final.kind = final'.kind := by
  induction stages generalizing data data' with
  | nil =>
    intro final' reports' ran
    cases ran
    exact ⟨data, [], rfl, sameShape.1⟩
  | cons stage rest ih =>
    intro final' reports' ran
    obtain ⟨out', turn', next⟩ := except_bind_ok.mp ran
    obtain ⟨⟨last, others⟩, turns', isFinal⟩ := except_bind_ok.mp next
    cases isFinal
    obtain ⟨isKind, readable⟩ := Stage.run_ok.mp ⟨out', turn'⟩
    obtain ⟨out, turn⟩ : ∃ out, stage.run digits letters extras' data = .ok out := by
      refine Stage.run_ok.mpr ⟨sameShape.1.trans isKind, ?_⟩
      rintro text rfl
      cases data' with
      | source text' => exact (splitPages_alike (sameShape.2 text text' rfl rfl)).mpr (readable text' rfl)
      | _ => cases sameShape.1
    have isKind' := (Stage.run_output turn).trans (Stage.run_output turn').symm
    have isLater : out.kind ≠ .source := by
      rw [Stage.run_output turn]
      cases stage <;> exact nofun
    obtain ⟨final, reports, turns, sameKind⟩ := ih (sameShape_of_kind isKind' isLater) turns'
    exact ⟨final, _, except_bind_ok.mpr ⟨out, turn, except_bind_ok.mpr ⟨_, turns, rfl⟩⟩, sameKind⟩

/-- **A source runs through** when one that differs from it in its blanks does. -/
theorem run_alike {pipeline : Pipeline} {source source' : List Char} (alike : Alike isWhitespace source source')
    {result' : List EntryDraft × List StageReport}
    (ran : pipeline.run digits letters source' extras = .ok result') (extras' : Extras) :
    ∃ result, pipeline.run digits letters source extras' = .ok result := by
  obtain ⟨⟨final', reports'⟩, turns', isFinal⟩ := except_bind_ok.mp ran
  have sameShape : SameShape (.source source) (.source source') := by
    refine ⟨rfl, ?_⟩
    rintro _ _ ⟨⟩ ⟨⟩
    exact alike
  obtain ⟨final, reports, turns, sameKind⟩ := runStages_alike sameShape turns'
  cases final' with
  | drafts drafts' =>
    cases final with
    | drafts drafts => exact ⟨(drafts, reports), except_bind_ok.mpr ⟨_, turns, rfl⟩⟩
    | _ => cases sameKind
  | _ => cases isFinal

end Runs

end Bookrack.Distill
