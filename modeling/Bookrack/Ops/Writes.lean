/-
The metadata writes of a curator (`ops/src/writes/mod.rs`, `writes/metadata.rs`,
`writes/papers_metadata.rs`).

A write is a program over one catalog. Each statement it runs may fail and end it; the statements
share no transaction, so what ran before stays. The book and the paper verbs are one definition each,
applied to the kind and the fields its side accepts. The tool-call row of the recorder is left out:
its failure is logged and no write reads it.
-/

import Bookrack.Base.Prog
import Bookrack.Catalog.Effective
import Bookrack.Core.NodeId
import Bookrack.Normalize.Pipeline

namespace Bookrack.Writes

open Catalog
open Queue (ItemKind)

/-! ### Callers, statements, errors -/

/-- `Caller`: what a write stamps onto its audit row. -/
structure Caller where
  actorKind : ActorKind
  actorDetail : Option String
  sessionId : Option String
  reason : Option String
  deriving DecidableEq, Repr

/-- The statements of a write. -/
inductive Statement
  | openCatalog
  | intakeById
  | publicationAttrs
  | overridesForAddress
  | contributorsForAddress
  | change
  | recordMetadataAudit
  deriving DecidableEq, Repr

/-- `OpsError`, as far as the writes raise it. -/
inductive OpsError
  | catalog (statement : Statement)
  | papersBackendNotConfigured
  | intakeNotFound (intakeId : Int)
  | unknownMetadataField (field : String) (editable : List String)
  | unknownContributorRole (role : String)
  | contributorNotFound (contributorId intakeId : Int)
  | other (text : String)
  deriving DecidableEq, Repr

/-- `Ops` for one call: its effective caller, whether a papers backend is attached, and the statement
that fails. -/
structure Ops where
  caller : Caller
  papersConfigured : Bool
  fault : Option Statement
  deriving DecidableEq, Repr

/-- `WriteOutcome`. -/
structure WriteOutcome where
  auditId : Int
  actorKind : String
  actorDetail : Option String
  changed : Bool
  deriving DecidableEq, Repr

/-- A write, up to its result. -/
abbrev Write := Prog CatalogDb OpsError

namespace Ops

/-- A statement that reads. -/
def query {α : Type} (ops : Ops) (statement : Statement) (view : CatalogDb → α) : Write α := fun db =>
  if ops.fault = some statement then (.error (.catalog statement), db) else (.value (view db), db)

/-- A statement that writes; a constraint it violates is a failure of its own. -/
def execute {α : Type} (ops : Ops) (statement : Statement) (change : CatalogDb → Option (α × CatalogDb)) :
    Write α := fun db =>
  if ops.fault = some statement then (.error (.catalog statement), db)
  else
    match change db with
    | some (result, after) => (.value result, after)
    | none => (.error (.catalog statement), db)

/-- `build_audit`. -/
def buildAudit (ops : Ops) (tableName action : String) (intakeId : Option Int)
    (field oldValue newValue reason : Option String) : NewMetadataAudit where
  nodeId := intakeId.map fun intakeId => (PartitionIdx.root ⟨intakeId⟩).get
  tableName := tableName
  field := field
  action := action
  oldValue := oldValue
  newValue := newValue
  actorKind := ops.caller.actorKind
  actorDetail := ops.caller.actorDetail
  reason := reason <|> ops.caller.reason
  sessionId := ops.caller.sessionId

/-- `write_outcome`. -/
def writeOutcome (ops : Ops) (auditId : Int) (changed : Bool) : WriteOutcome :=
  ⟨auditId, ops.caller.actorKind.asStr, ops.caller.actorDetail, changed⟩

/-- `Catalog::open` and `open_paper_catalog`. -/
def openCatalog (ops : Ops) (kind : ItemKind) : Write Unit :=
  if kind = .paper ∧ ops.papersConfigured = false then Prog.throw .papersBackendNotConfigured
  else ops.query .openCatalog fun _ => ()

/-- A check made before anything is written. -/
def ensure (ok : Prop) [Decidable ok] (reason : OpsError) : Write Unit :=
  if ok then pure () else Prog.throw reason

/-- `require_intake`. -/
def requireIntake (ops : Ops) (intakeId : Int) : Write Unit := do
  let intake ← ops.query .intakeById fun db => db.intakeById intakeId
  ensure (intake.isSome = true) (.intakeNotFound intakeId)

/-- `require_editable` and `require_paper_editable`. -/
def requireEditable (editable : List String) (field : String) : Write Unit :=
  ensure (field ∈ editable) (.unknownMetadataField field editable)

/-- The value a field has: one statement for the base layer, one for the overrides. -/
def effectiveValue (ops : Ops) (address : Address) (field : String) : Write (Option String) := do
  ops.query .publicationAttrs fun _ => ()
  ops.query .overridesForAddress fun db => (db.effectivePublicationAttrs address).get field

/-- `Catalog::record_metadata_audit`. -/
def recordMetadataAudit (ops : Ops) (audit : NewMetadataAudit) : Write Int :=
  ops.execute .recordMetadataAudit fun db => some (db.recordMetadataAudit audit)

/-! ### Fields -/

/-- `set_metadata_field` and `set_paper_metadata_field`. -/
def setField (ops : Ops) (kind : ItemKind) (editable : List String) (intakeId : Int)
    (field value : String) (reason : Option String) (confirmed : Bool) : Write WriteOutcome := do
  requireEditable editable field
  ops.openCatalog kind
  ops.requireIntake intakeId
  let oldValue ← ops.effectiveValue (intakeId, kind) field
  ops.execute .change fun db =>
    some ((), db.setOverride (intakeId, kind) field
      ⟨some value, confirmed, ops.caller.actorKind.asStr, none⟩)
  let auditId ← ops.recordMetadataAudit
    (ops.buildAudit "node_publication_attrs" "update" (some intakeId) (some field) oldValue (some value)
      reason)
  pure (ops.writeOutcome auditId true)

/-- `clear_metadata_field` and `clear_paper_metadata_field`. -/
def clearField (ops : Ops) (kind : ItemKind) (editable : List String) (intakeId : Int)
    (field : String) (reason : Option String) : Write WriteOutcome := do
  ops.openCatalog kind
  ops.requireIntake intakeId
  let oldValue ← ops.effectiveValue (intakeId, kind) field
  let existed ← ops.execute .change fun db =>
    some ((db.nodeOverrides.lookup ((intakeId, kind), field)).isSome,
      db.clearOverride (intakeId, kind) field)
  ensure (existed = true ∨ field ∈ editable) (.unknownMetadataField field editable)
  -- The row is appended either way: the trail records that someone tried.
  let auditId ← ops.recordMetadataAudit
    (ops.buildAudit "node_publication_attrs" "delete" (some intakeId) (some field)
      (if existed then oldValue else none) none reason)
  pure (ops.writeOutcome auditId existed)

/-- `void_metadata_field` and `void_paper_metadata_field`. -/
def voidField (ops : Ops) (kind : ItemKind) (editable : List String) (intakeId : Int)
    (field : String) (reason : Option String) : Write WriteOutcome := do
  requireEditable editable field
  ops.openCatalog kind
  ops.requireIntake intakeId
  let oldValue ← ops.effectiveValue (intakeId, kind) field
  ops.execute .change fun db =>
    some ((), db.setOverride (intakeId, kind) field ⟨none, false, ops.caller.actorKind.asStr, none⟩)
  let auditId ← ops.recordMetadataAudit
    (ops.buildAudit "node_publication_attrs" "void" (some intakeId) (some field) oldValue none reason)
  pure (ops.writeOutcome auditId oldValue.isSome)

/-! ### Contributors -/

/-- `CONTRIBUTOR_ROLES`. -/
def contributorRoles : List String := ["author", "translator", "editor", "other"]

/-- `next_contributor_ordinal`: one past the largest of the role. -/
def nextContributorOrdinal (existing : List (Int × NodeContributor)) (role : String) : Int :=
  match (existing.filter fun row => decide (row.2.role = role)).map fun row => row.2.ordinal with
  | [] => 0
  | first :: rest => rest.foldl max first + 1

/-- `str::trim`. -/
def trimmed (name : String) : String := String.ofList (Normalize.trim name.toList)

/-- What a request may say of a contributor besides role and name. -/
structure NameParts where
  nationality : Option String
  family : Option String
  given : Option String
  orcid : Option String
  deriving DecidableEq, Repr

/-- `NewContributor::new` with `origin = "user"`. -/
def userContributor (address : Address) (role : String) (ordinal : Int) (name : String)
    (parts : NameParts) : NodeContributor where
  intakeId := address.1
  scope := address.2
  role := role
  ordinal := ordinal
  origin := "user"
  name := name
  nationality := parts.nationality
  inheritable := true
  family := parts.family
  given := parts.given
  orcid := parts.orcid

/-- `add_contributor` and `add_paper_contributor`. -/
def addContributorWith (ops : Ops) (kind : ItemKind) (intakeId : Int) (role name : String)
    (parts : NameParts) (reason : Option String) :
    Write (Int × WriteOutcome) := do
  ensure (role ∈ contributorRoles) (.unknownContributorRole role)
  let name := trimmed name
  ensure (name ≠ "") (.other "contributor name must not be empty")
  ops.openCatalog kind
  ops.requireIntake intakeId
  let existing ← ops.query .contributorsForAddress fun db => db.contributorsForAddress (intakeId, kind)
  let ordinal := nextContributorOrdinal existing role
  let contributorId ← ops.execute .change fun db =>
    db.addContributor (userContributor (intakeId, kind) role ordinal name parts)
  let auditId ← ops.recordMetadataAudit
    (ops.buildAudit "node_contributors" "insert" (some intakeId) (some role) none (some name) reason)
  pure (contributorId, ops.writeOutcome auditId true)

/-- `remove_contributor` and `remove_paper_contributor`. -/
def removeContributorOf (ops : Ops) (kind : ItemKind) (intakeId contributorId : Int)
    (reason : Option String) : Write WriteOutcome := do
  ops.openCatalog kind
  ops.requireIntake intakeId
  let existing ← ops.query .contributorsForAddress fun db => db.contributorsForAddress (intakeId, kind)
  match existing.find? fun row => decide (row.1 = contributorId) with
  | none => Prog.throw (.contributorNotFound contributorId intakeId)
  | some row =>
    let removed ← ops.execute .change fun db =>
      some ((db.nodeContributors.lookup contributorId).isSome, db.removeContributor contributorId)
    let auditId ← ops.recordMetadataAudit
      (ops.buildAudit "node_contributors" "delete" (some intakeId) (some row.2.role) (some row.2.name)
        none reason)
    pure (ops.writeOutcome auditId removed)

/-! ### Reviews -/

/-- `write_review_status_inner`: the audit row lands before the review row. -/
def writeReviewStatusInner (ops : Ops) (kind : ItemKind) (intakeId : Int) (status action : String)
    (reason : Option String) : Write WriteOutcome := do
  ops.requireIntake intakeId
  let auditId ← ops.recordMetadataAudit
    (ops.buildAudit "node_reviews" action (some intakeId) none none none reason)
  ops.execute .change fun db =>
    some ((), db.upsertReview (intakeId, kind) ⟨ops.caller.actorKind.asStr, status, none⟩)
  pure (ops.writeOutcome auditId true)

/-- A review verb: the catalog is opened, the status moved. -/
def review (ops : Ops) (kind : ItemKind) (intakeId : Int) (status action : String)
    (reason : Option String) : Write WriteOutcome := do
  ops.openCatalog kind
  ops.writeReviewStatusInner kind intakeId status action reason

/-! ### The book verbs -/

def setMetadataField (ops : Ops) (intakeId : Int) (field value : String) (reason : Option String)
    (confirmed : Bool) : Write WriteOutcome :=
  ops.setField .book editableFields intakeId field value reason confirmed

def clearMetadataField (ops : Ops) (intakeId : Int) (field : String) (reason : Option String) :
    Write WriteOutcome := ops.clearField .book editableFields intakeId field reason

def voidMetadataField (ops : Ops) (intakeId : Int) (field : String) (reason : Option String) :
    Write WriteOutcome := ops.voidField .book editableFields intakeId field reason

def addContributor (ops : Ops) (intakeId : Int) (role name : String) (nationality : Option String)
    (reason : Option String) : Write (Int × WriteOutcome) :=
  ops.addContributorWith .book intakeId role name ⟨nationality, none, none, none⟩ reason

def removeContributor (ops : Ops) (intakeId contributorId : Int) (reason : Option String) :
    Write WriteOutcome := ops.removeContributorOf .book intakeId contributorId reason

def acknowledgeMetadataGap (ops : Ops) (intakeId : Int) (reason : String) : Write WriteOutcome :=
  ops.review .book intakeId "acknowledged" "acknowledge_gate" (some reason)

def approveMetadata (ops : Ops) (intakeId : Int) (reason : Option String) : Write WriteOutcome :=
  ops.review .book intakeId "approved" "approve" reason

def rejectMetadata (ops : Ops) (intakeId : Int) (reason : String) : Write WriteOutcome :=
  ops.review .book intakeId "rejected" "reject" (some reason)

/-! ### The paper verbs -/

/-- `PAPER_EDITABLE_FIELDS`. -/
def paperEditableFields : List String :=
  ["title", "subtitle", "publisher", "year", "language", "series", "doi", "arxiv_id", "issn",
    "container_title", "abstract_text", "csl_type"]

def setPaperMetadataField (ops : Ops) (intakeId : Int) (field value : String)
    (reason : Option String) (confirmed : Bool) : Write WriteOutcome :=
  ops.setField .paper paperEditableFields intakeId field value reason confirmed

def clearPaperMetadataField (ops : Ops) (intakeId : Int) (field : String) (reason : Option String) :
    Write WriteOutcome := ops.clearField .paper paperEditableFields intakeId field reason

def voidPaperMetadataField (ops : Ops) (intakeId : Int) (field : String) (reason : Option String) :
    Write WriteOutcome := ops.voidField .paper paperEditableFields intakeId field reason

def addPaperContributor (ops : Ops) (intakeId : Int) (role name : String)
    (family given orcid : Option String) (reason : Option String) : Write (Int × WriteOutcome) :=
  ops.addContributorWith .paper intakeId role name ⟨none, family, given, orcid⟩ reason

def removePaperContributor (ops : Ops) (intakeId contributorId : Int) (reason : Option String) :
    Write WriteOutcome := ops.removeContributorOf .paper intakeId contributorId reason

def acknowledgePaperMetadataGap (ops : Ops) (intakeId : Int) (reason : Option String) :
    Write WriteOutcome := ops.review .paper intakeId "acknowledged" "acknowledge_gate" reason

def approvePaperMetadata (ops : Ops) (intakeId : Int) (reason : Option String) : Write WriteOutcome :=
  ops.review .paper intakeId "approved" "approve" reason

def rejectPaperMetadata (ops : Ops) (intakeId : Int) (reason : Option String) : Write WriteOutcome :=
  ops.review .paper intakeId "rejected" "reject" reason

def reopenPaperReview (ops : Ops) (intakeId : Int) (reason : Option String) : Write WriteOutcome :=
  ops.review .paper intakeId "pending" "reopen" reason

end Ops

end Bookrack.Writes
