/-
The tables of a catalog that hold what is known of an item, and the single-row statements on them
(`catalog/src/node_*.rs`, `catalog/src/metadata_audit.rs`, `catalog/src/intake.rs`).

A table with a declared primary key is an association list without repeated keys; the `scope` of a
row is the item kind it names. The time stamps SQLite puts on a row are left out.
-/

import Bookrack.Queue.Job
import Mathlib.Data.List.AList
import Mathlib.Data.List.Sort
import Mathlib.Data.String.Basic

namespace Bookrack.Catalog

open Queue (ItemKind)

/-! ### Rows -/

/-- `IntakeStatus`. -/
inductive IntakeStatus
  | pending
  | extracted
  | dedupHold
  | embedded
  | aborted
  | needsOcr
  deriving DecidableEq, Repr

/-- `IntakeStatus::as_str`. -/
def IntakeStatus.asStr : IntakeStatus → String
  | .pending => "pending"
  | .extracted => "extracted"
  | .dedupHold => "dedup_hold"
  | .embedded => "embedded"
  | .aborted => "aborted"
  | .needsOcr => "needs_ocr"

/-- `Intake` without its id, as far as the searches read it. -/
structure Intake where
  status : IntakeStatus
  format : Option String
  deriving DecidableEq, Repr

/-- `PublicationAttrs` without its address: what extraction wrote. -/
structure PublicationAttrs where
  title : Option String := none
  subtitle : Option String := none
  publisher : Option String := none
  year : Option String := none
  publicationDate : Option String := none
  isbn : Option String := none
  series : Option String := none
  seriesNumber : Option String := none
  edition : Option String := none
  language : Option String := none
  pubPlace : Option String := none
  originalTitle : Option String := none
  originalLanguage : Option String := none
  originalYear : Option String := none
  sourceFormat : Option String := none
  source : Option String := none
  confidence : Option String := none
  auditVerdict : Option String := none
  enrichedBy : Option String := none
  doi : Option String := none
  arxivId : Option String := none
  issn : Option String := none
  containerTitle : Option String := none
  abstractText : Option String := none
  cslType : Option String := none
  deriving DecidableEq, Repr

/-- `NodeOverride` without its key: a value, or an explicit NULL. -/
structure NodeOverride where
  value : Option String
  confirmed : Bool
  curatedBy : String
  notes : Option String
  deriving DecidableEq, Repr

/-- `NodeContributor` without its id. -/
structure NodeContributor where
  intakeId : Int
  scope : ItemKind
  role : String
  ordinal : Int
  origin : String
  name : String
  nationality : Option String
  inheritable : Bool
  family : Option String
  given : Option String
  orcid : Option String
  deriving DecidableEq, Repr

/-- The `UNIQUE` key of a contributor. -/
def NodeContributor.naturalKey (row : NodeContributor) : Int × ItemKind × String × Int × String :=
  (row.intakeId, row.scope, row.role, row.ordinal, row.origin)

/-- `NodeReview` without its key. -/
structure NodeReview where
  reviewedBy : String
  status : String
  notes : Option String
  deriving DecidableEq, Repr

/-- `ActorKind`. -/
inductive ActorKind
  | human
  | llm
  | import_
  | pipeline
  | system
  deriving DecidableEq, Repr

/-- `ActorKind::as_str`. -/
def ActorKind.asStr : ActorKind → String
  | .human => "human"
  | .llm => "llm"
  | .import_ => "import"
  | .pipeline => "pipeline"
  | .system => "system"

/-- `NewMetadataAudit`. -/
structure NewMetadataAudit where
  nodeId : Option Int
  tableName : String
  field : Option String
  action : String
  oldValue : Option String
  newValue : Option String
  actorKind : ActorKind
  actorDetail : Option String
  reason : Option String
  sessionId : Option String
  deriving DecidableEq, Repr

/-- `MetadataAudit`: the row with the id it was given. -/
structure MetadataAudit extends NewMetadataAudit where
  auditId : Int
  deriving DecidableEq, Repr

/-! ### Tables -/

/-- The address of a node: an intake and the scope of its item. -/
abbrev Address := Int × ItemKind

/-- `Catalog`: the tables, and the largest ids the two AUTOINCREMENT tables have given. -/
structure CatalogDb where
  intakes : AList fun _ : Int => Intake
  publicationAttrs : AList fun _ : Address => PublicationAttrs
  nodeOverrides : AList fun _ : Address × String => NodeOverride
  nodeContributors : AList fun _ : Int => NodeContributor
  contributorSeq : Int
  nodeReviews : AList fun _ : Address => NodeReview
  nodeCategories : List (Address × String)
  metadataAudit : List MetadataAudit
  auditSeq : Int

namespace CatalogDb

/-- `Catalog::intake_by_id`. -/
def intakeById (db : CatalogDb) (intakeId : Int) : Option Intake :=
  db.intakes.lookup intakeId

/-- `Catalog::publication_attrs`. -/
def publicationAttrsAt (db : CatalogDb) (address : Address) : Option PublicationAttrs :=
  db.publicationAttrs.lookup address

/-- `Catalog::overrides_for_address`: the fields with their rows, by field name. -/
def overridesForAddress (db : CatalogDb) (address : Address) : List (String × NodeOverride) :=
  (db.nodeOverrides.entries.filterMap fun entry =>
    if entry.1.1 = address then some (entry.1.2, entry.2) else none).insertionSort
      fun one other => one.1 ≤ other.1

/-- `Catalog::set_override`: insert or replace. -/
def setOverride (db : CatalogDb) (address : Address) (field : String) (row : NodeOverride) :
    CatalogDb :=
  { db with nodeOverrides := db.nodeOverrides.insert (address, field) row }

/-- `Catalog::clear_override`. -/
def clearOverride (db : CatalogDb) (address : Address) (field : String) : CatalogDb :=
  { db with nodeOverrides := db.nodeOverrides.erase (address, field) }

/-- `Catalog::contributors_for_address`: the ids with their rows, by role, then ordinal. -/
def contributorsForAddress (db : CatalogDb) (address : Address) : List (Int × NodeContributor) :=
  (db.nodeContributors.entries.filterMap fun entry =>
    if (entry.2.intakeId, entry.2.scope) = address then some (entry.1, entry.2)
    else none).insertionSort fun one other =>
      one.2.role < other.2.role ∨ one.2.role = other.2.role ∧ one.2.ordinal ≤ other.2.ordinal

/-- The id SQLite gives the next contributor. -/
def nextContributorId (db : CatalogDb) : Int :=
  db.nodeContributors.keys.foldr max db.contributorSeq + 1

/-- `Catalog::add_contributor`: the id it gets; refused when its natural key is taken. -/
def addContributor (db : CatalogDb) (new : NodeContributor) : Option (Int × CatalogDb) :=
  if ∃ entry ∈ db.nodeContributors.entries, entry.2.naturalKey = new.naturalKey then none
  else
    let contributorId := db.nextContributorId
    some (contributorId,
      { db with
        nodeContributors := db.nodeContributors.insert contributorId new
        contributorSeq := contributorId })

/-- `Catalog::remove_contributor`. -/
def removeContributor (db : CatalogDb) (contributorId : Int) : CatalogDb :=
  { db with nodeContributors := db.nodeContributors.erase contributorId }

/-- `Catalog::upsert_review`: a row without notes keeps the notes on file. -/
def upsertReview (db : CatalogDb) (address : Address) (row : NodeReview) : CatalogDb :=
  let notes := row.notes <|> (db.nodeReviews.lookup address).bind NodeReview.notes
  { db with nodeReviews := db.nodeReviews.insert address { row with notes := notes } }

/-- `Catalog::record_metadata_audit`: the id of the row it appends. -/
def recordMetadataAudit (db : CatalogDb) (new : NewMetadataAudit) : Int × CatalogDb :=
  let auditId := max db.auditSeq (db.metadataAudit.foldr (fun row top => max row.auditId top) 0) + 1
  (auditId, { db with metadataAudit := db.metadataAudit ++ [⟨new, auditId⟩], auditSeq := auditId })

end CatalogDb

end Bookrack.Catalog
