/-
What a metadata write does to its catalog, apart from how it is cut short.

* `Request.effect`: the row a request changes and the audit row it appends, none when it is refused.
* **`left_obeys`**: a request leaves its whole effect; an edit whose audit statement fails leaves the
  change without the row, and any other failing statement leaves the catalog as it was, or a review's
  audit row alone.
-/

import Bookrack.Ops.Writes

namespace Bookrack.Writes

open Catalog Writes.Ops
open Queue (ItemKind)

/-! ### Requests -/

/-- A request to one of the verbs. -/
inductive Request
  | setMetadataField (intakeId : Int) (field value : String) (reason : Option String) (confirmed : Bool)
  | clearMetadataField (intakeId : Int) (field : String) (reason : Option String)
  | voidMetadataField (intakeId : Int) (field : String) (reason : Option String)
  | addContributor (intakeId : Int) (role name : String) (nationality reason : Option String)
  | removeContributor (intakeId contributorId : Int) (reason : Option String)
  | acknowledgeMetadataGap (intakeId : Int) (reason : String)
  | approveMetadata (intakeId : Int) (reason : Option String)
  | rejectMetadata (intakeId : Int) (reason : String)
  | setPaperMetadataField (intakeId : Int) (field value : String) (reason : Option String)
    (confirmed : Bool)
  | clearPaperMetadataField (intakeId : Int) (field : String) (reason : Option String)
  | voidPaperMetadataField (intakeId : Int) (field : String) (reason : Option String)
  | addPaperContributor (intakeId : Int) (role name : String)
    (family given orcid reason : Option String)
  | removePaperContributor (intakeId contributorId : Int) (reason : Option String)
  | acknowledgePaperMetadataGap (intakeId : Int) (reason : Option String)
  | approvePaperMetadata (intakeId : Int) (reason : Option String)
  | rejectPaperMetadata (intakeId : Int) (reason : Option String)
  | reopenPaperReview (intakeId : Int) (reason : Option String)
  deriving DecidableEq, Repr

/-- The side whose catalog the request writes. -/
def Request.kind : Request → ItemKind
  | setMetadataField .. | clearMetadataField .. | voidMetadataField .. | addContributor ..
  | removeContributor .. | acknowledgeMetadataGap .. | approveMetadata .. | rejectMetadata .. => .book
  | _ => .paper

/-- The catalog the request leaves. -/
def Request.left (ops : Ops) (db : CatalogDb) : Request → CatalogDb
  | setMetadataField intakeId field value reason confirmed =>
    (ops.setMetadataField intakeId field value reason confirmed).left db
  | clearMetadataField intakeId field reason => (ops.clearMetadataField intakeId field reason).left db
  | voidMetadataField intakeId field reason => (ops.voidMetadataField intakeId field reason).left db
  | addContributor intakeId role name nationality reason =>
    (ops.addContributor intakeId role name nationality reason).left db
  | removeContributor intakeId contributorId reason =>
    (ops.removeContributor intakeId contributorId reason).left db
  | acknowledgeMetadataGap intakeId reason => (ops.acknowledgeMetadataGap intakeId reason).left db
  | approveMetadata intakeId reason => (ops.approveMetadata intakeId reason).left db
  | rejectMetadata intakeId reason => (ops.rejectMetadata intakeId reason).left db
  | setPaperMetadataField intakeId field value reason confirmed =>
    (ops.setPaperMetadataField intakeId field value reason confirmed).left db
  | clearPaperMetadataField intakeId field reason =>
    (ops.clearPaperMetadataField intakeId field reason).left db
  | voidPaperMetadataField intakeId field reason =>
    (ops.voidPaperMetadataField intakeId field reason).left db
  | addPaperContributor intakeId role name family given orcid reason =>
    (ops.addPaperContributor intakeId role name family given orcid reason).left db
  | removePaperContributor intakeId contributorId reason =>
    (ops.removePaperContributor intakeId contributorId reason).left db
  | acknowledgePaperMetadataGap intakeId reason =>
    (ops.acknowledgePaperMetadataGap intakeId reason).left db
  | approvePaperMetadata intakeId reason => (ops.approvePaperMetadata intakeId reason).left db
  | rejectPaperMetadata intakeId reason => (ops.rejectPaperMetadata intakeId reason).left db
  | reopenPaperReview intakeId reason => (ops.reopenPaperReview intakeId reason).left db

/-! ### Effects -/

/-- A change of one row. -/
inductive RowChange
  | nothing
  | override (address : Address) (field : String) (row : Option NodeOverride)
  | contributor (contributorId : Int) (row : Option NodeContributor)
  | review (address : Address) (row : NodeReview)

/-- The catalog with the row changed. -/
def RowChange.apply (db : CatalogDb) : RowChange → CatalogDb
  | nothing => db
  | override address field (some row) => db.setOverride address field row
  | override address field none => db.clearOverride address field
  | contributor contributorId (some row) =>
    { db with
      nodeContributors := db.nodeContributors.insert contributorId row
      contributorSeq := contributorId }
  | contributor contributorId none => db.removeContributor contributorId
  | review address row => db.upsertReview address row

/-- A change, the audit row that tells it, and whether the row is appended first. -/
structure Effect where
  change : RowChange
  audit : NewMetadataAudit
  auditFirst : Bool

/-- The catalog once change and row are both on file. -/
def Effect.whole (effect : Effect) (db : CatalogDb) : CatalogDb :=
  ((effect.change.apply db).recordMetadataAudit effect.audit).2

namespace Ops

/-- The catalog opens and the intake is on file. -/
def Reaches (ops : Ops) (kind : ItemKind) (db : CatalogDb) (intakeId : Int) : Prop :=
  ¬(kind = .paper ∧ ops.papersConfigured = false) ∧ (db.intakeById intakeId).isSome = true

instance (ops : Ops) (kind : ItemKind) (db : CatalogDb) (intakeId : Int) :
    Decidable (ops.Reaches kind db intakeId) :=
  inferInstanceAs (Decidable (_ ∧ _))

variable (ops : Ops) (kind : ItemKind) (editable : List String) (db : CatalogDb) (intakeId : Int)

def setEffect (field value : String) (reason : Option String) (confirmed : Bool) : Option Effect :=
  if field ∈ editable ∧ ops.Reaches kind db intakeId then
    some ⟨.override (intakeId, kind) field
        (some ⟨some value, confirmed, ops.caller.actorKind.asStr, none⟩),
      ops.buildAudit "node_publication_attrs" "update" (some intakeId) (some field)
        ((db.effectivePublicationAttrs (intakeId, kind)).get field) (some value) reason, false⟩
  else none

def voidEffect (field : String) (reason : Option String) : Option Effect :=
  if field ∈ editable ∧ ops.Reaches kind db intakeId then
    some ⟨.override (intakeId, kind) field (some ⟨none, false, ops.caller.actorKind.asStr, none⟩),
      ops.buildAudit "node_publication_attrs" "void" (some intakeId) (some field)
        ((db.effectivePublicationAttrs (intakeId, kind)).get field) none reason, false⟩
  else none

def clearEffect (field : String) (reason : Option String) : Option Effect :=
  if ops.Reaches kind db intakeId then
    if (db.nodeOverrides.lookup ((intakeId, kind), field)).isSome then
      some ⟨.override (intakeId, kind) field none,
        ops.buildAudit "node_publication_attrs" "delete" (some intakeId) (some field)
          ((db.effectivePublicationAttrs (intakeId, kind)).get field) none reason, false⟩
    else if field ∈ editable then
      some ⟨.nothing,
        ops.buildAudit "node_publication_attrs" "delete" (some intakeId) (some field) none none
          reason, false⟩
    else none
  else none

def addEffect (role name : String) (parts : NameParts) (reason : Option String) : Option Effect :=
  if (role ∈ contributorRoles ∧ ¬trimmed name = "") ∧ ops.Reaches kind db intakeId then
    some ⟨.contributor db.nextContributorId
        (some (userContributor (intakeId, kind) role
          (nextContributorOrdinal (db.contributorsForAddress (intakeId, kind)) role) (trimmed name)
          parts)),
      ops.buildAudit "node_contributors" "insert" (some intakeId) (some role) none
        (some (trimmed name)) reason, false⟩
  else none

def removeEffect (contributorId : Int) (reason : Option String) : Option Effect :=
  if ops.Reaches kind db intakeId then
    ((db.contributorsForAddress (intakeId, kind)).find? fun row =>
      decide (row.1 = contributorId)).map fun row =>
        ⟨.contributor contributorId none,
          ops.buildAudit "node_contributors" "delete" (some intakeId) (some row.2.role)
            (some row.2.name) none reason, false⟩
  else none

def reviewEffect (status action : String) (reason : Option String) : Option Effect :=
  if ops.Reaches kind db intakeId then
    some ⟨.review (intakeId, kind) ⟨ops.caller.actorKind.asStr, status, none⟩,
      ops.buildAudit "node_reviews" action (some intakeId) none none none reason, true⟩
  else none

end Ops

/-- What a request does when nothing fails. -/
def Request.effect (ops : Ops) (db : CatalogDb) : Request → Option Effect
  | setMetadataField intakeId field value reason confirmed =>
    ops.setEffect .book editableFields db intakeId field value reason confirmed
  | clearMetadataField intakeId field reason =>
    ops.clearEffect .book editableFields db intakeId field reason
  | voidMetadataField intakeId field reason =>
    ops.voidEffect .book editableFields db intakeId field reason
  | addContributor intakeId role name nationality reason =>
    ops.addEffect .book db intakeId role name ⟨nationality, none, none, none⟩ reason
  | removeContributor intakeId contributorId reason =>
    ops.removeEffect .book db intakeId contributorId reason
  | acknowledgeMetadataGap intakeId reason =>
    ops.reviewEffect .book db intakeId "acknowledged" "acknowledge_gate" (some reason)
  | approveMetadata intakeId reason => ops.reviewEffect .book db intakeId "approved" "approve" reason
  | rejectMetadata intakeId reason =>
    ops.reviewEffect .book db intakeId "rejected" "reject" (some reason)
  | setPaperMetadataField intakeId field value reason confirmed =>
    ops.setEffect .paper Ops.paperEditableFields db intakeId field value reason confirmed
  | clearPaperMetadataField intakeId field reason =>
    ops.clearEffect .paper Ops.paperEditableFields db intakeId field reason
  | voidPaperMetadataField intakeId field reason =>
    ops.voidEffect .paper Ops.paperEditableFields db intakeId field reason
  | addPaperContributor intakeId role name family given orcid reason =>
    ops.addEffect .paper db intakeId role name ⟨none, family, given, orcid⟩ reason
  | removePaperContributor intakeId contributorId reason =>
    ops.removeEffect .paper db intakeId contributorId reason
  | acknowledgePaperMetadataGap intakeId reason =>
    ops.reviewEffect .paper db intakeId "acknowledged" "acknowledge_gate" reason
  | approvePaperMetadata intakeId reason =>
    ops.reviewEffect .paper db intakeId "approved" "approve" reason
  | rejectPaperMetadata intakeId reason =>
    ops.reviewEffect .paper db intakeId "rejected" "reject" reason
  | reopenPaperReview intakeId reason =>
    ops.reviewEffect .paper db intakeId "pending" "reopen" reason

/-! ### Where a write can stop -/

/-- A statement other than the audit row's fails. -/
def Ops.Interrupted (ops : Ops) : Prop :=
  ∃ statement, ops.fault = some statement ∧ statement ≠ .recordMetadataAudit

/-- What may be left of an effect. -/
def Obeys (ops : Ops) (db left : CatalogDb) : Option Effect → Prop
  | none => left = db
  | some effect =>
    ops.Interrupted ∧
        (left = db ∨ effect.auditFirst = true ∧ left = (db.recordMetadataAudit effect.audit).2) ∨
      ops.fault = some .recordMetadataAudit ∧
        left = (if effect.auditFirst then db else effect.change.apply db) ∨
      ops.fault ≠ some .recordMetadataAudit ∧ left = effect.whole db

variable {ops : Ops} {db : CatalogDb} {kind : ItemKind} {intakeId : Int} {α β : Type}

/-- A step that reads: it passes with `view` when `ok`, and leaves the catalog alone. -/
structure Guards (ops : Ops) (prog : Write α) (db : CatalogDb) (ok : Prop) (view : α) : Prop where
  refuses : ¬ok → ∃ reason, prog db = (.error reason, db)
  passes : ok → prog db = (.value view, db) ∨ ops.Interrupted ∧ ∃ reason, prog db = (.error reason, db)

theorem Obeys.guarded {prog : Write α} {next : α → Write β} {ok : Prop} {view : α}
    {effect : Option Effect} (guards : Guards ops prog db ok view) (refused : ¬ok → effect = none)
    (passed : ok → Obeys ops db ((next view).left db) effect) :
    Obeys ops db ((prog >>= next).left db) effect := by
  unfold Prog.left at passed ⊢
  by_cases isOk : ok
  · rcases guards.passes isOk with ended | ⟨interrupted, reason, ended⟩
    · rw [Prog.bind_value ended]
      exact passed isOk
    · rw [Prog.bind_error ended]
      cases effect with
      | none => rfl
      | some effect => exact .inl ⟨interrupted, .inl rfl⟩
  · obtain ⟨reason, ended⟩ := guards.refuses isOk
    rw [Prog.bind_error ended, refused isOk]
    rfl

theorem Guards.bind {prog : Write α} {next : α → Write β} {ok ok' : Prop} {view : α} {view' : β}
    (first : Guards ops prog db ok view) (second : Guards ops (next view) db ok' view') :
    Guards ops (prog >>= next) db (ok ∧ ok') view' := by
  constructor
  · intro isNot
    by_cases isOk : ok
    · rcases first.passes isOk with ended | ⟨-, reason, ended⟩
      · obtain ⟨reason, ended'⟩ := second.refuses fun isOk' => isNot ⟨isOk, isOk'⟩
        exact ⟨reason, by rw [Prog.bind_value ended, ended']⟩
      · exact ⟨reason, Prog.bind_error ended⟩
    · obtain ⟨reason, ended⟩ := first.refuses isOk
      exact ⟨reason, Prog.bind_error ended⟩
  · rintro ⟨isOk, isOk'⟩
    rcases first.passes isOk with ended | ⟨interrupted, reason, ended⟩
    · rw [Prog.bind_value ended]
      exact second.passes isOk'
    · exact .inr ⟨interrupted, reason, Prog.bind_error ended⟩

theorem guards_query {statement : Statement} (isRead : statement ≠ .recordMetadataAudit)
    (view : CatalogDb → α) : Guards ops (ops.query statement view) db True (view db) := by
  refine ⟨fun notTrue => absurd trivial notTrue, fun _ => ?_⟩
  unfold Ops.query
  split_ifs with isFault
  · exact .inr ⟨⟨statement, isFault, isRead⟩, _, rfl⟩
  · exact .inl rfl

theorem guards_ensure {ok : Prop} [Decidable ok] {reason : OpsError} :
    Guards ops (ensure ok reason) db ok () := by
  unfold ensure
  refine ⟨fun isNot => ⟨reason, ?_⟩, fun isOk => .inl ?_⟩
  · rw [if_neg isNot]
    rfl
  · rw [if_pos isOk]
    rfl

theorem guards_openCatalog : Guards ops (ops.openCatalog kind) db
    (¬(kind = .paper ∧ ops.papersConfigured = false)) () := by
  unfold Ops.openCatalog
  by_cases isClosed : kind = .paper ∧ ops.papersConfigured = false
  · rw [if_pos isClosed]
    exact ⟨fun _ => ⟨_, rfl⟩, fun isOpen => absurd isClosed isOpen⟩
  · rw [if_neg isClosed]
    exact ⟨fun notOpen => absurd isClosed notOpen,
      fun _ => (guards_query (by decide) fun _ => ()).passes trivial⟩

theorem guards_requireIntake : Guards ops (ops.requireIntake intakeId) db
    ((db.intakeById intakeId).isSome = true) () := by
  have both : Guards ops (ops.requireIntake intakeId) db
      (True ∧ (db.intakeById intakeId).isSome = true) () := by
    unfold Ops.requireIntake
    exact Guards.bind (guards_query (by decide) _) guards_ensure
  exact ⟨fun missing => both.refuses fun found => missing found.2,
    fun onFile => both.passes ⟨trivial, onFile⟩⟩

theorem guards_effectiveValue (address : Address) (field : String) :
    Guards ops (ops.effectiveValue address field) db True
      ((db.effectivePublicationAttrs address).get field) := by
  have both : Guards ops (ops.effectiveValue address field) db (True ∧ True)
      ((db.effectivePublicationAttrs address).get field) := by
    unfold Ops.effectiveValue
    exact Guards.bind (guards_query (by decide) _) (guards_query (by decide) _)
  exact ⟨fun notTrue => absurd trivial notTrue, fun _ => both.passes ⟨trivial, trivial⟩⟩

/-- The catalog is opened and the intake looked up. -/
theorem Obeys.reached {next : Write β} {effect : Option Effect}
    (refused : ¬ops.Reaches kind db intakeId → effect = none)
    (passed : ops.Reaches kind db intakeId → Obeys ops db (next.left db) effect) :
    Obeys ops db ((do ops.openCatalog kind; ops.requireIntake intakeId; next : Write β).left db)
      effect := by
  refine Obeys.guarded guards_openCatalog (fun isClosed => refused fun reaches => isClosed reaches.1)
    fun isOpen => ?_
  exact Obeys.guarded guards_requireIntake (fun missing => refused fun reaches => missing reaches.2)
    fun onFile => passed ⟨isOpen, onFile⟩

/-! ### The end of a write -/

variable {audit : NewMetadataAudit} {change : RowChange}

theorem recordMetadataAudit_failed (fails : ops.fault = some .recordMetadataAudit) {out : Int → β} :
    (do let auditId ← ops.recordMetadataAudit audit; pure (out auditId) : Write β).left db = db := by
  have ended : ops.recordMetadataAudit audit db = (.error (.catalog .recordMetadataAudit), db) := by
    unfold Ops.recordMetadataAudit Ops.execute
    rw [if_pos fails]
  unfold Prog.left
  rw [Prog.bind_error ended]

theorem recordMetadataAudit_done (works : ops.fault ≠ some .recordMetadataAudit) {out : Int → β} :
    (do let auditId ← ops.recordMetadataAudit audit; pure (out auditId) : Write β).left db =
      (db.recordMetadataAudit audit).2 := by
  have ended : ops.recordMetadataAudit audit db =
      (.value (db.recordMetadataAudit audit).1, (db.recordMetadataAudit audit).2) := by
    unfold Ops.recordMetadataAudit Ops.execute
    rw [if_neg works]
  unfold Prog.left
  rw [Prog.bind_value ended]
  rfl

/-- A row is appended and nothing is changed. -/
theorem Obeys.audited {out : Int → β} :
    Obeys ops db ((do let auditId ← ops.recordMetadataAudit audit; pure (out auditId) : Write β).left db)
      (some ⟨.nothing, audit, false⟩) := by
  by_cases fails : ops.fault = some .recordMetadataAudit
  · exact .inr (.inl ⟨fails, recordMetadataAudit_failed fails⟩)
  · exact .inr (.inr ⟨fails, recordMetadataAudit_done fails⟩)

/-- A row is changed, then told. -/
theorem Obeys.edited {makes : CatalogDb → Option (α × CatalogDb)} {result : α} {next : α → Write β}
    {out : Int → β} (changes : makes db = some (result, change.apply db))
    (records : next result = do let auditId ← ops.recordMetadataAudit audit; pure (out auditId)) :
    Obeys ops db ((ops.execute .change makes >>= next).left db) (some ⟨change, audit, false⟩) := by
  by_cases isFault : ops.fault = some .change
  · have ended : ops.execute .change makes db = (.error (.catalog .change), db) := by
      unfold Ops.execute
      rw [if_pos isFault]
    refine .inl ⟨⟨_, isFault, by decide⟩, .inl ?_⟩
    unfold Prog.left
    rw [Prog.bind_error ended]
  · have ended : ops.execute .change makes db = (.value result, change.apply db) := by
      unfold Ops.execute
      rw [if_neg isFault, changes]
    have left : (ops.execute .change makes >>= next).left db = (next result).left (change.apply db) := by
      unfold Prog.left
      rw [Prog.bind_value ended]
    rw [left, records]
    by_cases fails : ops.fault = some .recordMetadataAudit
    · exact .inr (.inl ⟨fails, recordMetadataAudit_failed fails⟩)
    · exact .inr (.inr ⟨fails, recordMetadataAudit_done fails⟩)

/-- A row is told, then changed. -/
theorem Obeys.reviewed {address : Address} {row : NodeReview} {out : Int → β} :
    Obeys ops db ((do
      let auditId ← ops.recordMetadataAudit audit
      ops.execute .change fun db => some ((), db.upsertReview address row)
      pure (out auditId) : Write β).left db) (some ⟨.review address row, audit, true⟩) := by
  by_cases fails : ops.fault = some .recordMetadataAudit
  · have ended : ops.recordMetadataAudit audit db = (.error (.catalog .recordMetadataAudit), db) := by
      unfold Ops.recordMetadataAudit Ops.execute
      rw [if_pos fails]
    refine .inr (.inl ⟨fails, ?_⟩)
    unfold Prog.left
    rw [Prog.bind_error ended]
    rfl
  · have ended : ops.recordMetadataAudit audit db =
        (.value (db.recordMetadataAudit audit).1, (db.recordMetadataAudit audit).2) := by
      unfold Ops.recordMetadataAudit Ops.execute
      rw [if_neg fails]
    unfold Prog.left
    rw [Prog.bind_value ended]
    by_cases isFault : ops.fault = some .change
    · refine .inl ⟨⟨_, isFault, by decide⟩, .inr ⟨rfl, ?_⟩⟩
      have stopped : (ops.execute .change fun db => some ((), db.upsertReview address row))
          (db.recordMetadataAudit audit).2 =
          (.error (.catalog .change), (db.recordMetadataAudit audit).2) := by
        unfold Ops.execute
        rw [if_pos isFault]
      rw [Prog.bind_error stopped]
    · refine .inr (.inr ⟨fails, ?_⟩)
      have moved : (ops.execute .change fun db => some ((), db.upsertReview address row))
          (db.recordMetadataAudit audit).2 =
          (.value (), (db.recordMetadataAudit audit).2.upsertReview address row) := by
        unfold Ops.execute
        rw [if_neg isFault]
      rw [Prog.bind_value moved]
      rfl

/-! ### The verbs -/

theorem setField_obeys (editable : List String) (field value : String) (reason : Option String)
    (confirmed : Bool) :
    Obeys ops db ((ops.setField kind editable intakeId field value reason confirmed).left db)
      (ops.setEffect kind editable db intakeId field value reason confirmed) := by
  unfold Ops.setField requireEditable Ops.setEffect
  refine Obeys.guarded guards_ensure (fun notEditable => if_neg fun both =>
    notEditable both.1) fun isEditable => ?_
  refine Obeys.reached (fun notReached => if_neg fun both => notReached both.2) fun reaches => ?_
  rw [if_pos ⟨isEditable, reaches⟩]
  refine Obeys.guarded (guards_effectiveValue _ _) (fun notTrue => absurd trivial notTrue) fun _ => ?_
  exact Obeys.edited rfl rfl

theorem voidField_obeys (editable : List String) (field : String) (reason : Option String) :
    Obeys ops db ((ops.voidField kind editable intakeId field reason).left db)
      (ops.voidEffect kind editable db intakeId field reason) := by
  unfold Ops.voidField requireEditable Ops.voidEffect
  refine Obeys.guarded guards_ensure (fun notEditable => if_neg fun both =>
    notEditable both.1) fun isEditable => ?_
  refine Obeys.reached (fun notReached => if_neg fun both => notReached both.2) fun reaches => ?_
  rw [if_pos ⟨isEditable, reaches⟩]
  refine Obeys.guarded (guards_effectiveValue _ _) (fun notTrue => absurd trivial notTrue) fun _ => ?_
  exact Obeys.edited rfl rfl

theorem clearOverride_absent {address : Address} {field : String}
    (absent : db.nodeOverrides.lookup (address, field) = none) : db.clearOverride address field = db := by
  have same : db.nodeOverrides.erase (address, field) = db.nodeOverrides := by
    refine AList.ext ?_
    show List.kerase _ _ = _
    exact List.kerase_of_notMem_keys (AList.lookup_eq_none.mp absent)
  unfold CatalogDb.clearOverride
  rw [same]

theorem clearField_obeys (editable : List String) (field : String) (reason : Option String) :
    Obeys ops db ((ops.clearField kind editable intakeId field reason).left db)
      (ops.clearEffect kind editable db intakeId field reason) := by
  unfold Ops.clearField Ops.clearEffect
  refine Obeys.reached (fun notReached => if_neg notReached) fun reaches => ?_
  rw [if_pos reaches]
  refine Obeys.guarded (guards_effectiveValue _ _) (fun notTrue => absurd trivial notTrue) fun _ => ?_
  cases stored : db.nodeOverrides.lookup ((intakeId, kind), field) with
  | some row =>
    rw [Option.isSome_some, if_pos rfl]
    have changes : some ((db.nodeOverrides.lookup ((intakeId, kind), field)).isSome,
        db.clearOverride (intakeId, kind) field) =
        some (true, RowChange.apply db (.override (intakeId, kind) field none)) := by
      rw [stored]
      rfl
    exact Obeys.edited changes rfl
  | none =>
    rw [Option.isSome_none, if_neg (by decide)]
    have clears : Guards ops (ops.execute .change fun db =>
        some ((db.nodeOverrides.lookup ((intakeId, kind), field)).isSome,
          db.clearOverride (intakeId, kind) field)) db True false := by
      refine ⟨fun notTrue => absurd trivial notTrue, fun _ => ?_⟩
      unfold Ops.execute
      dsimp only
      rw [stored, clearOverride_absent stored]
      split_ifs with isFault
      · exact .inr ⟨⟨_, isFault, by decide⟩, _, rfl⟩
      · exact .inl rfl
    refine Obeys.guarded clears (fun notTrue => absurd trivial notTrue) fun _ => ?_
    refine Obeys.guarded guards_ensure
      (fun notEditable => if_neg fun isEditable => notEditable (.inr isEditable)) fun isEditable => ?_
    rw [if_pos (isEditable.resolve_left (by decide))]
    exact Obeys.audited

theorem le_foldl_max (first : Int) (rest : List Int) :
    first ≤ rest.foldl max first ∧ ∀ value ∈ rest, value ≤ rest.foldl max first := by
  induction rest generalizing first with
  | nil => exact ⟨le_rfl, fun _ member => by cases member⟩
  | cons value rest ih =>
    obtain ⟨above, each⟩ := ih (max first value)
    refine ⟨(le_max_left _ _).trans above, fun other member => ?_⟩
    rcases List.mem_cons.mp member with rfl | later
    · exact (le_max_right _ _).trans above
    · exact each other later

/-- A new ordinal is past those of its role. -/
theorem lt_nextContributorOrdinal {existing : List (Int × NodeContributor)} {role : String}
    {row : Int × NodeContributor} (member : row ∈ existing) (sameRole : row.2.role = role) :
    row.2.ordinal < nextContributorOrdinal existing role := by
  have listed : row.2.ordinal ∈
      (existing.filter fun row => decide (row.2.role = role)).map fun row => row.2.ordinal :=
    List.mem_map.mpr ⟨row, List.mem_filter.mpr ⟨member, decide_eq_true sameRole⟩, rfl⟩
  unfold Ops.nextContributorOrdinal
  split
  · rename_i isNil
    rw [isNil] at listed
    cases listed
  · rename_i first rest isCons
    rw [isCons] at listed
    obtain ⟨above, each⟩ := le_foldl_max first rest
    rcases List.mem_cons.mp listed with isFirst | later
    · exact Int.lt_add_one_of_le (isFirst ▸ above)
    · exact Int.lt_add_one_of_le (each _ later)

/-- **A curator's contributor never collides** with the natural key of a row on file. -/
theorem addContributor_user (address : Address) (role name : String) (parts : NameParts) :
    db.addContributor (userContributor address role
      (nextContributorOrdinal (db.contributorsForAddress address) role) name parts) =
      some (db.nextContributorId, RowChange.apply db (.contributor db.nextContributorId
        (some (userContributor address role
          (nextContributorOrdinal (db.contributorsForAddress address) role) name parts)))) := by
  unfold CatalogDb.addContributor
  rw [if_neg]
  · rfl
  · rintro ⟨⟨contributorId, row⟩, member, sameKey⟩
    obtain ⟨isIntake, isScope, isRole, isOrdinal, -⟩ : row.intakeId = address.1 ∧
        row.scope = address.2 ∧ row.role = role ∧ row.ordinal =
          nextContributorOrdinal (db.contributorsForAddress address) role ∧ row.origin = "user" := by
      simpa [NodeContributor.naturalKey, Ops.userContributor] using sameKey
    have listed : (contributorId, row) ∈ db.contributorsForAddress address := by
      rw [CatalogDb.contributorsForAddress, List.mem_insertionSort, List.mem_filterMap]
      exact ⟨⟨contributorId, row⟩, member, if_pos (Prod.ext isIntake isScope)⟩
    have below := lt_nextContributorOrdinal listed isRole
    rw [isOrdinal] at below
    exact absurd below (lt_irrefl _)

theorem addContributorWith_obeys (role name : String) (parts : NameParts) (reason : Option String) :
    Obeys ops db ((ops.addContributorWith kind intakeId role name parts reason).left db)
      (ops.addEffect kind db intakeId role name parts reason) := by
  unfold Ops.addContributorWith Ops.addEffect
  refine Obeys.guarded guards_ensure (fun notRole => if_neg fun all => notRole all.1.1) fun isRole => ?_
  refine Obeys.guarded guards_ensure (fun isEmpty => if_neg fun all => isEmpty all.1.2) fun isNamed => ?_
  refine Obeys.reached (fun notReached => if_neg fun all => notReached all.2) fun reaches => ?_
  rw [if_pos ⟨⟨isRole, isNamed⟩, reaches⟩]
  refine Obeys.guarded (guards_query (by decide) _) (fun notTrue => absurd trivial notTrue) fun _ => ?_
  exact Obeys.edited (addContributor_user _ _ _ _) rfl

theorem removeContributorOf_obeys (contributorId : Int) (reason : Option String) :
    Obeys ops db ((ops.removeContributorOf kind intakeId contributorId reason).left db)
      (ops.removeEffect kind db intakeId contributorId reason) := by
  unfold Ops.removeContributorOf Ops.removeEffect
  refine Obeys.reached (fun notReached => if_neg notReached) fun reaches => ?_
  rw [if_pos reaches]
  refine Obeys.guarded (guards_query (by decide) _) (fun notTrue => absurd trivial notTrue) fun _ => ?_
  cases (db.contributorsForAddress (intakeId, kind)).find? fun row =>
    decide (row.1 = contributorId) with
  | none => rfl
  | some row => exact Obeys.edited rfl rfl

theorem review_obeys (status action : String) (reason : Option String) :
    Obeys ops db ((ops.review kind intakeId status action reason).left db)
      (ops.reviewEffect kind db intakeId status action reason) := by
  unfold Ops.review Ops.writeReviewStatusInner Ops.reviewEffect
  refine Obeys.reached (fun notReached => if_neg notReached) fun reaches => ?_
  rw [if_pos reaches]
  exact Obeys.reviewed

/-- **Every request leaves its effect**, or what a failing statement cut off from it. -/
theorem left_obeys (ops : Ops) (db : CatalogDb) (request : Request) :
    Obeys ops db (request.left ops db) (request.effect ops db) := by
  cases request with
  | setMetadataField => exact setField_obeys _ _ _ _ _
  | clearMetadataField => exact clearField_obeys _ _ _
  | voidMetadataField => exact voidField_obeys _ _ _
  | addContributor => exact addContributorWith_obeys _ _ _ _
  | removeContributor => exact removeContributorOf_obeys _ _
  | acknowledgeMetadataGap => exact review_obeys _ _ _
  | approveMetadata => exact review_obeys _ _ _
  | rejectMetadata => exact review_obeys _ _ _
  | setPaperMetadataField => exact setField_obeys _ _ _ _ _
  | clearPaperMetadataField => exact clearField_obeys _ _ _
  | voidPaperMetadataField => exact voidField_obeys _ _ _
  | addPaperContributor => exact addContributorWith_obeys _ _ _ _
  | removePaperContributor => exact removeContributorOf_obeys _ _
  | acknowledgePaperMetadataGap => exact review_obeys _ _ _
  | approvePaperMetadata => exact review_obeys _ _ _
  | rejectPaperMetadata => exact review_obeys _ _ _
  | reopenPaperReview => exact review_obeys _ _ _

end Bookrack.Writes
