/-
No curation without its audit row (`ops/src/writes`).

* `Recorded`: every override row, contributor and review status that is not what it was at the start
  is told, with its caller, by an audit row appended since. `Replays`: the audit rows of one intake and
  field, read in order, give the override on file.
* `step_recorded`: one call keeps both, unless it changes a row and its audit statement fails.
* **`curation_recorded`**: so does every run of such calls; and a call that changes a row while its
  audit statement fails leaves the change unrecorded (`override_without_row`).
-/

import Bookrack.Base.Journal
import Bookrack.Ops.Effects
import Mathlib.Logic.Function.Basic

namespace Bookrack.Writes

open Catalog Writes.Ops Journal
open Queue (ItemKind)

/-! ### Calls -/

/-- A call: who makes it, what is asked, and the statement that fails. -/
structure Call where
  caller : Caller
  request : Request
  fault : Option Statement
  deriving DecidableEq, Repr

/-- The catalogs, one for each kind, and whether a papers backend is attached. -/
structure Backends where
  papersConfigured : Bool
  catalogs : ItemKind → CatalogDb

/-- The `Ops` a call runs with. -/
def Backends.ops (backends : Backends) (call : Call) : Ops :=
  ⟨call.caller, backends.papersConfigured, call.fault⟩

/-- The catalog a call leaves on its side. -/
def Backends.left (backends : Backends) (call : Call) : CatalogDb :=
  call.request.left (backends.ops call) (backends.catalogs call.request.kind)

def Backends.after (backends : Backends) (call : Call) : Backends :=
  { backends with
    catalogs := Function.update backends.catalogs call.request.kind (backends.left call) }

/-- The backends after some calls. -/
def Backends.run (backends : Backends) (calls : List Call) : Backends :=
  calls.foldl Backends.after backends

/-! ### What is on file -/

/-- Something a curator may have made true of a catalog. -/
inductive Fact
  | override (address : Address) (field : String) (row : Option NodeOverride)
  | contributor (contributorId : Int) (row : NodeContributor)
  | noContributor (contributorId : Int) (row : NodeContributor)
  | review (address : Address) (row : Option NodeReview)

/-- The fact holds of the catalog. -/
def Holds (db : CatalogDb) : Fact → Prop
  | .override address field row => db.nodeOverrides.lookup (address, field) = row
  | .contributor contributorId row => db.nodeContributors.lookup contributorId = some row
  | .noContributor contributorId row => ¬db.nodeContributors.lookup contributorId = some row
  | .review address row => db.nodeReviews.lookup address = row

/-- The node an audit row names for an intake. -/
def rootOf (intakeId : Int) : Int := (PartitionIdx.root ⟨intakeId⟩).get

/-- The status a review action stands for. -/
def statusOf (action : String) : Option String :=
  if action = "approve" then some "approved"
  else if action = "reject" then some "rejected"
  else if action = "acknowledge_gate" then some "acknowledged"
  else if action = "reopen" then some "pending"
  else none

/-- The audit row records the fact: which row, what it holds, and who put it there. -/
def Tells (audit : NewMetadataAudit) : Fact → Prop
  | .override address field row =>
    audit.tableName = "node_publication_attrs" ∧ audit.nodeId = some (rootOf address.1) ∧
      audit.field = some field ∧
      match row with
      | none => audit.action = "delete" ∧ audit.newValue = none
      | some row => audit.action = (if row.value.isSome then "update" else "void") ∧
          audit.newValue = row.value ∧ row.curatedBy = audit.actorKind.asStr
  | .contributor _ row =>
    audit.tableName = "node_contributors" ∧ audit.nodeId = some (rootOf row.intakeId) ∧
      audit.field = some row.role ∧ audit.action = "insert" ∧ audit.newValue = some row.name
  | .noContributor _ row =>
    audit.tableName = "node_contributors" ∧ audit.nodeId = some (rootOf row.intakeId) ∧
      audit.field = some row.role ∧ audit.action = "delete" ∧ audit.oldValue = some row.name
  | .review address row =>
    audit.tableName = "node_reviews" ∧ audit.nodeId = some (rootOf address.1) ∧
      ∃ review, row = some review ∧ statusOf audit.action = some review.status ∧
        review.reviewedBy = audit.actorKind.asStr

/-- The audit row carries the caller. -/
structure StampedBy (audit : NewMetadataAudit) (caller : Caller) : Prop where
  actorKind : audit.actorKind = caller.actorKind
  actorDetail : audit.actorDetail = caller.actorDetail
  sessionId : audit.sessionId = caller.sessionId

/-- The audit row records the fact for one of the calls. -/
def TellsOf (kind : ItemKind) (calls : List Call) (audit : MetadataAudit) (fact : Fact) : Prop :=
  Tells audit.toNewMetadataAudit fact ∧
    ∃ call ∈ calls, call.request.kind = kind ∧ StampedBy audit.toNewMetadataAudit call.caller

/-- The audit rows appended since the start. -/
def trail (start now : CatalogDb) : List MetadataAudit :=
  now.metadataAudit.drop start.metadataAudit.length

/-- **No curation without its audit row**, on one side. -/
structure Recorded (kind : ItemKind) (calls : List Call) (start now : CatalogDb) : Prop where
  appended : start.metadataAudit <+: now.metadataAudit
  told : Told Holds (TellsOf kind calls) start now (trail start now)

/-! ### Replaying the rows of a field -/

/-- What a reader of the audit rows knows of an override: its value, and who curated it. -/
def shown (row : NodeOverride) : Option String × String := (row.value, row.curatedBy)

/-- One audit row read for a node and field. -/
def readRow (nodeId : Int) (field : String) (stored : Option (Option String × String))
    (audit : MetadataAudit) : Option (Option String × String) :=
  if audit.tableName = "node_publication_attrs" ∧ audit.nodeId = some nodeId ∧
      audit.field = some field then
    if audit.action = "delete" then none else some (audit.newValue, audit.actorKind.asStr)
  else stored

/-- No other intake on file has the node id of this one. -/
def OwnNode (db : CatalogDb) (intakeId : Int) : Prop :=
  ∀ other ∈ db.intakes.keys, rootOf other = rootOf intakeId → other = intakeId

/-- **The audit rows of an intake and field give the override on file.** -/
def Replays (kind : ItemKind) (start now : CatalogDb) : Prop :=
  ∀ intakeId field, OwnNode start intakeId →
    replay (readRow (rootOf intakeId) field)
      ((start.nodeOverrides.lookup ((intakeId, kind), field)).map shown)
      (trail start now) =
    (now.nodeOverrides.lookup ((intakeId, kind), field)).map shown

/-! ### The condition -/

namespace Ops

variable (ops : Ops) (kind : ItemKind) (db : CatalogDb) (intakeId : Int)

/-- The field is accepted, the intake on file, and the override on file is not this one. -/
def SetsAnew (editable : List String) (field : String) (row : NodeOverride) : Prop :=
  field ∈ editable ∧ ops.Reaches kind db intakeId ∧
    ¬db.nodeOverrides.lookup ((intakeId, kind), field) = some row

/-- The intake is on file and has an override of the field. -/
def Clears (field : String) : Prop :=
  ops.Reaches kind db intakeId ∧ ¬db.nodeOverrides.lookup ((intakeId, kind), field) = none

/-- The role is accepted, the name not blank, and the intake on file. -/
def Adds (role name : String) : Prop :=
  (role ∈ contributorRoles ∧ ¬trimmed name = "") ∧ ops.Reaches kind db intakeId

/-- The intake is on file and the contributor is one of its. -/
def Removes (contributorId : Int) : Prop :=
  ops.Reaches kind db intakeId ∧ ∃ row, db.nodeContributors.lookup contributorId = some row ∧
    (row.intakeId, row.scope) = (intakeId, kind)

/-- The override row a value is stored as. -/
def overrideRow (value : Option String) (confirmed : Bool) : NodeOverride :=
  ⟨value, confirmed, ops.caller.actorKind.asStr, none⟩

end Ops

/-- The request is accepted and asks for a row that is not on file, or away with one that is. A review
is never meant: its audit row lands first. -/
def Request.Edits (ops : Ops) (db : CatalogDb) : Request → Prop
  | setMetadataField intakeId field value _ confirmed =>
    ops.SetsAnew .book db intakeId editableFields field (ops.overrideRow (some value) confirmed)
  | clearMetadataField intakeId field _ => ops.Clears .book db intakeId field
  | voidMetadataField intakeId field _ =>
    ops.SetsAnew .book db intakeId editableFields field (ops.overrideRow none false)
  | addContributor intakeId role name _ _ => ops.Adds .book db intakeId role name
  | removeContributor intakeId contributorId _ => ops.Removes .book db intakeId contributorId
  | setPaperMetadataField intakeId field value _ confirmed =>
    ops.SetsAnew .paper db intakeId paperEditableFields field (ops.overrideRow (some value) confirmed)
  | clearPaperMetadataField intakeId field _ => ops.Clears .paper db intakeId field
  | voidPaperMetadataField intakeId field _ =>
    ops.SetsAnew .paper db intakeId paperEditableFields field (ops.overrideRow none false)
  | addPaperContributor intakeId role name _ _ _ _ => ops.Adds .paper db intakeId role name
  | removePaperContributor intakeId contributorId _ => ops.Removes .paper db intakeId contributorId
  | acknowledgeMetadataGap .. | approveMetadata .. | rejectMetadata ..
  | acknowledgePaperMetadataGap .. | approvePaperMetadata .. | rejectPaperMetadata ..
  | reopenPaperReview .. => False

/-- **The condition**: the audit statement does not fail on a call that changes a row. -/
def Backends.AuditKept (backends : Backends) (call : Call) : Prop :=
  call.fault = some .recordMetadataAudit →
    ¬call.request.Edits (backends.ops call) (backends.catalogs call.request.kind)

/-- The condition on every call of a run. -/
def Backends.AuditsKept : Backends → List Call → Prop
  | _, [] => True
  | backends, call :: rest => backends.AuditKept call ∧ (backends.after call).AuditsKept rest

/-! ### What an effect makes true -/

/-- What is shown of an effect: what its change makes true, its row tells. -/
structure EffectSpec (ops : Ops) (kind : ItemKind) (db : CatalogDb) (edits : Prop)
    (effect : Effect) : Prop where
  edits_iff : edits ↔ effect.auditFirst = false ∧
    ∃ fact, Holds (effect.change.apply db) fact ∧ ¬Holds db fact
  told : ∀ fact, Holds (effect.change.apply db) fact → Holds db fact ∨ Tells effect.audit fact
  stamped : StampedBy effect.audit ops.caller
  reviews : effect.auditFirst = true → effect.audit.tableName = "node_reviews"
  reads : ∀ intakeId field auditId, OwnNode db intakeId →
    readRow (rootOf intakeId) field
      ((db.nodeOverrides.lookup ((intakeId, kind), field)).map shown) ⟨effect.audit, auditId⟩ =
    ((effect.change.apply db).nodeOverrides.lookup ((intakeId, kind), field)).map shown
  oldValue : effect.audit.tableName = "node_publication_attrs" →
    effect.audit.action = "update" ∨ effect.audit.action = "void" →
    ∃ intakeId field, effect.audit.nodeId = some (rootOf intakeId) ∧ effect.audit.field = some field ∧
      effect.audit.oldValue = (db.effectivePublicationAttrs (intakeId, kind)).get field

variable {ops : Ops} {kind : ItemKind} {db : CatalogDb} {intakeId : Int}

theorem Ops.Reaches.mem {kind : ItemKind} (reaches : ops.Reaches kind db intakeId) :
    intakeId ∈ db.intakes.keys :=
  AList.mem_keys.mp (AList.lookup_isSome.mp reaches.2)

/-- A row about one field of an intake is no row about another. -/
theorem readRow_other {audit : MetadataAudit} {named : Int} {about field : String}
    {stored : Option (Option String × String)} (isNode : audit.nodeId = some (rootOf named))
    (isField : audit.field = some about) (reaches : ops.Reaches kind db named)
    (own : OwnNode db intakeId) (isOther : ¬(intakeId = named ∧ field = about)) :
    readRow (rootOf intakeId) field stored audit = stored := by
  rw [readRow, if_neg]
  rintro ⟨-, sameNode, sameField⟩
  rw [isNode, Option.some.injEq] at sameNode
  rw [isField, Option.some.injEq] at sameField
  exact isOther ⟨(own named reaches.mem sameNode).symm, sameField.symm⟩

/-- An override is set to a value or to NULL. -/
theorem override_spec (row : NodeOverride) {field action : String} {reason : Option String}
    (isAction : action = if row.value.isSome then "update" else "void")
    (curated : row.curatedBy = ops.caller.actorKind.asStr) (reaches : ops.Reaches kind db intakeId) :
    EffectSpec ops kind db (¬db.nodeOverrides.lookup ((intakeId, kind), field) = some row)
      ⟨.override (intakeId, kind) field (some row),
        ops.buildAudit "node_publication_attrs" action (some intakeId) (some field)
          ((db.effectivePublicationAttrs (intakeId, kind)).get field) row.value reason, false⟩ := by
  have here : (db.setOverride (intakeId, kind) field row).nodeOverrides.lookup
      ((intakeId, kind), field) = some row := AList.lookup_insert _
  have elsewhere : ∀ key, ¬key = ((intakeId, kind), field) →
      (db.setOverride (intakeId, kind) field row).nodeOverrides.lookup key =
        db.nodeOverrides.lookup key := fun key isOther => AList.lookup_insert_ne isOther
  refine ⟨⟨fun isNew => ⟨rfl, .override (intakeId, kind) field (some row), here, isNew⟩, ?_⟩, ?_,
    ⟨rfl, rfl, rfl⟩, ?_, ?_, fun _ _ => ⟨intakeId, field, rfl, rfl, rfl⟩⟩
  · rintro ⟨-, fact, isNow, isNew⟩ isStored
    refine isNew ?_
    cases fact with
    | override address name other =>
      by_cases isHere : (address, name) = ((intakeId, kind), field)
      · obtain ⟨rfl, rfl⟩ := Prod.mk.inj isHere
        exact isStored.trans (here.symm.trans isNow)
      · exact (elsewhere _ isHere).symm.trans isNow
    | contributor => exact isNow
    | noContributor => exact isNow
    | review => exact isNow
  · intro fact isNow
    cases fact with
    | override address name other =>
      by_cases isHere : (address, name) = ((intakeId, kind), field)
      · obtain ⟨rfl, rfl⟩ := Prod.mk.inj isHere
        obtain rfl : some row = other := here.symm.trans isNow
        exact .inr ⟨rfl, rfl, rfl, isAction, rfl, curated⟩
      · exact .inl ((elsewhere _ isHere).symm.trans isNow)
    | contributor => exact .inl isNow
    | noContributor => exact .inl isNow
    | review => exact .inl isNow
  · intro isReview
    cases isReview
  · intro other name auditId own
    by_cases isHere : other = intakeId ∧ name = field
    · obtain ⟨rfl, rfl⟩ := isHere
      have isSet : ¬action = "delete" := by
        rw [isAction]
        split_ifs <;> decide
      have written : readRow (rootOf other) name
          ((db.nodeOverrides.lookup ((other, kind), name)).map shown)
          ⟨ops.buildAudit "node_publication_attrs" action (some other) (some name)
            ((db.effectivePublicationAttrs (other, kind)).get name) row.value reason, auditId⟩ =
          some (row.value, ops.caller.actorKind.asStr) := by
        rw [readRow, if_pos ⟨rfl, rfl, rfl⟩]
        exact if_neg isSet
      rw [written]
      show _ = ((db.setOverride (other, kind) name row).nodeOverrides.lookup ((other, kind), name)).map shown
      rw [here, ← curated]
      rfl
    · rw [readRow_other rfl rfl reaches own isHere]
      show _ = ((db.setOverride (intakeId, kind) field row).nodeOverrides.lookup ((other, kind), name)).map
        shown
      rw [elsewhere _ fun same => isHere
        ⟨congrArg (fun key => key.1.1) same, congrArg Prod.snd same⟩]

/-- An override is taken away. -/
theorem clear_spec {field : String} {oldValue reason : Option String} {row : NodeOverride}
    (stored : db.nodeOverrides.lookup ((intakeId, kind), field) = some row)
    (reaches : ops.Reaches kind db intakeId) :
    EffectSpec ops kind db (¬db.nodeOverrides.lookup ((intakeId, kind), field) = none)
      ⟨.override (intakeId, kind) field none,
        ops.buildAudit "node_publication_attrs" "delete" (some intakeId) (some field) oldValue none reason,
        false⟩ := by
  have here : (db.clearOverride (intakeId, kind) field).nodeOverrides.lookup
      ((intakeId, kind), field) = none := AList.lookup_erase _ _
  have elsewhere : ∀ key, ¬key = ((intakeId, kind), field) →
      (db.clearOverride (intakeId, kind) field).nodeOverrides.lookup key =
        db.nodeOverrides.lookup key := fun key isOther => AList.lookup_erase_ne isOther
  refine ⟨⟨fun isStored => ⟨rfl, .override (intakeId, kind) field none, here, isStored⟩, ?_⟩, ?_,
    ⟨rfl, rfl, rfl⟩, ?_, ?_, ?_⟩
  · rintro - isNone
    rw [stored] at isNone
    cases isNone
  · intro fact isNow
    cases fact with
    | override address name other =>
      by_cases isHere : (address, name) = ((intakeId, kind), field)
      · obtain ⟨rfl, rfl⟩ := Prod.mk.inj isHere
        obtain rfl : none = other := here.symm.trans isNow
        exact .inr ⟨rfl, rfl, rfl, rfl, rfl⟩
      · exact .inl ((elsewhere _ isHere).symm.trans isNow)
    | contributor => exact .inl isNow
    | noContributor => exact .inl isNow
    | review => exact .inl isNow
  · intro isReview
    cases isReview
  · intro other name auditId own
    by_cases isHere : other = intakeId ∧ name = field
    · obtain ⟨rfl, rfl⟩ := isHere
      rw [readRow, if_pos ⟨rfl, rfl, rfl⟩]
      show none = ((db.clearOverride (other, kind) name).nodeOverrides.lookup ((other, kind), name)).map
        shown
      rw [here]
      rfl
    · rw [readRow_other rfl rfl reaches own isHere]
      show _ = ((db.clearOverride (intakeId, kind) field).nodeOverrides.lookup ((other, kind), name)).map
        shown
      rw [elsewhere _ fun same => isHere
        ⟨congrArg (fun key => key.1.1) same, congrArg Prod.snd same⟩]
  · rintro - (isUpdate | isVoid)
    · exact absurd isUpdate (show ¬("delete" : String) = "update" by decide)
    · exact absurd isVoid (show ¬("delete" : String) = "void" by decide)

/-- There was nothing to take away. -/
theorem clear_absent_spec {field : String} {reason : Option String}
    (absent : db.nodeOverrides.lookup ((intakeId, kind), field) = none)
    (reaches : ops.Reaches kind db intakeId) :
    EffectSpec ops kind db (¬db.nodeOverrides.lookup ((intakeId, kind), field) = none)
      ⟨.nothing,
        ops.buildAudit "node_publication_attrs" "delete" (some intakeId) (some field) none none reason,
        false⟩ := by
  refine ⟨⟨fun isStored => absurd absent isStored, ?_⟩, fun fact isNow => .inl isNow, ⟨rfl, rfl, rfl⟩,
    ?_, ?_, ?_⟩
  · rintro ⟨-, fact, isNow, isNew⟩
    exact absurd isNow isNew
  · intro isReview
    cases isReview
  · intro other name auditId own
    by_cases isHere : other = intakeId ∧ name = field
    · obtain ⟨rfl, rfl⟩ := isHere
      rw [readRow, if_pos ⟨rfl, rfl, rfl⟩]
      show none = (db.nodeOverrides.lookup ((other, kind), name)).map shown
      rw [absent]
      rfl
    · rw [readRow_other rfl rfl reaches own isHere]
      rfl
  · rintro - (isUpdate | isVoid)
    · exact absurd isUpdate (show ¬("delete" : String) = "update" by decide)
    · exact absurd isVoid (show ¬("delete" : String) = "void" by decide)

/-- A row about another table leaves the overrides alone. -/
theorem readRow_otherTable {audit : MetadataAudit} {nodeId : Int} {field : String}
    {stored : Option (Option String × String)} (isOther : ¬audit.tableName = "node_publication_attrs") :
    readRow nodeId field stored audit = stored := by
  rw [readRow, if_neg]
  rintro ⟨isTable, -⟩
  exact isOther isTable

/-- A new contributor's id is on no row. -/
theorem nextContributorId_fresh (db : CatalogDb) :
    db.nodeContributors.lookup db.nextContributorId = none := by
  have below : ∀ keys : List Int, ∀ key ∈ keys, key ≤ keys.foldr max db.contributorSeq := by
    intro keys
    induction keys with
    | nil => exact fun _ member => by cases member
    | cons first rest ih =>
      intro key member
      rcases List.mem_cons.mp member with rfl | later
      · exact le_max_left _ _
      · exact (ih key later).trans (le_max_right _ _)
  rw [AList.lookup_eq_none]
  intro isKey
  have under := below _ _ (AList.mem_keys.mp isKey)
  unfold CatalogDb.nextContributorId at under
  omega

theorem add_spec {role name : String} {row : NodeContributor} {reason : Option String}
    (isIntake : row.intakeId = intakeId) (isRole : row.role = role) (isName : row.name = name) :
    EffectSpec ops kind db True
      ⟨.contributor db.nextContributorId (some row),
        ops.buildAudit "node_contributors" "insert" (some intakeId) (some role) none (some name) reason,
        false⟩ := by
  have notAttrs : ¬("node_contributors" : String) = "node_publication_attrs" := by decide
  have fresh := nextContributorId_fresh db
  have here : (RowChange.apply db (.contributor db.nextContributorId (some row))).nodeContributors.lookup
      db.nextContributorId = some row := AList.lookup_insert _
  have elsewhere : ∀ key, ¬key = db.nextContributorId →
      (RowChange.apply db (.contributor db.nextContributorId (some row))).nodeContributors.lookup key =
        db.nodeContributors.lookup key := fun key isOther => AList.lookup_insert_ne isOther
  subst isIntake isRole isName
  refine ⟨⟨fun _ => ⟨rfl, .contributor db.nextContributorId row, here, ?_⟩, fun _ => trivial⟩, ?_,
    ⟨rfl, rfl, rfl⟩, ?_, fun _ _ _ _ => readRow_otherTable notAttrs, ?_⟩
  · intro isStored
    cases fresh.symm.trans isStored
  · intro fact isNow
    cases fact with
    | contributor contributorId other =>
      by_cases isHere : contributorId = db.nextContributorId
      · subst isHere
        obtain rfl : row = other := Option.some.inj (here.symm.trans isNow)
        exact .inr ⟨rfl, rfl, rfl, rfl, rfl⟩
      · exact .inl ((elsewhere _ isHere).symm.trans isNow)
    | noContributor contributorId other =>
      refine .inl fun isStored => ?_
      by_cases isHere : contributorId = db.nextContributorId
      · subst isHere
        cases fresh.symm.trans isStored
      · exact isNow ((elsewhere _ isHere).trans isStored)
    | override => exact .inl isNow
    | review => exact .inl isNow
  · intro isReview
    cases isReview
  · intro isTable
    exact absurd isTable notAttrs

theorem remove_spec {contributorId : Int} {row : NodeContributor} {reason : Option String}
    (stored : db.nodeContributors.lookup contributorId = some row) :
    EffectSpec ops kind db True
      ⟨.contributor contributorId none,
        ops.buildAudit "node_contributors" "delete" (some row.intakeId) (some row.role) (some row.name) none
          reason, false⟩ := by
  have notAttrs : ¬("node_contributors" : String) = "node_publication_attrs" := by decide
  have here : (db.removeContributor contributorId).nodeContributors.lookup contributorId = none :=
    AList.lookup_erase _ _
  have elsewhere : ∀ key, ¬key = contributorId →
      (db.removeContributor contributorId).nodeContributors.lookup key =
        db.nodeContributors.lookup key := fun key isOther => AList.lookup_erase_ne isOther
  refine ⟨⟨fun _ => ⟨rfl, .noContributor contributorId row, ?_, fun isGone => isGone stored⟩,
    fun _ => trivial⟩, ?_, ⟨rfl, rfl, rfl⟩, ?_, fun _ _ _ _ => readRow_otherTable notAttrs, ?_⟩
  · intro isThere
    cases here.symm.trans isThere
  · intro fact isNow
    cases fact with
    | contributor other found =>
      by_cases isHere : other = contributorId
      · subst isHere
        cases here.symm.trans isNow
      · exact .inl ((elsewhere _ isHere).symm.trans isNow)
    | noContributor other gone =>
      by_cases isHere : other = contributorId ∧ gone = row
      · obtain ⟨rfl, rfl⟩ := isHere
        exact .inr ⟨rfl, rfl, rfl, rfl, rfl⟩
      · refine .inl fun isStored => ?_
        by_cases isId : other = contributorId
        · subst isId
          exact isHere ⟨rfl, Option.some.inj (isStored.symm.trans stored)⟩
        · exact isNow ((elsewhere _ isId).trans isStored)
    | override => exact .inl isNow
    | review => exact .inl isNow
  · intro isReview
    cases isReview
  · intro isTable
    exact absurd isTable notAttrs

theorem review_spec {status action : String} {reason : Option String}
    (stands : statusOf action = some status) :
    EffectSpec ops kind db False
      ⟨.review (intakeId, kind) ⟨ops.caller.actorKind.asStr, status, none⟩,
        ops.buildAudit "node_reviews" action (some intakeId) none none none reason, true⟩ := by
  have notAttrs : ¬("node_reviews" : String) = "node_publication_attrs" := by decide
  refine ⟨⟨False.elim, fun isEdit => by cases isEdit.1⟩, ?_, ⟨rfl, rfl, rfl⟩, fun _ => rfl,
    fun _ _ _ _ => readRow_otherTable notAttrs, ?_⟩
  · intro fact isNow
    cases fact with
    | review address row =>
      by_cases isHere : address = (intakeId, kind)
      · subst isHere
        refine .inr ⟨rfl, rfl, _, (AList.lookup_insert _).symm.trans isNow |>.symm, stands, rfl⟩
      · exact .inl ((AList.lookup_insert_ne isHere).symm.trans isNow)
    | override => exact .inl isNow
    | contributor => exact .inl isNow
    | noContributor => exact .inl isNow
  · intro isTable
    exact absurd isTable notAttrs

/-! ### The effect of a request -/

/-- A request that edits has an effect, and the effect is as specified. -/
structure Sound (ops : Ops) (kind : ItemKind) (db : CatalogDb) (edits : Prop)
    (effect : Option Effect) : Prop where
  spec : ∀ done, effect = some done → EffectSpec ops kind db edits done
  accepted : edits → ∃ done, effect = some done

theorem EffectSpec.congr {edits edits' : Prop} {effect : Effect}
    (spec : EffectSpec ops kind db edits effect) (same : edits' ↔ edits) :
    EffectSpec ops kind db edits' effect :=
  { spec with edits_iff := same.trans spec.edits_iff }

/-- A guarded effect. -/
theorem Sound.guarded {ok edits edits' : Prop} [Decidable ok] {effect : Effect}
    (needs : edits' → ok) (same : ok → (edits' ↔ edits))
    (spec : ok → EffectSpec ops kind db edits effect) :
    Sound ops kind db edits' (if ok then some effect else none) := by
  by_cases isOk : ok
  · rw [if_pos isOk]
    refine ⟨fun done isDone => ?_, fun _ => ⟨effect, rfl⟩⟩
    obtain rfl := Option.some.inj isDone
    exact (spec isOk).congr (same isOk)
  · rw [if_neg isOk]
    refine ⟨fun done isDone => ?_, fun isEdit => absurd (needs isEdit) isOk⟩
    cases isDone

theorem setEffect_sound (editable : List String) (field value : String) (reason : Option String)
    (confirmed : Bool) :
    Sound ops kind db
      (ops.SetsAnew kind db intakeId editable field (ops.overrideRow (some value) confirmed))
      (ops.setEffect kind editable db intakeId field value reason confirmed) :=
  Sound.guarded (fun sets => ⟨sets.1, sets.2.1⟩)
    (fun isOk => ⟨fun sets => sets.2.2, fun isNew => ⟨isOk.1, isOk.2, isNew⟩⟩)
    fun isOk => override_spec (ops.overrideRow (some value) confirmed) rfl rfl isOk.2

theorem voidEffect_sound (editable : List String) (field : String) (reason : Option String) :
    Sound ops kind db (ops.SetsAnew kind db intakeId editable field (ops.overrideRow none false))
      (ops.voidEffect kind editable db intakeId field reason) :=
  Sound.guarded (fun sets => ⟨sets.1, sets.2.1⟩)
    (fun isOk => ⟨fun sets => sets.2.2, fun isNew => ⟨isOk.1, isOk.2, isNew⟩⟩)
    fun isOk => override_spec (ops.overrideRow none false) rfl rfl isOk.2

theorem clearEffect_sound (editable : List String) (field : String) (reason : Option String) :
    Sound ops kind db (ops.Clears kind db intakeId field)
      (ops.clearEffect kind editable db intakeId field reason) := by
  unfold Ops.clearEffect
  by_cases reaches : ops.Reaches kind db intakeId
  · rw [if_pos reaches]
    have same : ops.Clears kind db intakeId field ↔
        ¬db.nodeOverrides.lookup ((intakeId, kind), field) = none :=
      ⟨fun clears => clears.2, fun isStored => ⟨reaches, isStored⟩⟩
    cases stored : db.nodeOverrides.lookup ((intakeId, kind), field) with
    | some row =>
      rw [Option.isSome_some, if_pos rfl]
      refine ⟨fun done isDone => ?_, fun _ => ⟨_, rfl⟩⟩
      obtain rfl := Option.some.inj isDone
      exact (clear_spec stored reaches).congr same
    | none =>
      rw [Option.isSome_none, if_neg (by decide)]
      exact Sound.guarded (fun clears => absurd stored clears.2) (fun _ => same) fun _ =>
        clear_absent_spec stored reaches
  · rw [if_neg reaches]
    refine ⟨fun done isDone => ?_, fun clears => absurd clears.1 reaches⟩
    cases isDone

theorem addEffect_sound (role name : String) (parts : NameParts) (reason : Option String) :
    Sound ops kind db (ops.Adds kind db intakeId role name)
      (ops.addEffect kind db intakeId role name parts reason) :=
  Sound.guarded id (fun isOk => ⟨fun _ => trivial, fun _ => isOk⟩) fun _ => add_spec rfl rfl rfl

theorem mem_contributorsForAddress {address : Address} {row : Int × NodeContributor} :
    row ∈ db.contributorsForAddress address ↔
      db.nodeContributors.lookup row.1 = some row.2 ∧ (row.2.intakeId, row.2.scope) = address := by
  rw [CatalogDb.contributorsForAddress, List.mem_insertionSort, List.mem_filterMap,
    ← Option.mem_def, AList.mem_lookup_iff]
  constructor
  · rintro ⟨⟨contributorId, stored⟩, member, isRow⟩
    split_ifs at isRow with isHere
    obtain rfl := Option.some.inj isRow
    exact ⟨member, isHere⟩
  · rintro ⟨member, isHere⟩
    exact ⟨_, member, if_pos isHere⟩

theorem removeEffect_sound (contributorId : Int) (reason : Option String) :
    Sound ops kind db (ops.Removes kind db intakeId contributorId)
      (ops.removeEffect kind db intakeId contributorId reason) := by
  unfold Ops.removeEffect
  by_cases reaches : ops.Reaches kind db intakeId
  · rw [if_pos reaches]
    cases found : (db.contributorsForAddress (intakeId, kind)).find? fun row =>
        decide (row.1 = contributorId) with
    | none =>
      refine ⟨fun done isDone => (by cases isDone), ?_⟩
      rintro ⟨-, row, stored, isHere⟩
      have listed : (contributorId, row) ∈ db.contributorsForAddress (intakeId, kind) :=
        mem_contributorsForAddress.mpr ⟨stored, isHere⟩
      exact absurd (decide_eq_true rfl) (List.find?_eq_none.mp found _ listed)
    | some entry =>
      obtain ⟨other, row⟩ := entry
      obtain rfl : other = contributorId := by simpa using List.find?_some found
      obtain ⟨stored, isHere⟩ := mem_contributorsForAddress.mp (List.mem_of_find?_eq_some found)
      obtain ⟨isIntake, -⟩ := Prod.mk.inj isHere
      refine ⟨fun done isDone => ?_, fun _ => ⟨_, rfl⟩⟩
      obtain rfl := Option.some.inj isDone
      dsimp only at stored isIntake
      rw [← isIntake]
      exact (remove_spec stored).congr
        ⟨fun _ => trivial, fun _ => ⟨isIntake ▸ reaches, row, stored, isIntake ▸ isHere⟩⟩
  · rw [if_neg reaches]
    refine ⟨fun done isDone => ?_, fun removes => absurd removes.1 reaches⟩
    cases isDone

theorem reviewEffect_sound {status action : String} (stands : statusOf action = some status)
    (reason : Option String) :
    Sound ops kind db False (ops.reviewEffect kind db intakeId status action reason) :=
  Sound.guarded False.elim (fun _ => Iff.rfl) fun _ => review_spec stands

theorem effect_sound (ops : Ops) (db : CatalogDb) (request : Request) :
    Sound ops request.kind db (request.Edits ops db) (request.effect ops db) := by
  cases request with
  | setMetadataField => exact setEffect_sound _ _ _ _ _
  | clearMetadataField => exact clearEffect_sound _ _ _
  | voidMetadataField => exact voidEffect_sound _ _ _
  | addContributor => exact addEffect_sound _ _ _ _
  | removeContributor => exact removeEffect_sound _ _
  | acknowledgeMetadataGap => exact reviewEffect_sound (by decide) _
  | approveMetadata => exact reviewEffect_sound (by decide) _
  | rejectMetadata => exact reviewEffect_sound (by decide) _
  | setPaperMetadataField => exact setEffect_sound _ _ _ _ _
  | clearPaperMetadataField => exact clearEffect_sound _ _ _
  | voidPaperMetadataField => exact voidEffect_sound _ _ _
  | addPaperContributor => exact addEffect_sound _ _ _ _
  | removePaperContributor => exact removeEffect_sound _ _
  | acknowledgePaperMetadataGap => exact reviewEffect_sound (by decide) _
  | approvePaperMetadata => exact reviewEffect_sound (by decide) _
  | rejectPaperMetadata => exact reviewEffect_sound (by decide) _
  | reopenPaperReview => exact reviewEffect_sound (by decide) _

/-! ### One call -/

theorem apply_metadataAudit (db : CatalogDb) (change : RowChange) :
    (change.apply db).metadataAudit = db.metadataAudit := by
  cases change with
  | nothing => rfl
  | override address field row => cases row <;> rfl
  | contributor contributorId row => cases row <;> rfl
  | review => rfl

theorem apply_intakes (db : CatalogDb) (change : RowChange) : (change.apply db).intakes = db.intakes := by
  cases change with
  | nothing => rfl
  | override address field row => cases row <;> rfl
  | contributor contributorId row => cases row <;> rfl
  | review => rfl

theorem holds_recorded (db : CatalogDb) (audit : NewMetadataAudit) (fact : Fact) :
    Holds (db.recordMetadataAudit audit).2 fact ↔ Holds db fact := by
  cases fact <;> exact Iff.rfl

/-- What one call may leave, with what it appended. -/
structure Stepped (ops : Ops) (kind : ItemKind) (db left : CatalogDb) (added : List MetadataAudit) :
    Prop where
  appended : left.metadataAudit = db.metadataAudit ++ added
  intakes : left.intakes = db.intakes
  told : ∀ fact, Holds left fact → Holds db fact ∨
    ∃ audit ∈ added, Tells audit.toNewMetadataAudit fact ∧
      StampedBy audit.toNewMetadataAudit ops.caller
  reads : ∀ intakeId field, OwnNode db intakeId →
    replay (readRow (rootOf intakeId) field)
      ((db.nodeOverrides.lookup ((intakeId, kind), field)).map shown) added =
    (left.nodeOverrides.lookup ((intakeId, kind), field)).map shown
  oldValue : ∀ audit ∈ added, audit.tableName = "node_publication_attrs" →
    audit.action = "update" ∨ audit.action = "void" →
    ∃ intakeId field, audit.nodeId = some (rootOf intakeId) ∧ audit.field = some field ∧
      audit.oldValue = (db.effectivePublicationAttrs (intakeId, kind)).get field

theorem Stepped.none : Stepped ops kind db db [] :=
  ⟨(List.append_nil _).symm, rfl, fun _ isNow => .inl isNow, fun _ _ _ => rfl,
    fun _ member => (by cases member)⟩

/-- **The step lemma**: a call appends a row for what it makes true, unless it changes a row while its
audit statement fails. -/
theorem stepped {request : Request}
    (kept : ops.fault = some .recordMetadataAudit → ¬request.Edits ops db) :
    ∃ added, Stepped ops request.kind db (request.left ops db) added := by
  have obeys := left_obeys ops db request
  have sound := effect_sound ops db request
  cases isEffect : request.effect ops db with
  | none =>
    rw [isEffect] at obeys
    rw [show request.left ops db = db from obeys]
    exact ⟨[], .none⟩
  | some effect =>
    have spec := sound.spec effect isEffect
    rw [isEffect] at obeys
    rcases obeys with ⟨-, isSame | ⟨isReview, isLeft⟩⟩ | ⟨fails, isLeft⟩ | ⟨-, isLeft⟩
    · rw [isSame]
      exact ⟨[], .none⟩
    · have notAttrs : ¬effect.audit.tableName = "node_publication_attrs" := by
        rw [spec.reviews isReview]
        decide
      rw [isLeft]
      refine ⟨[_], rfl, rfl, fun fact isNow => .inl ((holds_recorded _ _ _).mp isNow),
        fun intakeId field own => readRow_otherTable notAttrs, fun audit member isTable => ?_⟩
      rw [List.mem_singleton.mp member] at isTable
      exact absurd isTable notAttrs
    · cases isFirst : effect.auditFirst with
      | true =>
        rw [isLeft, isFirst, if_pos rfl]
        exact ⟨[], .none⟩
      | false =>
        rw [isLeft, isFirst, if_neg (by decide)]
        have nothingNew : ∀ fact, Holds (effect.change.apply db) fact → Holds db fact := by
          intro fact isNow
          by_contra isNew
          exact kept fails (spec.edits_iff.mpr ⟨isFirst, fact, isNow, isNew⟩)
        refine ⟨[], (apply_metadataAudit _ _).trans (List.append_nil _).symm, apply_intakes _ _,
          fun fact isNow => .inl (nothingNew fact isNow), fun intakeId field own => ?_,
          fun _ member => (by cases member)⟩
        exact congrArg (Option.map shown) (nothingNew (.override (intakeId, request.kind) field _) rfl)
    · rw [isLeft]
      refine ⟨[_], congrArg (· ++ _) (apply_metadataAudit _ _), apply_intakes _ _,
        fun fact isNow => ?_, fun intakeId field own => spec.reads intakeId field _ own,
        fun audit member => ?_⟩
      · rcases spec.told fact ((holds_recorded _ _ _).mp isNow) with already | isTold
        · exact .inl already
        · exact .inr ⟨_, List.mem_singleton_self _, isTold, spec.stamped⟩
      · rw [List.mem_singleton.mp member]
        exact spec.oldValue

theorem Backends.AuditKept.stepped {backends : Backends} {call : Call}
    (kept : backends.AuditKept call) : ∃ added, Stepped (backends.ops call) call.request.kind
      (backends.catalogs call.request.kind) (backends.left call) added := by
  have noLoss : (backends.ops call).fault = some .recordMetadataAudit →
      ¬call.request.Edits (backends.ops call) (backends.catalogs call.request.kind) := kept
  exact Writes.stepped noLoss

/-- A change whose audit statement fails is made, and nothing is appended. -/
theorem unrecorded {request : Request} (fails : ops.fault = some .recordMetadataAudit)
    (edits : request.Edits ops db) :
    (request.left ops db).metadataAudit = db.metadataAudit ∧
      ∃ fact, Holds (request.left ops db) fact ∧ ¬Holds db fact := by
  have sound := effect_sound ops db request
  obtain ⟨effect, isEffect⟩ := sound.accepted edits
  obtain ⟨isFirst, isNew⟩ := (sound.spec effect isEffect).edits_iff.mp edits
  have obeys := left_obeys ops db request
  rw [isEffect] at obeys
  have isLeft : request.left ops db = effect.change.apply db := by
    rcases obeys with ⟨⟨statement, isFault, isOther⟩, -⟩ | ⟨-, isLeft⟩ | ⟨works, -⟩
    · exact absurd (Option.some.inj (isFault.symm.trans fails)) isOther
    · rw [isLeft, isFirst, if_neg (by decide)]
    · exact absurd fails works
  rw [isLeft]
  exact ⟨apply_metadataAudit _ _, isNew⟩

/-! ### Runs -/

/-- What a run keeps on one side. -/
structure Kept (kind : ItemKind) (calls : List Call) (start now : CatalogDb) : Prop where
  intakes : now.intakes = start.intakes
  recorded : Recorded kind calls start now
  replays : Replays kind start now

theorem trail_self (db : CatalogDb) : trail db db = [] := List.drop_length

theorem Kept.start (kind : ItemKind) (db : CatalogDb) : Kept kind [] db db := by
  refine ⟨rfl, ⟨List.prefix_rfl, .refl⟩, fun intakeId field own => ?_⟩
  rw [trail_self]
  rfl

/-- A call to the other side leaves this one alone. -/
theorem Kept.more {calls : List Call} {start now : CatalogDb} (kept : Kept kind calls start now)
    (call : Call) : Kept kind (calls ++ [call]) start now := by
  refine ⟨kept.intakes, ⟨kept.recorded.appended, kept.recorded.told.mono ?_⟩, kept.replays⟩
  rintro audit fact ⟨isTold, caller, member, isSide, stamped⟩
  exact ⟨isTold, caller, List.mem_append_left _ member, isSide, stamped⟩

theorem Kept.step {calls : List Call} {start now next : CatalogDb} {added : List MetadataAudit}
    {call : Call} (kept : Kept kind calls start now) (isCaller : ops.caller = call.caller)
    (isSide : call.request.kind = kind) (step : Stepped ops kind now next added) :
    Kept kind (calls ++ [call]) start next := by
  have longer : trail start next = trail start now ++ added := by
    unfold trail
    rw [step.appended, List.drop_append_of_le_length kept.recorded.appended.length_le]
  refine ⟨step.intakes.trans kept.intakes, ⟨?_, ?_⟩, fun intakeId field own => ?_⟩
  · rw [step.appended]
    exact kept.recorded.appended.trans (List.prefix_append _ _)
  · rw [longer]
    refine Told.step (Kept.more kept call).recorded.told fun fact isNext => ?_
    rcases step.told fact isNext with already | ⟨audit, isAdded, isTold, stamped⟩
    · exact .inl already
    · exact .inr ⟨audit, isAdded, isTold, call, List.mem_append_right _ (List.mem_singleton_self _),
        isSide, isCaller ▸ stamped⟩
  · have ownNow : OwnNode now intakeId := by
      unfold OwnNode at own ⊢
      rwa [kept.intakes]
    rw [longer, replay_append, kept.replays intakeId field own, step.reads intakeId field ownNow]

theorem Kept.after {calls : List Call} {start now : Backends} {call : Call}
    (kept : ∀ kind, Kept kind calls (start.catalogs kind) (now.catalogs kind))
    (auditKept : now.AuditKept call) (kind : ItemKind) :
    Kept kind (calls ++ [call]) (start.catalogs kind) ((now.after call).catalogs kind) := by
  unfold Backends.after
  by_cases isSide : kind = call.request.kind
  · subst isSide
    dsimp only
    rw [Function.update_self]
    obtain ⟨added, step⟩ := auditKept.stepped
    exact (kept _).step rfl rfl step
  · dsimp only
    rw [Function.update_of_ne isSide]
    exact (kept kind).more call

theorem run_concat (start : Backends) (calls : List Call) (call : Call) :
    start.run (calls ++ [call]) = (start.run calls).after call := List.foldl_concat _ _ _ _

theorem auditsKept_concat {start : Backends} {calls : List Call} {call : Call} :
    start.AuditsKept (calls ++ [call]) ↔ start.AuditsKept calls ∧ (start.run calls).AuditKept call := by
  induction calls generalizing start with
  | nil => simp [Backends.AuditsKept, Backends.run]
  | cons first rest ih =>
    show start.AuditKept first ∧ (start.after first).AuditsKept (rest ++ [call]) ↔
      (start.AuditKept first ∧ (start.after first).AuditsKept rest) ∧
        ((start.after first).run rest).AuditKept call
    rw [ih, and_assoc]

/-- **The run lemma.** -/
theorem run_kept (start : Backends) {calls : List Call} (along : start.AuditsKept calls)
    (kind : ItemKind) : Kept kind calls (start.catalogs kind) ((start.run calls).catalogs kind) := by
  induction calls using List.reverseRecOn generalizing kind with
  | nil => exact .start kind _
  | append_singleton calls call ih =>
    obtain ⟨before, last⟩ := auditsKept_concat.mp along
    rw [run_concat]
    exact Kept.after (fun kind => ih before kind) last kind

/-- The rows of sets and voids give the effective value just before. -/
def OldValues (before : Backends) (call : Call) : Prop :=
  ∀ audit ∈ trail (before.catalogs call.request.kind) (before.left call),
    audit.tableName = "node_publication_attrs" → audit.action = "update" ∨ audit.action = "void" →
    ∃ intakeId field, audit.nodeId = some (rootOf intakeId) ∧ audit.field = some field ∧
      audit.oldValue = ((before.catalogs call.request.kind).effectivePublicationAttrs
        (intakeId, call.request.kind)).get field

/-- **No curation without its audit row**: along every run in which no audit statement fails on a call
that changes a row, every state is recorded and replayed; a single call leaves its change recorded
exactly when that is so; and the rows of sets and voids carry the effective value just before. -/
theorem curation_recorded (start : Backends) :
    (∀ calls : List Call, start.AuditsKept calls → ∀ kind,
      Recorded kind calls (start.catalogs kind) ((start.run calls).catalogs kind) ∧
        Replays kind (start.catalogs kind) ((start.run calls).catalogs kind)) ∧
    (∀ call : Call,
      Recorded call.request.kind [call] (start.catalogs call.request.kind) (start.left call) ↔
        start.AuditKept call) ∧
    ∀ call : Call, start.AuditKept call → OldValues start call := by
  refine ⟨fun calls along kind => ?_, fun call => ⟨fun recorded fails edits => ?_, fun kept => ?_⟩,
    fun call kept => ?_⟩
  · have kept := run_kept start along kind
    exact ⟨kept.recorded, kept.replays⟩
  · obtain ⟨isSame, fact, isNow, isNew⟩ := unrecorded fails edits
    have silent : trail (start.catalogs call.request.kind) (start.left call) = [] := by
      unfold trail Backends.left
      rw [isSame, List.drop_length]
    have told := recorded.told
    rw [silent] at told
    exact not_told_nil isNow isNew told
  · obtain ⟨added, step⟩ := kept.stepped
    exact ((Kept.start _ _).step rfl rfl step).recorded
  · obtain ⟨added, step⟩ := kept.stepped
    have isAdded : trail (start.catalogs call.request.kind) (start.left call) = added := by
      unfold trail
      rw [step.appended, List.drop_left]
    unfold OldValues
    rw [isAdded]
    exact step.oldValue

/-- Two catalogs, each with intake 1 and nothing said of it. -/
def oneIntakeEach : Backends where
  papersConfigured := true
  catalogs := fun _ => ⟨AList.singleton 1 ⟨.embedded, none⟩, ∅, ∅, ∅, 0, ∅, [], [], 0⟩

/-- A curator at the command line. -/
def curator : Caller := ⟨.human, some "cli", none, none⟩

/-- The title is set while the audit statement fails. -/
def cutTitle : Call :=
  ⟨curator, .setMetadataField 1 "title" "A Title" none true, some .recordMetadataAudit⟩

/-- Titles, contributors and reviews on both sides; one approval's review statement fails. -/
def mixedCalls : List Call :=
  [⟨curator, .setMetadataField 1 "title" "A Title" none true, none⟩,
    ⟨curator, .addContributor 1 "author" "The Author" none none, none⟩,
    ⟨curator, .setPaperMetadataField 1 "title" "A Paper" none true, none⟩,
    ⟨curator, .addPaperContributor 1 "author" "The Author" none none none none, none⟩,
    ⟨curator, .voidMetadataField 1 "title" none, none⟩,
    ⟨curator, .approvePaperMetadata 1 none, none⟩,
    ⟨curator, .removeContributor 1 1 none, none⟩,
    ⟨curator, .clearMetadataField 1 "title" none, none⟩,
    ⟨curator, .approveMetadata 1 none, some .change⟩,
    ⟨curator, .rejectMetadata 1 "no cover", none⟩]

/-- Seven audit rows for the book and three for the paper record the run. -/
theorem curation_recorded_mixedCalls :
    (∀ kind, Recorded kind mixedCalls (oneIntakeEach.catalogs kind)
      ((oneIntakeEach.run mixedCalls).catalogs kind) ∧
      Replays kind (oneIntakeEach.catalogs kind) ((oneIntakeEach.run mixedCalls).catalogs kind)) ∧
    ((oneIntakeEach.run mixedCalls).catalogs .book).metadataAudit.map (·.action) =
      ["update", "insert", "void", "delete", "delete", "approve", "reject"] ∧
    ((oneIntakeEach.run mixedCalls).catalogs .paper).metadataAudit.map (·.action) =
      ["update", "insert", "approve"] ∧
    OldValues (oneIntakeEach.run (mixedCalls.take 4)) ⟨curator, .voidMetadataField 1 "title" none, none⟩ := by
  have along : oneIntakeEach.AuditsKept mixedCalls := by
    refine ⟨?_, ?_, ?_, ?_, ?_, ?_, ?_, ?_, ?_, ?_, trivial⟩ <;> intro fails <;> cases fails
  refine ⟨(curation_recorded oneIntakeEach).1 mixedCalls along, by decide +kernel, by decide +kernel,
    (curation_recorded (oneIntakeEach.run (mixedCalls.take 4))).2.2 _ ?_⟩
  intro fails
  cases fails

/-- The new title is on file, and no audit row says who set it. -/
theorem override_without_row :
    (oneIntakeEach.left cutTitle).nodeOverrides.lookup ((1, .book), "title") =
        some ⟨some "A Title", true, "human", none⟩ ∧
      (oneIntakeEach.left cutTitle).metadataAudit = [] ∧
      ¬Recorded .book [cutTitle] (oneIntakeEach.catalogs .book) (oneIntakeEach.left cutTitle) := by
  have isLeft : (oneIntakeEach.left cutTitle).nodeOverrides.lookup ((1, .book), "title") =
      some ⟨some "A Title", true, "human", none⟩ := by decide
  have isSilent : (oneIntakeEach.left cutTitle).metadataAudit = [] := by decide
  refine ⟨isLeft, isSilent, fun recorded => ?_⟩
  have told := recorded.told
  unfold trail at told
  rw [isSilent] at told
  have isNow : Holds (oneIntakeEach.left cutTitle)
      (.override (1, .book) "title" (some ⟨some "A Title", true, "human", none⟩)) := isLeft
  refine not_told_nil isNow ?_ told
  intro isStored
  cases isStored

end Bookrack.Writes
