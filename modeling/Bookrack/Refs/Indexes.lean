/-
The columns and indexes a registration adds to `reference_entries` (`refs/src/indexes.rs`).

* `applyIndexes` is `apply` on the schema of the table; its errors are those of `registerBook`.
* `columnName_injective`, `indexName_injective`: the names of different pairs differ.
* `OwnColumn`: a pair's column projects the pair's path, and its index is over that column.
* **`indexNames_never_clash`**: so it is for every pair registered in any history, and no registration
  changes a column.
-/

import Bookrack.Base.Escape
import Bookrack.Base.Joined
import Bookrack.Refs.Writes

namespace Bookrack.Refs

/-! ### Names -/

/-- The code of a character in a name. -/
def encodeChar (c : Char) : List Char :=
  match c with
  | '_' => ['_', 'u']
  | '.' => ['_', 'd']
  | _ => [c]

/-- `encode_segment`. -/
def encodeSegment (s : List Char) : List Char := s.flatMap encodeChar

/-- `gencol__<enc_slug>__<enc_field>` and `ix_ref__<enc_slug>__<enc_field>`. -/
def physicalName (kind : List Char) (bookSlug field : String) : String :=
  String.ofList (kind ++ (encodeSegment bookSlug.toList ++ (['_', '_'] ++ encodeSegment field.toList)))

/-- `column_name`. -/
def columnName (bookSlug field : String) : String :=
  physicalName ['g', 'e', 'n', 'c', 'o', 'l', '_', '_'] bookSlug field

/-- `index_name`. -/
def indexName (bookSlug field : String) : String :=
    physicalName ['i', 'x', '_', 'r', 'e', 'f', '_', '_'] bookSlug field

/-- `$.{field}`. -/
def jsonPath (field : String) : String := "$." ++ field

/-! ### The table -/

/-- A generated column: `json_extract(payload_json, path)`. -/
structure GeneratedColumn where
  name : String
  path : String
  deriving DecidableEq, Repr

/-- A partial index over one column. -/
structure PartialIndex where
  name : String
  column : String
  bookSlug : String
  deriving DecidableEq, Repr

/-- What registrations add to `reference_entries`. -/
structure EntryTable where
  columns : List GeneratedColumn
  indexes : List PartialIndex
  deriving DecidableEq, Repr

/-- The columns of `CREATE TABLE reference_entries`. -/
def entryColumns : List String :=
  ["entry_id", "book_slug", "entry_key", "headword", "aliases_json", "payload_json", "fts_text", "source_json",
    "quality_flags"]

/-- The indexes of the tables of the store, by `CREATE INDEX`. -/
def entryIndexes : List String := ["ix_ref_entries_book_key"]

/-- SQLite compares names without regard to the case of ASCII letters. -/
def sameName (one other : String) : Bool := one.toList.map Char.toLower == other.toList.map Char.toLower

namespace EntryTable

/-- The table as it is created. -/
def created : EntryTable := ⟨[], []⟩

/-- There is a column of that name. -/
def hasColumn (table : EntryTable) (name : String) : Bool :=
  entryColumns.any (sameName name) || table.columns.any fun column => sameName name column.name

/-- There is an index of that name. -/
def hasIndex (table : EntryTable) (name : String) : Bool :=
  entryIndexes.any (sameName name) || table.indexes.any fun index => sameName name index.name

/-- `ALTER TABLE .. ADD COLUMN`; an error that says `duplicate column name` is passed over. -/
def addColumn (column : GeneratedColumn) (table : EntryTable) : EntryTable :=
  if table.hasColumn column.name then table else { table with columns := table.columns ++ [column] }

/-- `CREATE INDEX IF NOT EXISTS`. -/
def createIndex (index : PartialIndex) (table : EntryTable) : EntryTable :=
  if table.hasIndex index.name then table else { table with indexes := table.indexes ++ [index] }

end EntryTable

/-- The body of the loop of `apply`. -/
def applyIndex (fates : IndexFates) (bookSlug : String) (position : Nat) (spec : IndexSpec)
    (seen : List String) :
    Prog EntryTable RefsError (List String) := do
  Prog.ofExcept (validateField spec.field)
  if spec.field ∈ seen then Prog.throw (.duplicateIndex spec.field)
  else do
    let column := columnName bookSlug spec.field
    Prog.write (fates.column position) .sqlite (EntryTable.addColumn ⟨column, jsonPath spec.field⟩)
    match spec.kind with
    | .btree =>
      Prog.write (fates.index position) .sqlite
        (EntryTable.createIndex ⟨indexName bookSlug spec.field, column, bookSlug⟩)
    pure (seen ++ [spec.field])

/-- `apply`. -/
def applyIndexes (fates : IndexFates) (bookSlug : String) (specs : List IndexSpec) :
    Prog EntryTable RefsError Unit := do
  Prog.ofExcept (validateSlug bookSlug)
  let _ ← Prog.loop specs [] (applyIndex fates bookSlug)
  pure ()

/-- `apply` ends as it does on the store, where its writes leave the rows alone. -/
theorem applyIndexes_ending (fates : IndexFates) (bookSlug : String) (specs : List IndexSpec) :
    Prog.EndAlike (applyIndexes fates bookSlug specs) (registerBook fates bookSlug specs) := by
  have turn : ∀ position spec seen,
      Prog.EndAlike (applyIndex fates bookSlug position spec seen) (applySpec fates position spec seen) := by
    intro position spec seen
    unfold applyIndex applySpec
    refine Prog.EndAlike.bind (by cases validateField spec.field <;> exact fun _ _ => rfl) fun _ => ?_
    by_cases isSeen : spec.field ∈ seen
    · rw [if_pos isSeen, if_pos isSeen]
      exact fun _ _ => rfl
    · rw [if_neg isSeen, if_neg isSeen]
      exact Prog.EndAlike.write.bind fun _ => Prog.EndAlike.write.bind fun _ _ _ => rfl
  unfold applyIndexes registerBook
  refine Prog.EndAlike.bind (by cases validateSlug bookSlug <;> exact fun _ _ => rfl) fun _ => ?_
  exact (Prog.EndAlike.loopFrom turn specs 0 []).bind fun _ _ _ => rfl

/-! ### Histories -/

/-- One call of `register_book`. -/
structure Registration where
  fates : IndexFates
  bookSlug : String
  specs : List IndexSpec

/-- The call on the table. -/
def Registration.run (registration : Registration) : Prog EntryTable RefsError Unit :=
  applyIndexes registration.fates registration.bookSlug registration.specs

/-- The table behind a history of calls, whatever they return. -/
def tableAfter (history : List Registration) : EntryTable :=
  history.foldl (fun table registration => registration.run.left table) .created

/-- A pair that `validate_slug` and `validate_field` accept. -/
def Accepted (bookSlug field : String) : Prop := validateSlug bookSlug = .ok () ∧ validateField field = .ok ()

/-- The column of a pair projects the path of the pair, and its index is over that column. -/
structure OwnColumn (table : EntryTable) (bookSlug field : String) : Prop where
  column : table.columns.filter (fun column => sameName (columnName bookSlug field) column.name) =
    [⟨columnName bookSlug field, jsonPath field⟩]
  index : table.indexes.filter (fun index => sameName (indexName bookSlug field) index.name) =
    [⟨indexName bookSlug field, columnName bookSlug field, bookSlug⟩]

/-! ### Names differ -/

section Names

variable {kind : List Char} {bookSlug field bookSlug' field' : String}

theorem encodeChar_escapes : Escape.Escapes encodeChar where
  nonempty c := by
    unfold encodeChar
    split <;> exact List.cons_ne_nil _ _
  apart {one other rest rest'} same := by
    unfold encodeChar at same
    split at same <;> split at same <;> grind

theorem joins_encodeChar : Escape.Joins encodeChar ['_', '_'] := by
  intro c rest rest' same
  unfold encodeChar at same
  split at same <;> simp_all

/-- **A name is read back.** -/
theorem physicalName_injective (same : physicalName kind bookSlug field = physicalName kind bookSlug' field') :
    bookSlug = bookSlug' ∧ field = field' := by
  have spelled := List.append_cancel_left (String.ofList_injective same)
  obtain ⟨sameSlug, sameField⟩ := Escape.joined_injective encodeChar_escapes joins_encodeChar spelled
  exact ⟨String.toList_injective sameSlug, String.toList_injective
    (Escape.flatMap_injective encodeChar_escapes sameField)⟩

theorem columnName_injective (same : columnName bookSlug field = columnName bookSlug' field') :
    bookSlug = bookSlug' ∧ field = field' := physicalName_injective same

theorem indexName_injective (same : indexName bookSlug field = indexName bookSlug' field') :
    bookSlug = bookSlug' ∧ field = field' := physicalName_injective same

/-! ### Case -/

/-- A character that lower case leaves alone. -/
def Folded (c : Char) : Prop := c.toLower = c

theorem folded_of_ident {c : Char} (isIdent : c.isLower = true ∨ c.isDigit = true ∨ c = '_') : Folded c := by
  refine dif_neg ?_
  rintro ⟨above, below⟩
  rw [ge_iff_le, UInt32.le_iff_toNat_le] at above
  rw [UInt32.le_iff_toNat_le] at below
  rcases isIdent with isLower | isDigit | rfl
  · have ends : (decide (c.val ≥ 'a'.val) && decide (c.val ≤ 'z'.val)) = true := isLower
    rw [Bool.and_eq_true, decide_eq_true_iff, ge_iff_le, UInt32.le_iff_toNat_le] at ends
    exact absurd (Nat.le_trans ends.1 below) (by decide)
  · rw [Char.isDigit, Bool.and_eq_true, decide_eq_true_iff, decide_eq_true_iff,
      UInt32.le_iff_toNat_le] at isDigit
    exact absurd (Nat.le_trans above isDigit.2) (by decide)
  · exact absurd below (by decide)

theorem SlugShape.folded {chars : List Char} (isSlug : SlugShape chars) : ∀ c ∈ chars, Folded c := by
  obtain ⟨first, rest, rfl, isLower, areChars⟩ := slugShape_iff.mp isSlug
  exact List.forall_mem_cons.mpr ⟨folded_of_ident (.inl isLower), fun c member =>
    folded_of_ident (areChars c member)⟩

theorem FieldShape.folded (isField : FieldShape field) : ∀ c ∈ field.toList, Folded c := by
  obtain ⟨row, rest, isSplit, whole, -⟩ := Joined.splitOn_rows '.' field.toList
  have areSegments := isSplit ▸ isField.2
  intro c member
  rw [whole, List.mem_append] at member
  rcases member with inRow | inTrail
  · exact SlugShape.folded (areSegments row List.mem_cons_self) c inRow
  · obtain ⟨segment, isSegment, inSegment⟩ := List.mem_flatMap.mp inTrail
    rcases List.mem_cons.mp inSegment with rfl | inside
    · rfl
    · exact SlugShape.folded (areSegments segment (List.mem_cons_of_mem _ isSegment)) c inside

theorem folded_encode {chars : List Char} (folded : ∀ c ∈ chars, Folded c) : ∀ c ∈ encodeSegment chars,
    Folded c := by
  intro c member
  obtain ⟨original, isOriginal, isCode⟩ := List.mem_flatMap.mp member
  have isFolded := folded original isOriginal
  unfold encodeChar at isCode
  split at isCode
  · rcases List.mem_pair.mp isCode with rfl | rfl <;> rfl
  · rcases List.mem_pair.mp isCode with rfl | rfl <;> rfl
  · exact List.mem_singleton.mp isCode ▸ isFolded

theorem toLower_physicalName (folded : ∀ c ∈ kind, Folded c) (accepted : Accepted bookSlug field) :
    (physicalName kind bookSlug field).toList.map Char.toLower = (physicalName kind bookSlug field).toList := by
  have slugFolded := folded_encode (validateSlug_ok.mp accepted.1).folded
  have fieldFolded := folded_encode (validateField_ok.mp accepted.2).folded
  refine (List.map_congr_left fun c member => ?_).trans (List.map_id _)
  rw [physicalName, String.toList_ofList, List.mem_append, List.mem_append, List.mem_append] at member
  rcases member with inKind | inSlug | inJoiner | inField
  · exact folded c inKind
  · exact slugFolded c inSlug
  · rcases List.mem_pair.mp inJoiner with rfl | rfl <;> rfl
  · exact fieldFolded c inField

/-- Accepted pairs whose names SQLite takes for the same are the same. -/
theorem sameName_physicalName (folded : ∀ c ∈ kind, Folded c) (accepted : Accepted bookSlug field)
    (accepted' : Accepted bookSlug' field') :
    sameName (physicalName kind bookSlug field) (physicalName kind bookSlug' field') = true ↔
      bookSlug = bookSlug' ∧ field = field' := by
  rw [sameName, beq_iff_eq, toLower_physicalName folded accepted, toLower_physicalName folded accepted',
    String.toList_inj]
  exact ⟨physicalName_injective, fun same => by rw [same.1, same.2]⟩

theorem sameName_columnName (accepted : Accepted bookSlug field) (accepted' : Accepted bookSlug' field') :
    sameName (columnName bookSlug field) (columnName bookSlug' field') = true ↔ bookSlug = bookSlug' ∧
      field = field' :=
  sameName_physicalName (by simp [Folded]) accepted accepted'

theorem sameName_indexName (accepted : Accepted bookSlug field) (accepted' : Accepted bookSlug' field') :
    sameName (indexName bookSlug field) (indexName bookSlug' field') = true ↔ bookSlug = bookSlug' ∧
      field = field' :=
  sameName_physicalName (by simp [Folded]) accepted accepted'

/-- No name of a registration is one of the table's own. -/
theorem entryColumns_other : entryColumns.any (sameName (columnName bookSlug field)) = false := by
  simp [entryColumns, sameName, columnName, physicalName]

theorem entryIndexes_other : entryIndexes.any (sameName (indexName bookSlug field)) = false := by
  simp [entryIndexes, sameName, indexName, physicalName]

end Names

/-! ### The table -/

/-- The column of a pair. -/
def columnOf (bookSlug field : String) : GeneratedColumn := ⟨columnName bookSlug field, jsonPath field⟩

/-- The index of a pair. -/
def indexOf (bookSlug field : String) : PartialIndex :=
    ⟨indexName bookSlug field, columnName bookSlug field, bookSlug⟩

/-- What is in the table stands for accepted pairs, each at most once. -/
structure EntryTable.Generated (table : EntryTable) : Prop where
  columns : ∀ column ∈ table.columns, ∃ bookSlug field, Accepted bookSlug field ∧
    column = columnOf bookSlug field
  indexes : ∀ index ∈ table.indexes, ∃ bookSlug field, Accepted bookSlug field ∧ index = indexOf bookSlug field
  columnsDistinct : table.columns.Nodup
  indexesDistinct : table.indexes.Nodup

/-- A table that keeps what another one has. -/
structure EntryTable.Keeps (before after : EntryTable) : Prop where
  generated : after.Generated
  columns : before.columns ⊆ after.columns
  indexes : before.indexes ⊆ after.indexes

section Table

variable {table : EntryTable} {bookSlug field : String}

theorem filter_eq_singleton {α : Type} [DecidableEq α] {rows : List α} {row : α} {keep : α → Bool}
    (distinct : rows.Nodup) (member : row ∈ rows) (only : ∀ other ∈ rows, keep other = true ↔ other = row) :
    rows.filter keep = [row] := by
  have same : rows.filter keep = rows.filter (· == row) := by
    refine List.filter_congr fun other isOther => ?_
    rw [Bool.eq_iff_iff, only other isOther, beq_iff_eq]
  rw [same, List.filter_beq, List.count_eq_one_of_mem distinct member, List.replicate_one]

theorem OwnColumn.of_mem (generated : table.Generated) (accepted : Accepted bookSlug field)
    (isColumn : columnOf bookSlug field ∈ table.columns) (isIndex : indexOf bookSlug field ∈ table.indexes) :
    OwnColumn table bookSlug field where
  column := by
    refine filter_eq_singleton generated.columnsDistinct isColumn fun other isOther => ?_
    obtain ⟨bookSlug', field', accepted', rfl⟩ := generated.columns other isOther
    rw [columnOf, sameName_columnName accepted accepted']
    constructor
    · rintro ⟨rfl, rfl⟩
      rfl
    · intro same
      obtain ⟨rfl, rfl⟩ := columnName_injective (congrArg GeneratedColumn.name same)
      exact ⟨rfl, rfl⟩
  index := by
    refine filter_eq_singleton generated.indexesDistinct isIndex fun other isOther => ?_
    obtain ⟨bookSlug', field', accepted', rfl⟩ := generated.indexes other isOther
    rw [indexOf, sameName_indexName accepted accepted']
    constructor
    · rintro ⟨rfl, rfl⟩
      rfl
    · intro same
      obtain ⟨rfl, rfl⟩ := indexName_injective (congrArg PartialIndex.name same)
      exact ⟨rfl, rfl⟩

theorem keeps_frame : Prog.Frame fun before after : EntryTable => before.Generated → before.Keeps after where
  refl _ generated := ⟨generated, List.Subset.refl _, List.Subset.refl _⟩
  trans first second generated :=
    have early := first generated
    have late := second early.generated
    ⟨late.generated, List.Subset.trans early.columns late.columns, List.Subset.trans early.indexes late.indexes⟩

/-- A row that is added, unless it is there. -/
theorem added_spec {α : Type} {rows : List α} {row : α} {there : Bool} {shaped : α → Prop}
    (isThere : there = true ↔ row ∈ rows) (areShaped : ∀ other ∈ rows, shaped other) (isShaped : shaped row)
    (distinct : rows.Nodup) :
    (∀ other ∈ if there = true then rows else rows ++ [row], shaped other) ∧
      (if there = true then rows else rows ++ [row]).Nodup ∧
      rows ⊆ (if there = true then rows else rows ++ [row]) ∧
      row ∈ if there = true then rows else rows ++ [row] := by
  by_cases isIn : row ∈ rows
  · rw [if_pos (isThere.mpr isIn)]
    exact ⟨areShaped, distinct, List.Subset.refl _, isIn⟩
  · rw [if_neg (mt isThere.mp isIn)]
    refine ⟨List.forall_mem_append.mpr ⟨areShaped, List.forall_mem_singleton.mpr isShaped⟩, ?_,
      List.subset_append_left _ _, List.mem_append_right _ List.mem_cons_self⟩
    refine List.nodup_append.mpr ⟨distinct, List.nodup_singleton _, fun other old new isNew => ?_⟩
    rintro rfl
    exact isIn (List.mem_singleton.mp isNew ▸ old)

/-- A column of the name of a pair is the column of the pair. -/
theorem hasColumn_iff (generated : table.Generated) (accepted : Accepted bookSlug field) :
    table.hasColumn (columnOf bookSlug field).name = true ↔ columnOf bookSlug field ∈ table.columns := by
  show table.hasColumn (columnName bookSlug field) = true ↔ _
  rw [EntryTable.hasColumn, entryColumns_other, Bool.false_or, List.any_eq_true]
  constructor
  · rintro ⟨column, isColumn, same⟩
    obtain ⟨bookSlug', field', accepted', rfl⟩ := generated.columns column isColumn
    obtain ⟨rfl, rfl⟩ := (sameName_columnName accepted accepted').mp same
    exact isColumn
  · exact fun isColumn => ⟨_, isColumn, beq_self_eq_true _⟩

theorem hasIndex_iff (generated : table.Generated) (accepted : Accepted bookSlug field) :
    table.hasIndex (indexOf bookSlug field).name = true ↔ indexOf bookSlug field ∈ table.indexes := by
  show table.hasIndex (indexName bookSlug field) = true ↔ _
  rw [EntryTable.hasIndex, entryIndexes_other, Bool.false_or, List.any_eq_true]
  constructor
  · rintro ⟨index, isIndex, same⟩
    obtain ⟨bookSlug', field', accepted', rfl⟩ := generated.indexes index isIndex
    obtain ⟨rfl, rfl⟩ := (sameName_indexName accepted accepted').mp same
    exact isIndex
  · exact fun isIndex => ⟨_, isIndex, beq_self_eq_true _⟩

theorem columns_addColumn {column : GeneratedColumn} : (table.addColumn column).columns =
    if table.hasColumn column.name = true then table.columns else table.columns ++ [column] := by
  unfold EntryTable.addColumn
  split <;> rfl

theorem indexes_addColumn {column : GeneratedColumn} : (table.addColumn column).indexes = table.indexes := by
  unfold EntryTable.addColumn
  split <;> rfl

theorem indexes_createIndex {index : PartialIndex} : (table.createIndex index).indexes =
    if table.hasIndex index.name = true then table.indexes else table.indexes ++ [index] := by
  unfold EntryTable.createIndex
  split <;> rfl

theorem columns_createIndex {index : PartialIndex} : (table.createIndex index).columns = table.columns := by
  unfold EntryTable.createIndex
  split <;> rfl

/-- **The column of a pair is added, or it is there.** -/
theorem addColumn_spec (generated : table.Generated) (accepted : Accepted bookSlug field) :
    table.Keeps (table.addColumn (columnOf bookSlug field)) ∧
      columnOf bookSlug field ∈ (table.addColumn (columnOf bookSlug field)).columns := by
  obtain ⟨columns, distinct, kept, isIn⟩ := added_spec (hasColumn_iff generated accepted) generated.columns
    ⟨bookSlug, field, accepted, rfl⟩ generated.columnsDistinct
  rw [← columns_addColumn] at columns distinct kept isIn
  refine ⟨⟨⟨columns, ?_, distinct, ?_⟩, kept, ?_⟩, isIn⟩ <;> rw [indexes_addColumn]
  · exact generated.indexes
  · exact generated.indexesDistinct
  · exact List.Subset.refl _

/-- **The index of a pair is created, or it is there.** -/
theorem createIndex_spec (generated : table.Generated) (accepted : Accepted bookSlug field) :
    table.Keeps (table.createIndex (indexOf bookSlug field)) ∧
      indexOf bookSlug field ∈ (table.createIndex (indexOf bookSlug field)).indexes := by
  obtain ⟨indexes, distinct, kept, isIn⟩ := added_spec (hasIndex_iff generated accepted) generated.indexes
    ⟨bookSlug, field, accepted, rfl⟩ generated.indexesDistinct
  rw [← indexes_createIndex] at indexes distinct kept isIn
  refine ⟨⟨⟨?_, indexes, ?_, distinct⟩, ?_, kept⟩, isIn⟩ <;> rw [columns_createIndex]
  · exact generated.columns
  · exact generated.columnsDistinct
  · exact List.Subset.refl _

end Table

/-! ### Registrations -/

section Registrations

variable {fates : IndexFates} {bookSlug : String} {specs : List IndexSpec} {table after : EntryTable}

/-- The relation of a program's tables. -/
abbrev Kept (before after : EntryTable) : Prop := before.Generated → before.Keeps after

theorem applyIndex_moves (fates : IndexFates) (isSlug : validateSlug bookSlug = .ok ()) (position : Nat)
    (spec : IndexSpec) (seen : List String) :
      Prog.Moves Kept (applyIndex fates bookSlug position spec seen) := by
  unfold applyIndex
  cases isField : validateField spec.field with
  | error error => exact fun store => keeps_frame.refl store
  | ok checked =>
    have accepted : Accepted bookSlug spec.field := ⟨isSlug, isField⟩
    refine Prog.Moves.bind keeps_frame (Prog.Moves.pure keeps_frame _) fun _ => ?_
    split
    · exact Prog.Moves.throw keeps_frame _
    · refine Prog.Moves.bind keeps_frame (Prog.Moves.write keeps_frame fun _ generated =>
        (addColumn_spec generated accepted).1) fun _ => ?_
      refine Prog.Moves.bind keeps_frame (Prog.Moves.write keeps_frame fun _ generated =>
        (createIndex_spec generated accepted).1) fun _ => Prog.Moves.pure keeps_frame _

/-- **What any registration does to the table**, whether it goes through or not. -/
theorem applyIndexes_moves (fates : IndexFates) (bookSlug : String) (specs : List IndexSpec) :
    Prog.Moves Kept (applyIndexes fates bookSlug specs) := by
  unfold applyIndexes
  cases isSlug : validateSlug bookSlug with
  | error error => exact fun store => keeps_frame.refl store
  | ok checked =>
    refine Prog.Moves.bind keeps_frame (Prog.Moves.pure keeps_frame _) fun _ => ?_
    exact Prog.Moves.bind keeps_frame (Prog.Moves.loop keeps_frame (applyIndex_moves fates isSlug) specs [])
      fun _ => Prog.Moves.pure keeps_frame _

/-- The turn for a field leaves its column and its index. -/
theorem applyIndex_returned {position : Nat} {spec : IndexSpec} {seen seen' : List String}
    (isSlug : validateSlug bookSlug = .ok ()) (generated : table.Generated)
    (turn : applyIndex fates bookSlug position spec seen table = (.value seen', after)) :
    Accepted bookSlug spec.field ∧ columnOf bookSlug spec.field ∈ after.columns ∧
      indexOf bookSlug spec.field ∈ after.indexes := by
  unfold applyIndex at turn
  obtain ⟨_, midway, checked, rest⟩ := Prog.bind_returned.mp turn
  obtain ⟨isField, rfl⟩ := Prog.ofExcept_returned.mp checked
  have accepted : Accepted bookSlug spec.field := ⟨isSlug, isField⟩
  by_cases isSeen : spec.field ∈ seen
  · rw [if_pos isSeen] at rest
    cases rest
  · rw [if_neg isSeen, Prog.bind_returned] at rest
    obtain ⟨_, _, column, rest⟩ := rest
    obtain ⟨-, rfl⟩ := Prog.write_returned.mp column
    obtain ⟨_, _, index, last⟩ := Prog.bind_returned.mp rest
    obtain ⟨-, rfl⟩ := Prog.write_returned.mp index
    obtain ⟨-, rfl⟩ := Prog.pure_returned.mp last
    obtain ⟨kept, isColumn⟩ := addColumn_spec generated accepted
    obtain ⟨keptIndex, isIndex⟩ := createIndex_spec kept.generated accepted
    exact ⟨accepted, keptIndex.columns isColumn, isIndex⟩

theorem applyIndexes_loop {start : Nat} {seen seen' : List String} (isSlug : validateSlug bookSlug = .ok ())
    (generated : table.Generated)
    (turns : Prog.loopFrom (applyIndex fates bookSlug) start seen specs table = (.value seen', after)) :
    ∀ spec ∈ specs, Accepted bookSlug spec.field ∧ columnOf bookSlug spec.field ∈ after.columns ∧
      indexOf bookSlug spec.field ∈ after.indexes := by
  induction specs generalizing start seen table with
  | nil => nofun
  | cons spec rest ih =>
    rw [Prog.loopFrom, Prog.bind_returned] at turns
    obtain ⟨seen'', midway, turn, turns⟩ := turns
    have moved := applyIndex_moves fates isSlug start spec seen table generated
    rw [Prog.left, turn] at moved
    have movedOn := Prog.Moves.loopFrom keeps_frame (applyIndex_moves fates isSlug) rest (start + 1) seen''
      midway moved.generated
    rw [Prog.left, turns] at movedOn
    obtain ⟨accepted, isColumn, isIndex⟩ := applyIndex_returned isSlug generated turn
    exact List.forall_mem_cons.mpr
      ⟨⟨accepted, movedOn.columns isColumn, movedOn.indexes isIndex⟩, ih moved.generated turns⟩

/-- A registration that goes through leaves the columns and the indexes of all its fields. -/
theorem applyIndexes_returned (generated : table.Generated)
    (returned : applyIndexes fates bookSlug specs table = (.value (), after)) :
    ∀ spec ∈ specs, Accepted bookSlug spec.field ∧ columnOf bookSlug spec.field ∈ after.columns ∧
      indexOf bookSlug spec.field ∈ after.indexes := by
  unfold applyIndexes at returned
  obtain ⟨_, midway, checked, rest⟩ := Prog.bind_returned.mp returned
  obtain ⟨isSlug, rfl⟩ := Prog.ofExcept_returned.mp checked
  obtain ⟨seen, _, turns, done⟩ := Prog.bind_returned.mp rest
  obtain ⟨-, rfl⟩ := Prog.pure_returned.mp done
  exact applyIndexes_loop isSlug generated turns

theorem created_generated : EntryTable.created.Generated where
  columns := nofun
  indexes := nofun
  columnsDistinct := List.nodup_nil
  indexesDistinct := List.nodup_nil

variable {field : String} {history later : List Registration}

theorem tableAfter_concat (before : List Registration) (registration : Registration) :
    tableAfter (before ++ [registration]) = registration.run.left (tableAfter before) := by
  rw [tableAfter, List.foldl_append]
  rfl

/-- A longer history keeps what a shorter one left. -/
theorem tableAfter_append : (tableAfter history).Generated →
    (tableAfter history).Keeps (tableAfter (history ++ later)) := by
  induction later using List.reverseRecOn with
  | nil =>
    rw [List.append_nil]
    exact keeps_frame.refl _
  | append_singleton later registration ih =>
    intro generated
    have early := ih generated
    have late := applyIndexes_moves registration.fates registration.bookSlug registration.specs
      (tableAfter (history ++ later)) early.generated
    rw [← List.append_assoc, tableAfter_concat]
    exact keeps_frame.trans (fun _ => early) (fun _ => late) generated

theorem tableAfter_generated (history : List Registration) : (tableAfter history).Generated :=
  (@tableAfter_append [] history created_generated).generated

/-- **A pair's own column and index stay its own.** -/
theorem OwnColumn.kept (own : OwnColumn (tableAfter history) bookSlug field) (later : List Registration) :
    OwnColumn (tableAfter (history ++ later)) bookSlug field := by
  have isColumn := (List.mem_filter.mp (own.column ▸ List.mem_singleton_self _)).1
  have isIndex := (List.mem_filter.mp (own.index ▸ List.mem_singleton_self _)).1
  obtain ⟨bookSlug', field', accepted, same⟩ := (tableAfter_generated history).columns _ isColumn
  obtain ⟨rfl, rfl⟩ := columnName_injective (congrArg GeneratedColumn.name same)
  have kept := @tableAfter_append history later (tableAfter_generated history)
  exact .of_mem kept.generated accepted (kept.columns isColumn) (kept.indexes isIndex)

end Registrations

/-- What is said of the names and of a history of registrations. -/
structure NamesApart (history : List Registration) : Prop where
  columns : ∀ bookSlug field bookSlug' field', Accepted bookSlug field → Accepted bookSlug' field' →
    columnName bookSlug field = columnName bookSlug' field' → bookSlug = bookSlug' ∧ field = field'
  indexes : ∀ bookSlug field bookSlug' field', Accepted bookSlug field → Accepted bookSlug' field' →
    indexName bookSlug field = indexName bookSlug' field' → bookSlug = bookSlug' ∧ field = field'
  /-- A registered pair ends with its own column, over its own path. -/
  registered : ∀ before registration after, history = before ++ registration :: after →
    registration.run.ending (tableAfter before) = .value () →
    ∀ spec ∈ registration.specs, OwnColumn (tableAfter history) registration.bookSlug spec.field
  /-- Accepted pairs of distinct fields are registered where the statements go through. -/
  returns : ∀ (registration : Registration) (table : EntryTable),
    validateSlug registration.bookSlug = .ok () →
    (∀ spec ∈ registration.specs, validateField spec.field = .ok ()) →
    (registration.specs.map IndexSpec.field).Nodup →
    (∀ position < registration.specs.length,
      registration.fates.column position = .done ∧ registration.fates.index position = .done) →
    registration.run.ending table = .value ()
  /-- No registration changes another pair's column, whether it goes through or not. -/
  unchanged : ∀ before registration after, history = before ++ registration :: after → ∀ bookSlug field,
    OwnColumn (tableAfter before) bookSlug field →
      OwnColumn (tableAfter (before ++ [registration])) bookSlug field

/-- **Index names never clash.** -/
theorem indexNames_never_clash (history : List Registration) : NamesApart history where
  columns _ _ _ _ _ _ := columnName_injective
  indexes _ _ _ _ _ _ := indexName_injective
  unchanged before registration _ _ _ _ own := own.kept [registration]
  returns registration table isSlug areFields distinct allDone := by
    have onRows : registerBook registration.fates registration.bookSlug registration.specs ⟨[], [], []⟩ =
        (.value (), ⟨[], [], []⟩) :=
      registerBook_returned.mpr ⟨⟨validateSlug_ok.mp isSlug,
        fun spec isSpec => validateField_ok.mp (areFields spec isSpec), distinct, allDone⟩, rfl⟩
    exact (applyIndexes_ending _ _ _ table ⟨[], [], []⟩).trans (congrArg Prod.fst onRows)
  registered before registration after isHistory returned spec isSpec := by
    have ended : registration.run (tableAfter before) = (.value (), tableAfter (before ++ [registration])) := by
      rw [tableAfter_concat]
      exact Prod.ext returned rfl
    obtain ⟨accepted, isColumn, isIndex⟩ :=
      applyIndexes_returned (tableAfter_generated before) ended spec isSpec
    have own : OwnColumn (tableAfter (before ++ [registration])) registration.bookSlug spec.field :=
      .of_mem (tableAfter_generated _) accepted isColumn isIndex
    have kept := own.kept after
    rwa [List.append_assoc, List.singleton_append, ← isHistory] at kept

end Bookrack.Refs
