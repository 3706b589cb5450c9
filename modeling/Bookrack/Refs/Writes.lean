/-
Writes to the reference store: `Refs::register_book`, `upsert_book`, `upsert_entry` and `upsert_overlay`
(`refs/src/lib.rs`, `refs/src/indexes.rs`).

The columns and indexes a registration adds are not part of the tables here.

* **`registerBook_returned`** — a registration goes through exactly for a slug, fields and a list of fields
  of the right shape.
-/

import Bookrack.Base.Prog
import Bookrack.Base.Rows
import Bookrack.Refs.Store
import Mathlib.Data.List.Basic

namespace Bookrack.Refs

/-! ### Errors -/

/-- What an identifier is refused for. -/
inductive IdentFault
  | emptySlug
  | slugStart (slug : String)
  | slugChars (slug : String)
  | emptyField
  | fieldSegments (field : String)
  deriving DecidableEq, Repr

/-- `RefsError`, as far as the writes raise it. -/
inductive RefsError
  | sqlite
  | invalidIdentifier (fault : IdentFault)
  | emptyEntryKey (bookSlug headword : String)
  | duplicateIndex (field : String)
  deriving DecidableEq, Repr

/-! ### Registering the indexes of a book -/

/-- `IndexKind`. -/
inductive IndexKind
  | btree
  deriving DecidableEq, Repr

/-- `IndexSpec`. -/
structure IndexSpec where
  field : String
  kind : IndexKind
  deriving DecidableEq, Repr

/-- `validate_slug`, on the characters of a slug. -/
def slugFault : List Char → Option (String → IdentFault)
  | [] => some fun _ => .emptySlug
  | first :: rest =>
    if !first.isLower then some .slugStart
    else if rest.all fun c => c.isLower || c.isDigit || c == '_' then none
    else some .slugChars

/-- `validate_slug`. -/
def validateSlug (slug : String) : Except RefsError Unit :=
  match slugFault slug.toList with
  | none => .ok ()
  | some fault => .error (.invalidIdentifier (fault slug))

/-- `validate_field`. -/
def validateField (field : String) : Except RefsError Unit :=
  if field = "" then .error (.invalidIdentifier .emptyField)
  else if (field.toList.splitOn '.').all fun segment => (slugFault segment).isNone then .ok ()
  else .error (.invalidIdentifier (.fieldSegments field))

/-- What happens to the statements of a registration, by the position of the index. -/
structure IndexFates where
  column : Nat → Fate
  index : Nat → Fate

/-- The body of the loop of `apply`; the fields seen are carried. -/
def applySpec (fates : IndexFates) (position : Nat) (spec : IndexSpec) (seen : List String) :
    Prog Store RefsError (List String) := do
  Prog.ofExcept (validateField spec.field)
  if spec.field ∈ seen then Prog.throw (.duplicateIndex spec.field)
  else do
    Prog.write (fates.column position) .sqlite id
    Prog.write (fates.index position) .sqlite id
    pure (seen ++ [spec.field])

/-- `Refs::register_book`, by way of `indexes::apply`. -/
def registerBook (fates : IndexFates) (bookSlug : String) (specs : List IndexSpec) :
    Prog Store RefsError Unit := do
  Prog.ofExcept (validateSlug bookSlug)
  let _ ← Prog.loop specs [] (applySpec fates)
  pure ()

/-! ### Upserts -/

/-- The primary key of the entries. -/
def EntryRow.key (entry : EntryRow) : String × String := (entry.bookSlug, entry.entryKey)

/-- The primary key of the overlays. -/
def OverlayRow.key (overlay : OverlayRow) : String × String := (overlay.bookSlug, overlay.entryKey)

/-- `Refs::upsert_book`. -/
def upsertBook (fate : Fate) (book : BookRow) : Prog Store RefsError Unit :=
  Prog.write fate .sqlite fun store => { store with books := Rows.upsert BookRow.bookSlug book store.books }

/-- `Refs::upsert_entry`. -/
def upsertEntry (fate : Fate) (entry : EntryRow) : Prog Store RefsError Unit :=
  if entry.entryKey = "" then Prog.throw (.emptyEntryKey entry.bookSlug entry.headword)
  else Prog.write fate .sqlite fun store =>
    { store with entries := Rows.upsert EntryRow.key entry store.entries }

/-- `Refs::upsert_overlay`. -/
def upsertOverlay (fate : Fate) (overlay : OverlayRow) : Prog Store RefsError Unit :=
  Prog.write fate .sqlite fun store =>
    { store with overlays := Rows.upsert OverlayRow.key overlay store.overlays }

/-! ### Which registrations go through -/

/-- `[a-z][a-z0-9_]*`. -/
def SlugShape (chars : List Char) : Prop := slugFault chars = none

/-- A dotted path of such segments. -/
def FieldShape (field : String) : Prop :=
  field ≠ "" ∧ ∀ segment ∈ field.toList.splitOn '.', SlugShape segment

theorem slugShape_iff {chars : List Char} : SlugShape chars ↔
    ∃ first rest, chars = first :: rest ∧ first.isLower = true ∧
      ∀ c ∈ rest, c.isLower = true ∨ c.isDigit = true ∨ c = '_' := by
  unfold SlugShape slugFault
  cases chars with
  | nil => simp
  | cons first rest =>
    have chars : (rest.all fun c => c.isLower || c.isDigit || c == '_') = true ↔
        ∀ c ∈ rest, c.isLower = true ∨ c.isDigit = true ∨ c = '_' := by
      simp [List.all_eq_true, or_assoc]
    by_cases isLower : first.isLower = true
    · by_cases areChars : (rest.all fun c => c.isLower || c.isDigit || c == '_') = true
      · simp only [isLower, areChars, Bool.not_true, Bool.false_eq_true, if_false, if_true, true_iff]
        exact ⟨first, rest, rfl, isLower, chars.mp areChars⟩
      · simp only [isLower, areChars, Bool.not_true, Bool.false_eq_true, if_false, reduceCtorEq, false_iff]
        rintro ⟨_, _, same, -, areChars'⟩
        obtain ⟨rfl, rfl⟩ := List.cons.inj same
        exact areChars (chars.mpr areChars')
    · simp [isLower]

theorem validateSlug_ok {slug : String} : validateSlug slug = .ok () ↔ SlugShape slug.toList := by
  unfold validateSlug SlugShape
  cases slugFault slug.toList <;> simp

theorem validateField_ok {field : String} : validateField field = .ok () ↔ FieldShape field := by
  unfold validateField FieldShape SlugShape
  by_cases isEmpty : field = ""
  · simp [isEmpty]
  · simp [isEmpty, List.all_eq_true]

section Registered

variable {fates : IndexFates} {bookSlug : String} {specs : List IndexSpec} {store after : Store}

theorem applySpec_returned {position : Nat} {spec : IndexSpec} {seen seen' : List String} :
    applySpec fates position spec seen store = (.value seen', after) ↔
      (FieldShape spec.field ∧ spec.field ∉ seen ∧ fates.column position = .done ∧
        fates.index position = .done) ∧
      seen' = seen ++ [spec.field] ∧ after = store := by
  unfold applySpec
  rw [Prog.bind_returned]
  constructor
  · rintro ⟨_, midway, checked, rest⟩
    obtain ⟨isField, rfl⟩ := Prog.ofExcept_returned.mp checked
    by_cases isSeen : spec.field ∈ seen
    · rw [if_pos isSeen] at rest
      cases rest
    · rw [if_neg isSeen, Prog.bind_returned] at rest
      obtain ⟨_, _, column, rest⟩ := rest
      obtain ⟨columnDone, rfl⟩ := Prog.write_returned.mp column
      obtain ⟨_, _, index, last⟩ := Prog.bind_returned.mp rest
      obtain ⟨indexDone, rfl⟩ := Prog.write_returned.mp index
      obtain ⟨rfl, rfl⟩ := Prog.pure_returned.mp last
      exact ⟨⟨validateField_ok.mp isField, isSeen, columnDone, indexDone⟩, rfl, rfl⟩
  · rintro ⟨⟨isField, notSeen, columnDone, indexDone⟩, rfl, rfl⟩
    refine ⟨(), after, Prog.ofExcept_returned.mpr ⟨validateField_ok.mpr isField, rfl⟩, ?_⟩
    rw [if_neg notSeen, Prog.bind_returned]
    refine ⟨(), after, Prog.write_returned.mpr ⟨columnDone, rfl⟩, ?_⟩
    exact Prog.bind_returned.mpr ⟨(), after, Prog.write_returned.mpr ⟨indexDone, rfl⟩, rfl⟩

theorem applySpecs_returned {start : Nat} {seen seen' : List String} :
    Prog.loopFrom (applySpec fates) start seen specs store = (.value seen', after) ↔
      ((∀ spec ∈ specs, FieldShape spec.field) ∧ (∀ spec ∈ specs, spec.field ∉ seen) ∧
        (specs.map IndexSpec.field).Nodup ∧
        ∀ idx < specs.length, fates.column (start + idx) = .done ∧ fates.index (start + idx) = .done) ∧
      seen' = seen ++ specs.map IndexSpec.field ∧ after = store := by
  induction specs generalizing start seen store with
  | nil => simp [Prog.loopFrom, Prog.pure_returned]
  | cons spec rest ih =>
    rw [Prog.loopFrom, Prog.bind_returned]
    constructor
    · rintro ⟨seen'', midway, turn, turns⟩
      obtain ⟨⟨isField, notSeen, done⟩, rfl, rfl⟩ := applySpec_returned.mp turn
      obtain ⟨⟨areFields, notSeen', distinct, allDone⟩, rfl, rfl⟩ := ih.mp turns
      have apart : ∀ other ∈ rest, other.field ∉ seen ∧ other.field ≠ spec.field := fun other member => by
        simpa [not_or] using notSeen' other member
      refine ⟨⟨?_, ?_, ?_, ?_⟩, by simp, rfl⟩
      · exact List.forall_mem_cons.mpr ⟨isField, areFields⟩
      · exact List.forall_mem_cons.mpr ⟨notSeen, fun other member => (apart other member).1⟩
      · rw [List.map_cons, List.nodup_cons]
        refine ⟨?_, distinct⟩
        intro twice
        obtain ⟨other, member, same⟩ := List.mem_map.mp twice
        exact (apart other member).2 same
      · intro idx inside
        cases idx with
        | zero => exact done
        | succ idx =>
          rw [show start + (idx + 1) = start + 1 + idx by omega]
          exact allDone idx (Nat.lt_of_succ_lt_succ inside)
    · rintro ⟨⟨areFields, notSeen, distinct, allDone⟩, rfl, rfl⟩
      obtain ⟨isField, areFields⟩ := List.forall_mem_cons.mp areFields
      obtain ⟨fresh, notSeen⟩ := List.forall_mem_cons.mp notSeen
      rw [List.map_cons, List.nodup_cons] at distinct
      refine ⟨_, after, applySpec_returned.mpr ⟨⟨isField, fresh, allDone 0 (Nat.zero_lt_succ _)⟩, rfl, rfl⟩, ?_⟩
      refine ih.mpr ⟨⟨areFields, ?_, distinct.2, ?_⟩, by simp, rfl⟩
      · intro other member
        rw [List.mem_append, List.mem_singleton, not_or]
        exact ⟨notSeen other member, fun same => distinct.1 (List.mem_map.mpr ⟨other, member, same⟩)⟩
      · intro idx inside
        have done := allDone (idx + 1) (Nat.succ_lt_succ inside)
        rwa [show start + (idx + 1) = start + 1 + idx by omega] at done

/-- Which entries are accepted, and what is written. -/
theorem upsertEntry_returned {fate : Fate} {entry : EntryRow} :
    upsertEntry fate entry store = (.value (), after) ↔ (entry.entryKey ≠ "" ∧ fate = .done) ∧
      after = { store with entries := Rows.upsert EntryRow.key entry store.entries } := by
  unfold upsertEntry
  by_cases isEmpty : entry.entryKey = ""
  · simp [isEmpty, Prog.throw]
  · rw [if_neg isEmpty, Prog.write_returned]
    simp [isEmpty]

/-- **Which registrations go through**, and that they leave the rows alone. -/
theorem registerBook_returned : registerBook fates bookSlug specs store = (.value (), after) ↔
    (SlugShape bookSlug.toList ∧ (∀ spec ∈ specs, FieldShape spec.field) ∧ (specs.map IndexSpec.field).Nodup ∧
      ∀ idx < specs.length, fates.column idx = .done ∧ fates.index idx = .done) ∧ after = store := by
  unfold registerBook Prog.loop
  rw [Prog.bind_returned]
  constructor
  · rintro ⟨_, midway, checked, rest⟩
    obtain ⟨isSlug, rfl⟩ := Prog.ofExcept_returned.mp checked
    obtain ⟨seen, _, turns, done⟩ := Prog.bind_returned.mp rest
    obtain ⟨⟨areFields, -, distinct, allDone⟩, -, rfl⟩ := applySpecs_returned.mp turns
    obtain ⟨-, rfl⟩ := Prog.pure_returned.mp done
    refine ⟨⟨validateSlug_ok.mp isSlug, areFields, distinct, fun idx inside => ?_⟩, rfl⟩
    have done := allDone idx inside
    rwa [Nat.zero_add] at done
  · rintro ⟨⟨isSlug, areFields, distinct, allDone⟩, rfl⟩
    refine ⟨(), after, Prog.ofExcept_returned.mpr ⟨validateSlug_ok.mpr isSlug, rfl⟩, ?_⟩
    rw [Prog.bind_returned]
    refine ⟨_, after, applySpecs_returned.mpr ⟨⟨areFields, fun _ _ => List.not_mem_nil, distinct, ?_⟩, rfl,
      rfl⟩, rfl⟩
    intro idx inside
    rw [Nat.zero_add]
    exact allDone idx inside

end Registered

end Bookrack.Refs
