/-
The identifier of one item as it is typed and listed (`core/src/typed_id.rs`): the kind of the item,
a colon, and its id or its name.

`fromStr_eq_ok` says what a text is accepted for, `fromStr_display` that an accepted value is read
back from its own display; `typed_id_round_trip` puts them together.
-/

import Bookrack.Base.Literal
import Bookrack.Catalog.Filter

namespace Bookrack.Catalog

open Queue (ItemKind)

/-! ### Texts -/

/-- `str::split_once`. -/
def splitOnce (separator : Char) (text : String) : Option (String × String) :=
  (Literal.splitFirst separator text.toList).map fun parts =>
    (String.ofList parts.1, String.ofList parts.2)

/-- An `i64` has this value. -/
def FitsI64 (n : Int) : Prop := -9223372036854775808 ≤ n ∧ n ≤ 9223372036854775807

instance (n : Int) : Decidable (FitsI64 n) := inferInstanceAs (Decidable (_ ∧ _))

/-- `str::parse::<i64>`. -/
def parseI64 (text : String) : Option Int64 :=
  (Literal.readSigned text.toList).bind fun n => if FitsI64 n then some (Int64.ofInt n) else none

/-- `ItemKind::ALL`. -/
def allKinds : List ItemKind := [.book, .paper, .reference]

/-- `ItemKind::from_scope_str`. -/
def fromScopeStr (s : String) : Option ItemKind := allKinds.find? fun kind => asScopeStr kind = s

/-! ### The identifier -/

/-- `TypedItemId`. -/
inductive TypedItemId
  | book (id : Int64)
  | paper (id : Int64)
  | reference (bookSlug : String) (entryKey : Option String)
  deriving DecidableEq

/-- `TypedIdParseError`, as far as the parser raises it. -/
inductive TypedIdParseError
  | bareId (id : String)
  | unknownKind (written : String)
  | pluralKind (written : String) (singular : ItemKind) (payload : String)
  | nonNumericId (kind : ItemKind) (payload : String)
  | badBookSlug (slug : String)
  | emptyPayload (kind : ItemKind) (input : String)
  deriving DecidableEq

/-- `unknown_kind`: a plural is told apart. -/
def unknownKind (written payload : String) : TypedIdParseError :=
  match written.toList.getLast? with
  | some 's' =>
    match fromScopeStr (String.ofList written.toList.dropLast) with
    | some singular => .pluralKind written singular payload
    | none => .unknownKind written
  | _ => .unknownKind written

/-- A character a slug has after its first. -/
def isSlugChar (c : Char) : Bool := c.isLower || c.isDigit || c == '_'

/-- `validate_slug`. -/
def validateSlug (slug : String) : Except TypedIdParseError Unit :=
  match slug.toList with
  | first :: rest =>
    if first.isLower && rest.all isSlugChar then .ok () else .error (.badBookSlug slug)
  | [] => .error (.badBookSlug slug)

/-- The slug of a reference payload, and what follows its first slash. -/
def slugAndKey (payload : String) : String × Option String :=
  match splitOnce '/' payload with
  | some (slug, key) => (slug, some key)
  | none => (payload, none)

namespace TypedItemId

/-- `TypedItemId::kind`. -/
def kind : TypedItemId → ItemKind
  | .book _ => .book
  | .paper _ => .paper
  | .reference _ _ => .reference

/-- `Display`. -/
def display (item : TypedItemId) : String :=
  let kind := asScopeStr item.kind
  match item with
  | .book id | .paper id => kind ++ ":" ++ toString id.toInt
  | .reference bookSlug none => kind ++ ":" ++ bookSlug
  | .reference bookSlug (some key) => kind ++ ":" ++ bookSlug ++ "/" ++ key

/-- `intake_id`. -/
def intakeId (kind : ItemKind) (payload : String) : Except TypedIdParseError Int64 :=
  match parseI64 payload with
  | some id => .ok id
  | none => .error (.nonNumericId kind payload)

/-- The payload of a known kind. -/
def ofPayload (kind : ItemKind) (payload : String) : Except TypedIdParseError TypedItemId :=
  match kind with
  | .book => (intakeId kind payload).map .book
  | .paper => (intakeId kind payload).map .paper
  | .reference =>
    let (bookSlug, entryKey) := slugAndKey payload
    (validateSlug bookSlug).map fun _ => .reference bookSlug entryKey

/-- `FromStr`. -/
def fromStr (s : String) : Except TypedIdParseError TypedItemId :=
  match splitOnce ':' s with
  | none => .error (if (parseI64 s).isSome then .bareId s else unknownKind s "")
  | some (written, payload) =>
    match fromScopeStr written with
    | none => .error (unknownKind written payload)
    | some kind => if payload = "" then .error (.emptyPayload kind s) else ofPayload kind payload

end TypedItemId

/-! ### The grammar -/

/-- A literal of an `i64`. -/
def I64Literal (text : String) : Prop := ∃ n, Literal.Denotes text.toList n ∧ FitsI64 n

/-- `[a-z][a-z0-9_]*`. -/
def Slug (text : String) : Prop :=
  ∃ first rest, text.toList = first :: rest ∧ first.isLower = true ∧
    ∀ c ∈ rest, c.isLower = true ∨ c.isDigit = true ∨ c = '_'

/-- What may stand after the kind of an item and the colon. -/
def Payload : ItemKind → String → Prop
  | .book, payload | .paper, payload => I64Literal payload
  | .reference, payload => ∃ slug, Slug slug ∧ (payload = slug ∨ ∃ key, payload = slug ++ "/" ++ key)

/-- A kind word, a colon, and a payload of that kind. -/
def Grammar (text : String) : Prop :=
  ∃ kind payload, Payload kind payload ∧ text = asScopeStr kind ++ ":" ++ payload

/-! ### The parts of an identifier -/

section Parts

variable {separator : Char} {text head tail payload slug : String} {kind : ItemKind}

/-- The text around a separator its head is free of. -/
theorem splitOnce_append (free : separator ∉ head.toList) :
    splitOnce separator (head ++ String.singleton separator ++ tail) = some (head, tail) := by
  simp [splitOnce, Literal.splitFirst_append free]

theorem splitOnce_eq_some (isSplit : splitOnce separator text = some (head, tail)) :
    text = head ++ String.singleton separator ++ tail ∧ separator ∉ head.toList := by
  obtain ⟨parts, isParts, isPair⟩ := Option.map_eq_some_iff.mp isSplit
  obtain ⟨rfl, rfl⟩ := Prod.mk.inj isPair
  obtain ⟨isText, free⟩ := Literal.splitFirst_eq_some.mp isParts
  refine ⟨?_, by simpa using free⟩
  ext1
  simp [isText]

theorem splitOnce_eq_none : splitOnce separator text = none ↔ separator ∉ text.toList := by
  rw [splitOnce, Option.map_eq_none_iff, Literal.splitFirst_eq_none]

theorem fromScopeStr_eq_some : fromScopeStr text = some kind ↔ asScopeStr kind = text := by
  constructor
  · intro isKind
    simpa using List.find?_some isKind
  · rintro rfl
    cases kind <;> rfl

/-- No kind word has a colon. -/
theorem colon_not_mem (kind : ItemKind) : ':' ∉ (asScopeStr kind).toList := by
  cases kind <;> decide

theorem isSlugChar_iff {c : Char} :
    isSlugChar c = true ↔ c.isLower = true ∨ c.isDigit = true ∨ c = '_' := by
  simp [isSlugChar, or_assoc]

theorem slug_iff : validateSlug slug = .ok () ↔ Slug slug := by
  unfold validateSlug Slug
  cases slug.toList with
  | nil => simp
  | cons first rest =>
    have isRest : rest.all isSlugChar = true ↔
        ∀ c ∈ rest, c.isLower = true ∨ c.isDigit = true ∨ c = '_' := by
      simp only [List.all_eq_true, isSlugChar_iff]
    simp [← isRest]

/-- A slug has no slash. -/
theorem Slug.slash_not_mem (isSlug : Slug slug) : '/' ∉ slug.toList := by
  obtain ⟨first, rest, isText, isLower, isRest⟩ := isSlug
  rw [isText, List.mem_cons, not_or]
  refine ⟨fun isSlash => ?_, fun member => ?_⟩
  · rw [← isSlash] at isLower
    cases isLower
  · have isChar := isRest '/' member
    revert isChar
    decide

theorem slugAndKey_slug (isSlug : Slug slug) : slugAndKey slug = (slug, none) := by
  rw [slugAndKey, splitOnce_eq_none.mpr isSlug.slash_not_mem]

theorem slugAndKey_append (isSlug : Slug slug) (key : String) :
    slugAndKey (slug ++ "/" ++ key) = (slug, some key) := by
  have isSplit : splitOnce '/' (slug ++ "/" ++ key) = some (slug, key) :=
    splitOnce_append isSlug.slash_not_mem
  rw [slugAndKey, isSplit]

/-- A payload is its slug, or its slug, a slash and a key. -/
theorem payload_eq (payload : String) : payload = (slugAndKey payload).1 ∨
    ∃ key, payload = (slugAndKey payload).1 ++ "/" ++ key := by
  unfold slugAndKey
  cases isSplit : splitOnce '/' payload with
  | none => exact .inl rfl
  | some parts => exact .inr ⟨parts.2, (splitOnce_eq_some isSplit).1⟩

end Parts

/-! ### What is accepted -/

theorem parseI64_isSome {text : String} : (∃ id, parseI64 text = some id) ↔ I64Literal text := by
  simp only [parseI64, I64Literal, Option.bind_eq_some_iff, Literal.readSigned_eq_some]
  constructor
  · rintro ⟨id, n, isNumber, isId⟩
    split_ifs at isId with fits
    exact ⟨n, isNumber, fits⟩
  · rintro ⟨n, isNumber, fits⟩
    exact ⟨_, n, isNumber, if_pos fits⟩

/-- **Every `i64` is read back from its digits**, the least one too. -/
theorem parseI64_toString (id : Int64) : parseI64 (toString id.toInt) = some id := by
  have fits : FitsI64 id.toInt := ⟨id.le_toInt, Int.le_of_lt_add_one id.toInt_lt⟩
  rw [parseI64, Literal.readSigned_toString, Option.bind_some, if_pos fits, Int64.ofInt_toInt]

section Accepted

variable {kind : ItemKind} {payload text : String} {item : TypedItemId}

/-- **What a text is accepted for**: its kind word decides, and its payload is read as that kind. -/
theorem fromStr_eq_ok : TypedItemId.fromStr text = .ok item ↔
    ∃ kind payload, text = asScopeStr kind ++ ":" ++ payload ∧
      TypedItemId.ofPayload kind payload = .ok item := by
  constructor
  · intro isRead
    unfold TypedItemId.fromStr at isRead
    split at isRead
    · cases isRead
    · rename_i written payload isSplit
      split at isRead
      · cases isRead
      · rename_i kind isKind
        split_ifs at isRead
        obtain rfl := fromScopeStr_eq_some.mp isKind
        exact ⟨kind, payload, (splitOnce_eq_some isSplit).1, isRead⟩
  · rintro ⟨kind, payload, rfl, isRead⟩
    have isSplit : splitOnce ':' (asScopeStr kind ++ ":" ++ payload) = some (asScopeStr kind, payload) :=
      splitOnce_append (colon_not_mem kind)
    have notEmpty : payload ≠ "" := by
      rintro rfl
      cases kind <;> cases isRead
    unfold TypedItemId.fromStr
    simp [isSplit, fromScopeStr_eq_some.mpr rfl, notEmpty, isRead]

theorem intakeId_eq_ok {id : Int64} :
    TypedItemId.intakeId kind payload = .ok id ↔ parseI64 payload = some id := by
  unfold TypedItemId.intakeId
  cases parseI64 payload <;> simp

theorem except_map_eq_ok {ε α β : Type} {f : α → β} {result : Except ε α} {image : β} :
    result.map f = .ok image ↔ ∃ value, result = .ok value ∧ f value = image := by
  cases result <;> simp [Except.map]

theorem ofPayload_reference : TypedItemId.ofPayload .reference payload = .ok item ↔
    Slug (slugAndKey payload).1 ∧
      TypedItemId.reference (slugAndKey payload).1 (slugAndKey payload).2 = item := by
  rw [← slug_iff]
  show (validateSlug (slugAndKey payload).1).map
    (fun _ => TypedItemId.reference (slugAndKey payload).1 (slugAndKey payload).2) = .ok item ↔ _
  rw [except_map_eq_ok]
  constructor
  · rintro ⟨value, isValid, isItem⟩
    exact ⟨isValid, isItem⟩
  · intro both
    exact ⟨(), both⟩

/-- A payload is accepted exactly when its kind allows it. -/
theorem ofPayload_isOk :
    (∃ item, TypedItemId.ofPayload kind payload = .ok item) ↔ Payload kind payload := by
  cases kind with
  | book => simp [TypedItemId.ofPayload, Payload, except_map_eq_ok, intakeId_eq_ok, ← parseI64_isSome]
  | paper => simp [TypedItemId.ofPayload, Payload, except_map_eq_ok, intakeId_eq_ok, ← parseI64_isSome]
  | reference =>
    simp only [ofPayload_reference]
    constructor
    · rintro ⟨item, isSlug, -⟩
      exact ⟨_, isSlug, payload_eq payload⟩
    · rintro ⟨slug, isSlug, isSame | ⟨key, isPair⟩⟩
      · rw [isSame, slugAndKey_slug isSlug]
        exact ⟨_, isSlug, rfl⟩
      · rw [isPair, slugAndKey_append isSlug key]
        exact ⟨_, isSlug, rfl⟩

/-- **The display of what a payload was read as is read as it again.** -/
theorem fromStr_display (isRead : TypedItemId.ofPayload kind payload = .ok item) :
    TypedItemId.fromStr item.display = .ok item := by
  rw [fromStr_eq_ok]
  cases kind with
  | book =>
    obtain ⟨id, -, rfl⟩ := except_map_eq_ok.mp isRead
    exact ⟨.book, _, rfl, except_map_eq_ok.mpr ⟨id, intakeId_eq_ok.mpr (parseI64_toString id), rfl⟩⟩
  | paper =>
    obtain ⟨id, -, rfl⟩ := except_map_eq_ok.mp isRead
    exact ⟨.paper, _, rfl, except_map_eq_ok.mpr ⟨id, intakeId_eq_ok.mpr (parseI64_toString id), rfl⟩⟩
  | reference =>
    obtain ⟨isSlug, rfl⟩ := ofPayload_reference.mp isRead
    cases (slugAndKey payload).2 with
    | none =>
      refine ⟨.reference, _, rfl, ?_⟩
      rw [ofPayload_reference, slugAndKey_slug isSlug]
      exact ⟨isSlug, rfl⟩
    | some key =>
      refine ⟨.reference, (slugAndKey payload).1 ++ "/" ++ key, ?_, ?_⟩
      · simp [TypedItemId.display, TypedItemId.kind, String.append_assoc]
      · rw [ofPayload_reference, slugAndKey_append isSlug key]
        exact ⟨isSlug, rfl⟩

end Accepted

/-- **Typed ids round-trip over the grammar**: the parser accepts its texts and no others, and what
it makes of one is read back from its display, which therefore names nothing else. -/
theorem typed_id_round_trip (text : String) :
    ((∃ item, TypedItemId.fromStr text = .ok item) ↔ Grammar text) ∧
      ∀ item, TypedItemId.fromStr text = .ok item →
        TypedItemId.fromStr item.display = .ok item ∧
          ∀ text' other, TypedItemId.fromStr text' = .ok other → item.display = other.display →
            item = other := by
  have readBack : ∀ {text item}, TypedItemId.fromStr text = .ok item →
      TypedItemId.fromStr item.display = .ok item := by
    intro text item isRead
    obtain ⟨kind, payload, -, isPayload⟩ := fromStr_eq_ok.mp isRead
    exact fromStr_display isPayload
  refine ⟨?_, fun item isRead => ⟨readBack isRead, fun text' other isOther same => ?_⟩⟩
  · simp only [fromStr_eq_ok, Grammar, ← ofPayload_isOk]
    constructor
    · rintro ⟨item, kind, payload, isText, isRead⟩
      exact ⟨kind, payload, ⟨item, isRead⟩, isText⟩
    · rintro ⟨kind, payload, ⟨item, isRead⟩, isText⟩
      exact ⟨item, kind, payload, isText, isRead⟩
  · have both := (same ▸ readBack isRead).symm.trans (readBack isOther)
    exact Except.ok.inj both

/-- A key may be empty, and may hold both separators. -/
example : TypedItemId.fromStr "reference:name_alpha/a:b/" =
    .ok (.reference "name_alpha" (some "a:b/")) := by decide

end Bookrack.Catalog
