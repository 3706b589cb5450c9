/-
Tables whose rows are only ever appended or changed in place.

`Evolves move fresh before after` says that `after` is `before` with every row moved by some number
of `move` steps, followed by rows that started out `fresh`. It is reflexive and transitive, so one
lemma per operation carries over to whole runs; two rules read facts off it: `Evolves.all` (a row
predicate every move keeps) and `Evolves.column_kept` (a column no move changes is append-only).

The second part is the lookup by key on a table with distinct keys, and what an in-place update
does to it. The third is the upsert by key (`lookup_upsertAll`: the last row under a key stays), the
fourth a table computed row by row, any of which may fail.
-/

import Mathlib.Data.List.Forall2
import Mathlib.Data.List.Nodup
import Mathlib.Logic.Relation

namespace Rows

open Relation (ReflTransGen)

variable {α β : Type}

/-! ### Append-only tables -/

section Evolution

variable {move : α → α → Prop} {fresh : α → Prop}

/-- Rows moved in place, then rows that were appended and moved since. -/
def Evolves (move : α → α → Prop) (fresh : α → Prop) (before after : List α) : Prop :=
  ∃ moved added, after = moved ++ added ∧ List.Forall₂ (ReflTransGen move) before moved ∧
    ∀ row ∈ added, ∃ seed, fresh seed ∧ ReflTransGen move seed row

theorem forall₂_refl (rows : List α) : List.Forall₂ (ReflTransGen move) rows rows :=
  List.forall₂_same.mpr fun _ _ => .refl

theorem forall₂_trans : ∀ {first second third : List α},
    List.Forall₂ (ReflTransGen move) first second →
      List.Forall₂ (ReflTransGen move) second third → List.Forall₂ (ReflTransGen move) first third
  | [], _, _, .nil, .nil => .nil
  | _ :: _, _, _, .cons head tail, .cons head' tail' =>
      .cons (head.trans head') (forall₂_trans tail tail')

theorem Evolves.refl (rows : List α) : Evolves move fresh rows rows :=
  ⟨rows, [], (List.append_nil rows).symm, forall₂_refl rows, fun _ member => by cases member⟩

/-- **Evolution composes**: the rows the first stretch appended are moved by the second one. -/
theorem Evolves.trans {first second third : List α} (early : Evolves move fresh first second)
    (late : Evolves move fresh second third) : Evolves move fresh first third := by
  obtain ⟨moved, added, rfl, rows, seeds⟩ := early
  obtain ⟨moved', added', rfl, rows', seeds'⟩ := late
  have keptRows := (List.forall₂_take_append _ _ _ rows'.flip).flip
  have grownRows := (List.forall₂_drop_append _ _ _ rows'.flip).flip
  obtain ⟨kept, grown, rfl, keptEq, grownEq⟩ : ∃ kept grown, moved' = kept ++ grown ∧
      kept = moved'.take moved.length ∧ grown = moved'.drop moved.length :=
    ⟨_, _, (List.take_append_drop moved.length moved').symm, rfl, rfl⟩
  rw [← keptEq] at keptRows
  rw [← grownEq] at grownRows
  refine ⟨kept, grown ++ added', by rw [List.append_assoc], forall₂_trans rows keptRows, ?_⟩
  intro row member
  rcases List.mem_append.mp member with member | member
  · obtain ⟨position, inside, rfl⟩ := List.mem_iff_getElem.mp member
    have length := grownRows.length_eq
    obtain ⟨seed, seedFresh, seedMoves⟩ :=
      seeds _ (List.getElem_mem (l := added) (n := position) (by omega))
    exact ⟨seed, seedFresh, seedMoves.trans (grownRows.get (by omega) inside)⟩
  · exact seeds' row member

/-- An in-place update of one row, every other row related to itself. -/
theorem forall₂_modify {R : α → α → Prop} (same : ∀ row, R row row) (rows : List α) (index : Nat)
    (update : α → α) (legal : ∀ row, rows[index]? = some row → R row (update row)) :
    List.Forall₂ R rows (rows.modify index update) := by
  rw [List.forall₂_iff_get]
  refine ⟨(List.length_modify ..).symm, fun position inside _ => ?_⟩
  simp only [List.get_eq_getElem, List.getElem_modify]
  split
  · rename_i here
    subst here
    exact legal _ (List.getElem?_eq_getElem inside)
  · exact same _

theorem evolves_modify (rows : List α) (index : Nat) (update : α → α)
    (legal : ∀ row, rows[index]? = some row → ReflTransGen move row (update row)) :
    Evolves move fresh rows (rows.modify index update) :=
  ⟨_, [], (List.append_nil _).symm, forall₂_modify (fun _ => .refl) rows index update legal,
    fun _ member => by cases member⟩

/-- An in-place update of every row. -/
theorem evolves_map (rows : List α) (update : α → α)
    (legal : ∀ row ∈ rows, ReflTransGen move row (update row)) :
    Evolves move fresh rows (rows.map update) := by
  refine ⟨_, [], (List.append_nil _).symm, ?_, fun _ member => by cases member⟩
  rw [List.forall₂_map_right_iff]
  exact List.forall₂_same.mpr legal

/-- Appending fresh rows. -/
theorem evolves_append (rows added : List α) (started : ∀ row ∈ added, fresh row) :
    Evolves move fresh rows (rows ++ added) :=
  ⟨rows, added, rfl, forall₂_refl rows, fun row member => ⟨row, started row member, .refl⟩⟩

/-- **A row predicate that starts true and that every move keeps holds of every row.** -/
theorem Evolves.all {P : α → Prop} {before after : List α} (evolves : Evolves move fresh before after)
    (started : ∀ row, fresh row → P row) (kept : ∀ row next, P row → move row next → P next)
    (initial : ∀ row ∈ before, P row) : ∀ row ∈ after, P row := by
  have along : ∀ {row next}, ReflTransGen move row next → P row → P next := by
    intro row next moves holds
    induction moves with
    | refl => exact holds
    | tail _ last ih => exact kept _ _ ih last
  obtain ⟨moved, added, rfl, rows, seeds⟩ := evolves
  intro row member
  rcases List.mem_append.mp member with member | member
  · obtain ⟨position, inside, rfl⟩ := List.mem_iff_getElem.mp member
    have length := rows.length_eq
    exact along (rows.get (by omega) inside) (initial _ (List.getElem_mem (by omega)))
  · obtain ⟨seed, seedFresh, seedMoves⟩ := seeds row member
    exact along seedMoves (started seed seedFresh)

/-- A column the rows agree on. -/
theorem map_forall₂ {R : α → α → Prop} {column : α → β}
    (kept : ∀ row next, R row next → column next = column row) {before after : List α}
    (rows : List.Forall₂ R before after) : after.map column = before.map column := by
  induction rows with
  | nil => rfl
  | cons head _ ih => rw [List.map_cons, List.map_cons, kept _ _ head, ih]

/-- **A column no move changes is append-only**: no entry leaves it, moves or changes. -/
theorem Evolves.column_kept {column : α → β} {before after : List α}
    (evolves : Evolves move fresh before after)
    (kept : ∀ row next, move row next → column next = column row) :
    before.map column <+: after.map column := by
  have along : ∀ {row next}, ReflTransGen move row next → column next = column row := by
    intro row next moves
    induction moves with
    | refl => rfl
    | tail _ last ih => rw [kept _ _ last, ih]
  obtain ⟨moved, added, rfl, rows, _⟩ := evolves
  have same : moved.map column = before.map column :=
    map_forall₂ (fun _ _ moves => along moves) rows
  rw [List.map_append, same]
  exact List.prefix_append _ _

end Evolution

/-! ### Lookup by key -/

section Lookup

variable {κ : Type} [DecidableEq κ] (key : α → κ)

/-- The first row with the given key. -/
def lookup (wanted : κ) (rows : List α) : Option α :=
  rows.find? fun row => decide (key row = wanted)

variable {key}

theorem lookup_key {wanted : κ} {rows : List α} {row : α}
    (found : lookup key wanted rows = some row) : row ∈ rows ∧ key row = wanted :=
  ⟨List.mem_of_find?_eq_some found, by simpa using List.find?_some found⟩

/-- With distinct keys the lookup finds exactly the row with that key. -/
theorem lookup_eq_some {wanted : κ} {rows : List α} (distinct : (rows.map key).Nodup) {row : α} :
    lookup key wanted rows = some row ↔ row ∈ rows ∧ key row = wanted := by
  refine ⟨lookup_key, fun ⟨member, same⟩ => ?_⟩
  cases found : lookup key wanted rows with
  | none => exact absurd same (by simpa using List.find?_eq_none.mp found row member)
  | some other =>
    obtain ⟨otherMember, otherSame⟩ := lookup_key found
    rw [List.inj_on_of_nodup_map distinct otherMember member (otherSame.trans same.symm)]

/-- A key none of the rows has is not found. -/
theorem lookup_absent {wanted : κ} {rows : List α} (absent : wanted ∉ rows.map key) :
    lookup key wanted rows = none := by
  unfold lookup
  rw [List.find?_eq_none]
  intro row member isWanted
  exact absent (List.mem_map.mpr ⟨row, member, by simpa using isWanted⟩)

/-- **A fold of steps that each write under one key**, no key twice. -/
theorem foldl_lookup {σ : Type} (read : κ → σ → β) {step : σ → α → σ} {value : α → β}
    (writes : ∀ state row wanted,
      read wanted (step state row) = if wanted = key row then value row else read wanted state)
    {rows : List α} (distinct : (rows.map key).Nodup) (state : σ) (wanted : κ) :
    read wanted (rows.foldl step state) =
      ((lookup key wanted rows).map value).getD (read wanted state) := by
  induction rows generalizing state with
  | nil => rfl
  | cons row rest ih =>
    rw [List.map_cons, List.nodup_cons] at distinct
    rw [List.foldl_cons, ih distinct.2, writes]
    by_cases isHere : wanted = key row
    · subst isHere
      rw [lookup_absent distinct.1, if_pos rfl, lookup, List.find?_cons_of_pos (by simp)]
      rfl
    · rw [if_neg isHere, lookup, lookup, List.find?_cons_of_neg (by simpa using Ne.symm isHere)]

/-- Rows of distinct keys that tabulate a partial function. -/
theorem lookup_tabulated {rows : List (κ × β)} (distinct : (rows.map Prod.fst).Nodup)
    (f : κ → Option β) (tabulates : ∀ {wanted row}, (wanted, row) ∈ rows ↔ f wanted = some row)
    (wanted : κ) : (lookup Prod.fst wanted rows).map Prod.snd = f wanted := by
  ext row
  rw [Option.map_eq_some_iff]
  constructor
  · rintro ⟨⟨name, row⟩, found, rfl⟩
    obtain ⟨member, rfl⟩ := (lookup_eq_some distinct).mp found
    exact tabulates.mp member
  · intro isRow
    exact ⟨(wanted, row), (lookup_eq_some distinct).mpr ⟨tabulates.mpr isRow, rfl⟩, rfl⟩

/-- With distinct keys a row is first found at its own index. -/
theorem findIdx?_key {rows : List α} (distinct : (rows.map key).Nodup) {index : Nat} {row : α}
    (present : rows[index]? = some row) :
    rows.findIdx? (fun other => decide (key other = key row)) = some index := by
  obtain ⟨inside, rfl⟩ := List.getElem?_eq_some_iff.mp present
  rw [List.findIdx?_eq_some_iff_getElem]
  refine ⟨inside, decide_eq_true rfl, fun earlier before same => ?_⟩
  have earlierInside : earlier < rows.length := Nat.lt_trans before inside
  have sameKey : (rows.map key)[earlier]? = (rows.map key)[index]? := by
    rw [List.getElem?_map, List.getElem?_map, present, List.getElem?_eq_getElem earlierInside,
      Option.map_some, Option.map_some, of_decide_eq_true same]
  have inKeys : earlier < (rows.map key).length := by rwa [List.length_map]
  exact Nat.ne_of_lt before ((List.getElem?_inj inKeys distinct).mp sameKey)

/-- An updated row is found under its key. -/
theorem lookup_modified {rows : List α} (distinct : (rows.map key).Nodup) {index : Nat} {row : α}
    (present : rows[index]? = some row) {update : α → α} (kept : key (update row) = key row) :
    lookup key (key row) (rows.modify index update) = some (update row) := by
  have keys : (rows.modify index update).map key = rows.map key := by
    refine map_forall₂ (fun _ _ same => same) ?_
    apply forall₂_modify
    · exact fun _ => rfl
    · intro other here
      obtain rfl : row = other := Option.some.inj (present.symm.trans here)
      exact kept
  have updated : update row ∈ rows.modify index update := by
    have here : (rows.modify index update)[index]? = some (update row) := by
      rw [List.getElem?_modify_eq, present]
      rfl
    exact List.mem_of_getElem? here
  rw [← keys] at distinct
  exact (lookup_eq_some distinct).mpr ⟨updated, kept⟩

/-- **The lookup follows a row through an update that keeps the keys**, whatever is appended. -/
theorem lookup_forall₂ {R : α → α → Prop} (kept : ∀ row next, R row next → key next = key row)
    {before moved : List α} (rows : List.Forall₂ R before moved) (added : List α) {wanted : κ}
    {row : α} (found : lookup key wanted before = some row) :
    ∃ next, lookup key wanted (moved ++ added) = some next ∧ R row next := by
  induction rows with
  | nil => cases found
  | @cons head next tail rest related _ ih =>
    unfold lookup at found ih ⊢
    rw [List.cons_append, List.find?_cons, kept _ _ related]
    rw [List.find?_cons] at found
    by_cases here : key head = wanted
    · simp only [here, decide_true, Option.some.injEq] at found ⊢
      subst found
      exact ⟨next, rfl, related⟩
    · simp only [here, decide_false] at found ⊢
      exact ih found

end Lookup

/-! ### Upserts -/

section Upsert

variable {κ : Type} [DecidableEq κ] (key : α → κ)

/-- `INSERT … ON CONFLICT DO UPDATE`: the row under the key is replaced where it stands. -/
def upsert (row : α) : List α → List α
  | [] => [row]
  | other :: rest => if key other = key row then row :: rest else other :: upsert row rest

/-- Upserts in turn. -/
def upsertAll (added rows : List α) : List α := added.foldl (fun table row => upsert key row table) rows

variable {key} {row other : α} {rows : List α}

theorem upsert_here (here : key other = key row) : upsert key row (other :: rows) = row :: rows := if_pos here

theorem upsert_past (past : key other ≠ key row) :
    upsert key row (other :: rows) = other :: upsert key row rows := if_neg past

theorem lookup_first {wanted : κ} :
    lookup key wanted (row :: rows) = if wanted = key row then some row else lookup key wanted rows := by
  by_cases same : wanted = key row
  · rw [if_pos same, lookup, List.find?_cons_of_pos (by simpa using same.symm)]
  · rw [if_neg same, lookup, List.find?_cons_of_neg (by simpa using Ne.symm same)]
    rfl

theorem mem_keys_upsert {wanted : κ} :
    wanted ∈ (upsert key row rows).map key ↔ wanted = key row ∨ wanted ∈ rows.map key := by
  induction rows with
  | nil => simp [upsert]
  | cons other rest ih =>
    unfold upsert
    split_ifs with here
    · rw [List.map_cons, List.map_cons, List.mem_cons, List.mem_cons, here]
      exact or_self_left.symm
    · rw [List.map_cons, List.map_cons, List.mem_cons, List.mem_cons, ih]
      exact or_left_comm

/-- An upsert keeps the keys distinct. -/
theorem nodup_upsert (distinct : (rows.map key).Nodup) : ((upsert key row rows).map key).Nodup := by
  induction rows with
  | nil => exact List.nodup_singleton _
  | cons other rest ih =>
    rw [List.map_cons, List.nodup_cons] at distinct
    unfold upsert
    split_ifs with here
    · rw [List.map_cons, List.nodup_cons, ← here]
      exact distinct
    · rw [List.map_cons, List.nodup_cons, mem_keys_upsert, not_or]
      exact ⟨⟨here, distinct.1⟩, ih distinct.2⟩

theorem lookup_upsert {wanted : κ} :
    lookup key wanted (upsert key row rows) = if wanted = key row then some row else lookup key wanted rows := by
  induction rows with
  | nil => exact lookup_first
  | cons other rest ih =>
    by_cases here : key other = key row
    · rw [upsert_here here, lookup_first, lookup_first, here]
      by_cases same : wanted = key row
      · rw [if_pos same, if_pos same]
      · rw [if_neg same, if_neg same, if_neg same]
    · rw [upsert_past here, lookup_first, lookup_first, ih]
      by_cases there : wanted = key other
      · rw [if_pos there, if_pos there, if_neg fun same => here (there.symm.trans same)]
      · rw [if_neg there, if_neg there]

/-- An upsert into the rows of one kind, where the kind is told by the key. -/
theorem filter_upsert {kind : α → Bool} (told : ∀ {one other}, key one = key other → kind one = kind other) :
    (upsert key row rows).filter kind =
      if kind row = true then upsert key row (rows.filter kind) else rows.filter kind := by
  induction rows with
  | nil =>
    show [row].filter kind = _
    rw [List.filter_cons]
    rfl
  | cons other rest ih =>
    by_cases here : key other = key row
    · rw [upsert_here here, List.filter_cons, List.filter_cons, told here]
      by_cases isKind : kind row = true
      · rw [if_pos isKind, if_pos isKind, if_pos isKind, upsert_here here]
      · rw [if_neg isKind, if_neg isKind, if_neg isKind]
    · rw [upsert_past here, List.filter_cons, List.filter_cons, ih]
      by_cases isKind : kind row = true
      · rw [if_pos isKind, if_pos isKind]
        by_cases isOther : kind other = true
        · rw [if_pos isOther, if_pos isOther, upsert_past here]
        · rw [if_neg isOther, if_neg isOther]
      · rw [if_neg isKind, if_neg isKind]

/-- **Of the rows upserted under one key the last one stays.** -/
theorem lookup_upsertAll {wanted : κ} (added : List α) :
    lookup key wanted (upsertAll key added rows) =
      (lookup key wanted added.reverse).or (lookup key wanted rows) := by
  induction added generalizing rows with
  | nil => rfl
  | cons row rest ih =>
    show lookup key wanted (upsertAll key rest (upsert key row rows)) = _
    have last : lookup key wanted (rest.reverse ++ [row]) =
        (lookup key wanted rest.reverse).or (lookup key wanted [row]) := List.find?_append
    rw [ih, lookup_upsert, List.reverse_cons, last, Option.or_assoc, lookup_first]
    congr 1
    by_cases same : wanted = key row
    · rw [if_pos same, if_pos same]
      rfl
    · rw [if_neg same, if_neg same]
      rfl

theorem filter_upsertAll_same {kind : α → Bool}
    (told : ∀ {one other}, key one = key other → kind one = kind other)
    {added : List α} (areKind : ∀ row ∈ added, kind row = true) :
    (upsertAll key added rows).filter kind = upsertAll key added (rows.filter kind) := by
  induction added generalizing rows with
  | nil => rfl
  | cons row rest ih =>
    show (upsertAll key rest (upsert key row rows)).filter kind = _
    rw [ih fun other member => areKind other (List.mem_cons_of_mem row member), filter_upsert told,
      if_pos (areKind row List.mem_cons_self)]
    rfl

theorem filter_upsertAll_other {kind : α → Bool}
    (told : ∀ {one other}, key one = key other → kind one = kind other)
    {added : List α} (areOther : ∀ row ∈ added, kind row ≠ true) :
    (upsertAll key added rows).filter kind = rows.filter kind := by
  induction added generalizing rows with
  | nil => rfl
  | cons row rest ih =>
    show (upsertAll key rest (upsert key row rows)).filter kind = _
    rw [ih fun other member => areOther other (List.mem_cons_of_mem row member), filter_upsert told,
      if_neg (areOther row List.mem_cons_self)]

end Upsert

/-! ### Rows that may fail -/

section Partial

variable (f : α → Option β) (items : List α)

theorem mapM_eq_some (images : List β) :
    items.mapM f = some images ↔ items.map f = images.map some := by
  induction items generalizing images with
  | nil => cases images <;> simp
  | cons item rest ih =>
    rw [List.mapM_cons]
    cases isImage : f item with
    | none => cases images <;> simp [isImage]
    | some image =>
      cases images with
      | nil => cases rest.mapM f <;> simp
      | cons first images =>
        simp only [Option.pure_def, Option.bind_eq_bind, Option.bind_some, List.map_cons,
          isImage, List.cons.injEq, Option.some.injEq, ← ih]
        cases rest.mapM f <;> simp

/-- **All rows are computed exactly when each one is.** -/
theorem mapM_isSome_iff :
    (∃ images, items.mapM f = some images) ↔ ∀ item ∈ items, ∃ image, f item = some image := by
  constructor
  · rintro ⟨images, mapped⟩ item member
    have image : f item ∈ images.map some :=
      (mapM_eq_some f items images).mp mapped ▸ List.mem_map_of_mem member
    obtain ⟨image, -, isImage⟩ := List.mem_map.mp image
    exact ⟨image, isImage.symm⟩
  · intro each
    refine ⟨items.filterMap f, ?_⟩
    rw [mapM_eq_some, List.map_filterMap_some_eq_filter_map_isSome, eq_comm, List.filter_eq_self]
    intro image member
    obtain ⟨item, isItem, rfl⟩ := List.mem_map.mp member
    exact Option.isSome_iff_exists.mpr (each item isItem)

variable {f items}

/-- What each row is, when all are computed. -/
theorem mapM_spec {P : β → Prop} (each : ∀ item ∈ items, ∃ image, f item = some image ∧ P image) :
    ∃ images, items.mapM f = some images ∧ ∀ image ∈ images, P image := by
  obtain ⟨images, mapped⟩ := (mapM_isSome_iff f items).mpr fun item member =>
    let ⟨image, isImage, _⟩ := each item member
    ⟨image, isImage⟩
  refine ⟨images, mapped, fun image member => ?_⟩
  have isImage : some image ∈ items.map f :=
    (mapM_eq_some f items images).mp mapped ▸ List.mem_map_of_mem member
  obtain ⟨item, isItem, isImage⟩ := List.mem_map.mp isImage
  obtain ⟨image', isImage', holds⟩ := each item isItem
  obtain rfl := Option.some.inj (isImage.symm.trans isImage')
  exact holds

/-- Every image comes from an item. -/
theorem mem_of_mapM {images : List β} (all : items.mapM f = some images) {image : β} (member : image ∈ images) :
    ∃ item ∈ items, f item = some image := by
  have isMap := (mapM_eq_some f items images).mp all
  have isImage : some image ∈ items.map f := by
    rw [isMap]
    exact List.mem_map_of_mem member
  exact List.mem_map.mp isImage

/-- The images by place, when all are computed. -/
theorem mapM_zipIdx {g : α × Nat → Option β} {images : List β} (all : items.zipIdx.mapM g = some images)
    (fallback : β) : ∃ imageAt : Nat → β, images = (List.range items.length).map imageAt ∧
      ∀ {idx item}, items[idx]? = some item → g (item, idx) = some (imageAt idx) := by
  have isMap := (mapM_eq_some g items.zipIdx images).mp all
  have sameLength := congrArg List.length isMap
  rw [List.length_map, List.length_map, List.length_zipIdx] at sameLength
  refine ⟨fun idx => images.getD idx fallback, ?_, ?_⟩
  · apply List.ext_getElem?
    intro idx
    rw [List.getElem?_map]
    by_cases inside : idx < items.length
    · rw [List.getElem?_range inside, Option.map_some, List.getD_eq_getElem?_getD,
        List.getElem?_eq_getElem (sameLength ▸ inside)]
      rfl
    · rw [List.getElem?_eq_none (by omega), List.getElem?_eq_none (by rw [List.length_range]; omega)]
      rfl
  · intro idx item isItem
    have image := congrArg (fun bound => bound[idx]?) isMap
    simp only [List.getElem?_map, List.getElem?_zipIdx, isItem, Option.map_some, Nat.zero_add] at image
    obtain ⟨value, isValue, same⟩ := Option.map_eq_some_iff.mp image.symm
    show g (item, idx) = some (images.getD idx fallback)
    rw [List.getD_eq_getElem?_getD, isValue]
    exact same.symm

end Partial

end Rows
