/-
The reference store: the tables of `reference.db`, the view that lays the overlays over the entries
(`refs/src/migrate.rs`, `refs/src/types.rs`).
-/

import Bookrack.Base.Json

namespace Bookrack.Refs

/-! ### Tables -/

/-- A row of `reference_books`. -/
structure BookRow where
  bookSlug : String
  authorityRank : Int
  builtAt : String
  deriving DecidableEq, Repr

/-- A row of `reference_entries`, its JSON columns decoded. -/
structure EntryRow where
  bookSlug : String
  entryKey : String
  headword : String
  aliases : List String
  payload : Json
  ftsText : String
  source : Json
  qualityFlags : List String
  deriving Repr

/-- A row of `reference_entry_overlays`. -/
structure OverlayRow where
  bookSlug : String
  entryKey : String
  overlay : Json
  qualityFlags : Option (List String)
  baseBuiltAt : Option String
  editReason : Option String
  editedAt : String
  deriving Repr

/-- `reference.db`. -/
structure Store where
  books : List BookRow
  entries : List EntryRow
  overlays : List OverlayRow

/-! ### The view -/

/-- `ResolvedEntry`. -/
structure ResolvedEntry where
  bookSlug : String
  entryKey : String
  headword : String
  aliases : List String
  payload : Json
  source : Json
  qualityFlags : List String
  editReason : Option String
  editedAt : Option String
  hasOverlay : Bool
  deriving Repr

/-- An entry under the overlay it has. -/
def EntryRow.under (entry : EntryRow) (overlay : Option OverlayRow) : ResolvedEntry where
  bookSlug := entry.bookSlug
  entryKey := entry.entryKey
  headword := entry.headword
  aliases := entry.aliases
  payload := entry.payload.mergePatch ((overlay.map OverlayRow.overlay).getD (.obj []))
  source := entry.source
  qualityFlags := (overlay.bind OverlayRow.qualityFlags).getD entry.qualityFlags
  editReason := overlay.bind OverlayRow.editReason
  editedAt := overlay.map OverlayRow.editedAt
  hasOverlay := overlay.isSome

/-- The overlay of an entry; the pair of slug and key is the table's primary key. -/
def Store.overlayOf (store : Store) (entry : EntryRow) : Option OverlayRow :=
  store.overlays.find? fun overlay =>
    overlay.bookSlug = entry.bookSlug ∧ overlay.entryKey = entry.entryKey

/-- `reference_entries_resolved`. -/
def Store.resolved (store : Store) : List ResolvedEntry :=
  store.entries.map fun entry => entry.under (store.overlayOf entry)

end Bookrack.Refs
