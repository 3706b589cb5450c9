/-
Building books into the reference store and verifying them against it: `run_books`, `verify` and
`diff_and_report` (`cli/src/distill_cmd.rs`).

The audit rows of a build go to another database and fail silently; they are left out.

* `storeBook_returned` — what a finished build of a book leaves.
* **`build_verifies_iff`** — a finished build leaves what `verify` expects exactly when every row the book
  had is under a key the build drafts.
-/

import Bookrack.Distill.BookToml
import Bookrack.Refs.Writes

namespace Bookrack.Distill

open Refs (BookRow EntryRow IndexFates IndexSpec OverlayRow RefsError Store)

/-! ### The commands -/

/-- `ResolvedBook`: a declaration and the text of its source. -/
structure ResolvedBook where
  toml : BookToml
  source : List Char

/-- The slug of a book. -/
def ResolvedBook.slug (book : ResolvedBook) : String := book.toml.bookSlug

/-- A retention threshold, by how the comparisons with it come out: `isAbove` says that it is above the
share a stage kept. -/
structure Threshold where
  inRange : Bool
  isAbove : Nat → Nat → Bool

/-- `DistillBuildArgs`. -/
structure BuildArgs where
  dryRun : Bool
  noRetentionCheck : Bool
  retentionThreshold : Threshold

/-- What a build fails with. -/
inductive BuildError
  | readSource
  | parse (error : ParseError)
  | thresholdRange
  | belowRetention (slug stage : String) (inLen outLen : Nat)
  | indexKind (slug kind field : String)
  | refs (error : RefsError)
  deriving DecidableEq, Repr

/-- What happens to the steps of a build that touch a file or the database. -/
structure BookFates where
  source : Fate
  opened : Fate
  indexes : IndexFates
  book : Fate
  entry : Nat → Fate

/-- The stage kept less than the threshold; only stages that keep the kind are judged. -/
def isBelow (threshold : Threshold) (report : StageReport) : Bool :=
  report.inKind = report.outKind && report.inLen != 0 && threshold.isAbove report.outLen report.inLen

/-- `enforce_retention`. -/
def enforceRetention (slug : String) (reports : List StageReport) (threshold : Threshold) :
    Except BuildError Unit :=
  if !threshold.inRange then .error .thresholdRange
  else
    match reports.find? (isBelow threshold) with
    | some report => .error (.belowRetention slug report.stageName report.inLen report.outLen)
    | none => .ok ()

/-- `compute_gate_outcome`. -/
def computeGateOutcome (slug : String) (reports : List StageReport) (args : BuildArgs) :
    Except BuildError Unit :=
  if args.noRetentionCheck then .ok () else enforceRetention slug reports args.retentionThreshold

/-- `parse_index_kind`, on an index of a book. -/
def indexSpec (slug : String) (entry : IndexEntry) : Except BuildError IndexSpec :=
  if entry.kind = "btree" then .ok ⟨entry.field, .btree⟩ else .error (.indexKind slug entry.kind entry.field)

/-- `register_book_indexes`. -/
def registerBookIndexes (fates : IndexFates) (book : BookToml) : Prog Store BuildError Unit := do
  let specs ← Prog.ofExcept (book.indexes.mapM (indexSpec book.bookSlug))
  (Refs.registerBook fates book.bookSlug specs).mapError .refs

/-- `draft_to_new_entry`. -/
def draftToNewEntry (draft : EntryDraft) : EntryRow where
  bookSlug := draft.bookSlug
  entryKey := draft.entryKey
  headword := draft.headword
  aliases := draft.aliases
  payload := .obj draft.payload
  ftsText := draft.ftsText
  source := draft.source
  qualityFlags := draft.qualityFlags

/-- The row of a book. -/
def bookRow (book : BookToml) (builtAt : String) : BookRow := ⟨book.bookSlug, book.authorityRank, builtAt⟩

/-- The loop over the drafts. -/
def upsertDrafts (fates : Nat → Fate) (drafts : List EntryDraft) : Prog Store BuildError Unit :=
  Prog.loop drafts () fun position draft _ =>
    (Refs.upsertEntry (fates position) (draftToNewEntry draft)).mapError .refs

/-- The store phase of `run_books`. -/
def storeBook (fates : BookFates) (book : BookToml) (builtAt : String) (drafts : List EntryDraft) :
    Prog Store BuildError Unit := do
  Prog.write fates.opened (.refs .sqlite) id
  registerBookIndexes fates.indexes book
  (Refs.upsertBook fates.book (bookRow book builtAt)).mapError .refs
  upsertDrafts fates.entry drafts

variable (setup : Setup)

/-- The body of the loop of `run_books`. -/
def runBook (fates : BookFates) (args : BuildArgs) (distillRunId : String) (book : ResolvedBook) :
    Prog Store BuildError Unit := do
  Prog.write fates.source .readSource id
  let (drafts, reports) ← Prog.ofExcept ((book.toml.draft setup book.source distillRunId).mapError .parse)
  Prog.ofExcept (computeGateOutcome book.slug reports args)
  if args.dryRun then pure () else storeBook fates book.toml distillRunId drafts

/-- `run_books`. -/
def runBooks (fates : Nat → BookFates) (args : BuildArgs) (distillRunId : String) (books : List ResolvedBook) :
    Prog Store BuildError Unit :=
  Prog.loop books () fun position book _ => runBook setup (fates position) args distillRunId book

/-- `LiveEntry`. -/
structure LiveEntry where
  headword : String
  payloadJson : String
  deriving DecidableEq, Repr

/-- `BookDiff`. -/
structure BookDiff where
  slug : String
  added : List String
  removed : List String
  changed : List String
  deriving DecidableEq, Repr

/-- The entries of a book. -/
def entriesOf (slug : String) (store : Store) : List EntryRow := store.entries.filter fun entry =>
    entry.bookSlug = slug

/-- The overlays of a book. -/
def overlaysOf (slug : String) (store : Store) : List OverlayRow :=
  store.overlays.filter fun overlay => overlay.bookSlug = slug

/-- A row as it is compared; `encode` is `serde_json::to_string`. -/
def liveEntry (encode : Json → String) (entry : EntryRow) : LiveEntry := ⟨entry.headword, encode entry.payload⟩

/-- `read_live_entries`. -/
def readLiveEntries (encode : Json → String) (store : Store) (slug : String) : List (String × LiveEntry) :=
  Ordered.ofList ((entriesOf slug store).map fun entry => (entry.entryKey, liveEntry encode entry))

/-- The headword or the payload under a key differs. -/
def isChanged (encode : Json → String) (proposed : List (String × EntryDraft)) (live : List (String × LiveEntry))
    (key : String) : Bool :=
  match proposed.lookup key, live.lookup key with
  | some draft, some entry => draft.headword ≠ entry.headword ∨ encode (.obj draft.payload) ≠ entry.payloadJson
  | _, _ => false

/-- `diff_and_report`. -/
def diffAndReport (encode : Json → String) (slug : String) (proposed : List (String × EntryDraft))
    (live : List (String × LiveEntry)) : BookDiff where
  slug := slug
  added := (proposed.map Prod.fst).filter fun key => (live.lookup key).isNone
  removed := (live.map Prod.fst).filter fun key => (proposed.lookup key).isNone
  changed := (proposed.map Prod.fst).filter (isChanged encode proposed live)

/-- `verify`, on one book. -/
def verify (encode : Json → String) (distillRunId : String) (book : ResolvedBook) (store : Store) :
    Except ParseError BookDiff := do
  let (drafts, _) ← book.toml.draft setup book.source distillRunId
  let proposed := Ordered.ofList (drafts.map fun draft => (draft.entryKey, draft))
  pure (diffAndReport encode book.slug proposed (readLiveEntries encode store book.slug))

/-! ### Stores reached by builds and edits -/

/-- What the builds and edits of overlays make of an empty store. -/
inductive Reachable : Store → Prop
  | empty : Reachable ⟨[], [], []⟩
  | build {store : Store} (reached : Reachable store) (fates : Nat → BookFates) (args : BuildArgs)
      (distillRunId : String) (books : List ResolvedBook) :
      Reachable ((runBooks setup fates args distillRunId books).left store)
  | edit {store : Store} (reached : Reachable store) (fate : Fate) (overlay : OverlayRow) :
      Reachable ((Refs.upsertOverlay fate overlay).left store)

/-- No key is used twice. -/
def Keyed (store : Store) : Prop := (store.entries.map EntryRow.key).Nodup

/-- A step keeps the keys apart. -/
def KeepsKeys (before after : Store) : Prop := Keyed before → Keyed after

theorem keepsKeys_frame : Prog.Frame KeepsKeys := ⟨fun _ => id, fun first second => second ∘ first⟩

section Moves

variable {setup}

theorem upsertDrafts_keepsKeys (fates : Nat → Fate) (drafts : List EntryDraft) :
    Prog.Moves KeepsKeys (upsertDrafts fates drafts) := by
  apply Prog.Moves.loop keepsKeys_frame
  intro position draft _
  apply Prog.Moves.mapError
  unfold Refs.upsertEntry
  split_ifs
  · exact Prog.Moves.throw keepsKeys_frame _
  · exact Prog.Moves.write keepsKeys_frame fun store keyed => Rows.nodup_upsert keyed

/-- A step that leaves the store alone. -/
def Untouched (before after : Store) : Prop := after = before

theorem untouched_frame : Prog.Frame Untouched := ⟨fun _ => rfl, fun first second => second.trans first⟩

/-- A registration leaves the rows alone. -/
theorem registerBookIndexes_untouched (fates : IndexFates) (book : BookToml) :
    Prog.Moves Untouched (registerBookIndexes fates book) := by
  have same : ∀ {fate : Fate}, Prog.Moves Untouched (Prog.write fate RefsError.sqlite id) :=
    Prog.Moves.write untouched_frame fun _ => rfl
  refine Prog.Moves.bind untouched_frame (Prog.Moves.ofExcept untouched_frame _) fun specs => ?_
  apply Prog.Moves.mapError
  refine Prog.Moves.bind untouched_frame (Prog.Moves.ofExcept untouched_frame _) fun _ => ?_
  refine Prog.Moves.bind untouched_frame ?_ fun _ => Prog.Moves.pure untouched_frame _
  apply Prog.Moves.loop untouched_frame
  intro position spec seen
  refine Prog.Moves.bind untouched_frame (Prog.Moves.ofExcept untouched_frame _) fun _ => ?_
  split_ifs
  · exact Prog.Moves.throw untouched_frame _
  · refine Prog.Moves.bind untouched_frame same fun _ => ?_
    exact Prog.Moves.bind untouched_frame same fun _ => Prog.Moves.pure untouched_frame _

theorem runBook_keepsKeys (fates : BookFates) (args : BuildArgs) (distillRunId : String) (book : ResolvedBook) :
    Prog.Moves KeepsKeys (runBook setup fates args distillRunId book) := by
  refine Prog.Moves.bind keepsKeys_frame (Prog.Moves.write keepsKeys_frame fun _ => id) fun _ => ?_
  refine Prog.Moves.bind keepsKeys_frame (Prog.Moves.ofExcept keepsKeys_frame _) fun drafted => ?_
  refine Prog.Moves.bind keepsKeys_frame (Prog.Moves.ofExcept keepsKeys_frame _) fun _ => ?_
  split_ifs
  · exact Prog.Moves.pure keepsKeys_frame _
  · refine Prog.Moves.bind keepsKeys_frame (Prog.Moves.write keepsKeys_frame fun _ => id) fun _ => ?_
    have registered : Prog.Moves KeepsKeys (registerBookIndexes fates.indexes book.toml) := by
      intro store
      rw [registerBookIndexes_untouched fates.indexes book.toml store]
      exact keepsKeys_frame.refl store
    refine Prog.Moves.bind keepsKeys_frame registered fun _ => ?_
    refine Prog.Moves.bind keepsKeys_frame ?_ fun _ => upsertDrafts_keepsKeys _ _
    exact Prog.Moves.mapError (Prog.Moves.write keepsKeys_frame fun _ => id)

/-- **No store that is reached uses a key twice.** -/
theorem Reachable.keyed {store : Store} (reached : Reachable setup store) : Keyed store := by
  induction reached with
  | empty => exact List.nodup_nil
  | build _ fates args distillRunId books ih =>
    have moves : Prog.Moves KeepsKeys (runBooks setup fates args distillRunId books) :=
      Prog.Moves.loop keepsKeys_frame (fun position book _ => runBook_keepsKeys _ _ _ book) books ()
    exact moves _ ih
  | edit _ fate overlay ih =>
    have moves : Prog.Moves KeepsKeys (Refs.upsertOverlay fate overlay) :=
      Prog.Moves.write keepsKeys_frame fun _ => id
    exact moves _ ih

end Moves

/-! ### What a finished build leaves -/

section Finished

variable {store after : Store}

theorem upsertDrafts_returned {fates : Nat → Fate} (drafts : List EntryDraft) : ∀ {start : Nat} {store : Store},
    Prog.loopFrom (fun position draft (_ : Unit) =>
        (Refs.upsertEntry (fates position) (draftToNewEntry draft)).mapError BuildError.refs) start () drafts
          store =
          (.value (), after) ↔
      ((∀ draft ∈ drafts, draft.entryKey ≠ "") ∧ ∀ idx < drafts.length, fates (start + idx) = .done) ∧
        after = { store with
          entries := Rows.upsertAll EntryRow.key (drafts.map draftToNewEntry) store.entries } := by
  induction drafts with
  | nil =>
    intro start store
    rw [Prog.loopFrom, Prog.pure_returned]
    simp [Rows.upsertAll]
  | cons draft rest ih =>
    intro start store
    rw [Prog.loopFrom, Prog.bind_returned]
    constructor
    · rintro ⟨_, midway, first, others⟩
      obtain ⟨⟨named, done⟩, rfl⟩ := Refs.upsertEntry_returned.mp (Prog.mapError_returned.mp first)
      obtain ⟨⟨areNamed, areDone⟩, rfl⟩ := ih.mp others
      refine ⟨⟨List.forall_mem_cons.mpr ⟨named, areNamed⟩, ?_⟩, rfl⟩
      intro idx inside
      cases idx with
      | zero => exact done
      | succ idx =>
        rw [show start + (idx + 1) = start + 1 + idx by omega]
        exact areDone idx (Nat.lt_of_succ_lt_succ inside)
    · rintro ⟨⟨areNamed, areDone⟩, rfl⟩
      obtain ⟨named, areNamed⟩ := List.forall_mem_cons.mp areNamed
      refine ⟨(), _, Prog.mapError_returned.mpr
        (Refs.upsertEntry_returned.mpr ⟨⟨named, areDone 0 (Nat.zero_lt_succ _)⟩, rfl⟩), ?_⟩
      refine ih.mpr ⟨⟨areNamed, fun idx inside => ?_⟩, rfl⟩
      have done := areDone (idx + 1) (Nat.succ_lt_succ inside)
      rwa [show start + (idx + 1) = start + 1 + idx by omega] at done

theorem indexSpecs_ok {slug : String} {entries : List IndexEntry} {specs : List IndexSpec} :
    entries.mapM (indexSpec slug) = .ok specs ↔
      (∀ entry ∈ entries, entry.kind = "btree") ∧ specs = entries.map fun entry => ⟨entry.field, .btree⟩ := by
  rw [mapM_ok_iff]
  induction entries generalizing specs with
  | nil => cases specs <;> simp
  | cons entry rest ih =>
    have here : ∀ {spec : IndexSpec}, indexSpec slug entry = .ok spec ↔
        entry.kind = "btree" ∧ spec = ⟨entry.field, .btree⟩ := by
      intro spec
      unfold indexSpec
      split_ifs with isKind
      · simp [isKind, eq_comm]
      · simp [isKind]
    cases specs with
    | nil => simp
    | cons spec specs =>
      simp only [List.map_cons, List.cons.injEq, List.forall_mem_cons, ih, here]
      exact and_and_and_comm

/-- **Which books can be registered.** -/
theorem registerBookIndexes_returned {fates : IndexFates} {book : BookToml} :
    registerBookIndexes fates book store = (.value (), after) ↔
      ((∀ entry ∈ book.indexes, entry.kind = "btree") ∧ Refs.SlugShape book.bookSlug.toList ∧
        (∀ entry ∈ book.indexes, Refs.FieldShape entry.field) ∧ (book.indexes.map IndexEntry.field).Nodup ∧
        ∀ idx < book.indexes.length, fates.column idx = .done ∧ fates.index idx = .done) ∧ after = store := by
  unfold registerBookIndexes
  simp only [Prog.bind_returned, Prog.ofExcept_returned, Prog.mapError_returned, Refs.registerBook_returned,
    indexSpecs_ok]
  constructor
  · rintro ⟨specs, midway, ⟨⟨areKinds, rfl⟩, rfl⟩, ⟨isSlug, areFields, distinct, done⟩, rfl⟩
    rw [List.forall_mem_map] at areFields
    refine ⟨⟨areKinds, isSlug, areFields, ?_, ?_⟩, rfl⟩
    · rwa [List.map_map] at distinct
    · rwa [List.length_map] at done
  · rintro ⟨⟨areKinds, isSlug, areFields, distinct, done⟩, rfl⟩
    refine ⟨_, after, ⟨⟨areKinds, rfl⟩, rfl⟩, ⟨isSlug, ?_, ?_, ?_⟩, rfl⟩
    · rw [List.forall_mem_map]
      exact areFields
    · rwa [List.map_map]
    · rwa [List.length_map]

/-- **What a finished build of a book leaves**, and that it met every demand of the store. -/
theorem storeBook_returned {fates : BookFates} {book : BookToml} {builtAt : String} {drafts : List EntryDraft} :
    storeBook fates book builtAt drafts store = (.value (), after) ↔
      (fates.opened = .done ∧ registerBookIndexes fates.indexes book store = (.value (), store) ∧
        fates.book = .done ∧ (∀ draft ∈ drafts, draft.entryKey ≠ "") ∧
        ∀ idx < drafts.length, fates.entry idx = .done) ∧
      after = { store with
        books := Rows.upsert Refs.BookRow.bookSlug (bookRow book builtAt) store.books
        entries := Rows.upsertAll EntryRow.key (drafts.map draftToNewEntry) store.entries } := by
  constructor
  · intro returned
    obtain ⟨_, opened, isOpened, next⟩ := Prog.bind_returned.mp returned
    obtain ⟨openedDone, rfl⟩ := Prog.write_returned.mp isOpened
    obtain ⟨_, registered, isRegistered, next'⟩ := Prog.bind_returned.mp next
    obtain ⟨-, rfl⟩ := registerBookIndexes_returned.mp isRegistered
    obtain ⟨_, listed, isListed, upserted⟩ := Prog.bind_returned.mp next'
    obtain ⟨bookDone, rfl⟩ := Prog.write_returned.mp (Prog.mapError_returned.mp isListed)
    obtain ⟨⟨areNamed, areDone⟩, rfl⟩ := (upsertDrafts_returned drafts).mp upserted
    simp only [Nat.zero_add] at areDone
    exact ⟨⟨openedDone, isRegistered, bookDone, areNamed, areDone⟩, rfl⟩
  · rintro ⟨⟨openedDone, isRegistered, bookDone, areNamed, areDone⟩, rfl⟩
    refine Prog.bind_returned.mpr ⟨(), store, Prog.write_returned.mpr ⟨openedDone, rfl⟩, ?_⟩
    refine Prog.bind_returned.mpr ⟨(), store, isRegistered, ?_⟩
    refine Prog.bind_returned.mpr ⟨(), _, Prog.mapError_returned.mpr (Prog.write_returned.mpr ⟨bookDone, rfl⟩),
      ?_⟩
    refine (upsertDrafts_returned drafts).mpr ⟨⟨areNamed, ?_⟩, rfl⟩
    simpa only [Nat.zero_add] using areDone

/-! ### The entries of one book -/

variable {setup : Setup} {args : BuildArgs} {runId : String}

theorem slugOf_key {slug : String} {one other : EntryRow} (same : one.key = other.key) :
    decide (one.bookSlug = slug) = decide (other.bookSlug = slug) := by
  rw [(Prod.mk.inj same).1]

/-- The rows of a run carry the slug of the book. -/
theorem drafted_slug {book : BookToml} {source : List Char} {drafts : List EntryDraft}
    {reports : List StageReport}
    (ran : book.draft setup source runId = .ok (drafts, reports)) :
    ∀ row ∈ drafts.map draftToNewEntry, row.bookSlug = book.bookSlug := by
  obtain ⟨rule, splits, -, rfl, -⟩ := draft_restamped ran runId
  intro row member
  obtain ⟨draft, isDraft, rfl⟩ := List.mem_map.mp member
  obtain ⟨split, -, rfl⟩ := List.mem_map.mp isDraft
  exact stampedSlug_composeExtras book.bookSlug runId

/-- What a build of one book does to the entries, slug by slug. -/
structure BuiltBook (setup : Setup) (runId : String) (book : ResolvedBook) (before after : Store) : Prop where
  own : ∃ drafts reports, book.toml.draft setup book.source runId = .ok (drafts, reports) ∧
    entriesOf book.slug after =
      Rows.upsertAll EntryRow.key (drafts.map draftToNewEntry) (entriesOf book.slug before)
  others : ∀ slug, slug ≠ book.slug → entriesOf slug after = entriesOf slug before
  overlays : after.overlays = before.overlays

theorem runBook_returned {fates : BookFates} {book : ResolvedBook} (notDry : args.dryRun = false)
    (returned : runBook setup fates args runId book store = (.value (), after)) :
    BuiltBook setup runId book store after := by
  obtain ⟨_, midway, isRead, next⟩ := Prog.bind_returned.mp returned
  obtain ⟨-, rfl⟩ := Prog.write_returned.mp isRead
  obtain ⟨⟨drafts, reports⟩, midway, isDrafted, next'⟩ := Prog.bind_returned.mp next
  obtain ⟨drafted, rfl⟩ := Prog.ofExcept_returned.mp isDrafted
  obtain ⟨_, midway, isGated, stored⟩ := Prog.bind_returned.mp next'
  obtain ⟨-, rfl⟩ := Prog.ofExcept_returned.mp isGated
  rw [notDry] at stored
  obtain ⟨-, rfl⟩ := storeBook_returned.mp stored
  have ran : book.toml.draft setup book.source runId = .ok (drafts, reports) := by
    cases computed : book.toml.draft setup book.source runId with
    | ok result =>
      rw [computed] at drafted
      cases drafted
      rfl
    | error error =>
      rw [computed] at drafted
      cases drafted
  refine ⟨⟨drafts, reports, ran, ?_⟩, ?_, rfl⟩
  · refine Rows.filter_upsertAll_same slugOf_key ?_
    exact fun row member => decide_eq_true (drafted_slug ran row member)
  · intro slug other
    refine Rows.filter_upsertAll_other slugOf_key ?_
    intro row member isSlug
    exact other ((of_decide_eq_true isSlug).symm.trans (drafted_slug ran row member))

/-- **A finished run over books of distinct slugs**, seen from one of its books. -/
theorem runBooks_returned {fates : Nat → BookFates} (notDry : args.dryRun = false) (books : List ResolvedBook) :
    ∀ {start : Nat} {store : Store}, (books.map ResolvedBook.slug).Nodup →
      Prog.loopFrom (fun position book (_ : Unit) => runBook setup (fates position) args runId book) start
        () books
        store = (.value (), after) →
      (∀ book ∈ books, ∃ drafts reports, book.toml.draft setup book.source runId = .ok (drafts, reports) ∧
        entriesOf book.slug after =
          Rows.upsertAll EntryRow.key (drafts.map draftToNewEntry) (entriesOf book.slug store)) ∧
      (∀ slug ∉ books.map ResolvedBook.slug, entriesOf slug after = entriesOf slug store) ∧
      after.overlays = store.overlays := by
  induction books with
  | nil =>
    intro start store _ returned
    obtain ⟨-, rfl⟩ := Prog.pure_returned.mp returned
    exact ⟨fun _ member => (nomatch member), fun _ _ => rfl, rfl⟩
  | cons book rest ih =>
    intro start store distinct returned
    rw [List.map_cons, List.nodup_cons] at distinct
    obtain ⟨_, midway, first, turns⟩ := Prog.bind_returned.mp returned
    have built := runBook_returned notDry first
    obtain ⟨owns, others, overlays⟩ := ih distinct.2 turns
    refine ⟨List.forall_mem_cons.mpr ⟨?_, ?_⟩, ?_, overlays.trans built.overlays⟩
    · obtain ⟨drafts, reports, ran, entries⟩ := built.own
      exact ⟨drafts, reports, ran, (others book.slug distinct.1).trans entries⟩
    · intro other member
      obtain ⟨drafts, reports, ran, entries⟩ := owns other member
      refine ⟨drafts, reports, ran, ?_⟩
      rw [entries, built.others other.slug fun same => distinct.1 (same ▸ List.mem_map_of_mem member)]
    · intro slug absent
      rw [List.map_cons, List.mem_cons, not_or] at absent
      rw [others slug absent.2, built.others slug absent.1]

end Finished

/-! ### What the verification finds -/

section Verified

variable {setup : Setup} {encode : Json → String} {slug : String} {rule : ToEntryDraft}
  {splits : List SplitEntry}
  {extras extras' : Extras}

/-- The last entry drafted under a key. -/
def lastSplit (letters : Letters) (rule : ToEntryDraft) (splits : List SplitEntry) (key : String) :
    Option SplitEntry :=
  splits.reverse.find? fun split => rule.keyNormalizer.normalize letters split.headword = key

theorem lookup_proposed (letters : Letters) (key : String) :
    (Ordered.ofList ((splits.map (oneDraft letters rule extras)).map fun draft =>
      (draft.entryKey, draft))).lookup key =
      (lastSplit letters rule splits key).map (oneDraft letters rule extras) := by
  have pairs : (fun draft : EntryDraft => (draft.entryKey, draft)) ∘ oneDraft letters rule extras =
      fun split => (rule.keyNormalizer.normalize letters split.headword, oneDraft letters rule extras split) :=
        rfl
  rw [Ordered.lookup_ofList, List.map_map, ← List.map_reverse, pairs, Ordered.lookup_pairs]
  rfl

/-- Among the rows of one book the entry's own key counts. -/
theorem lookup_ofSlug {rows : List EntryRow} (own : ∀ row ∈ rows, row.bookSlug = slug) (key : String) :
    Rows.lookup EntryRow.key (slug, key) rows = Rows.lookup EntryRow.entryKey key rows := by
  induction rows with
  | nil => rfl
  | cons row rest ih =>
    obtain ⟨isOwn, areOwn⟩ := List.forall_mem_cons.mp own
    rw [Rows.lookup_first, Rows.lookup_first, ih areOwn, EntryRow.key, isOwn]
    simp only [Prod.mk.injEq, true_and]

theorem mem_entriesOf {store : Store} {row : EntryRow} :
    row ∈ entriesOf slug store ↔ row ∈ store.entries ∧ row.bookSlug = slug := by
  simp [entriesOf]

/-- **Each key of a book appears once.** -/
theorem entryKeys_nodup {store : Store} (keyed : Keyed store) :
    ((entriesOf slug store).map EntryRow.entryKey).Nodup := by
  have distinct : ((entriesOf slug store).map EntryRow.key).Nodup := keyed.sublist (List.filter_sublist.map _)
  rw [List.nodup_map_iff_inj_on (List.Nodup.of_map _ distinct)]
  intro one isOne other isOther same
  have sameSlug := (mem_entriesOf.mp isOne).2.trans (mem_entriesOf.mp isOther).2.symm
  exact List.inj_on_of_nodup_map distinct isOne isOther (Prod.ext sameSlug same)

theorem lookup_live {store : Store} (keyed : Keyed store) (key : String) :
    (readLiveEntries encode store slug).lookup key =
      (Rows.lookup EntryRow.entryKey key (entriesOf slug store)).map (liveEntry encode) := by
  have distinct : ((entriesOf slug store).map EntryRow.entryKey).Nodup := entryKeys_nodup keyed
  have distinct' : ((entriesOf slug store).reverse.map EntryRow.entryKey).Nodup := by
    rw [List.map_reverse]
    exact List.nodup_reverse.mpr distinct
  unfold readLiveEntries
  rw [Ordered.lookup_ofList, ← List.map_reverse,
    Ordered.lookup_pairs EntryRow.entryKey (liveEntry encode) (entriesOf slug store).reverse]
  congr 1
  ext row
  show Rows.lookup EntryRow.entryKey key (entriesOf slug store).reverse = some row ↔ _
  rw [Rows.lookup_eq_some distinct', Rows.lookup_eq_some distinct, List.mem_reverse]

/-- The row a draft is stored as. -/
def storedRow (letters : Letters) (rule : ToEntryDraft) (extras : Extras) (split : SplitEntry) : EntryRow :=
  draftToNewEntry (oneDraft letters rule extras split)

/-- **What is stored under a key**: the last entry drafted under it, or the row of before. -/
theorem lookup_built {letters : Letters} {before : List EntryRow} (own : ∀ row ∈ before, row.bookSlug = slug)
    (stamped : stampedSlug extras = slug) (key : String) :
    Rows.lookup EntryRow.entryKey key
        (Rows.upsertAll EntryRow.key (splits.map (storedRow letters rule extras)) before) =
      ((lastSplit letters rule splits key).map (storedRow letters rule extras)).or
        (Rows.lookup EntryRow.entryKey key before) := by
  have ownRows : ∀ row ∈ splits.map (storedRow letters rule extras), row.bookSlug = slug := by
    intro row member
    obtain ⟨split, -, rfl⟩ := List.mem_map.mp member
    exact stamped
  have ownAfter : ∀ row ∈ Rows.upsertAll EntryRow.key (splits.map (storedRow letters rule extras)) before,
      row.bookSlug = slug := by
    have kept : (Rows.upsertAll EntryRow.key (splits.map (storedRow letters rule extras)) before).filter
        (fun row => row.bookSlug = slug) = _ :=
      Rows.filter_upsertAll_same slugOf_key fun row member => decide_eq_true (ownRows row member)
    rw [List.filter_eq_self.mpr fun row member => decide_eq_true (own row member)] at kept
    exact fun row member => of_decide_eq_true (List.filter_eq_self.mp kept row member)
  rw [← lookup_ofSlug ownAfter, Rows.lookup_upsertAll, lookup_ofSlug own, ← List.map_reverse,
    lookup_ofSlug fun row member => ownRows row (by simpa using member)]
  congr 1
  exact List.find?_map ..

/-- **The verification after a build** finds the rows of before whose keys are not drafted, and no more. -/
theorem diff_built {store after : Store} (keyed : Keyed after) (letters : Letters)
    (stamped : stampedSlug extras = slug)
    (built : entriesOf slug after =
      Rows.upsertAll EntryRow.key (splits.map (storedRow letters rule extras)) (entriesOf slug store)) :
    diffAndReport encode slug
        (Ordered.ofList ((splits.map (oneDraft letters rule extras')).map fun draft => (draft.entryKey, draft)))
        (readLiveEntries encode after slug) = ⟨slug, [], [], []⟩ ↔
      ∀ row ∈ entriesOf slug store, ∃ draft ∈ splits.map (oneDraft letters rule extras),
        draft.entryKey = row.entryKey := by
  have own : ∀ row ∈ entriesOf slug store, row.bookSlug = slug := fun row member => (mem_entriesOf.mp member).2
  have live : ∀ key, (readLiveEntries encode after slug).lookup key =
      (((lastSplit letters rule splits key).map (storedRow letters rule extras)).or
        (Rows.lookup EntryRow.entryKey key (entriesOf slug store))).map (liveEntry encode) := by
    intro key
    rw [lookup_live keyed, built, lookup_built own stamped]
  have isDrafted : ∀ key, (lastSplit letters rule splits key).isSome ↔
      ∃ draft ∈ splits.map (oneDraft letters rule extras), draft.entryKey = key := by
    intro key
    rw [lastSplit, List.find?_isSome]
    simp only [List.mem_reverse, List.mem_map, exists_exists_and_eq_and, decide_eq_true_eq]
    rfl
  have added : (diffAndReport encode slug
      (Ordered.ofList ((splits.map (oneDraft letters rule extras')).map fun draft => (draft.entryKey, draft)))
      (readLiveEntries encode after slug)).added = [] := by
    refine List.filter_eq_nil_iff.mpr fun key isKey => ?_
    rw [Ordered.mem_names_iff, lookup_proposed, Option.isSome_map] at isKey
    rw [live]
    obtain ⟨split, isSplit⟩ := Option.isSome_iff_exists.mp isKey
    rw [isSplit]
    exact Bool.false_ne_true
  have changed : (diffAndReport encode slug
      (Ordered.ofList ((splits.map (oneDraft letters rule extras')).map fun draft => (draft.entryKey, draft)))
      (readLiveEntries encode after slug)).changed = [] := by
    refine List.filter_eq_nil_iff.mpr fun key isKey => ?_
    rw [Ordered.mem_names_iff, lookup_proposed, Option.isSome_map] at isKey
    obtain ⟨split, isSplit⟩ := Option.isSome_iff_exists.mp isKey
    unfold isChanged
    rw [lookup_proposed, live, isSplit]
    simp [storedRow, draftToNewEntry, liveEntry, oneDraft]
  have removed : (diffAndReport encode slug
      (Ordered.ofList ((splits.map (oneDraft letters rule extras')).map fun draft => (draft.entryKey, draft)))
      (readLiveEntries encode after slug)).removed = [] ↔
        ∀ key, (Rows.lookup EntryRow.entryKey key (entriesOf slug store)).isSome →
          (lastSplit letters rule splits key).isSome := by
    refine List.filter_eq_nil_iff.trans ⟨fun none key isRow => ?_, fun all key isKey => ?_⟩
    · have isLive : key ∈ (readLiveEntries encode after slug).map Prod.fst := by
        rw [Ordered.mem_names_iff, live, Option.isSome_map, Option.isSome_or, isRow, Bool.or_true]
      have found := none key isLive
      rw [lookup_proposed] at found
      simpa [Option.isSome_iff_ne_none] using found
    · rw [Ordered.mem_names_iff, live, Option.isSome_map, Option.isSome_or, Option.isSome_map,
        Bool.or_eq_true] at isKey
      have found := isKey.elim id (all key)
      rw [lookup_proposed]
      simpa [Option.isSome_iff_ne_none] using found
  have byRemoved : ∀ {diff : BookDiff}, diff.slug = slug → diff.added = [] → diff.changed = [] →
      (diff = ⟨slug, [], [], []⟩ ↔ diff.removed = []) := by
    rintro ⟨_, _, removed, _⟩ rfl rfl rfl
    simp
  rw [byRemoved rfl added changed, removed]
  constructor
  · intro all row member
    refine (isDrafted row.entryKey).mp (all row.entryKey ?_)
    exact List.find?_isSome.mpr ⟨row, member, decide_eq_true rfl⟩
  · intro drafted key isRow
    obtain ⟨row, member, isKey⟩ := List.find?_isSome.mp isRow
    exact (isDrafted key).mpr (of_decide_eq_true isKey ▸ drafted row member)

/-- What `verify` expects of a book: nothing added, removed or changed, no key twice. -/
def Verifies (setup : Setup) (encode : Json → String) (book : ResolvedBook) (store : Store) : Prop :=
  (∀ runId, verify setup encode runId book store = .ok ⟨book.slug, [], [], []⟩) ∧
    ((entriesOf book.slug store).map EntryRow.entryKey).Nodup

/-- Every row a book has is under a key of the drafts. -/
def NothingStale (setup : Setup) (runId : String) (book : ResolvedBook) (store : Store) : Prop :=
  ∀ drafts reports, book.toml.draft setup book.source runId = .ok (drafts, reports) →
    ∀ row ∈ entriesOf book.slug store, ∃ draft ∈ drafts, draft.entryKey = row.entryKey

/-- **A finished build leaves what `verify` expects** exactly when every row the book had is under a key it
drafts; it leaves the other books alone in any case. -/
theorem build_verifies_iff {store : Store} (reached : Reachable setup store) {fates : Nat → BookFates}
    {args : BuildArgs} {runId : String} {books : List ResolvedBook} (notDry : args.dryRun = false)
    (distinct : (books.map ResolvedBook.slug).Nodup)
    (returned : (runBooks setup fates args runId books).ending store = .value ()) {book : ResolvedBook}
    (isBuilt : book ∈ books) :
    (Verifies setup encode book ((runBooks setup fates args runId books).left store) ∧
        ∀ slug ∉ books.map ResolvedBook.slug,
          entriesOf slug ((runBooks setup fates args runId books).left store) = entriesOf slug store ∧
            overlaysOf slug ((runBooks setup fates args runId books).left store) = overlaysOf slug store) ↔
      NothingStale setup runId book store := by
  have keyed : Keyed ((runBooks setup fates args runId books).left store) :=
    (Reachable.build reached fates args runId books).keyed
  have ran : runBooks setup fates args runId books store =
      (.value (), (runBooks setup fates args runId books).left store) := Prod.ext returned rfl
  obtain ⟨owns, others, overlays⟩ := runBooks_returned notDry books distinct ran
  obtain ⟨drafts, reports, drafted, entries⟩ := owns book isBuilt
  have stale : NothingStale setup runId book store ↔
      ∀ row ∈ entriesOf book.slug store, ∃ draft ∈ drafts, draft.entryKey = row.entryKey := by
    refine ⟨fun nothing => nothing drafts reports drafted, fun nothing drafts' reports' drafted' => ?_⟩
    cases drafted.symm.trans drafted'
    exact nothing
  have verified : ∀ runId', verify setup encode runId' book
    ((runBooks setup fates args runId books).left store) =
      .ok ⟨book.slug, [], [], []⟩ ↔ NothingStale setup runId book store := by
    intro runId'
    obtain ⟨rule, splits, reports', isDrafts, again⟩ := draft_restamped drafted runId'
    rw [isDrafts, List.map_map] at entries
    have ranAgain : verify setup encode runId' book ((runBooks setup fates args runId books).left store) =
        .ok (diffAndReport encode book.slug
          (Ordered.ofList ((splits.map (oneDraft setup.letters rule
            (composeExtras book.toml.bookSlug runId'))).map fun draft => (draft.entryKey, draft)))
          (readLiveEntries encode ((runBooks setup fates args runId books).left store) book.slug)) :=
      except_bind_ok.mpr ⟨_, again, rfl⟩
    rw [ranAgain, Except.ok.injEq, stale, isDrafts]
    exact diff_built keyed setup.letters (stampedSlug_composeExtras _ _) entries
  constructor
  · rintro ⟨⟨clean, -⟩, -⟩
    exact (verified runId).mp (clean runId)
  · intro nothing
    refine ⟨⟨fun runId' => (verified runId').mpr nothing, entryKeys_nodup keyed⟩, fun slug absent => ?_⟩
    exact ⟨others slug absent, congrArg (List.filter _) overlays⟩

end Verified

/-! ### One book from two sources -/

/-- `OneBlockPerPage::run`. -/
def oneBlockPerPage (defaultLang : Option String) (pages : List Page) : List Block :=
  pages.map fun page =>
    ⟨page.page, page.sheet, defaultLang,
      ((Lines.lines page.text).filter fun line => !(Normalize.trim line).isEmpty).map String.ofList⟩

/-- The stages the sample declares. -/
def sampleDispatch (stageRef : StageRef) : Except ParseError Stage :=
  let classes : CharClass := ⟨Char.isAlpha, Char.isUpper⟩
  if stageRef.name = "split_pages" then .ok .splitPages
  else if stageRef.name = "one_block_per_page" then .ok (.segment stageRef.name (oneBlockPerPage none))
  else if stageRef.name = "walk_anchors" then
    .ok (.walk stageRef.name fun blocks => (walkAnchors classes ⟨.latinHeadword, [], false, true⟩ blocks).1)
  else if stageRef.name = "split_headline_only" then .ok (.split stageRef.name (List.map splitHeadlineOnly))
  else if stageRef.name = "to_entry_draft" then .ok (.toEntryDraft ⟨.normalizeLatinKey, [], [], none⟩)
  else .error (.stageNotFound stageRef.name)

theorem isDigit_notSpace (c : Char) (isSpace : isWhitespace c = true) : c.isDigit = false := by
  unfold isWhitespace at isSpace
  by_contra isDigit
  simp [Char.isDigit, UInt32.le_iff_toNat_le] at isDigit
  simp at isSpace
  have isCode : c.val.toNat = c.toNat := rfl
  omega

def sampleSetup : Setup where
  digits := ⟨Char.isDigit, isDigit_notSpace⟩
  letters := ⟨fun text => String.ofList (text.toList.map Char.toLower), Char.isAlphanum⟩
  catalogs := ⟨[], [], [("split_pages", ⟨[], []⟩), ("one_block_per_page", ⟨[], []⟩),
    ("walk_anchors", ⟨[], [⟨"anchor", "anchor_rule_ref", true⟩]⟩), ("split_headline_only", ⟨[], []⟩),
    ("to_entry_draft", ⟨[], [⟨"key_normalizer", "key_normalizer", true⟩]⟩)]⟩
  dispatch := sampleDispatch

/-- A book of latin headwords. -/
def sampleBook (slug source : String) (indexes : List IndexEntry) : ResolvedBook where
  toml := ⟨slug, 10, [], [⟨"split_pages", none⟩, ⟨"one_block_per_page", none⟩,
    ⟨"walk_anchors", some [("anchor", .string "latin_headword")]⟩, ⟨"split_headline_only", none⟩,
    ⟨"to_entry_draft", some [("key_normalizer", .string "normalize_latin_key")]⟩], indexes⟩
  source := source.toList

/-- Every step goes through. -/
def doneFates : BookFates := ⟨.done, .done, ⟨fun _ => .done, fun _ => .done⟩, .done, fun _ => .done⟩

/-- A build without the retention check. -/
def sampleArgs : BuildArgs := ⟨false, true, ⟨true, fun _ _ => false⟩⟩

/-- A build of the sample from a source. -/
def sampleBuild (source : String) : Prog Store BuildError Unit :=
  runBooks sampleSetup (fun _ => doneFates) sampleArgs "2026-06-25" [sampleBook "fake_book" source []]

/-- The store after a build from a first source. -/
def sampleStore : Store := (sampleBuild "Smith\nborn 1900").left ⟨[], [], []⟩

theorem sampleStore_reached : Reachable sampleSetup sampleStore := Reachable.empty.build _ _ _ _

/-- The sample with its entry changed and another one added. -/
def grownSource : String := "Smith\nborn 1901\nJones\nborn 1902"

theorem grownSource_nothingStale :
    NothingStale sampleSetup "2026-06-25" (sampleBook "fake_book" grownSource []) sampleStore := by
  intro drafts reports drafted row member
  have isKey : row.entryKey = "smith" := by
    have keys : ∀ row ∈ entriesOf "fake_book" sampleStore, row.entryKey = "smith" := by decide +kernel
    exact keys row member
  have found : "smith" ∈ drafts.map EntryDraft.entryKey := by
    have names : ((sampleBook "fake_book" grownSource []).toml.draft sampleSetup
        (sampleBook "fake_book" grownSource []).source "2026-06-25").toOption.map
          (fun draft => draft.1.map EntryDraft.entryKey) = some ["smith", "jones"] := by
      decide +kernel
    rw [drafted] at names
    have isNames : drafts.map EntryDraft.entryKey = ["smith", "jones"] := Option.some.inj names
    rw [isNames]
    exact List.mem_cons_self
  obtain ⟨draft, isDraft, same⟩ := List.mem_map.mp found
  exact ⟨draft, isDraft, same.trans isKey.symm⟩

/-- The second build goes through, and its book verifies. -/
theorem build_verifies_iff_sample :
    (sampleBuild grownSource).ending sampleStore = .value () ∧
      Verifies sampleSetup (fun _ => "{}") (sampleBook "fake_book" grownSource [])
        ((sampleBuild grownSource).left sampleStore) ∧
      (entriesOf "fake_book" ((sampleBuild grownSource).left sampleStore)).map EntryRow.entryKey =
        ["smith", "jones"] := by
  have returned : (sampleBuild grownSource).ending sampleStore = .value () := by decide +kernel
  refine ⟨returned, ?_, by decide +kernel⟩
  exact ((build_verifies_iff sampleStore_reached rfl (by decide) returned List.mem_cons_self).mpr
    grownSource_nothingStale).1

/-- A headword the source has lost stays in the store; the verification reports it as removed. -/
theorem build_leaves_removed : Reachable sampleSetup sampleStore ∧
    (sampleBuild "Jones").ending sampleStore = .value () ∧
      verify sampleSetup (fun _ => "{}") "later" (sampleBook "fake_book" "Jones" [])
        ((sampleBuild "Jones").left sampleStore) = .ok ⟨"fake_book", [], ["smith"], []⟩ ∧
      ¬Verifies sampleSetup (fun _ => "{}") (sampleBook "fake_book" "Jones" [])
        ((sampleBuild "Jones").left sampleStore) := by
  have removed : verify sampleSetup (fun _ => "{}") "later" (sampleBook "fake_book" "Jones" [])
      ((sampleBuild "Jones").left sampleStore) = .ok ⟨"fake_book", [], ["smith"], []⟩ := by
    decide +kernel
  refine ⟨sampleStore_reached, by decide +kernel, removed, ?_⟩
  rintro ⟨clean, -⟩
  exact absurd ((clean "later").symm.trans removed) (by decide)

end Bookrack.Distill
