/-
Judging a book before it is built: `lint_one` (`cli/src/distill_cmd.rs`).

* `listed_of_reachable` — the slug of every book ever stored can be typed as an item id.
* **`lint_accepts_iff`** — of what the lint accepts, the build accepts exactly the books whose slug and
  indexes have the shape the store asks for and whose source drafts no empty key.
-/

import Bookrack.Catalog.TypedId
import Bookrack.Distill.Build

namespace Bookrack.Distill

open Catalog (Slug TypedItemId)
open Refs (FieldShape SlugShape Store)

/-- `take_first_lines`. -/
def takeFirstLines (source : List Char) (maxLines : Nat) : List Char :=
  ['\n'].intercalate ((Lines.lines source).take maxLines) ++ ['\n']

variable (setup : Setup)

/-- `lint_one`. -/
def lintOne (distillRunId : String) (sampleLines : Nat) (book : ResolvedBook) : Except ParseError Unit := do
  let pipeline ← book.toml.intoPipeline setup
  if sampleLines = 0 then pure ()
  else do
    let _ ← pipeline.run setup.digits setup.letters (takeFirstLines book.source sampleLines)
      (composeExtras book.slug distillRunId)
    pure ()

/-! ### Books that are stored -/

/-- The slug of every stored book is one. -/
def Listed (store : Store) : Prop := ∀ row ∈ store.books, Slug row.bookSlug

theorem slug_iff_shape {slug : String} : SlugShape slug.toList ↔ Slug slug := Refs.slugShape_iff

section Listed

variable {setup}

theorem listed_untouched {α : Type} {prog : Prog Store BuildError α} (moves : Prog.Moves Untouched prog)
    {store : Store} (listed : Listed store) :
    Prog.Ends prog store (fun _ => Listed) (fun _ => Listed) Listed := by
  have same : prog.left store = store := moves store
  exact Prog.ends_of_left (same.symm ▸ listed)

/-- A book is listed behind its registration only. -/
theorem storeBook_listed {fates : BookFates} {book : BookToml} {builtAt : String} {drafts : List EntryDraft}
    {store : Store} (listed : Listed store) :
    Prog.Ends (storeBook fates book builtAt drafts) store (fun _ => Listed) (fun _ => Listed) Listed := by
  have opens : Prog.Moves Untouched (Prog.write fates.opened (BuildError.refs .sqlite) id) :=
    Prog.Moves.write untouched_frame fun _ => rfl
  refine (listed_untouched opens listed).bind fun _ opened listed => ?_
  refine (listed_untouched (registerBookIndexes_untouched _ _) listed).exact.bind ?_
  rintro _ registered ⟨listed, returned⟩
  have isSlug : Slug book.bookSlug := slug_iff_shape.mp (registerBookIndexes_returned.mp returned).1.2.1
  have lists : Prog.Ends ((Refs.upsertBook fates.book (bookRow book builtAt)).mapError BuildError.refs)
    registered
      (fun _ => Listed) (fun _ => Listed) Listed := by
    refine Prog.Ends.mapError (Prog.Ends.write (fun _ row member => ?_) (fun _ => listed) fun _ => listed)
    have isRow : row.bookSlug ∈ (Rows.upsert Refs.BookRow.bookSlug (bookRow book builtAt) registered.books).map
        Refs.BookRow.bookSlug := List.mem_map_of_mem member
    rcases Rows.mem_keys_upsert.mp isRow with isOwn | isOther
    · rw [isOwn]
      exact isSlug
    · obtain ⟨other, isOther, same⟩ := List.mem_map.mp isOther
      exact same ▸ listed other isOther
  refine lists.bind fun _ upserted listed => ?_
  refine Prog.Ends.loop (fun _ => Listed) listed fun position draft _ store _ listed => ?_
  apply Prog.Ends.mapError
  unfold Refs.upsertEntry
  split_ifs
  · exact listed
  · exact Prog.Ends.write (fun _ => listed) (fun _ => listed) fun _ => listed

theorem runBook_listed {fates : BookFates} {args : BuildArgs} {runId : String} {book : ResolvedBook}
    {store : Store}
    (listed : Listed store) :
    Prog.Ends (runBook setup fates args runId book) store (fun _ => Listed) (fun _ => Listed) Listed := by
  have reads : Prog.Moves Untouched (Prog.write fates.source BuildError.readSource id) :=
    Prog.Moves.write untouched_frame fun _ => rfl
  refine (listed_untouched reads listed).bind fun _ midway listed => ?_
  refine (listed_untouched (Prog.Moves.ofExcept untouched_frame _) listed).bind ?_
  rintro ⟨drafts, reports⟩ midway listed
  refine (listed_untouched (Prog.Moves.ofExcept untouched_frame _) listed).bind fun _ midway listed => ?_
  split_ifs
  · exact listed
  · exact storeBook_listed listed

/-- **The slug of every book ever stored is one.** -/
theorem listed_of_reachable {store : Store} (reached : Reachable setup store) : Listed store := by
  induction reached with
  | empty => exact fun _ member => nomatch member
  | build _ fates args runId books ih =>
    have ends : Prog.Ends (runBooks setup fates args runId books) _ (fun _ => Listed) (fun _ => Listed) Listed :=
      Prog.Ends.loop (fun _ => Listed) ih fun _ _ _ _ _ listed => runBook_listed listed
    exact ends.left
  | edit _ fate overlay ih =>
    cases fate with
    | done => exact ih
    | failed => exact ih
    | cut => exact ih

end Listed

/-! ### What the build asks for -/

/-- The shape the store asks for, and a source that drafts no empty key. -/
structure Buildable (book : ResolvedBook) : Prop where
  slug : Slug book.slug
  kinds : ∀ entry ∈ book.toml.indexes, entry.kind = "btree"
  fields : ∀ entry ∈ book.toml.indexes, FieldShape entry.field
  distinct : (book.toml.indexes.map IndexEntry.field).Nodup
  keyed : ∀ runId drafts reports, book.toml.draft setup book.source runId = .ok (drafts, reports) →
    ∀ draft ∈ drafts, draft.entryKey ≠ ""

section Lint

variable {setup} {book : ResolvedBook} {runId : String}

/-- What the sample runs through, the source does. -/
theorem draft_of_lint {sampleLines : Nat} (sampled : sampleLines ≠ 0)
    (covers : (Lines.lines book.source).length ≤ sampleLines)
    (linted : lintOne setup runId sampleLines book = .ok ()) (runId' : String) :
    ∃ drafts reports, book.toml.draft setup book.source runId' = .ok (drafts, reports) := by
  obtain ⟨pipeline, loaded, next⟩ := except_bind_ok.mp linted
  rw [if_neg sampled] at next
  obtain ⟨result, ran, -⟩ := except_bind_ok.mp next
  unfold takeFirstLines at ran
  rw [List.take_of_length_le covers] at ran
  obtain ⟨⟨drafts, reports⟩, again⟩ :=
    run_alike (Lines.lines_alike book.source) ran (composeExtras book.slug runId')
  exact ⟨drafts, reports, except_bind_ok.mpr ⟨pipeline, loaded, again⟩⟩

/-- The keys drafted do not depend on the run. -/
theorem keys_of_draft {drafts drafts' : List EntryDraft} {reports reports' : List StageReport} {runId' : String}
    (ran : book.toml.draft setup book.source runId = .ok (drafts, reports))
    (ran' : book.toml.draft setup book.source runId' = .ok (drafts', reports')) :
    drafts'.map EntryDraft.entryKey = drafts.map EntryDraft.entryKey := by
  obtain ⟨rule, splits, reports'', rfl, again⟩ := draft_restamped ran runId'
  cases ran'.symm.trans again
  rw [List.map_map, List.map_map]
  rfl

theorem buildable_iff {drafts : List EntryDraft} {reports : List StageReport}
    (ran : book.toml.draft setup book.source runId = .ok (drafts, reports)) (args : BuildArgs)
    (notDry : args.dryRun = false) (notGated : args.noRetentionCheck = true) (store : Store) :
    (∃ after, runBook setup doneFates args runId book store = (.value (), after)) ↔ Buildable setup book := by
  have gated : computeGateOutcome book.slug reports args = .ok () := if_pos notGated
  have drafted : (book.toml.draft setup book.source runId).mapError BuildError.parse = .ok
    (drafts, reports) := by
    rw [ran]
    rfl
  have stored : ∀ after, runBook setup doneFates args runId book store = (.value (), after) ↔
      storeBook doneFates book.toml runId drafts store = (.value (), after) := by
    intro after
    show (Prog.write Fate.done BuildError.readSource id >>= fun _ => _) store = _ ↔ _
    rw [Prog.bind_write, drafted]
    show (Prog.ofExcept (computeGateOutcome book.slug reports args) >>= fun _ => _) store = _ ↔ _
    rw [gated, notDry]
    rfl
  simp only [stored, storeBook_returned, registerBookIndexes_returned]
  constructor
  · rintro ⟨after, ⟨-, ⟨⟨areKinds, isSlug, areFields, distinct, -⟩, -⟩, -, areNamed, -⟩, -⟩
    refine ⟨slug_iff_shape.mp isSlug, areKinds, areFields, distinct,
      fun runId' drafts' reports' ran' draft member => ?_⟩
    have isKey : draft.entryKey ∈ drafts.map EntryDraft.entryKey := by
      rw [← keys_of_draft ran ran']
      exact List.mem_map_of_mem member
    obtain ⟨other, isOther, same⟩ := List.mem_map.mp isKey
    exact same ▸ areNamed other isOther
  · intro buildable
    have isSlug : SlugShape book.toml.bookSlug.toList := slug_iff_shape.mpr buildable.slug
    exact ⟨_, ⟨rfl, ⟨⟨buildable.kinds, isSlug, buildable.fields, buildable.distinct, fun _ _ => ⟨rfl, rfl⟩⟩,
      trivial⟩,
      rfl, buildable.keyed runId drafts reports ran, fun _ _ => rfl⟩, rfl⟩

/-- The slugs of all stored books can be typed. -/
def Typable (store : Store) : Prop :=
  ∀ row ∈ store.books, TypedItemId.fromStr (TypedItemId.display (.reference row.bookSlug none)) =
    .ok (.reference row.bookSlug none)

theorem typable_of_listed {store : Store} (listed : Listed store) : Typable store := by
  intro row member
  have isRead : TypedItemId.ofPayload .reference row.bookSlug = .ok (.reference row.bookSlug none) := by
    rw [Catalog.ofPayload_reference, Catalog.slugAndKey_slug (listed row member)]
    exact ⟨listed row member, rfl⟩
  exact Catalog.fromStr_display isRead

/-- **Of what the lint accepts the build accepts** the books of the shape the store asks for, and no others.
The storage calls go through: a limit of SQLite's own that an index statement meets is a failed call. -/
theorem lint_accepts_iff {store : Store} (reached : Reachable setup store) {sampleLines : Nat}
    (sampled : sampleLines ≠ 0) (covers : (Lines.lines book.source).length ≤ sampleLines)
    (linted : lintOne setup runId sampleLines book = .ok ()) {args : BuildArgs} (notDry : args.dryRun = false)
    (notGated : args.noRetentionCheck = true) (runId' : String) :
    ((runBooks setup (fun _ => doneFates) args runId' [book]).ending store = .value () ∧
        Typable ((runBooks setup (fun _ => doneFates) args runId' [book]).left store)) ↔
      Buildable setup book := by
  obtain ⟨drafts, reports, ran⟩ := draft_of_lint sampled covers linted runId'
  rw [← buildable_iff ran args notDry notGated store]
  have single : runBooks setup (fun _ => doneFates) args runId' [book] =
      (runBook setup doneFates args runId' book >>= fun _ => pure ()) := rfl
  have listed := listed_of_reachable (reached.build (fun _ => doneFates) args runId' [book])
  constructor
  · rintro ⟨returned, -⟩
    have isPair : runBooks setup (fun _ => doneFates) args runId' [book] store =
        (.value (), (runBooks setup (fun _ => doneFates) args runId' [book]).left store) := Prod.ext returned rfl
    rw [single, Prog.bind_returned] at isPair
    obtain ⟨_, after, built, -⟩ := isPair
    exact ⟨after, built⟩
  · rintro ⟨after, built⟩
    refine ⟨?_, typable_of_listed listed⟩
    rw [single]
    exact congrArg Prod.fst (Prog.bind_returned.mpr ⟨(), after, built, rfl⟩)

end Lint

/-! ### A slug only the lint accepts -/

/-- The sample with one declared index. -/
def indexedBook : ResolvedBook := sampleBook "fake_book" "Smith" [⟨"country", "btree"⟩]

theorem indexedBook_buildable : Buildable sampleSetup indexedBook where
  slug := ⟨'f', "ake_book".toList, by decide +kernel, by decide, by decide +kernel⟩
  kinds := by decide
  fields := by
    intro entry member
    obtain rfl := List.mem_singleton.mp member
    refine ⟨by decide, ?_⟩
    show ∀ segment ∈ "country".toList.splitOn '.', Refs.slugFault segment = none
    decide +kernel
  distinct := by decide
  keyed := by
    intro runId drafts reports drafted draft member
    have names : (indexedBook.toml.draft sampleSetup indexedBook.source "lint").toOption.map
        (fun draft => draft.1.map EntryDraft.entryKey) = some ["smith"] := by
      decide +kernel
    cases ran : indexedBook.toml.draft sampleSetup indexedBook.source "lint" with
    | error failed =>
      rw [ran] at names
      cases names
    | ok linted =>
      rw [ran] at names
      have isNames : linted.1.map EntryDraft.entryKey = ["smith"] := Option.some.inj names
      have isKey : draft.entryKey ∈ drafts.map EntryDraft.entryKey := List.mem_map_of_mem member
      rw [keys_of_draft ran drafted, isNames, List.mem_singleton] at isKey
      rw [isKey]
      decide

theorem lint_accepts_iff_sample :
    (runBooks sampleSetup (fun _ => doneFates) sampleArgs "2026-06-25" [indexedBook]).ending ⟨[], [], []⟩ =
        .value () ∧
      Typable ((runBooks sampleSetup (fun _ => doneFates) sampleArgs "2026-06-25" [indexedBook]).left
        ⟨[], [], []⟩) := by
  have sampled : 5 ≠ 0 := by decide
  have covers : (Lines.lines indexedBook.source).length ≤ 5 := by decide +kernel
  have linted : lintOne sampleSetup "lint" 5 indexedBook = .ok () := by decide +kernel
  exact (lint_accepts_iff .empty sampled covers linted rfl rfl _).mpr indexedBook_buildable

/-- A slug with a hyphen passes the lint; the store takes none. -/
theorem lint_accepts_hyphen :
    lintOne sampleSetup "lint" 5 (sampleBook "fake-book" "Smith" []) = .ok () ∧
      (Lines.lines (sampleBook "fake-book" "Smith" []).source).length ≤ 5 ∧
      (runBooks sampleSetup (fun _ => doneFates) sampleArgs "2026-06-25"
        [sampleBook "fake-book" "Smith" []]).ending
        ⟨[], [], []⟩ = .error (.refs (.invalidIdentifier (.slugChars "fake-book"))) := by
  refine ⟨?_, ?_, ?_⟩
  · decide +kernel
  · decide +kernel
  · decide +kernel

end Bookrack.Distill
