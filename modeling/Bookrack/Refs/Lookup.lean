/-
Lookup in the reference store: `Refs::lookup`, `lookup_at` and `lookup_resolved` (`refs/src/lib.rs`).

* `lookupResolved_ranked`, `lookupResolved_inScope` — one query: its order and its filters.
* `lookupAt_pass` — one pass at a literal key: plain, looped, or one hop along a redirect.
* **`lookup_rules`** — a lookup is the pass at the key, or at its fallback form where the key has no hit.
-/

import Bookrack.Refs.Store
import Mathlib.Data.List.Sort
import Mathlib.Data.String.Basic

namespace Bookrack.Refs

/-! ### The query -/

/-- The books and entries the `WHERE` clause lets through. -/
def InScope (bookSlug : Option String) (exclude : List String) (hit : ResolvedEntry) : Prop :=
  (∀ slug ∈ bookSlug, hit.bookSlug = slug) ∧ hit.bookSlug ∉ exclude

instance (bookSlug : Option String) (exclude : List String) (hit : ResolvedEntry) :
    Decidable (InScope bookSlug exclude hit) := inferInstanceAs (Decidable (_ ∧ _))

/-- `ORDER BY b.authority_rank DESC, b.built_at ASC`. -/
def Before (one other : BookRow × ResolvedEntry) : Prop :=
  other.1.authorityRank < one.1.authorityRank ∨
    one.1.authorityRank = other.1.authorityRank ∧ one.1.builtAt ≤ other.1.builtAt

instance : DecidableRel Before := fun _ _ => inferInstanceAs (Decidable (_ ∨ _))

instance : Std.Total Before where
  total := by
    intro one other
    rcases lt_trichotomy one.1.authorityRank other.1.authorityRank with lower | same | higher
    · exact .inr (.inl lower)
    · exact (le_total one.1.builtAt other.1.builtAt).imp (fun le => .inr ⟨same, le⟩)
        fun le => .inr ⟨same.symm, le⟩
    · exact .inl (.inl higher)

instance : IsTrans (BookRow × ResolvedEntry) Before where
  trans := by
    intro one middle other first second
    rcases first with lower | ⟨same, le⟩
    · rcases second with lower' | ⟨same', -⟩
      · exact .inl (lower'.trans lower)
      · exact .inl (same' ▸ lower)
    · rcases second with lower' | ⟨same', le'⟩
      · exact .inl (same ▸ lower')
      · exact .inr ⟨same.trans same', le.trans le'⟩

/-- `JOIN reference_books USING (book_slug)`. -/
def Store.joined (store : Store) : List (BookRow × ResolvedEntry) :=
  store.resolved.flatMap fun entry =>
    (store.books.filter fun book => book.bookSlug = entry.bookSlug).map fun book => (book, entry)

/-- `Refs::lookup_resolved`; rows that tie keep the table's order. -/
def Store.lookupResolved (store : Store) (bookSlug : Option String) (entryKey : String)
    (exclude : List String) : List ResolvedEntry :=
  ((store.joined.filter fun row =>
    row.2.entryKey = entryKey ∧ InScope bookSlug exclude row.2).insertionSort Before).map Prod.snd

/-! ### The lookup -/

/-- `REDIRECT_LOOP_FLAG`. -/
def redirectLoopFlag : String := "redirect_loop"

/-- `LookupResult`. -/
structure LookupResult where
  entryKey : String
  hits : List ResolvedEntry
  primaryByAuthority : Option Nat
  redirectFollowed : Option String
  deriving Repr

/-- `redirect_target`. -/
def redirectTarget (entry : ResolvedEntry) : Option String :=
  (entry.payload.get? "redirect_to").bind Json.str?

/-- A hit stamped as part of a loop. -/
def ResolvedEntry.looped (hit : ResolvedEntry) : ResolvedEntry :=
  if redirectLoopFlag ∈ hit.qualityFlags then hit
  else { hit with qualityFlags := hit.qualityFlags ++ [redirectLoopFlag] }

/-- The reply without a redirect. -/
def directReply (entryKey : String) (hits : List ResolvedEntry) : LookupResult where
  entryKey := entryKey
  hits := hits
  primaryByAuthority := if hits.isEmpty then none else some 0
  redirectFollowed := none

/-- The reply to a key whose one hit names a target. -/
def redirectReply (entryKey : String) (hit : ResolvedEntry) (targetHits : List ResolvedEntry) :
    LookupResult :=
  if targetHits.any fun other => redirectTarget other = some entryKey then
    { entryKey := entryKey, hits := [hit.looped], primaryByAuthority := some 0,
      redirectFollowed := none }
  else if targetHits.isEmpty then directReply entryKey [hit]
  else
    { entryKey := entryKey, hits := targetHits, primaryByAuthority := some 0,
      redirectFollowed := some entryKey }

/-- `Refs::lookup_at`. -/
def Store.lookupAt (store : Store) (bookSlug : Option String) (entryKey : String)
    (exclude : List String) : LookupResult :=
  match store.lookupResolved bookSlug entryKey exclude with
  | [hit] =>
    match redirectTarget hit with
    | some target => redirectReply entryKey hit (store.lookupResolved bookSlug target exclude)
    | none => directReply entryKey [hit]
  | hits => directReply entryKey hits

section Fallback

variable (lowercase : String → String) (isAlphanumeric : Char → Bool)

/-- `latin_fallback_key`; the letters' cases and classes are Unicode's. -/
def latinFallbackKey (query : String) : String :=
  String.ofList ((lowercase query).toList.filter isAlphanumeric)

/-- `Refs::lookup`. -/
def Store.lookup (store : Store) (bookSlug : Option String) (entryKey : String)
    (exclude : List String) : LookupResult :=
  let direct := store.lookupAt bookSlug entryKey exclude
  if direct.hits.isEmpty then
    let fallback := latinFallbackKey lowercase isAlphanumeric entryKey
    if fallback = entryKey ∨ fallback = "" then direct
    else { store.lookupAt bookSlug fallback exclude with entryKey := entryKey }
  else direct

end Fallback

/-! ### One query -/

section Query

variable {store : Store} {bookSlug : Option String} {entryKey : String} {exclude : List String}

/-- Hits listed by the authority and the build time of their books. -/
def Ranked (store : Store) (hits : List ResolvedEntry) : Prop :=
  ∃ rows : List (BookRow × ResolvedEntry), rows.map Prod.snd = hits ∧
    (∀ row ∈ rows, row.1 ∈ store.books ∧ row.1.bookSlug = row.2.bookSlug) ∧ rows.Pairwise Before

theorem mem_joined {row : BookRow × ResolvedEntry} : row ∈ store.joined ↔
    row.2 ∈ store.resolved ∧ row.1 ∈ store.books ∧ row.1.bookSlug = row.2.bookSlug := by
  obtain ⟨book, entry⟩ := row
  simp [Store.joined]

theorem lookupResolved_ranked : Ranked store (store.lookupResolved bookSlug entryKey exclude) := by
  refine ⟨_, rfl, fun row member => ?_, List.pairwise_insertionSort _ _⟩
  rw [List.mem_insertionSort, List.mem_filter] at member
  exact (mem_joined.mp member.1).2

/-- **What a query returns**: the resolved rows of the key that are in scope and whose book is registered. -/
theorem mem_lookupResolved {hit : ResolvedEntry} :
    hit ∈ store.lookupResolved bookSlug entryKey exclude ↔
      hit ∈ store.resolved ∧ (∃ book ∈ store.books, book.bookSlug = hit.bookSlug) ∧
        hit.entryKey = entryKey ∧ InScope bookSlug exclude hit := by
  rw [Store.lookupResolved, List.mem_map]
  constructor
  · rintro ⟨row, member, rfl⟩
    rw [List.mem_insertionSort, List.mem_filter, decide_eq_true_iff] at member
    obtain ⟨isResolved, isBook, same⟩ := mem_joined.mp member.1
    exact ⟨isResolved, ⟨row.1, isBook, same⟩, member.2⟩
  · rintro ⟨isResolved, ⟨book, isBook, same⟩, matching⟩
    refine ⟨(book, hit), ?_, rfl⟩
    rw [List.mem_insertionSort, List.mem_filter, decide_eq_true_iff]
    exact ⟨mem_joined.mpr ⟨isResolved, isBook, same⟩, matching⟩

theorem looped_bookSlug (hit : ResolvedEntry) : hit.looped.bookSlug = hit.bookSlug := by
  unfold ResolvedEntry.looped
  split_ifs <;> rfl

theorem looped_flagged (hit : ResolvedEntry) : redirectLoopFlag ∈ hit.looped.qualityFlags := by
  unfold ResolvedEntry.looped
  split_ifs with flagged
  · exact flagged
  · exact List.mem_append_right _ (List.mem_singleton.mpr rfl)

/-- Stamping the one hit of a key leaves it where it was. -/
theorem Ranked.looped {hit : ResolvedEntry} (ranked : Ranked store [hit]) :
    Ranked store [hit.looped] := by
  obtain ⟨rows, isHit, fromBooks, -⟩ := ranked
  obtain ⟨row, rfl, rfl⟩ := List.map_eq_singleton_iff.mp isHit
  refine ⟨[(row.1, row.2.looped)], rfl, ?_, List.pairwise_singleton _ _⟩
  intro other member
  rw [List.mem_singleton] at member
  subst member
  have fromBook := fromBooks row (List.mem_singleton.mpr rfl)
  exact ⟨fromBook.1, fromBook.2.trans (looped_bookSlug row.2).symm⟩

end Query

/-! ### One pass -/

/-- The only hit is a redirect to the target. -/
def RedirectsTo (hits : List ResolvedEntry) (target : String) : Prop :=
  ∃ hit, hits = [hit] ∧ redirectTarget hit = some target

/-- The redirect of a key leads somewhere, and nothing there leads back. -/
structure Follows (hitsAt : String → List ResolvedEntry) (key target : String) : Prop where
  redirects : RedirectsTo (hitsAt key) target
  found : hitsAt target ≠ []
  noReturn : ∀ hit ∈ hitsAt target, redirectTarget hit ≠ some key

/-- The redirect of a key leads back to it. -/
def Loops (hitsAt : String → List ResolvedEntry) (key : String) : Prop :=
  ∃ target, RedirectsTo (hitsAt key) target ∧ ∃ hit ∈ hitsAt target, redirectTarget hit = some key

/-- The reply of a pass at a key over what the queries return. -/
structure Pass (hitsAt : String → List ResolvedEntry) (key : String) (reply : LookupResult) : Prop where
  followed : ∀ target, Follows hitsAt key target →
    reply.hits = hitsAt target ∧ reply.redirectFollowed = some key
  looped : Loops hitsAt key →
    reply.hits = (hitsAt key).map ResolvedEntry.looped ∧
      (∀ hit ∈ reply.hits, redirectLoopFlag ∈ hit.qualityFlags) ∧ reply.redirectFollowed = none
  direct : (¬ ∃ target, Follows hitsAt key target) → ¬ Loops hitsAt key →
    reply.hits = hitsAt key ∧ reply.redirectFollowed = none
  primary : reply.primaryByAuthority = if reply.hits.isEmpty then none else some 0

section OnePass

variable {hitsAt : String → List ResolvedEntry} {key : String}

theorem RedirectsTo.unique {hits : List ResolvedEntry} {target target' : String}
    (redirects : RedirectsTo hits target) (redirects' : RedirectsTo hits target') : target = target' := by
  obtain ⟨hit, rfl, isTarget⟩ := redirects
  obtain ⟨hit', same, isTarget'⟩ := redirects'
  obtain ⟨rfl, -⟩ := List.cons.inj same
  exact Option.some.inj (isTarget.symm.trans isTarget')

/-- Without a redirect the reply is direct. -/
theorem pass_direct (plain : ∀ target, ¬ RedirectsTo (hitsAt key) target) :
    Pass hitsAt key (directReply key (hitsAt key)) where
  followed := fun target follows => absurd follows.redirects (plain target)
  looped := fun ⟨target, redirects, _⟩ => absurd redirects (plain target)
  direct := fun _ _ => ⟨rfl, rfl⟩
  primary := rfl

/-- Where the target leads back, the redirect is not followed. -/
theorem Loops.not_follows (loops : Loops hitsAt key) (target : String) : ¬ Follows hitsAt key target := by
  intro follows
  obtain ⟨target', redirects, hit, isHit, returns⟩ := loops
  have same := redirects.unique follows.redirects
  subst same
  exact follows.noReturn hit isHit returns

/-- **A redirect is followed one hop**, unless it loops or dangles. -/
theorem pass_redirect {hit : ResolvedEntry} {target : String} (isHit : hitsAt key = [hit])
    (isTarget : redirectTarget hit = some target) :
    Pass hitsAt key (redirectReply key hit (hitsAt target)) := by
  have redirects : RedirectsTo (hitsAt key) target := ⟨hit, isHit, isTarget⟩
  have noReturn : ¬ ((hitsAt target).any fun other => redirectTarget other = some key) = true →
      ∀ other ∈ hitsAt target, redirectTarget other ≠ some key := by
    intro back other isOther returns
    exact back (List.any_eq_true.mpr ⟨other, isOther, decide_eq_true returns⟩)
  unfold redirectReply
  split_ifs with back empty
  · obtain ⟨other, isOther, returns⟩ := List.any_eq_true.mp back
    have loops : Loops hitsAt key := ⟨target, redirects, other, isOther, of_decide_eq_true returns⟩
    refine ⟨?_, ?_, ?_, rfl⟩
    · intro target' follows
      exact absurd follows (loops.not_follows target')
    · intro _
      rw [isHit]
      refine ⟨rfl, fun hit' member => ?_, rfl⟩
      rw [List.mem_singleton.mp member]
      exact looped_flagged hit
    · intro _ once
      exact absurd loops once
  · rw [List.isEmpty_iff] at empty
    refine ⟨?_, ?_, ?_, rfl⟩
    · intro target' follows
      have same := redirects.unique follows.redirects
      subst same
      exact absurd empty follows.found
    · rintro ⟨target', redirects', other, isOther, -⟩
      have same := redirects.unique redirects'
      subst same
      rw [empty] at isOther
      cases isOther
    · intro _ _
      exact ⟨isHit.symm, rfl⟩
  · rw [List.isEmpty_iff] at empty
    have follows : Follows hitsAt key target := ⟨redirects, empty, noReturn back⟩
    refine ⟨?_, ?_, ?_, ?_⟩
    · intro target' follows'
      have same := redirects.unique follows'.redirects
      subst same
      exact ⟨rfl, rfl⟩
    · intro loops
      exact absurd follows (loops.not_follows target)
    · intro none
      exact absurd ⟨target, follows⟩ none
    · show some 0 = if (hitsAt target).isEmpty then none else some 0
      rw [if_neg (by simpa using empty)]

end OnePass

section Lookup

variable {store : Store} {bookSlug : Option String} {exclude : List String}

/-- **One pass at a literal key.** -/
theorem lookupAt_pass (store : Store) (bookSlug : Option String) (exclude : List String) (key : String) :
    Pass (fun key => store.lookupResolved bookSlug key exclude) key
      (store.lookupAt bookSlug key exclude) := by
  unfold Store.lookupAt
  split
  · rename_i hit isHit
    cases isTarget : redirectTarget hit with
    | some target => exact pass_redirect isHit isTarget
    | none =>
      rw [← isHit]
      refine pass_direct fun target redirects => ?_
      obtain ⟨hit', same, isTarget'⟩ := redirects
      obtain ⟨rfl, -⟩ := List.cons.inj (isHit.symm.trans same)
      rw [isTarget] at isTarget'
      cases isTarget'
  · rename_i hits several
    refine pass_direct fun target redirects => ?_
    obtain ⟨hit, same, -⟩ := redirects
    exact several hit same

/-- The hits of a pass are in scope and in order. -/
theorem lookupAt_hits (key : String) :
    (∀ hit ∈ (store.lookupAt bookSlug key exclude).hits, InScope bookSlug exclude hit) ∧
      Ranked store (store.lookupAt bookSlug key exclude).hits := by
  have pass := lookupAt_pass store bookSlug exclude key
  have queried : ∀ used, (∀ hit ∈ store.lookupResolved bookSlug used exclude,
      InScope bookSlug exclude hit) ∧ Ranked store (store.lookupResolved bookSlug used exclude) :=
    fun used => ⟨fun hit member => (mem_lookupResolved.mp member).2.2.2, lookupResolved_ranked⟩
  by_cases loops : Loops (fun key => store.lookupResolved bookSlug key exclude) key
  · rw [(pass.looped loops).1]
    obtain ⟨target, ⟨hit, isHit, -⟩, -⟩ := loops
    have one := queried key
    simp only at isHit
    rw [isHit] at one ⊢
    refine ⟨fun other member => ?_, one.2.looped⟩
    rw [List.map_singleton, List.mem_singleton] at member
    subst member
    have inScope := one.1 hit (List.mem_singleton.mpr rfl)
    unfold InScope at inScope ⊢
    rw [looped_bookSlug]
    exact inScope
  · by_cases follows : ∃ target, Follows (fun key => store.lookupResolved bookSlug key exclude) key target
    · obtain ⟨target, follows⟩ := follows
      rw [(pass.followed target follows).1]
      exact queried target
    · rw [(pass.direct follows loops).1]
      exact queried key

/-- A pass finds something exactly when its query does. -/
theorem lookupAt_empty {key : String} : (store.lookupAt bookSlug key exclude).hits = [] ↔
    store.lookupResolved bookSlug key exclude = [] := by
  have pass := lookupAt_pass store bookSlug exclude key
  by_cases loops : Loops (fun key => store.lookupResolved bookSlug key exclude) key
  · rw [(pass.looped loops).1, List.map_eq_nil_iff]
  · by_cases follows : ∃ target, Follows (fun key => store.lookupResolved bookSlug key exclude) key target
    · obtain ⟨target, follows⟩ := follows
      rw [(pass.followed target follows).1]
      obtain ⟨hit, isHit, -⟩ := follows.redirects
      simp [isHit, follows.found]
    · rw [(pass.direct follows loops).1]

/-- **The rules of a lookup.** A query returns the stored rows of its key in scope. The hits of a lookup
lie in the scope and outside the excluded books, in the order of authority and build time; it is the
pass at the key, or where the key has no hit the pass at the key's fallback form. -/
theorem lookup_rules (lowercase : String → String) (isAlphanumeric : Char → Bool) (store : Store)
    (bookSlug : Option String) (key : String) (exclude : List String) :
    (∀ used hit, hit ∈ store.lookupResolved bookSlug used exclude ↔
      hit ∈ store.resolved ∧ (∃ book ∈ store.books, book.bookSlug = hit.bookSlug) ∧
        hit.entryKey = used ∧ InScope bookSlug exclude hit) ∧
    (∀ hit ∈ (store.lookup lowercase isAlphanumeric bookSlug key exclude).hits,
      InScope bookSlug exclude hit) ∧
    Ranked store (store.lookup lowercase isAlphanumeric bookSlug key exclude).hits ∧
    (store.lookupResolved bookSlug key exclude ≠ [] →
      Pass (fun key => store.lookupResolved bookSlug key exclude) key
        (store.lookup lowercase isAlphanumeric bookSlug key exclude)) ∧
    (store.lookupResolved bookSlug key exclude = [] →
      ∀ fallback, fallback = latinFallbackKey lowercase isAlphanumeric key →
        (fallback ≠ key → fallback ≠ "" →
          Pass (fun key => store.lookupResolved bookSlug key exclude) fallback
            (store.lookup lowercase isAlphanumeric bookSlug key exclude)) ∧
        (fallback = key ∨ fallback = "" →
          store.lookup lowercase isAlphanumeric bookSlug key exclude = directReply key [])) := by
  refine ⟨fun _ _ => mem_lookupResolved, ?_⟩
  by_cases missed : store.lookupResolved bookSlug key exclude = []
  · have empty : (store.lookupAt bookSlug key exclude).hits.isEmpty = true :=
      List.isEmpty_iff.mpr (lookupAt_empty.mpr missed)
    by_cases useless : latinFallbackKey lowercase isAlphanumeric key = key ∨
        latinFallbackKey lowercase isAlphanumeric key = ""
    · have same : store.lookup lowercase isAlphanumeric bookSlug key exclude =
          store.lookupAt bookSlug key exclude := by
        rw [Store.lookup, if_pos empty, if_pos useless]
      rw [same]
      refine ⟨(lookupAt_hits key).1, (lookupAt_hits key).2, fun found => absurd missed found, ?_⟩
      rintro _ fallback rfl
      refine ⟨fun differs some => absurd useless (not_or.mpr ⟨differs, some⟩), fun _ => ?_⟩
      unfold Store.lookupAt
      rw [missed]
    · have same : store.lookup lowercase isAlphanumeric bookSlug key exclude =
          { store.lookupAt bookSlug (latinFallbackKey lowercase isAlphanumeric key) exclude with
            entryKey := key } := by
        rw [Store.lookup, if_pos empty, if_neg useless]
      rw [same]
      refine ⟨(lookupAt_hits _).1, (lookupAt_hits _).2, fun found => absurd missed found, ?_⟩
      rintro _ fallback rfl
      refine ⟨fun _ _ => ?_, fun isUseless => absurd isUseless useless⟩
      obtain ⟨followed, looped, direct, primary⟩ := lookupAt_pass store bookSlug exclude
        (latinFallbackKey lowercase isAlphanumeric key)
      exact ⟨followed, looped, direct, primary⟩
  · have found : ¬ (store.lookupAt bookSlug key exclude).hits.isEmpty = true := by
      rw [List.isEmpty_iff]
      exact fun empty => missed (lookupAt_empty.mp empty)
    have same : store.lookup lowercase isAlphanumeric bookSlug key exclude =
        store.lookupAt bookSlug key exclude := by
      rw [Store.lookup, if_neg found]
    rw [same]
    exact ⟨(lookupAt_hits key).1, (lookupAt_hits key).2, fun _ => lookupAt_pass store bookSlug exclude key,
      fun isMissed => absurd isMissed missed⟩

end Lookup

end Bookrack.Refs
