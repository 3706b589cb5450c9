/-
The table-of-contents projection `Corpus::toc_for_book` (`corpus/src/node.rs`).

* `IsTocForBook table root q listing`: SQLite may return `listing`. `ORDER BY` leaves rows with equal
  keys in any order, so this is a relation; `tocForBook` is one of its values.
* **`unfiltered_listing_eq`**: where the rows can be put in strictly ascending order of their keys,
  the unfiltered listing is that order and no other.
-/

import Bookrack.Corpus.Node
import Mathlib.Algebra.Group.Nat.Defs
import Mathlib.Data.List.Infix
import Mathlib.Data.List.Pairwise
import Mathlib.Data.List.Sort

namespace Bookrack.Corpus

/-- Pagination and filters of one projection. -/
structure TocQuery where
  cap : Nat
  offset : Nat
  maxDepth : Option Int
  titleSubstring : Option String
  deriving DecidableEq, Repr

/-- `ORGANIZING_NODE_TYPES`. -/
def organizingNodeTypes : List NodeType :=
  [.collection, .volume, .work, .chapter, .section, .subsection]

/-- `title LIKE '%needle%'` with the metacharacters escaped: a substring, ASCII case ignored. -/
def titleContains (title needle : String) : Bool :=
  decide (needle.toList.map Char.toLower <:+: title.toList.map Char.toLower)

/-- `toc_where_sql`; a NULL title matches no pattern. -/
def TocQuery.keeps (q : TocQuery) (root : NodeId) (node : Node) : Bool :=
  decide (node.bookRootId = root) && organizingNodeTypes.contains node.nodeType &&
    q.maxDepth.all (fun maxDepth => decide (node.depth ≤ maxDepth)) &&
    q.titleSubstring.all (fun needle => node.title.any (titleContains · needle))

/-- `<` on a nullable column: NULL comes first. -/
def NullsFirst : Option Int → Option Int → Prop
  | none, some _ => True
  | some one, some other => one < other
  | _, none => False

instance : DecidableRel NullsFirst
  | none, some _ => isTrue trivial
  | some one, some other => inferInstanceAs (Decidable (one < other))
  | none, none => isFalse id
  | some _, none => isFalse id

/-- `ORDER BY toc_lo, depth, ordinal`. -/
def TocLe (one other : Node) : Prop :=
  NullsFirst one.tocLo other.tocLo ∨ one.tocLo = other.tocLo ∧
    (one.depth < other.depth ∨ one.depth = other.depth ∧ one.ordinal ≤ other.ordinal)

instance : DecidableRel TocLe := fun _ _ => inferInstanceAs (Decidable (_ ∨ _))

/-- `i64::try_from(n).unwrap_or(i64::MAX)`. -/
def clampI64 (n : Nat) : Nat := min n (2 ^ 63 - 1)

/-- `LIMIT :cap OFFSET :offset`. -/
def TocQuery.page (q : TocQuery) (ordered : List Node) : List Node :=
  (ordered.drop (clampI64 q.offset)).take (clampI64 q.cap)

/-- `Corpus::toc_for_book` may return `listing`. -/
def IsTocForBook (table : List Node) (root : NodeId) (q : TocQuery) (listing : List Node) : Prop :=
  ∃ ordered : List Node, ordered.Perm (table.filter (q.keeps root)) ∧ ordered.Pairwise TocLe ∧
    listing = q.page ordered

/-- `Corpus::toc_for_book` with a stable sort. -/
def tocForBook (table : List Node) (root : NodeId) (q : TocQuery) : List Node :=
  q.page ((table.filter (q.keeps root)).insertionSort TocLe)

/-- No filter, no offset, and room for `count` rows. -/
structure TocQuery.Unfiltered (q : TocQuery) (count : Nat) : Prop where
  maxDepth : q.maxDepth = none
  titleSubstring : q.titleSubstring = none
  offset : q.offset = 0
  cap : count ≤ clampI64 q.cap

/-! ### The order -/

theorem NullsFirst.trans {one mid other : Option Int} (first : NullsFirst one mid)
    (second : NullsFirst mid other) : NullsFirst one other := by
  match one, mid, other, first, second with
  | none, some _, some _, _, _ => trivial
  | some _, some _, some _, first, second => exact Int.lt_trans first second

theorem NullsFirst.total (one other : Option Int) :
    NullsFirst one other ∨ one = other ∨ NullsFirst other one := by
  match one, other with
  | none, none => exact .inr (.inl rfl)
  | none, some _ => exact .inl trivial
  | some _, none => exact .inr (.inr trivial)
  | some one, some other =>
    rcases Int.lt_trichotomy one other with less | same | more
    · exact .inl less
    · exact .inr (.inl (congrArg some same))
    · exact .inr (.inr more)

instance : Std.Total TocLe where
  total one other := by
    rcases NullsFirst.total one.tocLo other.tocLo with less | same | more
    · exact .inl (.inl less)
    · by_cases deeper : one.depth < other.depth ∨
          one.depth = other.depth ∧ one.ordinal ≤ other.ordinal
      · exact .inl (.inr ⟨same, deeper⟩)
      · exact .inr (.inr ⟨same.symm, by omega⟩)
    · exact .inr (.inl more)

instance : IsTrans Node TocLe where
  trans one mid other first second := by
    rcases first with less | ⟨same, first⟩ <;> rcases second with less' | ⟨same', second⟩
    · exact .inl (less.trans less')
    · exact .inl (same' ▸ less)
    · exact .inl (same ▸ less')
    · exact .inr ⟨same.trans same', by omega⟩

/-- Rows with positions are told apart by them, or by depth. -/
theorem tocLe_strict {one other : Node} {lo lo' : Int} (isLo : one.tocLo = some lo)
    (isLo' : other.tocLo = some lo') (before : lo < lo' ∨ lo = lo' ∧ one.depth < other.depth) :
    TocLe one other ∧ ¬TocLe other one := by
  unfold TocLe
  rw [isLo, isLo', Option.some.injEq, Option.some.injEq]
  show (lo < lo' ∨ _) ∧ ¬(lo' < lo ∨ _)
  omega

/-- A row without a position is listed before every row with one. -/
theorem not_tocLe_null {one other : Node} {lo : Int} (isLo : one.tocLo = some lo)
    (isNull : other.tocLo = none) : ¬TocLe one other := by
  unfold TocLe
  rw [isLo, isNull]
  rintro (less | ⟨same, -⟩)
  · exact less
  · cases same

/-- A stable sort gives a listing SQLite may return. -/
theorem isTocForBook_tocForBook (table : List Node) (root : NodeId) (q : TocQuery) :
    IsTocForBook table root q (tocForBook table root q) :=
  ⟨_, List.perm_insertionSort _ _, List.pairwise_insertionSort _ _, rfl⟩

/-! ### The unfiltered listing -/

namespace TocQuery.Unfiltered

variable {q : TocQuery} {count : Nat}

theorem keeps_eq (unfiltered : q.Unfiltered count) (root : NodeId) (node : Node) :
    q.keeps root node = (decide (node.bookRootId = root) && node.nodeType.isOrganizing) := by
  have kinds : organizingNodeTypes.contains node.nodeType = node.nodeType.isOrganizing := by
    cases node.nodeType <;> rfl
  rw [keeps, kinds, unfiltered.maxDepth, unfiltered.titleSubstring]
  simp

theorem page_eq (unfiltered : q.Unfiltered count) {ordered : List Node}
    (fits : ordered.length ≤ count) : q.page ordered = ordered := by
  rw [page, unfiltered.offset]
  exact List.take_of_length_le (fits.trans unfiltered.cap)

end TocQuery.Unfiltered

/-- **Rows in strictly ascending order are the listing.** -/
theorem unfiltered_listing_eq {table rows : List Node} {root : NodeId} {q : TocQuery} {count : Nat}
    (unfiltered : q.Unfiltered count) (fits : rows.length ≤ count)
    (isAll : rows.Perm (table.filter (q.keeps root)))
    (ascending : rows.Pairwise fun one other => TocLe one other ∧ ¬TocLe other one)
    {listing : List Node} (isListing : IsTocForBook table root q listing) : listing = rows := by
  obtain ⟨ordered, isPerm, sorted, rfl⟩ := isListing
  have samePerm : ordered.Perm rows := isPerm.trans isAll.symm
  rw [unfiltered.page_eq (samePerm.length_eq ▸ fits)]
  have rowsSorted : rows.Pairwise TocLe := ascending.imp And.left
  refine samePerm.eq_of_pairwise ?_ sorted rowsSorted
  intro one other member member' le le'
  by_contra differ
  -- two rows of a strict order compare one way only
  have oneWay : rows.Pairwise fun one other => ¬(TocLe one other ∧ TocLe other one) :=
    ascending.imp fun strict both => strict.2 both.2
  have : Std.Symm fun one other => ¬(TocLe one other ∧ TocLe other one) :=
    ⟨fun _ _ compares both => compares both.symm⟩
  exact oneWay.forall (samePerm.subset member) member' differ ⟨le, le'⟩

end Bookrack.Corpus
