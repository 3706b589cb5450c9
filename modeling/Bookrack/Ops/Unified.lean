/-
Unified search over the book and the paper store: `search_unified`, `apply_rerank_stage` and
`take_ranked` (`ops/src/reads/search.rs`), over the read facade of one store (`query/src/lib.rs`,
`cite` of `search/src/lib.rs`) and the rerank client (`rerank/src/lib.rs`).

* `recallBoth_stamped` — what each store recalled carries the kind of that store.
* `takeRanked_iff` — a ranking is taken exactly when it names each candidate at most once.
* **`searchUnified_union`** — the merged hits are the nearest of both stores put together, and a
  reranker reorders those.
-/

import Bookrack.Base.Fallible
import Bookrack.Base.Nearest
import Bookrack.Core.NodeId
import Bookrack.Queue.Job

namespace Bookrack.Search

open Queue (ItemKind)

/-! ### One store -/

/-- `PartialOrd::partial_cmp` of distances. -/
class PartialCmp (D : Type) where
  partialCmp : D → D → Option Ordering

/-- What the sort compares by: incomparable distances count as equal. -/
def cmpDistance {D : Type} [PartialCmp D] (one other : D) : Ordering :=
  (PartialCmp.partialCmp one other).getD .eq

/-- `SearchHit`: a row of a store and its distance to the query. -/
structure SearchHit (D : Type) where
  text : String
  startNodeId : NodeId
  startCharOffset : Int
  endNodeId : NodeId
  endCharOffset : Int
  normChunkSha256 : String
  distance : D
  deriving DecidableEq, Repr

/-- `SearchOptions`. -/
structure SearchOptions where
  nprobes : Option Nat
  refineFactor : Option Nat
  bypassIndex : Bool
  excludePartitions : List PartitionIdx
  deriving DecidableEq, Repr

/-- `LeafContext`. -/
structure LeafContext where
  breadcrumb : String
  tocPosition : Option Int
  enclosingNodeId : Option NodeId
  deriving DecidableEq, Repr

/-- `Citation`: a hit, where to cite it from, and its score once reranked. -/
structure Citation (D S : Type) where
  hit : SearchHit D
  breadcrumb : String
  intakeId : Int
  kind : ItemKind
  tocPosition : Option Int
  enclosingNodeId : Option NodeId
  rerankScore : Option S
  deriving DecidableEq, Repr

/-- The store a citation says it came from, and the row. -/
def Citation.source {D S : Type} (citation : Citation D S) : ItemKind × SearchHit D :=
  (citation.kind, citation.hit)

/-- `RerankError`. -/
inductive RerankError
  | overloaded (status : Nat) (body : String)
  | unreachable (reason : String)
  | badRequest (status : Nat) (body : String)
  | malformedResponse (reason : String)
  deriving DecidableEq, Repr

/-- `OpsError`, as far as the search raises it; citing a reference item panics. -/
inductive OpsError (Failure : Type)
  | searchUnavailable
  | papersBackendNotConfigured
  | query (failure : Failure)
  | rerank (failure : RerankError)
  | panicked
  deriving DecidableEq, Repr

/-- `Library`: the warm facade over one store. `store` is what `ensure_store` finds, `leafContext` and
`paperContext` what the corpus and the catalog say of a row's start leaf. -/
structure Library (D V Failure : Type) where
  kind : ItemKind
  defaultTopK : Nat
  embedModel : String
  embedQuery : String → Except Failure V
  store : Except Failure (Option (V → SearchOptions → Nat → Except Failure (List (SearchHit D))))
  leafContext : NodeId → Except Failure LeafContext
  paperContext : NodeId → Except Failure LeafContext

/-- A failure of the store's side, as the ops report it. -/
def asQuery {Failure α : Type} : Except Failure α → Except (OpsError Failure) α
  | .ok value => .ok value
  | .error failure => .error (.query failure)

namespace Library

variable {D S V Failure : Type} (library : Library D V Failure)

/-- The context of a hit, by the kind of its store. -/
def contextOf (start : NodeId) : Except (OpsError Failure) LeafContext :=
  match library.kind with
  | .book => asQuery (library.leafContext start)
  | .paper => asQuery (library.paperContext start)
  | .reference => .error .panicked

/-- One turn of `cite`. -/
def citeHit (hit : SearchHit D) : Except (OpsError Failure) (Citation D S) := do
  let context ← library.contextOf hit.startNodeId
  .ok {
    hit := hit
    breadcrumb := context.breadcrumb
    intakeId := hit.startNodeId.partition.get
    kind := library.kind
    tocPosition := context.tocPosition
    enclosingNodeId := context.enclosingNodeId
    rerankScore := none }

/-- `cite`. -/
def cite (hits : List (SearchHit D)) : Except (OpsError Failure) (List (Citation D S)) :=
  hits.mapM library.citeHit

/-- `Library::search_with_vector`. -/
def searchWithVector (queryVector : V) (overrides : SearchOptions) (topK : Option Nat) :
    Except (OpsError Failure) (List (Citation D S)) := do
  match ← asQuery library.store with
  | none => .ok []
  | some recallRows =>
    let hits ← asQuery (recallRows queryVector overrides (topK.getD library.defaultTopK))
    library.cite hits

/-- `Library::search_with`; without a store nothing is embedded. -/
def searchWith (query : String) (overrides : SearchOptions) (topK : Option Nat) :
    Except (OpsError Failure) (List (Citation D S)) := do
  match ← asQuery library.store with
  | none => .ok []
  | some recallRows =>
    let queryVector ← asQuery (library.embedQuery query)
    let hits ← asQuery (recallRows queryVector overrides (topK.getD library.defaultTopK))
    library.cite hits

end Library

/-! ### The rerank client -/

/-- `RankedDocument`, and an entry of the server's answer. -/
structure RankedDocument (S : Type) where
  index : Nat
  score : S
  deriving DecidableEq, Repr

/-- What comes back from the server for one request. -/
inductive Reply (S : Type)
  | unreachable (reason : String)
  | undecodable (reason : String)
  | results (entries : List (RankedDocument S))
  | refused (status : Nat) (body : String)

/-- `RerankClient`: the server's reply to each attempt at a request, and the retries allowed. -/
structure RerankClient (S : Type) where
  reply : String → List String → Nat → Nat → Reply S
  maxRetries : Nat

/-- `RerankError::is_transient`. -/
def RerankError.isTransient : RerankError → Bool
  | .unreachable _ => true
  | _ => false

section Client

variable {S : Type} [LinearOrder S] (client : RerankClient S)

/-- The order of the sort by `total_cmp`: the best score first. -/
def NotWorse (one other : RankedDocument S) : Prop := other.score ≤ one.score

instance : DecidableRel (NotWorse (S := S)) := fun _ _ => inferInstanceAs (Decidable (_ ≤ _))

/-- The answer sorted and cut; entries of one score keep the server's order. -/
def bestFirst (entries : List (RankedDocument S)) (topN : Nat) : List (RankedDocument S) :=
  (entries.insertionSort NotWorse).take topN

/-- An entry that names one of the documents. -/
def checkIndex (documents : List String) (entry : RankedDocument S) :
    Except RerankError (RankedDocument S) :=
  if documents.length ≤ entry.index then
    .error (.malformedResponse
      s!"result index {entry.index} out of range for {documents.length} documents")
  else .ok entry

/-- What `rerank_once` makes of a reply. -/
def readReply (documents : List String) (topN : Nat) : Reply S →
    Except RerankError (List (RankedDocument S))
  | .unreachable reason => .error (.unreachable reason)
  | .undecodable reason => .error (.malformedResponse reason)
  | .results entries => do
    let ranked ← entries.mapM (checkIndex documents)
    .ok (bestFirst ranked topN)
  | .refused status body =>
    if 400 ≤ status ∧ status < 500 then .error (.badRequest status body)
    else .error (.overloaded status body)

/-- `rerank_once`. -/
def rerankOnce (query : String) (documents : List String) (topN attempt : Nat) :
    Except RerankError (List (RankedDocument S)) :=
  readReply documents topN (client.reply query documents topN attempt)

/-- What a failed attempt leads to while retries are left. -/
def orRetry (again : Except RerankError (List (RankedDocument S))) :
    Except RerankError (List (RankedDocument S)) → Except RerankError (List (RankedDocument S))
  | .ok ranked => .ok ranked
  | .error failure => if failure.isTransient then again else .error failure

/-- The loop of `rerank`, with the retries left. -/
def rerankFrom (query : String) (documents : List String) (topN : Nat) :
    Nat → Nat → Except RerankError (List (RankedDocument S))
  | 0, attempt => rerankOnce client query documents topN attempt
  | left + 1, attempt =>
    orRetry (rerankFrom query documents topN left (attempt + 1))
      (rerankOnce client query documents topN attempt)

/-- `RerankClient::rerank`. -/
def rerank (query : String) (documents : List String) (topN : Nat) :
    Except RerankError (List (RankedDocument S)) :=
  if documents.isEmpty ∨ topN = 0 then .ok []
  else rerankFrom client query documents topN client.maxRetries 0

end Client

/-! ### The stage -/

/-- `RerankStage`. -/
structure RerankStage (S : Type) where
  client : RerankClient S
  topKIn : Nat
  topKOut : Nat

/-- A citation with the score it was given. -/
def Citation.scored {D S : Type} (citation : Citation D S) (score : S) : Citation D S :=
  { citation with rerankScore := some score }

/-- `take_ranked`: a candidate leaves its slot when it is taken. -/
def takeRanked {D S Failure : Type} : List (Option (Citation D S)) → List (RankedDocument S) →
    Except (OpsError Failure) (List (Citation D S))
  | _, [] => .ok []
  | slots, entry :: rest =>
    match slots[entry.index]?.join with
    | none => .error (.rerank (.malformedResponse
        s!"result index {entry.index} repeated or out of range"))
    | some citation => do
      let taken ← takeRanked (slots.set entry.index none) rest
      .ok (citation.scored entry.score :: taken)

/-- A failure of the reranker, as the ops report it. -/
def asRerank {Failure α : Type} : Except RerankError α → Except (OpsError Failure) α
  | .ok value => .ok value
  | .error failure => .error (.rerank failure)

/-- `apply_rerank_stage`. -/
def applyRerankStage {D S Failure : Type} [LinearOrder S] (stage : RerankStage S) (query : String)
    (candidates : List (Citation D S)) (finalK : Nat) :
    Except (OpsError Failure) (List (Citation D S)) := do
  let keep := min finalK stage.topKOut
  if candidates.isEmpty ∨ keep = 0 then .ok []
  else
    let documents := candidates.map fun candidate => candidate.hit.text
    let ranked ← asRerank (rerank stage.client query documents keep)
    takeRanked (candidates.map some) ranked

/-! ### The search -/

/-- `Ops`, as far as the search reads it. -/
structure Ops (D S V Failure : Type) where
  library : Option (Library D V Failure)
  papersLibrary : Option (Library D V Failure)
  rerank : Option (RerankStage S)

/-- What is recalled from both stores, each asked for `recallK`. -/
def recallBoth {D S V Failure : Type} (books papers : Library D V Failure) (query : String)
    (bookOverrides paperOverrides : SearchOptions) (recallK : Nat) :
    Except (OpsError Failure) (List (Citation D S) × List (Citation D S)) := do
  if books.embedModel = papers.embedModel then
    let queryVector ← asQuery (books.embedQuery query)
    let bookHits ← books.searchWithVector queryVector bookOverrides (some recallK)
    let paperHits ← papers.searchWithVector queryVector paperOverrides (some recallK)
    .ok (bookHits, paperHits)
  else
    let bookHits ← books.searchWith query bookOverrides (some recallK)
    let paperHits ← papers.searchWith query paperOverrides (some recallK)
    .ok (bookHits, paperHits)

section Search

variable {D S V Failure : Type} [PartialCmp D]

/-- The order of the merged rows. -/
def NoFarther (one other : ItemKind × SearchHit D) : Prop :=
  cmpDistance one.2.distance other.2.distance ≠ .gt

instance : DecidableRel (NoFarther (D := D)) := fun _ _ => inferInstanceAs (Decidable (_ ≠ _))

/-- The sort of the merged citations. -/
def byDistance (citations : List (Citation D S)) : List (Citation D S) :=
  citations.insertionSort fun one other => NoFarther one.source other.source

/-- How many rows each store is asked for. -/
def Ops.recallK (ops : Ops D S V Failure) (effectiveK : Nat) : Nat :=
  ops.rerank.elim effectiveK RerankStage.topKIn

/-- `search_unified`. Of two failing stores the first is reported here. -/
def searchUnified [LinearOrder S] (ops : Ops D S V Failure) (query : String)
    (bookOverrides paperOverrides : SearchOptions) (topK : Option Nat) :
    Except (OpsError Failure) (List (Citation D S)) :=
  match ops.library, ops.papersLibrary with
  | none, _ => .error .searchUnavailable
  | some _, none => .error .papersBackendNotConfigured
  | some books, some papers => do
    let effectiveK := topK.getD books.defaultTopK
    let (bookHits, paperHits) ←
      recallBoth books papers query bookOverrides paperOverrides (ops.recallK effectiveK)
    let combined := byDistance (bookHits ++ paperHits)
    match ops.rerank with
    | none => .ok (combined.take effectiveK)
    | some stage => applyRerankStage stage query (combined.take stage.topKIn) effectiveK

end Search

/-! ### What is recalled -/

section Recall

variable {D S V Failure : Type} {library : Library D V Failure}

theorem citeHit_source {hit : SearchHit D} {citation : Citation D S}
    (cited : library.citeHit hit = .ok citation) :
    citation.source = (library.kind, hit) ∧ citation.rerankScore = none := by
  obtain ⟨context, -, isCitation⟩ := except_bind_ok.mp cited
  cases isCitation
  exact ⟨rfl, rfl⟩

/-- A list of citations as a store of this kind makes them. -/
def Stamped (kind : ItemKind) (citations : List (Citation D S)) : Prop :=
  ∀ citation ∈ citations, citation.kind = kind ∧ citation.rerankScore = none

theorem Stamped.sources {kind : ItemKind} {citations : List (Citation D S)}
    (stamped : Stamped kind citations) :
    citations.map Citation.source = (citations.map Citation.hit).map (Prod.mk kind) := by
  rw [List.map_map]
  refine List.map_congr_left fun citation member => ?_
  show (citation.kind, citation.hit) = (kind, citation.hit)
  rw [(stamped citation member).1]

theorem cite_stamped {hits : List (SearchHit D)} {citations : List (Citation D S)}
    (cited : library.cite hits = .ok citations) : Stamped library.kind citations := by
  intro citation member
  have all := mapM_ok_iff.mp cited
  have isImage : Except.ok citation ∈ hits.map library.citeHit := by
    rw [all]
    exact List.mem_map_of_mem member
  obtain ⟨hit, -, one⟩ := List.mem_map.mp isImage
  have both := citeHit_source one
  exact ⟨congrArg Prod.fst both.1, both.2⟩

theorem searchWithVector_stamped {queryVector : V} {overrides : SearchOptions} {topK : Option Nat}
    {citations : List (Citation D S)}
    (found : library.searchWithVector queryVector overrides topK = .ok citations) :
    Stamped library.kind citations := by
  obtain ⟨store, -, found⟩ := except_bind_ok.mp found
  cases store with
  | none =>
    cases found
    exact fun _ member => nomatch member
  | some recallRows =>
    obtain ⟨hits, -, cited⟩ := except_bind_ok.mp found
    exact cite_stamped cited

theorem searchWith_stamped {query : String} {overrides : SearchOptions} {topK : Option Nat}
    {citations : List (Citation D S)}
    (found : library.searchWith query overrides topK = .ok citations) :
    Stamped library.kind citations := by
  obtain ⟨store, -, found⟩ := except_bind_ok.mp found
  cases store with
  | none =>
    cases found
    exact fun _ member => nomatch member
  | some recallRows =>
    obtain ⟨queryVector, -, found⟩ := except_bind_ok.mp found
    obtain ⟨hits, -, cited⟩ := except_bind_ok.mp found
    exact cite_stamped cited

/-- **Both stores stamp their own kind**, whichever of them embedded the query. -/
theorem recallBoth_stamped {books papers : Library D V Failure} {query : String}
    {bookOverrides paperOverrides : SearchOptions} {recallK : Nat}
    {bookHits paperHits : List (Citation D S)}
    (recalled : recallBoth books papers query bookOverrides paperOverrides recallK =
      .ok (bookHits, paperHits)) :
    Stamped books.kind bookHits ∧ Stamped papers.kind paperHits := by
  unfold recallBoth at recalled
  split at recalled
  · obtain ⟨queryVector, -, recalled⟩ := except_bind_ok.mp recalled
    obtain ⟨_, fromBooks, recalled⟩ := except_bind_ok.mp recalled
    obtain ⟨_, fromPapers, recalled⟩ := except_bind_ok.mp recalled
    cases recalled
    exact ⟨searchWithVector_stamped fromBooks, searchWithVector_stamped fromPapers⟩
  · obtain ⟨_, fromBooks, recalled⟩ := except_bind_ok.mp recalled
    obtain ⟨_, fromPapers, recalled⟩ := except_bind_ok.mp recalled
    cases recalled
    exact ⟨searchWith_stamped fromBooks, searchWith_stamped fromPapers⟩

end Recall

/-! ### What is merged -/

/-- The distances of the stores are comparable: `partial_cmp` is a total preorder on them. -/
structure TotalDistances (D : Type) [PartialCmp D] : Prop where
  total : ∀ one other : D, cmpDistance one other ≠ .gt ∨ cmpDistance other one ≠ .gt
  trans : ∀ one middle other : D, cmpDistance one middle ≠ .gt → cmpDistance middle other ≠ .gt →
    cmpDistance one other ≠ .gt

section Merge

variable {D S : Type} [PartialCmp D]

/-- Sorting the citations sorts the rows they cite. -/
theorem byDistance_source (citations : List (Citation D S)) :
    (byDistance citations).map Citation.source = (citations.map Citation.source).insertionSort NoFarther :=
  List.map_insertionSort _ _ _ _ fun _ _ _ _ => Iff.rfl

theorem byDistance_perm (citations : List (Citation D S)) : (byDistance citations).Perm citations :=
  List.perm_insertionSort _ _

/-- **The merged rows are the nearest of the union.** -/
theorem merged_nearest (distances : TotalDistances D) {kind kind' : ItemKind} {k : Nat}
    {bookHits paperHits : List (Citation D S)} {bookRows paperRows : List (SearchHit D)}
    (stamped : Stamped kind bookHits) (stamped' : Stamped kind' paperHits)
    (near : Nearest (fun one other => cmpDistance one.distance other.distance ≠ .gt) k bookRows
      (bookHits.map Citation.hit))
    (near' : Nearest (fun one other => cmpDistance one.distance other.distance ≠ .gt) k paperRows
      (paperHits.map Citation.hit)) :
    Nearest NoFarther k (bookRows.map (Prod.mk kind) ++ paperRows.map (Prod.mk kind'))
      (((byDistance (bookHits ++ paperHits)).take k).map Citation.source) := by
  have : Std.Total (NoFarther (D := D)) := ⟨fun _ _ => distances.total _ _⟩
  have : IsTrans (ItemKind × SearchHit D) NoFarther := ⟨fun _ _ _ => distances.trans _ _ _⟩
  rw [List.map_take, byDistance_source, List.map_append, stamped.sources, stamped'.sources]
  exact (near.map _ fun _ _ closer => closer).merge (near'.map _ fun _ _ closer => closer)

end Merge

/-! ### What the reranker does -/

section Rerank

variable {D S Failure : Type}

/-- The candidate an entry names, with the score the entry gives it. -/
def named (candidates : List (Citation D S)) (entry : RankedDocument S) : Option (Citation D S) :=
  candidates[entry.index]?.map fun candidate => candidate.scored entry.score

/-- The candidates a ranking names, in its order, each at most once and with its own score. -/
structure Taken (candidates : List (Citation D S)) (ranked : List (RankedDocument S))
    (taken : List (Citation D S)) : Prop where
  once : (ranked.map RankedDocument.index).Nodup
  own : ranked.map (named candidates) = taken.map some

/-- What the slots hold for an entry. -/
def heldFor (slots : List (Option (Citation D S))) (entry : RankedDocument S) :
    Option (Citation D S) :=
  slots[entry.index]?.join.map fun candidate => candidate.scored entry.score

/-- An emptied slot serves no further entry, and the other slots serve as before. -/
theorem heldFor_set {slots : List (Option (Citation D S))} {index : Nat}
    {ranked : List (RankedDocument S)} {taken : List (Citation D S)} :
    ranked.map (heldFor (slots.set index none)) = taken.map some ↔
      index ∉ ranked.map RankedDocument.index ∧ ranked.map (heldFor slots) = taken.map some := by
  have other : index ∉ ranked.map RankedDocument.index →
      ranked.map (heldFor (slots.set index none)) = ranked.map (heldFor slots) := by
    intro absent
    refine List.map_congr_left fun entry member => ?_
    have differ : index ≠ entry.index := fun same => absent (same ▸ List.mem_map_of_mem member)
    rw [heldFor, heldFor, List.getElem?_set_ne differ]
  constructor
  · intro all
    have absent : index ∉ ranked.map RankedDocument.index := by
      intro member
      obtain ⟨entry, isEntry, rfl⟩ := List.mem_map.mp member
      have held : heldFor (slots.set entry.index none) entry ∈ taken.map some :=
        all ▸ List.mem_map_of_mem isEntry
      obtain ⟨candidate, -, isHeld⟩ := List.mem_map.mp held
      have empty : heldFor (slots.set entry.index none) entry = none := by
        unfold heldFor
        rw [List.getElem?_set_self']
        cases slots[entry.index]? <;> rfl
      rw [empty] at isHeld
      cases isHeld
    exact ⟨absent, (other absent).symm.trans all⟩
  · rintro ⟨absent, all⟩
    exact (other absent).trans all

theorem takeRanked_held {ranked : List (RankedDocument S)} {slots : List (Option (Citation D S))}
    {taken : List (Citation D S)} :
    (takeRanked slots ranked : Except (OpsError Failure) _) = .ok taken ↔
      (ranked.map RankedDocument.index).Nodup ∧ ranked.map (heldFor slots) = taken.map some := by
  induction ranked generalizing slots taken with
  | nil => cases taken <;> simp [takeRanked]
  | cons entry rest ih =>
    rw [List.map_cons, List.nodup_cons, List.map_cons]
    cases held : slots[entry.index]?.join with
    | none =>
      have unheld : heldFor slots entry = none := by rw [heldFor, held, Option.map_none]
      simp only [takeRanked, held, unheld, reduceCtorEq, false_iff]
      rintro ⟨-, all⟩
      cases taken <;> cases all
    | some candidate =>
      have isHeld : heldFor slots entry = some (candidate.scored entry.score) := by
        rw [heldFor, held, Option.map_some]
      simp only [takeRanked, held, isHeld]
      rw [except_bind_ok]
      constructor
      · rintro ⟨others, isRest, isTaken⟩
        cases isTaken
        obtain ⟨distinct, all⟩ := ih.mp isRest
        obtain ⟨absent, all⟩ := heldFor_set.mp all
        exact ⟨⟨absent, distinct⟩, by rw [all, List.map_cons]⟩
      · rintro ⟨⟨absent, distinct⟩, all⟩
        cases taken with
        | nil => cases all
        | cons first others =>
          obtain ⟨isFirst, others'⟩ := List.cons.inj all
          cases isFirst
          exact ⟨others, ih.mpr ⟨distinct, heldFor_set.mpr ⟨absent, others'⟩⟩, rfl⟩

/-- **A ranking is taken as it stands or refused.** -/
theorem takeRanked_iff {candidates : List (Citation D S)} {ranked : List (RankedDocument S)}
    {taken : List (Citation D S)} :
    (takeRanked (candidates.map some) ranked : Except (OpsError Failure) _) = .ok taken ↔
      Taken candidates ranked taken := by
  have same : heldFor (candidates.map some) = named candidates := by
    funext entry
    unfold heldFor named
    rw [List.getElem?_map]
    cases candidates[entry.index]? <;> rfl
  rw [takeRanked_held, same]
  exact ⟨fun both => ⟨both.1, both.2⟩, fun taken => ⟨taken.once, taken.own⟩⟩

/-- Every ranking of distinct candidates is taken. -/
theorem takeRanked_ok_iff {candidates : List (Citation D S)} {ranked : List (RankedDocument S)} :
    (∃ taken, (takeRanked (candidates.map some) ranked : Except (OpsError Failure) _) = .ok taken) ↔
      (∀ entry ∈ ranked, entry.index < candidates.length) ∧
        (ranked.map RankedDocument.index).Nodup := by
  constructor
  · rintro ⟨taken, isTaken⟩
    obtain ⟨once, own⟩ := takeRanked_iff.mp isTaken
    refine ⟨fun entry member => ?_, once⟩
    have isNamed : named candidates entry ∈ taken.map some := own ▸ List.mem_map_of_mem member
    obtain ⟨candidate, -, isNamed⟩ := List.mem_map.mp isNamed
    obtain ⟨found, isFound, -⟩ := Option.map_eq_some_iff.mp isNamed.symm
    exact (List.getElem?_eq_some_iff.mp isFound).1
  · rintro ⟨inRange, once⟩
    refine ⟨ranked.filterMap (named candidates), takeRanked_iff.mpr ⟨once, ?_⟩⟩
    rw [List.map_filterMap]
    rw [← List.filterMap_eq_map']
    refine List.filterMap_congr fun entry member => ?_
    simp [named, List.getElem?_eq_getElem (inRange entry member)]

variable [LinearOrder S] {client : RerankClient S}

/-- The reply the retries end with. -/
def settledFrom (client : RerankClient S) (query : String) (documents : List String) (topN : Nat) :
    Nat → Nat → Reply S
  | 0, attempt => client.reply query documents topN attempt
  | left + 1, attempt =>
    match client.reply query documents topN attempt with
    | .unreachable _ => settledFrom client query documents topN left (attempt + 1)
    | reply => reply

/-- The reply a request is answered by. -/
def RerankClient.settled (client : RerankClient S) (query : String) (documents : List String)
    (topN : Nat) : Reply S := settledFrom client query documents topN client.maxRetries 0

/-- **An answer is checked as a whole**: it comes back sorted and cut, or an index was out of range. -/
theorem readReply_results (documents : List String) (topN : Nat) (entries : List (RankedDocument S)) :
    ((∀ entry ∈ entries, entry.index < documents.length) ∧
      readReply documents topN (.results entries) = .ok (bestFirst entries topN)) ∨
    ((∃ entry ∈ entries, documents.length ≤ entry.index) ∧ ∃ reason,
      readReply documents topN (.results entries) = .error (.malformedResponse reason)) := by
  have checked : ((∀ entry ∈ entries, entry.index < documents.length) ∧
        entries.mapM (checkIndex documents) = .ok entries) ∨
      ((∃ entry ∈ entries, documents.length ≤ entry.index) ∧ ∃ reason,
        entries.mapM (checkIndex documents) = .error (.malformedResponse reason)) := by
    induction entries with
    | nil => exact .inl ⟨List.forall_mem_nil _, rfl⟩
    | cons entry rest ih =>
      rw [List.mapM_cons]
      by_cases outside : documents.length ≤ entry.index
      · rw [checkIndex, if_pos outside]
        exact .inr ⟨⟨entry, List.mem_cons_self, outside⟩, _, rfl⟩
      · rw [checkIndex, if_neg outside]
        rcases ih with ⟨inside, all⟩ | ⟨⟨other, isOther, outside'⟩, reason, failed⟩
        · refine .inl ⟨List.forall_mem_cons.mpr ⟨not_le.mp outside, inside⟩, ?_⟩
          rw [all]
          rfl
        · refine .inr ⟨⟨other, List.mem_cons_of_mem _ isOther, outside'⟩, reason, ?_⟩
          rw [failed]
          rfl
  rcases checked with ⟨inside, all⟩ | ⟨outside, reason, failed⟩
  · exact .inl ⟨inside, by rw [readReply, all]; rfl⟩
  · exact .inr ⟨outside, reason, by rw [readReply, failed]; rfl⟩

/-- Only an unreachable server is asked again. -/
theorem readReply_transient {documents : List String} {topN : Nat} {reply : Reply S}
    {failure : RerankError} (failed : readReply documents topN reply = .error failure)
    (transient : failure.isTransient = true) : ∃ reason, reply = .unreachable reason := by
  cases reply with
  | unreachable reason => exact ⟨reason, rfl⟩
  | undecodable reason =>
    cases failed
    cases transient
  | refused status body =>
    rw [readReply] at failed
    split_ifs at failed
    · cases failed
      cases transient
    · cases failed
      cases transient
  | results entries =>
    rcases readReply_results documents topN entries with ⟨-, all⟩ | ⟨-, reason, isFailed⟩
    · rw [all] at failed
      cases failed
    · rw [isFailed] at failed
      cases failed
      cases transient

/-- A reply that is not a lost connection is final. -/
theorem orRetry_final {documents : List String} {topN : Nat} {reply : Reply S}
    (final : ∀ reason, reply ≠ .unreachable reason)
    (again : Except RerankError (List (RankedDocument S))) :
    orRetry again (readReply documents topN reply) = readReply documents topN reply := by
  cases read : readReply documents topN reply with
  | ok ranked => rfl
  | error failure =>
    have lasting : ¬ failure.isTransient = true := by
      intro transient
      obtain ⟨reason, isLost⟩ := readReply_transient read transient
      exact final reason isLost
    rw [orRetry, if_neg lasting]

/-- **The retries end with the first reply that is not a lost connection**, or with the last one. -/
theorem rerankFrom_settled (query : String) (documents : List String) (topN left attempt : Nat) :
    rerankFrom client query documents topN left attempt =
      readReply documents topN (settledFrom client query documents topN left attempt) := by
  induction left generalizing attempt with
  | zero => rfl
  | succ left ih =>
    unfold rerankFrom settledFrom rerankOnce
    cases isReply : client.reply query documents topN attempt with
    | unreachable reason => exact ih (attempt + 1)
    | undecodable reason => rfl
    | refused status body =>
      have final : ∀ reason, (.refused status body : Reply S) ≠ .unreachable reason := by simp
      exact orRetry_final final _
    | results entries =>
      have final : ∀ reason, (.results entries : Reply S) ≠ .unreachable reason := by simp
      exact orRetry_final final _

theorem rerank_settled {query : String} {documents : List String} {topN : Nat}
    (asked : documents ≠ []) (wanted : topN ≠ 0) : rerank client query documents topN =
      readReply documents topN (client.settled query documents topN) := by
  rw [rerank, if_neg (by simp [asked, wanted]), rerankFrom_settled]
  rfl

/-- What a search returns of its candidates when the reranker orders them: `keep` is its limit.
`handed` is about the list the client hands on, `rejected` and `accepted` about the server's answer. -/
structure Reranked (stage : RerankStage S) (query : String) (candidates : List (Citation D S))
    (keep : Nat) (result : Except (OpsError Failure) (List (Citation D S))) : Prop where
  nothing : candidates = [] ∨ keep = 0 → result = .ok []
  handed : candidates ≠ [] → keep ≠ 0 → ∀ ranked,
    rerank stage.client query (candidates.map fun candidate => candidate.hit.text) keep = .ok ranked →
      ((∃ failure, result = .error failure) ↔
        (∃ entry ∈ ranked, candidates.length ≤ entry.index) ∨
          ¬ (ranked.map RankedDocument.index).Nodup) ∧
      ∀ taken, result = .ok taken ↔ Taken candidates ranked taken
  rejected : candidates ≠ [] → keep ≠ 0 → ∀ entries,
    stage.client.settled query (candidates.map fun candidate => candidate.hit.text) keep =
        .results entries →
      ((∃ failure, result = .error failure) ↔
        (∃ entry ∈ entries, candidates.length ≤ entry.index) ∨
          ¬ ((bestFirst entries keep).map RankedDocument.index).Nodup)
  accepted : candidates ≠ [] → keep ≠ 0 → ∀ taken, result = .ok taken → ∃ entries,
    stage.client.settled query (candidates.map fun candidate => candidate.hit.text) keep =
        .results entries ∧
      Taken candidates (bestFirst entries keep) taken ∧ taken.length ≤ keep

theorem Taken.length_le {candidates taken : List (Citation D S)} {entries : List (RankedDocument S)}
    {keep : Nat} (isTaken : Taken candidates (bestFirst entries keep) taken) : taken.length ≤ keep := by
  have same := congrArg List.length isTaken.own
  rw [List.length_map, List.length_map] at same
  rw [← same]
  exact List.length_take_le _ _

theorem mem_of_mem_bestFirst {entries : List (RankedDocument S)} {keep : Nat} {entry : RankedDocument S}
    (member : entry ∈ bestFirst entries keep) : entry ∈ entries :=
  (List.mem_insertionSort _).mp (List.mem_of_mem_take member)

/-- The stage asks the reranker where there is something to order. -/
theorem applyRerankStage_asked (stage : RerankStage S) (query : String)
    {candidates : List (Citation D S)} {finalK : Nat} (some : candidates ≠ [])
    (wanted : min finalK stage.topKOut ≠ 0) :
    (applyRerankStage stage query candidates finalK : Except (OpsError Failure) _) =
      (asRerank (readReply (candidates.map fun candidate => candidate.hit.text)
        (min finalK stage.topKOut) (stage.client.settled query
          (candidates.map fun candidate => candidate.hit.text) (min finalK stage.topKOut))) >>=
        takeRanked (candidates.map .some)) := by
  have documents : (candidates.map fun candidate => candidate.hit.text) ≠ [] := by simpa using some
  rw [← rerank_settled documents wanted, applyRerankStage, if_neg (by simp [some, wanted])]

/-- **The stage reorders its candidates.** -/
theorem applyRerankStage_reranked (stage : RerankStage S) (query : String)
    (candidates : List (Citation D S)) (finalK : Nat) :
    Reranked stage query candidates (min finalK stage.topKOut)
      (applyRerankStage stage query candidates finalK : Except (OpsError Failure) _) where
  nothing := by
    intro idle
    rw [applyRerankStage, if_pos (by simpa using idle)]
  handed := by
    intro some wanted ranked answered
    have isResult : (applyRerankStage stage query candidates finalK : Except (OpsError Failure) _) =
        takeRanked (candidates.map .some) ranked := by
      rw [applyRerankStage, if_neg (by simp [some, wanted])]
      show (asRerank (rerank _ _ _ _) >>= takeRanked (candidates.map .some)) = _
      rw [answered]
      rfl
    rw [isResult]
    refine ⟨?_, fun taken => takeRanked_iff⟩
    rw [except_error_iff, takeRanked_ok_iff, not_and_or]
    simp only [not_forall, not_lt, exists_prop]
  rejected := by
    intro some wanted entries settled
    rw [except_error_iff, applyRerankStage_asked stage query some wanted, settled]
    rcases readReply_results (candidates.map fun candidate => candidate.hit.text)
      (min finalK stage.topKOut) entries with ⟨inside, read⟩ | ⟨outside, reason, read⟩
    · simp only [List.length_map] at inside
      rw [read]
      show ¬ (∃ taken, takeRanked (candidates.map .some) _ = .ok taken) ↔ _
      rw [takeRanked_ok_iff, not_and_or]
      refine or_congr ⟨fun outside => ?_, fun outside => ?_⟩ Iff.rfl
      · exact absurd (fun entry member => inside entry (mem_of_mem_bestFirst member)) outside
      · obtain ⟨entry, member, outside⟩ := outside
        exact absurd (inside entry member) (not_lt.mpr outside)
    · simp only [List.length_map] at outside
      rw [read]
      refine ⟨fun _ => .inl outside, fun _ => ?_⟩
      rintro ⟨taken, isTaken⟩
      cases isTaken
  accepted := by
    intro some wanted taken isTaken
    rw [applyRerankStage_asked stage query some wanted] at isTaken
    obtain ⟨ranked, answered, isTaken⟩ := except_bind_ok.mp isTaken
    cases settled : stage.client.settled query
        (candidates.map fun candidate => candidate.hit.text) (min finalK stage.topKOut) with
    | unreachable reason =>
      rw [settled] at answered
      cases answered
    | undecodable reason =>
      rw [settled] at answered
      cases answered
    | refused status body =>
      rw [settled, readReply] at answered
      split_ifs at answered <;> cases answered
    | results entries =>
      rw [settled] at answered
      rcases readReply_results (candidates.map fun candidate => candidate.hit.text)
        (min finalK stage.topKOut) entries with ⟨-, read⟩ | ⟨-, reason, read⟩
      · rw [read] at answered
        cases answered
        have taken := takeRanked_iff.mp isTaken
        exact ⟨entries, rfl, taken, taken.length_le⟩
      · rw [read] at answered
        cases answered

end Rerank

/-! ### The answer -/

section Answer

variable {D S V Failure : Type} [PartialCmp D] [LinearOrder S]

/-- **Unified search is a search of both stores put together.** Where each store answers with its own
nearest rows, the candidates are the nearest of the union, tagged with the store they came from; they
are the answer, or what the reranker orders. -/
theorem searchUnified_union (distances : TotalDistances D) (ops : Ops D S V Failure)
    {books papers : Library D V Failure} (hasBooks : ops.library = some books)
    (hasPapers : ops.papersLibrary = some papers) (query : String)
    (bookOverrides paperOverrides : SearchOptions) (topK : Option Nat)
    {bookHits paperHits : List (Citation D S)} {bookRows paperRows : List (SearchHit D)}
    (recalled : recallBoth books papers query bookOverrides paperOverrides
      (ops.recallK (topK.getD books.defaultTopK)) = .ok (bookHits, paperHits))
    (near : Nearest (fun one other => cmpDistance one.distance other.distance ≠ .gt)
      (ops.recallK (topK.getD books.defaultTopK)) bookRows (bookHits.map Citation.hit))
    (near' : Nearest (fun one other => cmpDistance one.distance other.distance ≠ .gt)
      (ops.recallK (topK.getD books.defaultTopK)) paperRows (paperHits.map Citation.hit)) :
    ∃ candidates : List (Citation D S), candidates.Subperm (bookHits ++ paperHits) ∧
      Nearest NoFarther (ops.recallK (topK.getD books.defaultTopK))
        (bookRows.map (Prod.mk books.kind) ++ paperRows.map (Prod.mk papers.kind))
        (candidates.map Citation.source) ∧
      (ops.rerank = none →
        searchUnified ops query bookOverrides paperOverrides topK = .ok candidates) ∧
      ∀ stage, ops.rerank = some stage →
        Reranked stage query candidates (min (topK.getD books.defaultTopK) stage.topKOut)
          (searchUnified ops query bookOverrides paperOverrides topK) := by
  obtain ⟨stamped, stamped'⟩ := recallBoth_stamped recalled
  refine ⟨(byDistance (bookHits ++ paperHits)).take (ops.recallK (topK.getD books.defaultTopK)),
    (List.take_sublist _ _).subperm.trans (byDistance_perm _).subperm,
    merged_nearest distances stamped stamped' near near', ?_, ?_⟩
  · intro plain
    have width : ops.recallK (topK.getD books.defaultTopK) = topK.getD books.defaultTopK := by
      rw [Ops.recallK, plain, Option.elim]
    simp only [searchUnified, hasBooks, hasPapers, recalled, plain]
    rw [width]
    rfl
  · intro stage staged
    have same : searchUnified ops query bookOverrides paperOverrides topK =
        applyRerankStage stage query
          ((byDistance (bookHits ++ paperHits)).take (ops.recallK (topK.getD books.defaultTopK)))
          (topK.getD books.defaultTopK) := by
      have width : ops.recallK (topK.getD books.defaultTopK) = stage.topKIn := by
        rw [Ops.recallK, staged, Option.elim]
      simp only [searchUnified, hasBooks, hasPapers, recalled, staged]
      rw [width]
      rfl
    rw [same]
    exact applyRerankStage_reranked stage query _ _

end Answer

/-! ### Two stores of one row each -/

instance : PartialCmp Nat := ⟨fun one other => some (compare one other)⟩

theorem nat_distances : TotalDistances Nat where
  total := by
    intro one other
    simp only [cmpDistance, PartialCmp.partialCmp, Option.getD_some, Nat.compare_ne_gt]
    exact le_total _ _
  trans := by
    intro one middle other
    simp only [cmpDistance, PartialCmp.partialCmp, Option.getD_some, Nat.compare_ne_gt]
    exact le_trans

/-- A row of a small store. -/
def smallHit (text : String) (distance : Nat) : SearchHit Nat where
  text := text
  startNodeId := ⟨100000002⟩
  startCharOffset := 0
  endNodeId := ⟨100000002⟩
  endCharOffset := 4
  normChunkSha256 := text
  distance := distance

/-- A store that holds one row. -/
def smallLibrary (kind : ItemKind) (embedModel : String) (hit : SearchHit Nat) :
    Library Nat Unit Unit where
  kind := kind
  defaultTopK := 10
  embedModel := embedModel
  embedQuery := fun _ => .ok ()
  store := .ok (some fun _ _ k => .ok ([hit].take k))
  leafContext := fun _ => .ok ⟨"Book", some 1, none⟩
  paperContext := fun _ => .ok ⟨"Paper", none, none⟩

/-- A reranker that names the second candidate, then the first one. -/
def smallStage : RerankStage Nat where
  client := { reply := fun _ _ _ _ => .results [⟨1, 7⟩, ⟨0, 9⟩], maxRetries := 0 }
  topKIn := 2
  topKOut := 1

/-- The farther row is in the book store. -/
def smallOps (rerank : Option (RerankStage Nat)) : Ops Nat Nat Unit Unit where
  library := some (smallLibrary .book "a" (smallHit "far" 2))
  papersLibrary := some (smallLibrary .paper "b" (smallHit "near" 1))
  rerank := rerank

/-- A search with no overrides. -/
def anyRow : SearchOptions := ⟨none, none, false, []⟩

theorem smallHit_nearest (text : String) (distance : Nat) {k : Nat} (wanted : 1 ≤ k) :
    Nearest (fun one other => cmpDistance one.distance other.distance ≠ .gt) k
      [smallHit text distance] [smallHit text distance] where
  ordered := List.pairwise_singleton _ _
  length_eq := by simpa using wanted
  chosen := ⟨[], List.Perm.refl _, fun _ _ _ member => nomatch member⟩

/-- With a reranker both rows are recalled, and its order decides: the client hands on the entry with
the best score. -/
theorem searchUnified_union_small :
    rerank smallStage.client "query" ["near", "far"] 1 = .ok [⟨0, 9⟩] ∧
      ∃ candidates : List (Citation Nat Nat),
        Nearest NoFarther 2 [(.book, smallHit "far" 2), (.paper, smallHit "near" 1)]
          (candidates.map Citation.source) ∧
        Reranked smallStage "query" candidates 1
          (searchUnified (smallOps (some smallStage)) "query" anyRow anyRow (some 1)) := by
  obtain ⟨candidates, -, near, -, reranked⟩ := searchUnified_union nat_distances
    (smallOps (some smallStage)) rfl rfl "query" anyRow anyRow (some 1) rfl
    (smallHit_nearest "far" 2 (by decide)) (smallHit_nearest "near" 1 (by decide))
  exact ⟨by decide, candidates, near, reranked smallStage rfl⟩

end Bookrack.Search
