/-
What unpacking recovers of a pair, and when nothing is lost.

* `unpackBody_packed` — a packed body is unpacked to its three texts.
* `lossless_of_apart`, `apart_of_lossless` — the two directions.
* **`pairing_lossless_iff`** — nothing is lost, whatever the entries, exactly for two different languages,
  markers that do not run into each other, and three different keys.
-/

import Bookrack.Distill.Pairing
import Bookrack.Normalize.Breaks

namespace Bookrack.Distill

/-! ### What is unpacked -/

section Unpack

open Occurrence
open Normalize (trim AllSpace)

variable {mergeKey : String} {p a s : List Char}

theorem markers_length : (bodyMarker mergeKey).length = (headMarker mergeKey).length := by
  simp [headMarker, bodyMarker]

theorem markers_differ : bodyMarker mergeKey ≠ headMarker mergeKey := by
  intro same
  unfold bodyMarker headMarker at same
  exact absurd (List.append_cancel_left same) (by decide)

/-- No end of a marker is how a marker begins. -/
structure MarkersApart (mergeKey : String) : Prop where
  headHead : ¬ RunsInto (headMarker mergeKey) (headMarker mergeKey)
  headBody : ¬ RunsInto (headMarker mergeKey) (bodyMarker mergeKey)
  bodyHead : ¬ RunsInto (bodyMarker mergeKey) (headMarker mergeKey)
  bodyBody : ¬ RunsInto (bodyMarker mergeKey) (bodyMarker mergeKey)

/-- The text contains no marker. -/
def MarkerFree (mergeKey : String) (text : List Char) : Prop :=
  ¬ headMarker mergeKey <:+: text ∧ ¬ bodyMarker mergeKey <:+: text

theorem MarkerFree.of_infix {text part : List Char} (free : MarkerFree mergeKey text)
    (isPart : part <:+: text) : MarkerFree mergeKey part :=
  ⟨fun isIn => free.1 (isIn.trans isPart), fun isIn => free.2 (isIn.trans isPart)⟩

/-- A text shorter than a marker contains none. -/
theorem markerFree_of_short {text : List Char} (short : text.length < (headMarker mergeKey).length) :
    MarkerFree mergeKey text := by
  refine ⟨fun isIn => ?_, fun isIn => ?_⟩
  · exact absurd isIn.length_le (not_le.mpr short)
  · have long := isIn.length_le
    rw [markers_length] at long
    exact absurd long (not_le.mpr short)

/-- The head marker is found where it was put. -/
theorem find_head (apart : MarkersApart mergeKey) (free : MarkerFree mergeKey p) (tail : List Char) :
    find (headMarker mergeKey) (p ++ (headMarker mergeKey ++ tail)) = some p.length :=
  find_behind (first_behind free.1 apart.headHead le_rfl tail)

/-- The body marker is found where it was put. -/
theorem find_body (apart : MarkersApart mergeKey) (free : MarkerFree mergeKey p)
    (free' : MarkerFree mergeKey a) (tail : List Char) :
    find (bodyMarker mergeKey)
        (p ++ (headMarker mergeKey ++ (a ++ (bodyMarker mergeKey ++ tail)))) =
      some (p.length + ((headMarker mergeKey).length + a.length)) := by
  have regroup : p ++ (headMarker mergeKey ++ (a ++ (bodyMarker mergeKey ++ tail))) =
      (p ++ (headMarker mergeKey ++ a)) ++ (bodyMarker mergeKey ++ tail) := by
    simp only [List.append_assoc]
  have length : p.length + ((headMarker mergeKey).length + a.length) =
      (p ++ (headMarker mergeKey ++ a)).length := by
    rw [List.length_append, List.length_append]
  rw [length, regroup]
  refine find_behind fun position before => ?_
  rw [← regroup]
  rw [← length] at before
  by_cases inText : position < p.length
  · exact first_behind free.2 apart.bodyHead markers_length.le _ position inText
  · obtain ⟨within, rfl⟩ := Nat.exists_eq_add_of_le (not_lt.mp inText)
    rw [List.drop_length_add_append]
    by_cases inHead : within < (headMarker mergeKey).length
    · exact none_inside markers_differ markers_length apart.headBody _ within inHead
    · obtain ⟨behind, rfl⟩ := Nat.exists_eq_add_of_le (not_lt.mp inHead)
      rw [List.drop_length_add_append]
      exact first_behind free'.2 apart.bodyBody le_rfl tail behind (by omega)

/-- **A packed body is unpacked to its three texts.** -/
theorem unpackBody_packed (apart : MarkersApart mergeKey) (free : MarkerFree mergeKey p)
    (free' : MarkerFree mergeKey a) :
    unpackBody (headMarker mergeKey) (bodyMarker mergeKey)
        (p ++ (headMarker mergeKey ++ (a ++ (bodyMarker mergeKey ++ s)))) =
      some (trim p, trim a, trim s) := by
  unfold unpackBody
  rw [find_head apart free, find_body apart free free']
  have isHead : (p ++ (headMarker mergeKey ++ a)).drop (p.length + (headMarker mergeKey).length) = a := by
    rw [List.drop_length_add_append, List.drop_left]
  have isBefore : (p ++ (headMarker mergeKey ++ (a ++ (bodyMarker mergeKey ++ s)))).take
      (p.length + ((headMarker mergeKey).length + a.length)) = p ++ (headMarker mergeKey ++ a) := by
    rw [List.take_length_add_append, List.take_length_add_append, List.take_left]
  have isBehind : (p ++ (headMarker mergeKey ++ (a ++ (bodyMarker mergeKey ++ s)))).drop
      (p.length + ((headMarker mergeKey).length + a.length) + (bodyMarker mergeKey).length) = s := by
    rw [Nat.add_assoc, Nat.add_assoc, List.drop_length_add_append, List.drop_length_add_append,
      List.drop_length_add_append, List.drop_left]
  simp only [isBefore, isBehind, isHead, List.take_left]
  rw [if_pos (by omega)]

theorem headMarker_dropWhile : (headMarker mergeKey).dropWhile isWhitespace = headMarker mergeKey :=
  List.dropWhile_cons_of_neg (by decide)

theorem bodyMarker_rdropWhile : (bodyMarker mergeKey).rdropWhile isWhitespace = bodyMarker mergeKey := by
  have isLast : bodyMarker mergeKey = ("<<<".toList ++ mergeKey.toList ++ "_body>>".toList) ++ ['>'] := by
    rw [List.append_assoc]
    rfl
  rw [isLast, List.rdropWhile_concat_neg _ _ _ (by decide)]

/-- The outer whitespace of a packed body is that of the outer texts. -/
theorem trim_packed : trim (p ++ (headMarker mergeKey ++ (a ++ (bodyMarker mergeKey ++ s)))) =
    p.dropWhile isWhitespace ++ (headMarker mergeKey ++
      (a ++ (bodyMarker mergeKey ++ s.rdropWhile isWhitespace))) := by
  have opens : ¬ AllSpace (p ++ headMarker mergeKey) := fun all =>
    absurd (all '<' (by simp [headMarker])) (by decide)
  have closes : ¬ AllSpace (bodyMarker mergeKey ++ s) := fun all =>
    absurd (all '<' (by simp [bodyMarker])) (by decide)
  have front : (p ++ headMarker mergeKey).dropWhile isWhitespace =
      p.dropWhile isWhitespace ++ headMarker mergeKey := by
    by_cases blank : AllSpace p
    · rw [List.dropWhile_append_of_pos blank, List.dropWhile_eq_nil_iff.mpr blank, headMarker_dropWhile,
        List.nil_append]
    · exact Normalize.dropWhile_append_text blank _
  have back : (bodyMarker mergeKey ++ s).rdropWhile isWhitespace =
      bodyMarker mergeKey ++ s.rdropWhile isWhitespace := by
    by_cases blank : AllSpace s
    · rw [Normalize.rdropWhile_append_space _ blank, List.rdropWhile_eq_nil_iff.mpr blank,
        bodyMarker_rdropWhile, List.append_nil]
    · exact Normalize.rdropWhile_append_text _ blank
  rw [← List.append_assoc, Normalize.trim_between opens closes, front, back]
  simp only [List.append_assoc]

theorem trim_dropWhile (text : List Char) : trim (text.dropWhile isWhitespace) = trim text := by
  conv_rhs => rw [← List.takeWhile_append_dropWhile (p := isWhitespace) (l := text)]
  exact (Normalize.trim_space_append (fun c member => List.mem_takeWhile_imp member) _).symm

theorem trim_rdropWhile (text : List Char) : trim (text.rdropWhile isWhitespace) = trim text := by
  conv_rhs => rw [← List.rdropWhile_append_rtakeWhile (p := isWhitespace) (l := text)]
  exact (Normalize.trim_append_space _ fun c member => List.mem_rtakeWhile_imp member).symm

end Unpack

/-! ### What a pair is recovered to -/

section Recover

open Normalize (trim)

/-- The keys the three texts are put under. -/
structure PayloadKeys where
  headTo : String
  bodyTo : String
  originalTo : String

/-- Unpacking with the markers the pairing put. -/
def unpackRule (mergeKey : String) (keys : PayloadKeys) : UnpackRule where
  headMarker := headMarker mergeKey
  bodyMarker := bodyMarker mergeKey
  headTo := keys.headTo
  bodyTo := keys.bodyTo
  originalTo := keys.originalTo

/-- Unpacking a pair gives back the primary body, the secondary anchor and the secondary body. -/
structure Recovers (mergeKey : String) (keys : PayloadKeys) (a b : RawEntry) : Prop where
  original : (unpackPairedBody (unpackRule mergeKey keys)
    (splitHeadlineOnly (mergePair mergeKey a b))).payload.lookup keys.originalTo =
      some (textValue (trim (joinedBody a)))
  head : (unpackPairedBody (unpackRule mergeKey keys)
    (splitHeadlineOnly (mergePair mergeKey a b))).payload.lookup keys.headTo =
      some (textValue (trim b.anchor.toList))
  body : (unpackPairedBody (unpackRule mergeKey keys)
    (splitHeadlineOnly (mergePair mergeKey a b))).payload.lookup keys.bodyTo =
      some (textValue (trim (joinedBody b)))

/-- None of the three texts contains a marker. -/
structure FreePair (mergeKey : String) (a b : RawEntry) : Prop where
  original : MarkerFree mergeKey (joinedBody a)
  head : MarkerFree mergeKey b.anchor.toList
  body : MarkerFree mergeKey (joinedBody b)

/-- The three keys are different. -/
structure PayloadKeys.Distinct (keys : PayloadKeys) : Prop where
  originalHead : keys.originalTo ≠ keys.headTo
  originalBody : keys.originalTo ≠ keys.bodyTo
  headBody : keys.headTo ≠ keys.bodyTo

variable {mergeKey : String} {keys : PayloadKeys} {a b : RawEntry}

theorem split_body : (splitHeadlineOnly (mergePair mergeKey a b)).body.toList =
    trim (mergedBody mergeKey a b) := by
  simp [splitHeadlineOnly, mergePair, joinedBody]

theorem textValue_inj {text text' : List Char} : textValue text = textValue text' ↔ text = text' := by
  constructor
  · intro same
    rw [textValue, textValue, Json.str.injEq] at same
    simpa using congrArg String.toList same
  · exact congrArg textValue

/-- The payload of an entry that was unpacked. -/
theorem payload_unpacked {original head body : List Char}
    (unpacked : unpackBody (headMarker mergeKey) (bodyMarker mergeKey) (trim (mergedBody mergeKey a b)) =
      some (original, head, body)) :
    (unpackPairedBody (unpackRule mergeKey keys) (splitHeadlineOnly (mergePair mergeKey a b))).payload =
      Json.put keys.bodyTo (textValue body) (Json.put keys.headTo (textValue head)
        (Json.put keys.originalTo (textValue original) [])) := by
  have same : unpackBody (unpackRule mergeKey keys).headMarker (unpackRule mergeKey keys).bodyMarker
      (splitHeadlineOnly (mergePair mergeKey a b)).body.toList = some (original, head, body) := by
    rw [split_body]
    exact unpacked
  rw [unpackPairedBody, same]
  rfl

/-- An entry that was not unpacked has no head. -/
theorem payload_unpaired (distinct : keys.Distinct)
    (unpaired : unpackBody (headMarker mergeKey) (bodyMarker mergeKey)
      (trim (mergedBody mergeKey a b)) = none) :
    (unpackPairedBody (unpackRule mergeKey keys)
      (splitHeadlineOnly (mergePair mergeKey a b))).payload.lookup keys.headTo = none := by
  have same : unpackBody (unpackRule mergeKey keys).headMarker (unpackRule mergeKey keys).bodyMarker
      (splitHeadlineOnly (mergePair mergeKey a b)).body.toList = none := by
    rw [split_body]
    exact unpaired
  rw [unpackPairedBody, same]
  simp only
  split_ifs
  · rfl
  · exact Json.lookup_put_of_ne (Ne.symm distinct.originalHead)

/-- **What is recovered** is what the markers split the body into. -/
theorem recovers_iff (distinct : keys.Distinct) : Recovers mergeKey keys a b ↔
    unpackBody (headMarker mergeKey) (bodyMarker mergeKey) (trim (mergedBody mergeKey a b)) =
      some (trim (joinedBody a), trim b.anchor.toList, trim (joinedBody b)) := by
  cases unpacked : unpackBody (headMarker mergeKey) (bodyMarker mergeKey)
      (trim (mergedBody mergeKey a b)) with
  | none =>
    constructor
    · intro recovers
      have isHead := recovers.head
      rw [payload_unpaired distinct unpacked] at isHead
      cases isHead
    · intro absent
      cases absent
  | some texts =>
    obtain ⟨original, head, body⟩ := texts
    have payload := @payload_unpacked mergeKey keys a b _ _ _ unpacked
    have isOriginal : (Json.put keys.bodyTo (textValue body) (Json.put keys.headTo (textValue head)
        (Json.put keys.originalTo (textValue original) []))).lookup keys.originalTo =
        some (textValue original) := by
      rw [Json.lookup_put_of_ne distinct.originalBody, Json.lookup_put_of_ne distinct.originalHead,
        Json.lookup_put_self]
    have isHead : (Json.put keys.bodyTo (textValue body) (Json.put keys.headTo (textValue head)
        (Json.put keys.originalTo (textValue original) []))).lookup keys.headTo = some (textValue head) := by
      rw [Json.lookup_put_of_ne distinct.headBody, Json.lookup_put_self]
    constructor
    · intro recovers
      have original' := recovers.original
      have head' := recovers.head
      have body' := recovers.body
      rw [payload, isOriginal, Option.some.injEq, textValue_inj] at original'
      rw [payload, isHead, Option.some.injEq, textValue_inj] at head'
      rw [payload, Json.lookup_put_self, Option.some.injEq, textValue_inj] at body'
      rw [original', head', body']
    · intro same
      obtain ⟨rfl, others⟩ := Prod.mk.inj (Option.some.inj same)
      obtain ⟨rfl, rfl⟩ := Prod.mk.inj others
      refine ⟨?_, ?_, ?_⟩
      · rw [payload, isOriginal]
      · rw [payload, isHead]
      · rw [payload, Json.lookup_put_self]

/-- **A free pair is recovered.** -/
theorem recovers_of_free (apart : MarkersApart mergeKey) (distinct : keys.Distinct)
    (free : FreePair mergeKey a b) : Recovers mergeKey keys a b := by
  rw [recovers_iff distinct, mergedBody, trim_packed, unpackBody_packed apart
    (free.original.of_infix (List.dropWhile_suffix _).isInfix) free.head, trim_dropWhile,
    trim_rdropWhile]

end Recover

/-! ### Nothing is lost -/

/-- **The pairing of these entries loses nothing**: each has one place, the flagged ones are counted,
only mates share a place, and a free pair is recovered. -/
structure Lossless (rule : PairRule) (keys : PayloadKeys) (raws : List RawEntry)
    (places : List (Placement (RawEntry × Nat))) : Prop where
  rendered : (pairBilingualEntries rule raws).1 = places.map (Placement.render rule.mergeKey Prod.fst)
  counted : (pairBilingualEntries rule raws).2 = places.countP Placement.isSolo
  once : (places.flatMap Placement.sources).Perm raws.zipIdx
  mates : ∀ a b, Placement.pair a b ∈ places → Mates rule Prod.fst raws.zipIdx a b
  recovered : ∀ a b, Placement.pair a b ∈ places → FreePair rule.mergeKey a.1 b.1 →
    Recovers rule.mergeKey keys a.1 b.1

theorem lossless_of_apart {rule : PairRule} {keys : PayloadKeys}
    (differ : rule.primaryLang ≠ rule.secondaryLang) (apart : MarkersApart rule.mergeKey)
    (distinct : keys.Distinct) (raws : List RawEntry) :
    Lossless rule keys raws (placements rule Prod.fst raws.zipIdx) := by
  have rendered := pairBilingualEntries_places rule Prod.fst raws.zipIdx
  rw [List.zipIdx_map_fst] at rendered
  refine ⟨congrArg Prod.fst rendered, congrArg Prod.snd rendered,
    placements_perm rule Prod.fst differ raws.zipIdx, fun a b => placements_mates rule Prod.fst, ?_⟩
  intro a b _ free
  exact recovers_of_free apart distinct free

/-! ### What the entries show of the settings -/

section Settings

open Occurrence
open Normalize (trim)

variable {rule : PairRule} {keys : PayloadKeys}

/-- An entry with a text in its anchor and a text in its body. -/
def sampleEntry (lang : String) (anchor body : List Char) : RawEntry :=
  ⟨1, 1, String.ofList anchor, [String.ofList body], some lang, []⟩

theorem joinedBody_sample {lang : String} {anchor body : List Char} :
    joinedBody (sampleEntry lang anchor body) = body := by
  simp [joinedBody, sampleEntry]

theorem anchor_sample {lang : String} {anchor body : List Char} :
    (sampleEntry lang anchor body).anchor.toList = anchor := by
  simp [sampleEntry]

/-- Entries of one sheet are paired as one sheet. -/
theorem pair_oneSheet {raws : List RawEntry} (some : raws ≠ [])
    (one : raws.IsChain fun a b => sameSheet a b = true) :
    pairBilingualEntries rule raws = pairSheet rule raws := by
  rw [pairBilingualEntries, List.splitBy_of_isChain some one, List.foldl_cons, List.foldl_nil,
    List.nil_append, Nat.zero_add]

/-- Where one entry comes out and none is flagged, two entries share a place. -/
theorem Lossless.only {raws : List RawEntry} {places : List (Placement (RawEntry × Nat))}
    {entry : RawEntry} (lossless : Lossless rule keys raws places)
    (isOne : pairBilingualEntries rule raws = ([entry], 0)) : ∃ a b, places = [.pair a b] := by
  have rendered := lossless.rendered
  have counted := lossless.counted
  rw [isOne] at rendered counted
  obtain ⟨place, rfl, -⟩ := List.map_eq_singleton_iff.mp rendered.symm
  cases place with
  | pair a b => exact ⟨a, b, rfl⟩
  | solo a => cases counted

/-- **Losing nothing takes two languages**: one entry would be both halves of a pair. -/
theorem langs_of_lossless (lossless : ∀ raws, ∃ places, Lossless rule keys raws places) :
    rule.primaryLang ≠ rule.secondaryLang := by
  intro same
  obtain ⟨places, lossless⟩ := lossless [sampleEntry rule.primaryLang [] []]
  have isOne : pairBilingualEntries rule [sampleEntry rule.primaryLang [] []] =
      ([mergePair rule.mergeKey (sampleEntry rule.primaryLang [] []) (sampleEntry rule.primaryLang [] [])],
        0) := by
    rw [pair_oneSheet (List.cons_ne_nil _ _) (List.isChain_singleton _)]
    simp [pairSheet, sampleEntry, isLang, ← same]
  obtain ⟨a, b, rfl⟩ := lossless.only isOne
  have length := lossless.once.length_eq
  cases length

theorem Mates.members {α : Type} {entry : α → RawEntry} {rows : List α} {a b : α}
    (mates : Mates rule entry rows a b) : (a ∈ rows ∧ isLang rule.primaryLang (entry a) = true) ∧
      b ∈ rows ∧ isLang rule.secondaryLang (entry b) = true := by
  obtain ⟨before, group, after, page, sheet, isRun, -, rank, isPrimary, isSecondary⟩ := mates
  have primary := List.mem_filter.mp (List.mem_of_getElem? isPrimary)
  have secondary := List.mem_filter.mp (List.mem_of_getElem? isSecondary)
  have within : ∀ row ∈ group, row ∈ rows := by
    intro row member
    rw [isRun.parts]
    exact List.mem_append_left _ (List.mem_append_right _ member)
  exact ⟨⟨within a primary.1, primary.2⟩, within b secondary.1, secondary.2⟩

/-- **Losing nothing of two entries recovers them.** -/
theorem Lossless.recovers (differ : rule.primaryLang ≠ rule.secondaryLang) {p a s : List Char}
    {places : List (Placement (RawEntry × Nat))}
    (lossless : Lossless rule keys
      [sampleEntry rule.primaryLang [] p, sampleEntry rule.secondaryLang a s] places)
    (free : MarkerFree rule.mergeKey p) (free' : MarkerFree rule.mergeKey a)
    (free'' : MarkerFree rule.mergeKey s) :
    Recovers rule.mergeKey keys (sampleEntry rule.primaryLang [] p)
      (sampleEntry rule.secondaryLang a s) := by
  have isOne : pairBilingualEntries rule
      [sampleEntry rule.primaryLang [] p, sampleEntry rule.secondaryLang a s] =
      ([mergePair rule.mergeKey (sampleEntry rule.primaryLang [] p)
        (sampleEntry rule.secondaryLang a s)], 0) := by
    have one : [sampleEntry rule.primaryLang [] p, sampleEntry rule.secondaryLang a s].IsChain
        fun a b => sameSheet a b = true := List.isChain_pair.mpr rfl
    rw [pair_oneSheet (List.cons_ne_nil _ _) one]
    simp [pairSheet, sampleEntry, isLang, differ, differ.symm]
  obtain ⟨x, y, rfl⟩ := lossless.only isOne
  have mates := (lossless.mates x y (List.mem_singleton.mpr rfl)).members
  simp only [List.zipIdx_cons, List.zipIdx_nil, List.mem_cons, List.not_mem_nil, or_false] at mates
  have isX : x.1 = sampleEntry rule.primaryLang [] p := by
    rcases mates.1.1 with isX | isX
    · rw [isX]
    · have isPrimary := mates.1.2
      rw [isX] at isPrimary
      simp [isLang, sampleEntry, differ.symm] at isPrimary
  have isY : y.1 = sampleEntry rule.secondaryLang a s := by
    rcases mates.2.1 with isY | isY
    · have isSecondary := mates.2.2
      rw [isY] at isSecondary
      simp [isLang, sampleEntry, differ] at isSecondary
    · rw [isY]
  have recovered := lossless.recovered x y (List.mem_singleton.mpr rfl)
  rw [isX, isY] at recovered
  refine recovered ⟨?_, ?_, ?_⟩
  · rw [joinedBody_sample]
    exact free
  · rw [anchor_sample]
    exact free'
  · rw [joinedBody_sample]
    exact free''

/-- **Losing nothing takes three keys**: two texts under one key are one text. -/
theorem distinct_of_lossless (differ : rule.primaryLang ≠ rule.secondaryLang)
    (lossless : ∀ raws, ∃ places, Lossless rule keys raws places) : keys.Distinct := by
  have short : ∀ c : Char, MarkerFree rule.mergeKey [c] := by
    intro c
    refine markerFree_of_short ?_
    simp [headMarker]
  obtain ⟨places, lossless⟩ := lossless
    [sampleEntry rule.primaryLang [] ['x'], sampleEntry rule.secondaryLang ['y'] ['z']]
  obtain ⟨original, head, body⟩ := lossless.recovers differ (short 'x') (short 'y') (short 'z')
  rw [joinedBody_sample] at original body
  rw [anchor_sample] at head
  refine ⟨?_, ?_, ?_⟩
  · intro same
    rw [same, head, Option.some.injEq, textValue_inj] at original
    exact absurd original (by decide)
  · intro same
    rw [same, body, Option.some.injEq, textValue_inj] at original
    exact absurd original (by decide)
  · intro same
    rw [same, body, Option.some.injEq, textValue_inj] at head
    exact absurd head (by decide)

/-- What a run of one mark into another shares, and the parts on its sides. -/
theorem runsInto_parts {needle mark : List Char} (runs : RunsInto needle mark) :
    ∃ front shared behind, needle = front ++ shared ∧ mark = shared ++ behind ∧ front ≠ [] ∧ shared ≠ [] := by
  obtain ⟨shared, some, part, ⟨front, isNeedle⟩, behind, isMark⟩ := runs
  refine ⟨front, shared, behind, isNeedle.symm, isMark.symm, ?_, some⟩
  rintro rfl
  exact part isNeedle

/-- A beginning of a marker is text that is not trimmed. -/
theorem trim_front {mergeKey : String} {front shared : List Char}
    (isMarker : headMarker mergeKey = front ++ shared ∨ bodyMarker mergeKey = front ++ shared)
    (some : front ≠ []) : front.dropWhile isWhitespace = front ∧ trim front ≠ [] := by
  cases front with
  | nil => exact absurd rfl some
  | cons first rest =>
    have isFirst : first = '<' := by
      rcases isMarker with isMarker | isMarker
      · exact (List.cons.inj isMarker).1.symm
      · exact (List.cons.inj isMarker).1.symm
    subst isFirst
    refine ⟨List.dropWhile_cons_of_neg (by decide), fun isEmpty => ?_⟩
    rcases Normalize.trim_cases ('<' :: rest) with ⟨-, all⟩ | ⟨_, first, rest', _, -, isTrim, -⟩
    · exact absurd (all '<' List.mem_cons_self) (by decide)
    · rw [isTrim] at isEmpty
      cases isEmpty

theorem nil_free (mergeKey : String) : MarkerFree mergeKey [] := markerFree_of_short (by simp [headMarker])

/-- What losing nothing says of the split at the markers. -/
theorem unpackBody_of_lossless (lossless : ∀ raws, ∃ places, Lossless rule keys raws places)
    {p a : List Char} (free : MarkerFree rule.mergeKey p) (free' : MarkerFree rule.mergeKey a) :
    unpackBody (headMarker rule.mergeKey) (bodyMarker rule.mergeKey)
        (p.dropWhile isWhitespace ++ (headMarker rule.mergeKey ++ (a ++ bodyMarker rule.mergeKey))) =
      some (trim p, trim a, []) := by
  have differ := langs_of_lossless lossless
  obtain ⟨places, lossless'⟩ :=
    lossless [sampleEntry rule.primaryLang [] p, sampleEntry rule.secondaryLang a []]
  have recovers := lossless'.recovers differ free free' (nil_free rule.mergeKey)
  rw [recovers_iff (distinct_of_lossless differ lossless), mergedBody, joinedBody_sample,
    joinedBody_sample, anchor_sample, trim_packed, List.rdropWhile_nil, List.append_nil] at recovers
  exact recovers

/-- A split is at the first markers. -/
theorem unpackBody_some {headMarker bodyMarker body : List Char} {texts : List Char × List Char × List Char}
    (split : unpackBody headMarker bodyMarker body = some texts) : ∃ headStart bodyStart,
      find headMarker body = some headStart ∧ find bodyMarker body = some bodyStart ∧
      headStart + headMarker.length ≤ bodyStart ∧ texts.1 = trim (body.take headStart) ∧
      texts.2.1 = trim ((body.take bodyStart).drop (headStart + headMarker.length)) := by
  unfold unpackBody at split
  split at split
  · rename_i headStart bodyStart isHead isBody
    split_ifs at split with ordered
    cases split
    exact ⟨headStart, bodyStart, isHead, isBody, ordered, rfl, rfl⟩
  · cases split

/-- A marker that begins somewhere bounds where it is found. -/
theorem find_bound {needle body : List Char} {found position : Nat} (isFound : find needle body = some found)
    (inside : position ≤ body.length) (begins : needle <+: body.drop position) : found ≤ position := by
  obtain ⟨first, le, isFirst⟩ := find_le inside begins
  rw [isFound] at isFirst
  exact Option.some.inj isFirst ▸ le

/-- A part of a marker contains no marker. -/
theorem part_free {mergeKey : String} {part other : List Char}
    (isMarker : (headMarker mergeKey).length = part.length + other.length) (some : other ≠ []) :
    MarkerFree mergeKey part := by
  refine markerFree_of_short ?_
  rw [isMarker]
  exact Nat.lt_add_of_pos_right (List.length_pos_iff.mpr some)

/-- **Losing nothing takes markers that do not run into each other.** -/
theorem apart_of_lossless (lossless : ∀ raws, ∃ places, Lossless rule keys raws places) :
    MarkersApart rule.mergeKey where
  headHead := by
    -- The head marker begins in a primary body that ends with the front of one.
    intro runs
    obtain ⟨front, shared, behind, isNeedle, isMark, some, some'⟩ := runsInto_parts runs
    obtain ⟨kept, text⟩ := trim_front (.inl isNeedle) some
    have length : (headMarker rule.mergeKey).length = front.length + shared.length := by
      rw [isNeedle, List.length_append]
    have split := unpackBody_of_lossless lossless (part_free length some') (nil_free rule.mergeKey)
    rw [kept] at split
    obtain ⟨headStart, bodyStart, isHead, -, -, isOriginal, -⟩ := unpackBody_some split
    have early : headStart ≤ 0 := by
      refine find_bound isHead (Nat.zero_le _) ⟨behind ++ bodyMarker rule.mergeKey, ?_⟩
      conv_lhs => rw [isNeedle]
      conv_rhs => rw [isMark]
      simp
    rw [Nat.le_zero.mp early, List.take_zero] at isOriginal
    exact text isOriginal
  headBody := by
    -- The body marker begins in the head marker, the secondary anchor being the back of one.
    intro runs
    obtain ⟨front, shared, behind, isNeedle, isMark, some, some'⟩ := runsInto_parts runs
    have length : (headMarker rule.mergeKey).length = behind.length + shared.length := by
      rw [← markers_length, isMark, List.length_append, Nat.add_comm]
    have split := unpackBody_of_lossless lossless (nil_free rule.mergeKey) (part_free length some')
    rw [List.dropWhile_nil, List.nil_append] at split
    obtain ⟨headStart, bodyStart, -, isBody, ordered, -, -⟩ := unpackBody_some split
    have early : bodyStart ≤ front.length := by
      refine find_bound isBody ?_ ⟨bodyMarker rule.mergeKey, ?_⟩
      · simp [isNeedle]
      · conv_rhs => rw [isNeedle]
        rw [List.append_assoc, List.drop_left, isMark, List.append_assoc]
    have whole := congrArg List.length isNeedle
    rw [List.length_append] at whole
    have long := List.length_pos_iff.mpr some'
    omega
  bodyHead := by
    -- The body marker begins in a primary body that ends with the front of one.
    intro runs
    obtain ⟨front, shared, behind, isNeedle, isMark, some, some'⟩ := runsInto_parts runs
    obtain ⟨kept, -⟩ := trim_front (.inr isNeedle) some
    have length : (headMarker rule.mergeKey).length = front.length + shared.length := by
      rw [← markers_length, isNeedle, List.length_append]
    have split := unpackBody_of_lossless lossless (part_free length some') (nil_free rule.mergeKey)
    rw [kept] at split
    obtain ⟨headStart, bodyStart, -, isBody, ordered, -, -⟩ := unpackBody_some split
    have early : bodyStart ≤ 0 := by
      refine find_bound isBody (Nat.zero_le _) ⟨behind ++ bodyMarker rule.mergeKey, ?_⟩
      conv_rhs => rw [isMark]
      conv_lhs => rw [isNeedle]
      simp [isNeedle]
    have long := List.length_pos_iff.mpr some'
    omega
  bodyBody := by
    -- The body marker begins in a secondary anchor that ends with the front of one.
    intro runs
    obtain ⟨front, shared, behind, isNeedle, isMark, some, some'⟩ := runsInto_parts runs
    obtain ⟨-, text⟩ := trim_front (.inr isNeedle) some
    have length : (headMarker rule.mergeKey).length = front.length + shared.length := by
      rw [← markers_length, isNeedle, List.length_append]
    have split := unpackBody_of_lossless lossless (nil_free rule.mergeKey) (part_free length some')
    rw [List.dropWhile_nil, List.nil_append] at split
    obtain ⟨headStart, bodyStart, -, isBody, -, -, isHead⟩ := unpackBody_some split
    have early : bodyStart ≤ (headMarker rule.mergeKey).length := by
      refine find_bound isBody (by simp) ⟨behind, ?_⟩
      rw [List.drop_left]
      conv_rhs => rw [isMark]
      conv_lhs => rw [isNeedle]
      rw [List.append_assoc]
    have nothing : ∀ texts : List Char,
        (texts.take bodyStart).drop (headStart + (headMarker rule.mergeKey).length) = [] := by
      intro texts
      refine List.drop_eq_nil_of_le ((List.length_take_le _ _).trans ?_)
      omega
    rw [nothing] at isHead
    exact text isHead

end Settings

/-! ### The two stages -/

open Occurrence

/-- **Pairing loses nothing, whatever the entries,** exactly where the two languages differ, no marker
runs into a marker and the three texts go under different keys. -/
theorem pairing_lossless_iff (rule : PairRule) (keys : PayloadKeys) :
    (∀ raws, ∃ places, Lossless rule keys raws places) ↔
      rule.primaryLang ≠ rule.secondaryLang ∧ MarkersApart rule.mergeKey ∧ keys.Distinct := by
  constructor
  · intro lossless
    have differ := langs_of_lossless lossless
    exact ⟨differ, apart_of_lossless lossless, distinct_of_lossless differ lossless⟩
  · intro settings raws
    exact ⟨_, lossless_of_apart settings.1 settings.2.1 settings.2.2 raws⟩

/-- A primary body that ends like the front of a head marker is cut short. -/
theorem pairing_loses : ¬ ∃ places, Lossless ⟨"en", "zh", "a_head>>><<<a"⟩
    ⟨"zh_head", "zh_text", "en_text"⟩
    [sampleEntry "en" [] "<<<a_head>>>".toList, sampleEntry "zh" ['y'] ['z']] places := by
  rintro ⟨places, lossless⟩
  have recovers := lossless.recovers (by decide) (markerFree_of_short (by decide))
    (markerFree_of_short (by decide)) (markerFree_of_short (by decide))
  rw [recovers_iff ⟨by decide, by decide, by decide⟩] at recovers
  exact absurd recovers (by decide)

end Bookrack.Distill
