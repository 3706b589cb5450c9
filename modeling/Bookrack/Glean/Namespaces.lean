/-
The content namespaces of a paper's prose leaves.

* `LeafName` — what follows the intake in a namespace. `LeafName.text_injective`: two names are written
  differently.
* `LeafName.Used`: a name the loop has given out, by its counters.
* **`planPaper_named`** — for every abstract and every block list, the prose leaves of the plan have
  pairwise distinct namespaces.
-/

import Bookrack.Glean.Structure
import Std.Data.String.ToNat

namespace Bookrack.Glean

open Structure (Block BlockKind)

/-! ### Names -/

/-- The part of a namespace after the intake. -/
inductive LeafName
  | abstract
  | heading (sectionSeq : Nat)
  | subheading (sectionSeq within : Nat)
  | headingLeaf (seq : Nat)
  | body (seq : Nat)
  deriving DecidableEq, Repr

namespace LeafName

/-- The name as it is written. -/
def text : LeafName → String
  | abstract => "abstract"
  | heading sectionSeq => "heading:" ++ toString sectionSeq
  | subheading sectionSeq within => "heading:" ++ toString sectionSeq ++ "." ++ toString within
  | headingLeaf seq => "heading-leaf:" ++ toString seq
  | body seq => "body:" ++ toString seq

/-- No dot among the digits. -/
theorem dot_not_mem (n : Nat) : '.' ∉ Nat.toDigits 10 n := by
  intro member
  have isDigit := Nat.isDigit_of_mem_toDigits (by decide) (by decide) member
  revert isDigit
  decide

theorem toDigits_inj {one other : Nat} (same : Nat.toDigits 10 one = Nat.toDigits 10 other) : one = other := by
  rw [← Nat.ofDigitChars_ten_toDigits (n := one), same, Nat.ofDigitChars_ten_toDigits]

/-- Numbers joined with a dot are told apart. -/
theorem dotted_inj {one within other within' : Nat}
    (same : Nat.toDigits 10 one ++ '.' :: Nat.toDigits 10 within =
      Nat.toDigits 10 other ++ '.' :: Nat.toDigits 10 within') : one = other ∧ within = within' := by
  rw [List.append_cons_inj_of_notMem (dot_not_mem one) (dot_not_mem within)] at same
  exact ⟨toDigits_inj same.1, toDigits_inj same.2.2⟩

/-- **Two names are written differently.** -/
theorem text_injective : Function.Injective text := by
  intro one other same
  have chars := congrArg String.toList same
  -- a number has no dot, and every other pair differs in its words
  cases one <;> cases other <;> simp [text, String.toList_append] at chars
  case abstract.abstract => rfl
  case heading.heading => rw [toDigits_inj chars]
  case heading.subheading n other within =>
    refine absurd ?_ (dot_not_mem n)
    rw [chars]
    exact List.mem_append_right _ List.mem_cons_self
  case subheading.heading other within n =>
    refine absurd ?_ (dot_not_mem n)
    rw [← chars]
    exact List.mem_append_right _ List.mem_cons_self
  case subheading.subheading =>
    obtain ⟨sameSection, sameWithin⟩ := dotted_inj chars
    rw [sameSection, sameWithin]
  case headingLeaf.headingLeaf => rw [toDigits_inj chars]
  case body.body => rw [toDigits_inj chars]

/-- The loop has given the name out, as its counters tell. -/
def Used (planner : Planner) : LeafName → Prop
  | abstract => True
  | heading sectionSeq => sectionSeq ≤ planner.sectionSeq
  | subheading sectionSeq within => sectionSeq < planner.sectionSeq ∨
    sectionSeq = planner.sectionSeq ∧ within ≤ planner.subsectionWithinSection
  | headingLeaf seq => seq ≤ planner.headingLeafSeq
  | body seq => seq < planner.bodySeq

end LeafName

/-! ### The names of a plan -/

/-- The namespaces of the prose leaves of a plan. -/
def proseNamespaces (plans : List PendingNode) : List (Option String) :=
  (plans.filter (·.nodeType.isProseLeaf)).map (·.contentNamespace)

/-- A namespace of the intake. -/
def LeafName.namespaceIn (intakeId : Int) (name : LeafName) : Option String :=
  some (intakePart intakeId ++ name.text)

/-- The prose leaves have distinct names, given out by the loop. -/
def Named (intakeId : Int) (planner : Planner) : Prop :=
  ∃ names : List LeafName, proseNamespaces planner.plans = names.map (LeafName.namespaceIn intakeId) ∧
    names.Nodup ∧ ∀ name ∈ names, name.Used planner

section Loop

variable {intakeId : Int} {planner after : Planner} {text : String} {sourceUnit : Nat}

theorem namespaceIn_injective : Function.Injective (LeafName.namespaceIn intakeId) := by
  intro one other same
  have chars := congrArg String.toList (Option.some.inj same)
  rw [String.toList_append, String.toList_append] at chars
  exact LeafName.text_injective (String.toList_inj.mp (List.append_cancel_left chars))

theorem proseNamespaces_append (plans added : List PendingNode) :
    proseNamespaces (plans ++ added) = proseNamespaces plans ++ proseNamespaces added := by
  unfold proseNamespaces
  rw [List.filter_append, List.map_append]

/-- No leaf is named: a caption, or an organizer. -/
theorem Named.keep (named : Named intakeId planner)
    (same : proseNamespaces after.plans = proseNamespaces planner.plans)
    (grows : ∀ name : LeafName, name.Used planner → name.Used after) : Named intakeId after := by
  obtain ⟨names, isNames, distinct, used⟩ := named
  exact ⟨names, same.trans isNames, distinct, fun name member => grows name (used name member)⟩

/-- **A leaf takes a new name.** -/
theorem Named.push (named : Named intakeId planner) (name : LeafName)
    (added : proseNamespaces after.plans = proseNamespaces planner.plans ++ [name.namespaceIn intakeId])
    (fresh : ¬name.Used planner) (grows : ∀ name : LeafName, name.Used planner → name.Used after)
    (used : name.Used after) : Named intakeId after := by
  obtain ⟨names, isNames, distinct, allUsed⟩ := named
  refine ⟨names ++ [name], ?_, ?_, ?_⟩
  · rw [added, isNames, List.map_append, List.map_singleton]
  · rw [List.nodup_append]
    refine ⟨distinct, List.nodup_singleton name, ?_⟩
    intro one member other isNew
    obtain rfl := List.mem_singleton.mp isNew
    rintro rfl
    exact fresh (allUsed one member)
  · intro one member
    rcases List.mem_append.mp member with isOld | isNew
    · exact grows one (allUsed one isOld)
    · exact List.mem_singleton.mp isNew ▸ used

/-- The namespaces after an organizer and a heading under it. -/
theorem proseNamespaces_opened {plans : List PendingNode} {parentIdx up : Option Nat} {nodeType : NodeType}
    {depth depth' : Int} {contentNamespace : String} (organizes : nodeType.isProseLeaf = false) :
    proseNamespaces (plans ++ [.organizer parentIdx nodeType depth] ++
        [.leaf up .heading depth' text sourceUnit contentNamespace]) =
      proseNamespaces plans ++ [some contentNamespace] := by
  rw [List.append_assoc, proseNamespaces_append]
  congr 1
  show ([_, _].filter _).map _ = _
  rw [List.filter_cons_of_neg (by simp [PendingNode.organizer, organizes])]
  rfl

theorem proseNamespaces_pushLeaf {nodeType : NodeType} {contentNamespace : String}
    (isProse : nodeType.isProseLeaf = true) :
    proseNamespaces (planner.pushLeaf nodeType text sourceUnit contentNamespace).plans =
      proseNamespaces planner.plans ++ [some contentNamespace] := by
  show proseNamespaces (planner.plans ++ [_]) = _
  rw [proseNamespaces_append]
  congr 1
  show ([_].filter _).map _ = _
  rw [List.filter_cons_of_pos (by exact isProse)]
  rfl

theorem planSection_named (named : Named intakeId planner) :
    Named intakeId (planSection intakeId planner text sourceUnit) := by
  refine named.push (.heading (planner.sectionSeq + 1)) ?_ ?_ ?_ ?_
  · refine (proseNamespaces_opened rfl).trans ?_
    rw [LeafName.namespaceIn, LeafName.text, ← String.append_assoc]
    rfl
  · exact Nat.not_succ_le_self _
  · intro name isUsed
    cases name <;>
      simp only [LeafName.Used, planSection, Planner.openSection, Planner.push] at isUsed ⊢ <;> omega
  · exact Nat.le_refl _

/-- A section without a heading names no leaf. -/
theorem sectionFor_named (named : Named intakeId planner) : Named intakeId (sectionFor planner).1 := by
  unfold sectionFor
  cases planner.currentSection with
  | some idx => exact named
  | none =>
    refine named.keep ?_ ?_
    · show proseNamespaces (planner.plans ++ [_]) = _
      rw [proseNamespaces_append]
      exact List.append_nil _
    · intro name isUsed
      cases name <;> simp only [LeafName.Used, Planner.openSection, Planner.push] at isUsed ⊢ <;> omega

theorem planSubsection_named (named : Named intakeId planner) :
    Named intakeId (planSubsection intakeId planner text sourceUnit) := by
  refine (sectionFor_named named).push (.subheading (sectionFor planner).1.sectionSeq
    ((sectionFor planner).1.subsectionWithinSection + 1)) ?_ ?_ ?_ ?_
  · refine (proseNamespaces_opened rfl).trans ?_
    rw [LeafName.namespaceIn, LeafName.text, ← String.append_assoc, ← String.append_assoc,
      ← String.append_assoc]
    rfl
  · simp only [LeafName.Used]
    omega
  · intro name isUsed
    cases name <;>
      simp only [LeafName.Used, planSubsection, Planner.openSubsection, Planner.push] at isUsed ⊢ <;> omega
  · exact .inr ⟨rfl, Nat.le_refl _⟩

theorem planHeadingLeaf_named (named : Named intakeId planner) :
    Named intakeId (planHeadingLeaf intakeId planner text sourceUnit) := by
  refine named.push (.headingLeaf (planner.headingLeafSeq + 1)) ?_ ?_ ?_ ?_
  · refine (proseNamespaces_pushLeaf rfl).trans ?_
    rw [LeafName.namespaceIn, LeafName.text, ← String.append_assoc]
  · exact Nat.not_succ_le_self _
  · intro name isUsed
    cases name <;>
      simp only [LeafName.Used, planHeadingLeaf, Planner.pushLeaf, Planner.push] at isUsed ⊢ <;> omega
  · exact Nat.le_refl _

theorem planBody_named (named : Named intakeId planner) :
    Named intakeId (planBody intakeId planner text sourceUnit) := by
  refine named.push (.body planner.bodySeq) ?_ ?_ ?_ ?_
  · refine (proseNamespaces_pushLeaf rfl).trans ?_
    rw [LeafName.namespaceIn, LeafName.text, ← String.append_assoc]
  · exact Nat.lt_irrefl _
  · intro name isUsed
    cases name <;> simp only [LeafName.Used, planBody, Planner.pushLeaf, Planner.push] at isUsed ⊢ <;> omega
  · exact Nat.lt_succ_self _

/-- A caption is no prose leaf. -/
theorem planCaption_named (named : Named intakeId planner) :
    Named intakeId (planCaption intakeId planner text sourceUnit) := by
  refine named.keep ?_ ?_
  · show proseNamespaces (planner.plans ++ [_]) = _
    rw [proseNamespaces_append]
    exact List.append_nil _
  · intro name isUsed
    cases name <;> simp only [LeafName.Used, planCaption, Planner.pushLeaf, Planner.push] at isUsed ⊢ <;> omega

/-- **One block** keeps the names distinct. -/
theorem planBlock_named (named : Named intakeId planner) (block : Block) :
    Named intakeId (planBlock intakeId planner block) := by
  unfold planBlock
  dsimp only
  split_ifs
  · exact named
  cases block.kind with
  | heading level =>
    dsimp only
    split_ifs
    · exact planSection_named named
    · exact planSubsection_named named
    · exact planHeadingLeaf_named named
  | body => exact planBody_named named
  | caption => exact planCaption_named named
  | abstract | footnote | other => exact named

theorem start_named (abstractText : Option String) :
    Named intakeId (.start (abstractPlans intakeId abstractText)) := by
  unfold abstractPlans
  cases abstractTrimmed abstractText with
  | none => exact ⟨[], rfl, .nil, fun _ member => absurd member List.not_mem_nil⟩
  | some text =>
    exact ⟨[.abstract], rfl, List.nodup_singleton _, fun name member => List.mem_singleton.mp member ▸ trivial⟩

theorem foldl_planBlock_named (bodyBlocks : List Block) : ∀ {planner : Planner}, Named intakeId planner →
    Named intakeId (bodyBlocks.foldl (planBlock intakeId) planner) := by
  induction bodyBlocks with
  | nil => exact fun named => named
  | cons block rest ih => exact fun named => ih (planBlock_named named block)

/-- **The prose leaves of a paper have pairwise distinct namespaces.** -/
theorem planPaper_named (intakeId : Int) (abstractText : Option String) (bodyBlocks : List Block) :
    (proseNamespaces (planPaper intakeId abstractText bodyBlocks).plans).Nodup := by
  obtain ⟨names, isNames, distinct, -⟩ := foldl_planBlock_named bodyBlocks (start_named abstractText)
  rw [planPaper, isNames]
  exact distinct.map namespaceIn_injective

end Loop

end Bookrack.Glean
