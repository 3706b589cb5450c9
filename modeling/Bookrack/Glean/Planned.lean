/-
The plan of a paper is a tree in preorder.

* `Planned plans`: every node is attached to the last one or above it, under an organizing node one
  level up, and looks like a leaf or an organizer.
* `Open plans sectionIdx subsectionIdx` — and the current section and subsection are above the last
  node. `Open.openSection`, `Open.openSubsection` and `Open.pushLeaf` are the three moves of the loop.
* `Filled plans`: every organizer has a leaf. `Pending` says so of all but those above the last node,
  which the next leaf fills.
* **`planPaper_sound`** — for every abstract and every block list the plan is open, filled, and its
  leaves are the abstract and the blocks that are kept, in order.
-/

import Bookrack.Glean.Structure

namespace Bookrack.Glean

open Forest
open Structure (Block BlockKind)

/-! ### Plans -/

/-- A planned node's parent, with the work at 0 and the plan from 1 on. -/
def upIndex (plan : PendingNode) : Nat :=
  match plan.parentIdx with
  | some up => up + 1
  | none => 0

/-- The parents of the planned nodes. -/
def upsOf (plans : List PendingNode) : List Nat := plans.map upIndex

/-- A planned node is a leaf with a text, or an organizer. -/
structure PendingNode.Shaped (plan : PendingNode) : Prop where
  leafy : plan.isLeaf = !plan.nodeType.isOrganizing
  worded : plan.isLeaf = true → plan.text.isSome ∧ plan.contentNamespace.isSome
  organizes : plan.isLeaf = false → plan.nodeType = .section ∨ plan.nodeType = .subsection
  paged : plan.isLeaf = true → plan.parentIdx ≠ none → plan.sourceUnit.isSome

theorem shaped_organizer {parentIdx : Option Nat} {nodeType : NodeType} {depth : Int}
    (organizes : nodeType = .section ∨ nodeType = .subsection) :
    (PendingNode.organizer parentIdx nodeType depth).Shaped where
  leafy := by rcases organizes with rfl | rfl <;> rfl
  worded := fun isLeaf => Bool.noConfusion isLeaf
  organizes := fun _ => organizes
  paged := fun isLeaf => Bool.noConfusion isLeaf

theorem shaped_leaf {parentIdx : Option Nat} {nodeType : NodeType} {depth : Int} {text : String}
    {sourceUnit : Nat} {contentNamespace : String} (isLeaf : nodeType.isOrganizing = false) :
    (PendingNode.leaf parentIdx nodeType depth text sourceUnit contentNamespace).Shaped where
  leafy := by
    show true = !nodeType.isOrganizing
    rw [isLeaf]
    rfl
  worded := fun _ => ⟨rfl, rfl⟩
  organizes := fun organizes => Bool.noConfusion organizes
  paged := fun _ _ => rfl

theorem shaped_abstract (text contentNamespace : String) :
    (PendingNode.abstractLeaf text contentNamespace).Shaped where
  leafy := rfl
  worded := fun _ => ⟨rfl, rfl⟩
  organizes := fun organizes => Bool.noConfusion organizes
  paged := fun _ isUnder => absurd rfl isUnder

/-- A node may be attached here: to the work, or to an organizer above the last node. -/
def Attachable (plans : List PendingNode) (plan : PendingNode) : Prop :=
  plan.parentIdx = none ∧ plan.depth = 1 ∨
    ∃ up organizer, plan.parentIdx = some up ∧ plans[up]? = some organizer ∧ organizer.isLeaf = false ∧
      plan.depth = organizer.depth + 1 ∧ Below (upOf (upsOf plans)) plans.length (up + 1)

/-- **A plan in preorder.** -/
structure Planned (plans : List PendingNode) : Prop where
  spined : Spined (upsOf plans)
  parents : ∀ plan ∈ plans, ∀ up, plan.parentIdx = some up → ∃ organizer, plans[up]? = some organizer ∧
    organizer.isLeaf = false ∧ plan.depth = organizer.depth + 1
  deep : ∀ plan ∈ plans, 1 ≤ plan.depth
  shaped : ∀ plan ∈ plans, plan.Shaped

section Plans

variable {plans : List PendingNode} {node : PendingNode}

theorem upsOf_concat : upsOf (plans ++ [node]) = upsOf plans ++ [upIndex node] := List.map_append

theorem length_upsOf : (upsOf plans).length = plans.length := List.length_map _

theorem getElem?_concat_of_some {idx : Nat} {other : PendingNode} (isOther : plans[idx]? = some other) :
    (plans ++ [node])[idx]? = some other := by
  rw [List.getElem?_append_left (List.getElem?_eq_some_iff.mp isOther).1, isOther]

/-- What is below a node stays below it. -/
theorem below_concat {lower above : Nat} (below : Below (upOf (upsOf plans)) lower above) :
    Below (upOf (upsOf (plans ++ [node]))) lower above := by
  rw [upsOf_concat]
  exact below.concat

/-- The new node is below its parent. -/
theorem below_pushed : Below (upOf (upsOf (plans ++ [node]))) (plans ++ [node]).length (upIndex node) := by
  rw [upsOf_concat, List.length_append, List.length_singleton, ← length_upsOf]
  exact below_new

/-- And below everything its parent is below. -/
theorem below_pushed_of {above : Nat} (isAbove : Below (upOf (upsOf plans)) (upIndex node) above) :
    Below (upOf (upsOf (plans ++ [node]))) (plans ++ [node]).length above :=
  below_pushed.trans (below_concat isAbove)

namespace Planned

theorem nil : Planned [] where
  spined := .nil
  parents := fun _ member => absurd member List.not_mem_nil
  deep := fun _ member => absurd member List.not_mem_nil
  shaped := fun _ member => absurd member List.not_mem_nil

/-- **One more node.** -/
theorem push (planned : Planned plans) (shaped : node.Shaped) (attachable : Attachable plans node) :
    Planned (plans ++ [node]) := by
  have isOpen : Below (upOf (upsOf plans)) (upsOf plans).length (upIndex node) := by
    unfold upIndex
    rcases attachable with ⟨isTop, -⟩ | ⟨up, _, isUp, -, -, -, below⟩
    · rw [isTop]
      exact below_root planned.spined.rooted (Nat.lt_succ_self _)
    · rw [isUp, length_upsOf]
      exact below
  refine ⟨?_, ?_, ?_, ?_⟩
  · rw [upsOf_concat]
    exact planned.spined.concat isOpen
  · intro plan member up isUp
    rcases List.mem_append.mp member with isOld | isNew
    · obtain ⟨organizer, isOrganizer, rest⟩ := planned.parents plan isOld up isUp
      exact ⟨organizer, getElem?_concat_of_some isOrganizer, rest⟩
    · obtain rfl := List.mem_singleton.mp isNew
      rcases attachable with ⟨isTop, -⟩ | ⟨up', organizer, isUp', isOrganizer, organizes, deeper, -⟩
      · cases isTop.symm.trans isUp
      · obtain rfl := Option.some.inj (isUp'.symm.trans isUp)
        exact ⟨organizer, getElem?_concat_of_some isOrganizer, organizes, deeper⟩
  · intro plan member
    rcases List.mem_append.mp member with isOld | isNew
    · exact planned.deep plan isOld
    · obtain rfl := List.mem_singleton.mp isNew
      rcases attachable with ⟨-, depth⟩ | ⟨up, organizer, -, isOrganizer, -, deeper, -⟩
      · exact depth.ge
      · have := planned.deep organizer (List.mem_of_getElem? isOrganizer)
        omega
  · intro plan member
    rcases List.mem_append.mp member with isOld | isNew
    · exact planned.shaped plan isOld
    · exact List.mem_singleton.mp isNew ▸ shaped

end Planned

end Plans

/-! ### The open organizers -/

/-- An organizer of this depth above the last node. -/
def OpenAt (plans : List PendingNode) (idx : Nat) (depth : Int) : Prop :=
  ∃ organizer, plans[idx]? = some organizer ∧ organizer.isLeaf = false ∧ organizer.depth = depth ∧
    Below (upOf (upsOf plans)) plans.length (idx + 1)

/-- The plan with its current section and subsection. -/
structure Open (plans : List PendingNode) (sectionIdx subsectionIdx : Option Nat) : Prop where
  planned : Planned plans
  inSection : ∀ idx, sectionIdx = some idx → OpenAt plans idx 1
  inSubsection : ∀ idx, subsectionIdx = some idx → OpenAt plans idx 2 ∧
    ∃ up, sectionIdx = some up ∧ Below (upOf (upsOf plans)) (idx + 1) (up + 1)

section Moves

variable {plans : List PendingNode} {node : PendingNode} {sectionIdx subsectionIdx : Option Nat}

theorem OpenAt.push {idx : Nat} {depth : Int} (isOpen : OpenAt plans idx depth)
    (under : Below (upOf (upsOf plans)) (upIndex node) (idx + 1)) : OpenAt (plans ++ [node]) idx depth := by
  obtain ⟨organizer, isOrganizer, organizes, isDepth, -⟩ := isOpen
  exact ⟨organizer, getElem?_concat_of_some isOrganizer, organizes, isDepth, below_pushed_of under⟩

/-- The organizer just pushed. -/
theorem OpenAt.pushed (organizes : node.isLeaf = false) :
    OpenAt (plans ++ [node]) plans.length node.depth := by
  refine ⟨node, List.getElem?_concat_length, organizes, rfl, ?_⟩
  rw [List.length_append, List.length_singleton]

/-- Under an open organizer. -/
theorem OpenAt.attachable {idx : Nat} {depth : Int} (isOpen : OpenAt plans idx depth)
    (isUp : node.parentIdx = some idx) (deeper : node.depth = depth + 1) : Attachable plans node := by
  obtain ⟨organizer, isOrganizer, organizes, rfl, below⟩ := isOpen
  exact .inr ⟨idx, organizer, isUp, isOrganizer, organizes, deeper, below⟩

theorem upIndex_of_parent {up : Nat} (isUp : node.parentIdx = some up) : upIndex node = up + 1 := by
  unfold upIndex
  rw [isUp]

namespace Open

theorem start (planned : Planned plans) : Open plans none none where
  planned := planned
  inSection := fun _ isSome => by cases isSome
  inSubsection := fun _ isSome => by cases isSome

/-- Without a section there is no subsection. -/
theorem no_subsection (isOpen : Open plans none subsectionIdx) : subsectionIdx = none := by
  cases subsectionIdx with
  | none => rfl
  | some idx =>
    obtain ⟨-, up, isUp, -⟩ := isOpen.inSubsection idx rfl
    cases isUp

/-- A section is opened. -/
theorem openSection (isOpen : Open plans sectionIdx subsectionIdx) :
    Open (plans ++ [.organizer none .section 1]) (some plans.length) none where
  planned := isOpen.planned.push (shaped_organizer (.inl rfl)) (.inl ⟨rfl, rfl⟩)
  inSection := by
    intro idx isIdx
    obtain rfl := Option.some.inj isIdx
    exact .pushed rfl
  inSubsection := fun _ isSome => by cases isSome

/-- A subsection is opened in the current section. -/
theorem openSubsection {up : Nat} (isOpen : Open plans (some up) subsectionIdx) :
    Open (plans ++ [.organizer (some up) .subsection 2]) (some up) (some plans.length) where
  planned := isOpen.planned.push (shaped_organizer (.inr rfl))
    ((isOpen.inSection up rfl).attachable rfl rfl)
  inSection := by
    intro idx isIdx
    obtain rfl := Option.some.inj isIdx
    exact (isOpen.inSection up rfl).push .refl
  inSubsection := by
    intro idx isIdx
    obtain rfl := Option.some.inj isIdx
    refine ⟨.pushed rfl, up, rfl, ?_⟩
    have under : Below (upOf (upsOf (plans ++ [.organizer (some up) .subsection 2])))
        (plans ++ [PendingNode.organizer (some up) .subsection 2]).length (up + 1) := below_pushed
    rwa [List.length_append, List.length_singleton] at under

/-- A leaf is pushed under the deepest open organizer. -/
theorem pushLeaf (isOpen : Open plans sectionIdx subsectionIdx) (shaped : node.Shaped)
    (isUp : node.parentIdx = (currentParent subsectionIdx sectionIdx).1)
    (deeper : node.depth = (currentParent subsectionIdx sectionIdx).2 + 1) :
    Open (plans ++ [node]) sectionIdx subsectionIdx := by
  cases subsectionIdx with
  | some inner =>
    obtain ⟨innerOpen, up, isSection, nested⟩ := isOpen.inSubsection inner rfl
    have under : upIndex node = inner + 1 := upIndex_of_parent isUp
    refine ⟨isOpen.planned.push shaped (innerOpen.attachable isUp deeper), ?_, ?_⟩
    · intro idx isIdx
      obtain rfl := Option.some.inj (isSection.symm.trans isIdx)
      exact (isOpen.inSection up isIdx).push (under ▸ nested)
    · intro idx isIdx
      obtain rfl := Option.some.inj isIdx
      exact ⟨innerOpen.push (under ▸ .refl), up, isSection, below_concat nested⟩
  | none =>
    cases sectionIdx with
    | some up =>
      have upOpen := isOpen.inSection up rfl
      have under : upIndex node = up + 1 := upIndex_of_parent isUp
      refine ⟨isOpen.planned.push shaped (upOpen.attachable isUp deeper), ?_, fun _ isSome => by cases isSome⟩
      intro idx isIdx
      obtain rfl := Option.some.inj isIdx
      exact upOpen.push (under ▸ .refl)
    | none => exact .start (isOpen.planned.push shaped (.inl ⟨isUp, deeper⟩))

end Open

end Moves

/-! ### Every organizer gets a leaf -/

/-- The organizer at this index has a leaf below it. -/
def HasLeaf (plans : List PendingNode) (idx : Nat) : Prop :=
  ∃ leafIdx leaf, plans[leafIdx]? = some leaf ∧ leaf.isLeaf = true ∧
    Below (upOf (upsOf plans)) (leafIdx + 1) (idx + 1)

/-- Every organizer has a leaf. -/
def Filled (plans : List PendingNode) : Prop :=
  ∀ idx organizer, plans[idx]? = some organizer → organizer.isLeaf = false → HasLeaf plans idx

/-- Every organizer has a leaf, or it is above the last node. -/
def Pending (plans : List PendingNode) : Prop :=
  ∀ idx organizer, plans[idx]? = some organizer → organizer.isLeaf = false →
    HasLeaf plans idx ∨ Below (upOf (upsOf plans)) plans.length (idx + 1)

section Leaves

variable {plans : List PendingNode} {node : PendingNode}

theorem HasLeaf.concat {idx : Nat} (hasLeaf : HasLeaf plans idx) : HasLeaf (plans ++ [node]) idx := by
  obtain ⟨leafIdx, leaf, isIdx, isLeaf, below⟩ := hasLeaf
  exact ⟨leafIdx, leaf, getElem?_concat_of_some isIdx, isLeaf, below_concat below⟩

/-- The node at an index of a longer plan is an old one or the new one. -/
theorem old_or_new {idx : Nat} {other : PendingNode} (isOther : (plans ++ [node])[idx]? = some other) :
    plans[idx]? = some other ∨ idx = plans.length ∧ other = node := by
  have inside := (List.getElem?_eq_some_iff.mp isOther).1
  rw [List.length_append, List.length_singleton] at inside
  rcases Nat.lt_or_eq_of_le (Nat.lt_succ_iff.mp inside) with isOld | rfl
  · rw [List.getElem?_append_left isOld] at isOther
    exact .inl isOther
  · rw [List.getElem?_concat_length] at isOther
    exact .inr ⟨rfl, (Option.some.inj isOther).symm⟩

theorem Filled.pending (filled : Filled plans) : Pending plans :=
  fun idx organizer isOrganizer organizes => .inl (filled idx organizer isOrganizer organizes)

/-- After an organizer is attached to the last node, or where all had a leaf before. -/
theorem Pending.push (pending : Pending plans) (attached : Filled plans ∨ upIndex node = plans.length) :
    Pending (plans ++ [node]) := by
  intro idx organizer isOrganizer organizes
  rcases old_or_new isOrganizer with isOld | ⟨rfl, rfl⟩
  · rcases pending idx organizer isOld organizes with hasLeaf | above
    · exact .inl hasLeaf.concat
    · rcases attached with filled | isLast
      · exact .inl (filled idx organizer isOld organizes).concat
      · exact .inr (below_pushed_of (isLast ▸ above))
  · right
    rw [List.length_append, List.length_singleton]

/-- **The next leaf fills what is open**, when it is attached to the last node. -/
theorem Pending.fill (pending : Pending plans) (isLeaf : node.isLeaf = true)
    (isLast : upIndex node = plans.length) : Filled (plans ++ [node]) := by
  intro idx organizer isOrganizer organizes
  rcases old_or_new isOrganizer with isOld | ⟨-, rfl⟩
  · rcases pending idx organizer isOld organizes with hasLeaf | above
    · exact hasLeaf.concat
    · refine ⟨plans.length, node, List.getElem?_concat_length, isLeaf, ?_⟩
      have below : Below (upOf (upsOf (plans ++ [node]))) (plans ++ [node]).length (idx + 1) :=
        below_pushed_of (isLast.symm ▸ above)
      rwa [List.length_append, List.length_singleton] at below
  · cases isLeaf.symm.trans organizes

theorem Filled.pushLeaf (filled : Filled plans) (isLeaf : node.isLeaf = true) : Filled (plans ++ [node]) := by
  intro idx organizer isOrganizer organizes
  rcases old_or_new isOrganizer with isOld | ⟨-, rfl⟩
  · exact (filled idx organizer isOld organizes).concat
  · cases isLeaf.symm.trans organizes

end Leaves

/-! ### What the leaves hold -/

/-- What a leaf takes from its source: its type, text and page. -/
abbrev LeafContent := NodeType × Option String × Option Nat

/-- The leaves of a plan. -/
def leafContents (plans : List PendingNode) : List LeafContent :=
  (plans.filter (·.isLeaf)).map fun plan => (plan.nodeType, plan.text, plan.sourceUnit)

/-- The leaf of a block: headings, bodies and captions have one, unless they are blank. -/
def blockLeaf (block : Block) : Option LeafContent :=
  if trimmed block.text = "" then none
  else
    match block.kind with
    | .heading _ => some (.heading, some (trimmed block.text), some block.sourceUnit)
    | .body => some (.paragraph, some (trimmed block.text), some block.sourceUnit)
    | .caption => some (.figureCaption, some (trimmed block.text), some block.sourceUnit)
    | .abstract | .footnote | .other => none

/-- The leaf of the abstract. -/
def abstractLeafOf (abstractText : Option String) : Option LeafContent :=
  (abstractTrimmed abstractText).map fun text => (.paragraph, some text, none)

/-- The leaves a paper is to have: the abstract first, then one for each block that is kept. -/
def paperLeaves (abstractText : Option String) (bodyBlocks : List Block) : List LeafContent :=
  (abstractLeafOf abstractText).toList ++ bodyBlocks.filterMap blockLeaf

theorem leafContents_concat_leaf {plans : List PendingNode} {node : PendingNode} (isLeaf : node.isLeaf = true) :
    leafContents (plans ++ [node]) =
      leafContents plans ++ [(node.nodeType, node.text, node.sourceUnit)] := by
  unfold leafContents
  rw [List.filter_append, List.map_append, List.filter_cons_of_pos isLeaf]
  rfl

theorem leafContents_concat_organizer {plans : List PendingNode} {node : PendingNode}
    (organizes : node.isLeaf = false) : leafContents (plans ++ [node]) = leafContents plans := by
  unfold leafContents
  rw [List.filter_append, List.map_append, List.filter_cons_of_neg (by simp [organizes])]
  exact List.append_nil _

/-! ### The loop -/

/-- What holds between two turns of the planning loop. -/
structure Planner.Sound (planner : Planner) : Prop where
  isOpen : Open planner.plans planner.currentSection planner.currentSubsection
  filled : Filled planner.plans

section Loop

variable {intakeId : Int} {planner : Planner} {text : String} {sourceUnit : Nat}

/-- A leaf under the deepest open organizer, whatever counters move with it. -/
theorem Planner.Sound.pushLeaf (sound : planner.Sound) {after : Planner} {nodeType : NodeType}
    {contentNamespace : String} (isLeaf : nodeType.isOrganizing = false)
    (isPushed : after.plans = (planner.pushLeaf nodeType text sourceUnit contentNamespace).plans)
    (sameSection : after.currentSection = planner.currentSection)
    (sameSubsection : after.currentSubsection = planner.currentSubsection) :
    after.Sound ∧ leafContents after.plans =
      leafContents planner.plans ++ [(nodeType, some text, some sourceUnit)] := by
  refine ⟨⟨?_, ?_⟩, ?_⟩
  · rw [isPushed, sameSection, sameSubsection]
    exact sound.isOpen.pushLeaf (shaped_leaf isLeaf) rfl rfl
  · rw [isPushed]
    exact sound.filled.pushLeaf rfl
  · rw [isPushed]
    exact leafContents_concat_leaf rfl

/-- A section is opened with its heading in it. -/
theorem planSection_sound (sound : planner.Sound) : (planSection intakeId planner text sourceUnit).Sound where
  isOpen := sound.isOpen.openSection.pushLeaf (shaped_leaf rfl) rfl rfl
  filled := by
    refine (sound.filled.pending.push (.inl sound.filled)).fill rfl ?_
    rw [List.length_append, List.length_singleton]
    rfl

theorem leafContents_planSection : leafContents (planSection intakeId planner text sourceUnit).plans =
    leafContents planner.plans ++ [(.heading, some text, some sourceUnit)] := by
  refine (leafContents_concat_leaf rfl).trans ?_
  congr 1
  exact leafContents_concat_organizer rfl

/-- The section a subsection goes under is open; a new one is the last node and waits for its leaf. -/
theorem sectionFor_spec (sound : planner.Sound) :
    Open (sectionFor planner).1.plans (some (sectionFor planner).2) (sectionFor planner).1.currentSubsection ∧
      (sectionFor planner).1.currentSection = some (sectionFor planner).2 ∧
      Pending (sectionFor planner).1.plans ∧
      (Filled (sectionFor planner).1.plans ∨
        (sectionFor planner).2 + 1 = (sectionFor planner).1.plans.length) ∧
      leafContents (sectionFor planner).1.plans = leafContents planner.plans := by
  have isOpen := sound.isOpen
  unfold sectionFor
  cases isSection : planner.currentSection with
  | some idx =>
    rw [isSection] at isOpen
    exact ⟨isOpen, isSection, sound.filled.pending, .inl sound.filled, rfl⟩
  | none =>
    rw [isSection] at isOpen
    have noSubsection := isOpen.no_subsection
    refine ⟨?_, rfl, sound.filled.pending.push (.inl sound.filled), .inr ?_, leafContents_concat_organizer rfl⟩
    · show Open _ _ planner.currentSubsection
      rw [noSubsection]
      exact isOpen.openSection
    · show planner.plans.length + 1 = (planner.plans ++ [PendingNode.organizer none .section 1]).length
      rw [List.length_append, List.length_singleton]

theorem planSubsection_sound (sound : planner.Sound) :
    (planSubsection intakeId planner text sourceUnit).Sound := by
  obtain ⟨isOpen, isSection, pending, attached, -⟩ := sectionFor_spec sound
  refine ⟨?_, ?_⟩
  · show Open _ (sectionFor planner).1.currentSection _
    rw [isSection]
    exact isOpen.openSubsection.pushLeaf (shaped_leaf rfl) rfl rfl
  · have pushed : Pending ((sectionFor planner).1.plans ++
        [.organizer (some (sectionFor planner).2) .subsection 2]) := pending.push attached
    refine pushed.fill rfl ?_
    rw [List.length_append, List.length_singleton]
    rfl

theorem leafContents_planSubsection (sound : planner.Sound) :
    leafContents (planSubsection intakeId planner text sourceUnit).plans =
      leafContents planner.plans ++ [(.heading, some text, some sourceUnit)] := by
  obtain ⟨-, -, -, -, same⟩ := sectionFor_spec sound
  rw [← same]
  refine (leafContents_concat_leaf rfl).trans ?_
  congr 1
  exact leafContents_concat_organizer rfl

variable (intakeId) in
/-- **One block** keeps the plan sound and adds the block's leaf. -/
theorem planBlock_sound (sound : planner.Sound) (block : Block) : (planBlock intakeId planner block).Sound ∧
    leafContents (planBlock intakeId planner block).plans =
      leafContents planner.plans ++ (blockLeaf block).toList := by
  unfold planBlock blockLeaf
  dsimp only
  by_cases isBlank : trimmed block.text = ""
  · rw [if_pos isBlank, if_pos isBlank]
    exact ⟨sound, (List.append_nil _).symm⟩
  rw [if_neg isBlank, if_neg isBlank]
  cases block.kind with
  | heading level =>
    dsimp only
    split_ifs
    · exact ⟨planSection_sound sound, leafContents_planSection⟩
    · exact ⟨planSubsection_sound sound, leafContents_planSubsection sound⟩
    · exact sound.pushLeaf rfl rfl rfl rfl
  | body => exact sound.pushLeaf rfl rfl rfl rfl
  | caption => exact sound.pushLeaf rfl rfl rfl rfl
  | abstract => exact ⟨sound, (List.append_nil _).symm⟩
  | footnote => exact ⟨sound, (List.append_nil _).symm⟩
  | other => exact ⟨sound, (List.append_nil _).symm⟩

variable (intakeId) in
theorem foldl_planBlock_sound (bodyBlocks : List Block) : ∀ {planner : Planner}, planner.Sound →
    (bodyBlocks.foldl (planBlock intakeId) planner).Sound ∧
      leafContents (bodyBlocks.foldl (planBlock intakeId) planner).plans =
        leafContents planner.plans ++ bodyBlocks.filterMap blockLeaf := by
  induction bodyBlocks with
  | nil =>
    intro planner sound
    exact ⟨sound, (List.append_nil _).symm⟩
  | cons block rest ih =>
    intro planner sound
    obtain ⟨next, added⟩ := planBlock_sound intakeId sound block
    obtain ⟨last, all⟩ := ih next
    refine ⟨last, ?_⟩
    rw [List.foldl_cons, all, added, List.append_assoc]
    congr 1
    cases isLeaf : blockLeaf block with
    | none => rw [List.filterMap_cons_none isLeaf]; rfl
    | some content => rw [List.filterMap_cons_some isLeaf]; rfl

variable (intakeId) in
theorem start_sound (abstractText : Option String) :
    (Planner.start (abstractPlans intakeId abstractText)).Sound ∧
      leafContents (abstractPlans intakeId abstractText) = (abstractLeafOf abstractText).toList := by
  unfold abstractPlans abstractLeafOf
  cases abstractTrimmed abstractText with
  | none =>
    refine ⟨⟨.start .nil, ?_⟩, rfl⟩
    intro idx organizer isOrganizer
    cases isOrganizer
  | some text =>
    have empty : Filled [] := by
      intro idx organizer isOrganizer
      cases isOrganizer
    refine ⟨⟨.start (Planned.nil.push (shaped_abstract _ _) (.inl ⟨rfl, rfl⟩)), ?_⟩, rfl⟩
    exact empty.pushLeaf rfl

/-- **The plan of a paper**: open, filled, and its leaves are the abstract and the blocks that are kept. -/
theorem planPaper_sound (intakeId : Int) (abstractText : Option String) (bodyBlocks : List Block) :
    (planPaper intakeId abstractText bodyBlocks).Sound ∧
      leafContents (planPaper intakeId abstractText bodyBlocks).plans = paperLeaves abstractText bodyBlocks := by
  obtain ⟨sound, isAbstract⟩ := start_sound intakeId abstractText
  obtain ⟨last, all⟩ := foldl_planBlock_sound intakeId bodyBlocks sound
  refine ⟨last, all.trans ?_⟩
  rw [paperLeaves, ← isAbstract]
  rfl

end Loop

end Bookrack.Glean
