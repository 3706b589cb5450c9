/-
What a failed `Corpus::resolve` says (`corpus/src/resolve.rs`).

* `ToldApart corpus intakeId scope`: `UnknownIntake` is answered exactly for an intake without a
  partition, and the two content errors only for a book that is there and lacks the content.
* **`told_apart_along`**: in every state a history reaches, that holds of a `book` scope and of every
  intake that owns a partition, and of nothing else: a signature asked of an intake without a
  partition is answered as gone content (`dropped_book_gone`).
-/

import Bookrack.Corpus.Resolve

namespace Bookrack.Corpus

open Run

variable {corpus : CorpusDb} {partition : PartitionIdx} {intakeId : Int} {scope : Scope}

/-- The intake owns a partition. -/
def CorpusDb.Owns (corpus : CorpusDb) (intakeId : Int) : Prop :=
  ∃ row ∈ corpus.partitions, row.intakeId = intakeId

/-- The intake owns a partition, and no node in it carries what the scope names. -/
def LacksContent (corpus : CorpusDb) (intakeId : Int) (scope : Scope) : Prop :=
  ∃ row ∈ corpus.partitions, row.intakeId = intakeId ∧ ∀ node ∈ corpus.nodes,
    row.idx.contains node.nodeId = true → ¬Scope.CarriedBy node scope

/-- **A missing book is told apart from a broken passage**, as `ResolveError` documents. -/
structure ToldApart (corpus : CorpusDb) (intakeId : Int) (scope : Scope) : Prop where
  unknown : (∃ missing, corpus.resolve intakeId scope = .error (.unknownIntake missing)) ↔
    ¬corpus.Owns intakeId
  workNotFound : ∀ book signature,
    corpus.resolve intakeId scope = .error (.workNotFound book signature) →
      LacksContent corpus intakeId scope
  nodeContentGone : ∀ book hash,
    corpus.resolve intakeId scope = .error (.nodeContentGone book hash) →
      LacksContent corpus intakeId scope

/-! ### One call -/

theorem owns_iff : corpus.Owns intakeId ↔ (corpus.partitionForIntake intakeId).isNone = false := by
  rw [← Bool.not_eq_true, partitionForIntake_isNone_iff]
  simp [CorpusDb.Owns]

/-- Nothing picked: no hit lies in the partition. -/
theorem pickInPartition_none {hits : List Node}
    (isNone : pickInPartition partition hits scope intakeId = .ok none) :
    ∀ node ∈ hits, node.nodeId.partition ≠ partition := by
  intro node isHit isMine
  rcases pickInPartition_of_mem isHit isMine scope intakeId with isPicked | isSeveral
  · rw [isPicked] at isNone
    cases isNone
  · rw [isSeveral] at isNone
    cases isNone

theorem pickInPartition_error {hits : List Node} {failed : ResolveError}
    (isError : pickInPartition partition hits scope intakeId = .error failed) :
    failed = .ambiguous intakeId scope.display 2 := by
  unfold pickInPartition at isError
  split at isError
  · cases isError
  · cases isError
  · exact (Except.error.inj isError).symm

/-- How a signature is answered: with a node, as ambiguous, or as gone when no node of the intake
carries it. -/
theorem resolve_signature_cases (corpus : CorpusDb) (intakeId : Int) (isSignature : scope ≠ .book) :
    (∃ nodeId, corpus.resolve intakeId scope = .ok nodeId) ∨
    corpus.resolve intakeId scope = .error (.ambiguous intakeId scope.display 2) ∨
    ((∃ gone, scope = .work gone ∧
        corpus.resolve intakeId scope = .error (.workNotFound intakeId gone) ∨
      scope = .node gone ∧
        corpus.resolve intakeId scope = .error (.nodeContentGone intakeId gone)) ∧
      ∀ node ∈ corpus.nodes, node.nodeId.partition = ⟨intakeId⟩ → ¬Scope.CarriedBy node scope) := by
  cases scope with
  | book => exact absurd rfl isSignature
  | work signature =>
    dsimp only [CorpusDb.resolve]
    split
    · rename_i failed isError
      exact .inr (.inl (congrArg Except.error (pickInPartition_error isError)))
    · rename_i isNone
      refine .inr (.inr ⟨⟨signature, .inl ⟨rfl, rfl⟩⟩, fun node isNode isMine carries => ?_⟩)
      exact pickInPartition_none isNone node (List.mem_filter.mpr ⟨isNode, decide_eq_true carries⟩)
        isMine
    · exact .inl ⟨_, rfl⟩
  | node hash =>
    dsimp only [CorpusDb.resolve]
    split
    · rename_i failed isError
      exact .inr (.inl (congrArg Except.error (pickInPartition_error isError)))
    · rename_i isNone
      refine .inr (.inr ⟨⟨hash, .inr ⟨rfl, rfl⟩⟩, fun node isNode isMine carries => ?_⟩)
      exact pickInPartition_none isNone node (List.mem_filter.mpr ⟨isNode, decide_eq_true carries⟩)
        isMine
    · exact .inl ⟨_, rfl⟩

theorem resolve_book (corpus : CorpusDb) (intakeId : Int) :
    ¬corpus.Owns intakeId ∧ corpus.resolve intakeId .book = .error (.unknownIntake intakeId) ∨
    corpus.Owns intakeId ∧ corpus.resolve intakeId .book = .ok (PartitionIdx.root ⟨intakeId⟩) := by
  dsimp only [CorpusDb.resolve]
  rw [owns_iff]
  cases (corpus.partitionForIntake intakeId).isNone with
  | false => exact .inr ⟨rfl, rfl⟩
  | true => exact .inl ⟨by decide, rfl⟩

/-- A signature is never answered with `UnknownIntake`. -/
theorem resolve_signature_known (isSignature : scope ≠ .book) (missing : Int) :
    corpus.resolve intakeId scope ≠ .error (.unknownIntake missing) := by
  rcases resolve_signature_cases corpus intakeId isSignature with
    ⟨nodeId, isDone⟩ | isSeveral | ⟨⟨gone, ⟨-, isGone⟩ | ⟨-, isGone⟩⟩, -⟩
  · rw [isDone]
    intro isError
    cases isError
  · simp [isSeveral]
  · simp [isGone]
  · simp [isGone]

theorem toldApart_book (corpus : CorpusDb) (intakeId : Int) : ToldApart corpus intakeId .book := by
  rcases resolve_book corpus intakeId with ⟨missing, isUnknown⟩ | ⟨owns, isDone⟩
  · refine ⟨⟨fun _ => missing, fun _ => ⟨_, isUnknown⟩⟩, fun _ _ isGone => ?_, fun _ _ isGone => ?_⟩
    · rw [isUnknown] at isGone
      cases isGone
    · rw [isUnknown] at isGone
      cases isGone
  · refine ⟨⟨?_, fun missing => absurd owns missing⟩, fun _ _ isGone => ?_, fun _ _ isGone => ?_⟩
    · rintro ⟨_, isUnknown⟩
      rw [isDone] at isUnknown
      cases isUnknown
    · rw [isDone] at isGone
      cases isGone
    · rw [isDone] at isGone
      cases isGone

/-- Whatever a signature is answered with, an intake with a partition is told apart. -/
theorem toldApart_signature (keyed : ∀ row ∈ corpus.partitions, row.Keyed)
    (isSignature : scope ≠ .book) (owns : corpus.Owns intakeId) : ToldApart corpus intakeId scope := by
  obtain ⟨row, isRow, isOwner⟩ := owns
  have isIdx : row.idx = ⟨intakeId⟩ := by rw [← isOwner, (keyed row isRow).byIntake]
  have lacks : ∀ failed, corpus.resolve intakeId scope = .error failed →
      failed ≠ .ambiguous intakeId scope.display 2 → LacksContent corpus intakeId scope := by
    intro failed isFailed notSeveral
    rcases resolve_signature_cases corpus intakeId isSignature with
      ⟨nodeId, isDone⟩ | isSeveral | ⟨-, none⟩
    · rw [isDone] at isFailed
      cases isFailed
    · rw [isSeveral] at isFailed
      exact absurd (Except.error.inj isFailed).symm notSeveral
    · refine ⟨row, isRow, isOwner, fun node isNode isIn => none node isNode ?_⟩
      rw [← isIdx]
      exact PartitionIdx.contains_iff.mp isIn
  refine ⟨⟨?_, fun missing => absurd ⟨row, isRow, isOwner⟩ missing⟩,
    fun _ _ isGone => lacks _ isGone (by simp), fun _ _ isGone => lacks _ isGone (by simp)⟩
  rintro ⟨missing, isUnknown⟩
  exact absurd isUnknown (resolve_signature_known isSignature missing)

/-- **A book is told apart exactly when it is asked for whole or it is there.** -/
theorem toldApart_iff (keyed : ∀ row ∈ corpus.partitions, row.Keyed) :
    ToldApart corpus intakeId scope ↔ scope = .book ∨ corpus.Owns intakeId := by
  by_cases isBook : scope = .book
  · rw [isBook]
    exact iff_of_true (toldApart_book corpus intakeId) (.inl rfl)
  · constructor
    · intro told
      by_contra neither
      obtain ⟨missing, isUnknown⟩ := told.unknown.mpr (not_or.mp neither).2
      exact resolve_signature_known isBook missing isUnknown
    · rintro (isBook' | owns)
      · exact absurd isBook' isBook
      · exact toldApart_signature keyed isBook owns

/-! ### Histories -/

/-- **Missing books are told apart from broken passages exactly for a `book` scope or an intake that
owns a partition**, in every state a history of calls reaches. -/
theorem told_apart_along {trace : List (Op × History)} (run : Along Step History.start trace)
    (intakeId : Int) (scope : Scope) :
    ToldApart (finish History.start trace).corpus intakeId scope ↔
      scope = .book ∨ (finish History.start trace).corpus.Owns intakeId := by
  have sound : (finish History.start trace).Sound := by
    refine run.finish_invariant History.Sound ?_ History.start_sound
    rintro before op _ sound ⟨fits, rfl⟩
    exact sound.step fits
  exact toldApart_iff sound.keyed

/-- A book, dropped again. -/
def droppedBook : List Op := oneBook ++ [.dropPartition ⟨3⟩]

theorem told_apart_along_oneBook :
    ToldApart (finish History.start (History.start.trace oneBook)).corpus 3 (.node "h") := by
  have fits : ∀ op ∈ oneBook, op.Fits := by decide
  exact (told_apart_along (History.start.trace_along fits) 3 (.node "h")).mpr
    (.inr ⟨⟨⟨3⟩, ⟨300000001⟩, 3, 6, "2026-01-01T00:00:00Z"⟩, List.mem_singleton_self _, rfl⟩)

/-- **Asked for a passage of the dropped book, `resolve` answers that the passage is gone.** -/
theorem dropped_book_gone :
    ¬ ∀ trace, Along Step History.start trace → ∀ intakeId scope,
      ToldApart (finish History.start trace).corpus intakeId scope := by
  intro always
  have fits : ∀ op ∈ droppedBook, op.Fits := by decide
  have told := always _ (History.start.trace_along fits) 3 (.node "h")
  have gone : (finish History.start (History.start.trace droppedBook)).corpus.resolve 3 (.node "h") =
      .error (.nodeContentGone 3 "h") := by decide
  obtain ⟨row, isRow, -⟩ := told.nodeContentGone 3 "h" gone
  have empty : (finish History.start (History.start.trace droppedBook)).corpus.partitions = [] := by
    decide
  rw [empty] at isRow
  exact absurd isRow List.not_mem_nil

end Bookrack.Corpus
