/-
When a repair may stamp a run `abandoned` (`close_abandoned_runs` in `runtime/src/open_runs.rs`).

The record is meant to tell a run whose owner is gone from one in flight. Between opening its record
and locking it an owner can be taken for gone, a probe in that window can cost it the lock and leave
an unlocked file beside a run at work, and an outcome written between the listing and the probe can
be overwritten. `closes_fair_iff` gives the exact condition on the probes of a run under which no
repair ever stamps such a row.

* `ended_step` — a run that has ended unstamped stays so.
* `judged_step` — what a pass takes to be abandoned, it took before or has just probed free.
-/

import Bookrack.Runtime.OpenRuns

namespace Bookrack.Runtime.OpenRuns

open Catalog Run

/-! ### What a repair should find -/

/-- The run's owner is gone, and never stamped an outcome. -/
def Ended (world : World) (run : RunId) : Prop :=
  world.phases run = .gone ∧
    (world.table.statusOf run = some .running ∨ world.table.statusOf run = some .abandoned)

/-- A pass stamps only runs that have ended. -/
def FairClose (before : World) (event : Event) : Prop :=
  ∀ pass now, event = .pass pass (.close (some now)) →
    ∀ run rest report, before.passes pass = .closing (run :: rest) report → Ended before run

/-- **The condition on the probes of a run**: a repair's probe that gets a record's lock does so
neither between its owner's opening and its lock, nor after that lock was refused, nor once an
outcome was stamped. -/
def ClearProbe (before : World) (event : Event) : Prop :=
  ∀ pass, event = .pass pass (.tryLock true) →
    ∀ run survey, before.passes pass = .opened run survey → survey.dryRun = false →
      (before.file run).holder = none →
        before.phases run ≠ .created ∧ before.phases run ≠ .working false ∧
          (before.table.statusOf run = some .running ∨
            before.table.statusOf run = some .abandoned)

/-- A step of the system whose probe, if it is one, is clear. -/
def ClearStep (before : World) (event : Event) (after : World) : Prop :=
  Step before event after ∧ ClearProbe before event

/-- However the system goes on, as long as its probes are clear, the repairs are fair. -/
def Safe (world : World) : Prop :=
  ∀ trace, Along ClearStep world trace →
    Along (fun before event _ => FairClose before event) world trace

/-! ### One step -/

/-- Everything a pass's step leaves alone. -/
theorem passStep_frame {before after : World} {pass : Nat} {act : PassAct}
    (step : PassStep pass before act after) :
    after.phases = before.phases ∧ (∀ other, other ≠ pass → after.passes other = before.passes other) ∧
      (after.table = before.table ∨ ∃ run now, after.table =
        closePipelineRun before.table run .abandoned now) := by
  cases step with
  | close => exact ⟨rfl, fun other apart => by simp [apart], .inr ⟨_, _, rfl⟩⟩
  | stop =>
    unfold World.letGoOf
    split
    · exact ⟨rfl, fun other apart => by simp [apart], .inl rfl⟩
    · exact ⟨rfl, fun other apart => by simp [apart], .inl rfl⟩
  | begin | look | list | listFails | openRecord | noRecord | openFails | tryLock | held | lockFails
  | letGo | conclude | closeFails | discard | discardFails | finish =>
    exact ⟨rfl, fun other apart => by simp [apart], .inl rfl⟩

/-- **A run that has ended unstamped stays so**: its owner does nothing more, and a pass writes
nothing but `abandoned`. -/
theorem ended_step {before after : World} {event : Event} {run : RunId}
    (ended : Ended before run) (step : Step before event after) : Ended after run := by
  obtain ⟨gone, status⟩ := ended
  cases step with
  | @owner _ target act step =>
    by_cases here : run = target
    · subst here
      cases step with
      | register opens =>
        unfold openPipelineRun at opens
        split at opens
        · cases opens
        · rename_i unknown
          rw [← statusOf_eq_none] at unknown
          simp [unknown] at status
      | die => exact ⟨by simp, status⟩
      | create at' | createFails at' | lock at' | lockRefused at' | lockFails at' | stamp at'
      | stampFails at' | unwind at' | unlink at' | unlinkFails at' | release at' =>
        rw [gone] at at'
        cases at'
    · obtain ⟨rowSame, -, phaseSame⟩ := (ownerStep_frame step).2 run here
      exact ⟨phaseSame.trans gone, by rwa [rowSame]⟩
  | pass step =>
    obtain ⟨phases, -, table | ⟨target, now, table⟩⟩ := passStep_frame step
    · exact ⟨by rwa [phases], by rwa [table]⟩
    · refine ⟨by rwa [phases], ?_⟩
      rw [table, statusOf_closePipelineRun]
      split
      · rcases status with status | status <;> simp [status]
      · exact status

/-- The pass writes nothing. -/
def Pass.dry : Pass → Bool
  | .surveying survey | .opened _ survey | .holding _ survey => survey.dryRun
  | _ => false

/-- **What a pass takes to be abandoned, it took before, or its probe has just got the lock.** -/
theorem judged_step {before after : World} {pass : Nat} {act : PassAct}
    (step : PassStep pass before act after) (wet : (after.passes pass).dry = false) {run : RunId}
    (judged : run ∈ (after.passes pass).judged) :
    ((before.passes pass).dry = false ∧ run ∈ (before.passes pass).judged) ∨
      (act = .tryLock true ∧ ∃ survey, before.passes pass = .opened run survey ∧
        survey.dryRun = false ∧ (before.file run).holder = none) := by
  cases step with
  | begin | look | finish | stop =>
    simp [Pass.judged, Survey.abandoned, Survey.begun] at judged
  | list at' | listFails at' | openRecord at' =>
    simp only [passes_setPass, if_true] at wet judged
    exact .inl (by rw [at']; exact ⟨wet, judged⟩)
  | noRecord at' | openFails at' | held at' | lockFails at' =>
    simp only [passes_setPass, if_true] at wet judged
    replace judged : run ∈ (Survey.judge _ _ _).abandoned := judged
    rw [abandoned_judge, if_neg (by simp), List.append_nil] at judged
    exact .inl (by rw [at']; exact ⟨wet, judged⟩)
  | @tryLock survey target at' free =>
    simp only [passes_setPass, if_true] at wet judged
    rcases List.mem_append.mp judged with old | new
    · exact .inl (by rw [at']; exact ⟨wet, old⟩)
    · rw [List.mem_singleton] at new
      subst new
      exact .inr ⟨rfl, survey, at', wet, free⟩
  | letGo at' =>
    simp only [passes_setPass, if_true] at wet judged
    replace judged : run ∈ (Survey.judge _ _ _).abandoned := judged
    rw [abandoned_judge, if_pos rfl] at judged
    exact .inl (by rw [at']; exact ⟨wet, judged⟩)
  | conclude at' =>
    simp only [passes_setPass, if_true] at wet judged
    unfold Survey.concluded at judged
    split at judged
    · simp [Pass.judged] at judged
    · rename_i real
      exact .inl (by rw [at']; exact ⟨by simpa [Pass.dry] using real, judged⟩)
  | close at' | closeFails at' =>
    simp only [passes_setPass, if_true] at judged
    exact .inl (by rw [at']; exact ⟨rfl, List.mem_cons_of_mem _ judged⟩)
  | discard at' | discardFails at' =>
    simp only [passes_setPass, if_true] at judged
    exact .inl (by rw [at']; exact ⟨rfl, judged⟩)

/-! ### The invariant -/

/-- Every run a repair takes to be abandoned has ended. -/
def Justified (world : World) : Prop :=
  ∀ pass, (world.passes pass).dry = false → ∀ run ∈ (world.passes pass).judged, Ended world run

theorem justified_start : Justified .start := by
  intro pass wet run judged
  cases judged

/-- A clear probe that gets the lock of a record finds its run ended: an owner past its own lock
would still hold it. -/
theorem ended_of_clear {world : World} (sound : Sound world) {pass : Nat} {run : RunId}
    {survey : Survey} (opened : world.passes pass = .opened run survey)
    (real : survey.dryRun = false) (free : (world.file run).holder = none)
    (clear : ClearProbe world (.pass pass (.tryLock true))) : Ended world run := by
  obtain ⟨notCreated, notLost, status⟩ := clear pass rfl run survey opened real free
  refine ⟨?_, status⟩
  have made := (sound run).opened pass survey opened
  have unheld : ¬ (world.phases run).holds = true := by
    rw [← (sound run).owner, free]
    simp
  cases at' : world.phases run with
  | gone => rfl
  | absent | registered =>
    rw [at'] at made
    cases made
  | created => exact absurd at' notCreated
  | dropping | releasing =>
    rw [at'] at unheld
    exact absurd rfl unheld
  | working tracked =>
    cases tracked with
    | false => exact absurd at' notLost
    | true =>
      rw [at'] at unheld
      exact absurd rfl unheld

theorem justified_step {before after : World} {event : Event} (sound : Sound before)
    (justified : Justified before) (step : Step before event after)
    (clear : ClearProbe before event) : Justified after := by
  intro pass wet run judged
  cases step with
  | owner step =>
    rw [(ownerStep_frame step).1] at wet judged
    exact ended_step (justified pass wet run judged) (.owner step)
  | @pass _ other act step =>
    by_cases here : pass = other
    · subst here
      rcases judged_step step wet judged with ⟨wasWet, was⟩ | ⟨rfl, survey, opened, real, free⟩
      · exact ended_step (justified pass wasWet run was) (.pass step)
      · exact ended_step (ended_of_clear sound opened real free clear) (.pass step)
    · rw [(passStep_frame step).2.1 pass here] at wet judged
      exact ended_step (justified pass wet run judged) (.pass step)

theorem fairClose_of_justified {world : World} (justified : Justified world) (event : Event) :
    FairClose world event := by
  intro pass now _ run rest report closing
  exact justified pass (by rw [closing]; rfl) run (by rw [closing]; exact List.mem_cons_self)

/-- The invariant is enough, however the system goes on. -/
theorem safe_of_justified {world : World} (sound : Sound world) (justified : Justified world) :
    Safe world := by
  intro trace run
  have kept : ∀ before event after, (Sound before ∧ Justified before) →
      ClearStep before event after → (Sound after ∧ Justified after) ∧ FairClose before event := by
    rintro before event after ⟨sound, justified⟩ ⟨step, clear⟩
    exact ⟨⟨sound_step sound step, justified_step sound justified step clear⟩,
      fairClose_of_justified justified event⟩
  exact (run.invariant (fun world => Sound world ∧ Justified world) kept
    ⟨sound, justified⟩).mono fun _ _ _ holds => holds.2.2

/-! ### A pass that meets nothing but failures -/

/-- Anything but a lock attempt is clear. -/
theorem clearStep_of_ne {before after : World} {pass : Nat} {act : PassAct}
    (step : PassStep pass before act after) (other : act ≠ .tryLock true) :
    ClearStep before (.pass pass act) after := by
  refine ⟨.pass step, ?_⟩
  rintro probing eq
  cases eq
  exact absurd rfl other

@[simp] theorem setPass_setPass (world : World) (pass : Nat) (first second : Pass) :
    (world.setPass pass first).setPass pass second = world.setPass pass second := by
  simp [World.setPass]

theorem passes_own (world : World) (pass : Nat) (state : Pass) :
    (world.setPass pass state).passes pass = state := (passes_setPass ..).trans (if_pos rfl)

theorem setPass_self {world : World} {pass : Nat} {state : Pass}
    (at' : world.passes pass = state) : world.setPass pass state = world := by
  subst at'
  simp [World.setPass]

variable (world : World) (pass : Nat)

/-- The rest of a survey's rows, with no record readable. -/
theorem reaches_todo (dryRun : Bool) (registries : List Registry) (todo : List RunId)
    (runs : List (RunId × RunLiveness)) : ∃ more, Reaches ClearStep
      (world.setPass pass (.surveying ⟨dryRun, registries, todo, runs⟩))
      (world.setPass pass (.surveying ⟨dryRun, registries, [], runs ++ more⟩)) := by
  induction todo generalizing runs with
  | nil =>
    rw [← List.append_nil runs]
    exact ⟨[], by simpa using Reaches.refl _⟩
  | cons run rest ih =>
    obtain ⟨more, reaches⟩ := ih (runs ++ [(run, .unreadable)])
    have first : PassStep pass
        (world.setPass pass (.surveying ⟨dryRun, registries, run :: rest, runs⟩)) (.openRecord false)
        _ := .openFails (passes_own ..) rfl
    rw [setPass_setPass] at first
    refine ⟨(run, .unreadable) :: more, (Reaches.one (clearStep_of_ne first (by simp))).trans ?_⟩
    rw [List.append_assoc] at reaches
    exact reaches

/-- The rest of a survey's catalogs, with none readable. -/
theorem reaches_registries (dryRun : Bool) (registries : List Registry)
    (runs : List (RunId × RunLiveness)) : Reaches ClearStep
      (world.setPass pass (.surveying ⟨dryRun, registries, [], runs⟩))
      (world.setPass pass (.surveying ⟨dryRun, [], [], runs⟩)) := by
  induction registries with
  | nil => exact Reaches.refl _
  | cons registry rest ih =>
    have first : PassStep pass
        (world.setPass pass (.surveying ⟨dryRun, registry :: rest, [], runs⟩)) (.list false) _ :=
      .listFails (passes_own ..) rfl rfl
    rw [setPass_setPass] at first
    exact (Reaches.one (clearStep_of_ne first (by simp))).trans ih

/-- The closings in front of a run, with none of them written. -/
theorem reaches_front (run : RunId) (front rest : List RunId) (report : CloseAbandonedReport) :
    ∃ later, Reaches ClearStep (world.setPass pass (.closing (front ++ run :: rest) report))
      (world.setPass pass (.closing (run :: rest) later)) := by
  induction front generalizing report with
  | nil => exact ⟨report, Reaches.refl _⟩
  | cons other front ih =>
    obtain ⟨later, reaches⟩ := ih (report.fail other)
    have first : PassStep pass
        (world.setPass pass (.closing (other :: (front ++ run :: rest)) report)) (.close none) _ :=
      .closeFails (passes_own ..)
    rw [setPass_setPass] at first
    exact ⟨later, (Reaches.one (clearStep_of_ne first (by simp))).trans reaches⟩

variable {world pass}

/-- A repair that has judged a run can get to stamp it, with nothing else changed. -/
theorem reaches_closing {survey : Survey} {run : RunId}
    (surveying : world.passes pass = .surveying survey) (real : survey.dryRun = false)
    (judged : run ∈ survey.abandoned) : ∃ rest report, Reaches ClearStep world
      (world.setPass pass (.closing (run :: rest) report)) := by
  obtain ⟨dryRun, registries, todo, runs⟩ := survey
  obtain ⟨more, listed⟩ := reaches_todo world pass dryRun registries todo runs
  have surveyed := reaches_registries world pass dryRun registries (runs ++ more)
  have concludes : PassStep pass (world.setPass pass (.surveying ⟨dryRun, [], [], runs ++ more⟩))
      .conclude _ := .conclude (passes_own ..) rfl rfl
  have kept : run ∈ Survey.abandoned ⟨dryRun, [], [], runs ++ more⟩ := by
    simp only [Survey.abandoned, List.filter_append, List.map_append, List.mem_append]
    exact .inl judged
  obtain ⟨front, rest, split⟩ := List.append_of_mem kept
  rw [setPass_setPass, Survey.concluded, if_neg (by simpa using real), split] at concludes
  obtain ⟨report, closes⟩ := reaches_front world pass run front rest
    (Survey.report ⟨dryRun, [], [], runs ++ more⟩)
  refine ⟨rest, report, ?_⟩
  rw [setPass_self surveying] at listed
  exact ((listed.trans surveyed).trans (Reaches.one (clearStep_of_ne concludes (by simp)))).trans
    closes

/-! ### The exact condition -/

/-- A safe state never gets to an unfair closing. -/
theorem Safe.ended {after : World} (safe : Safe world) (reaches : Reaches ClearStep world after)
    {run : RunId} {rest : List RunId} {report : CloseAbandonedReport}
    (closing : after.passes pass = .closing (run :: rest) report) : Ended after run := by
  obtain ⟨trace, along, rfl⟩ := reaches
  have last : ClearStep (finish world trace) (.pass pass (.close (some ""))) _ :=
    clearStep_of_ne (.close closing) (by simp)
  have fair := safe (trace ++ [(.pass pass (.close (some "")), _)])
    (Along.split.mpr ⟨along, last, trivial⟩)
  exact (Along.split.mp fair).2.1 pass "" rfl run rest report closing

/-- An unclear probe opens the way to an unfair closing. -/
theorem clear_of_safe {before after : World} {event : Event} (step : Step before event after)
    (safe : Safe after) : ClearProbe before event := by
  rintro pass rfl run survey opened real free
  cases step with
  | pass step =>
    cases step with
    | held at' taken =>
      rw [opened] at at'
      cases at'
      rw [free] at taken
      cases taken
    | tryLock at' _ =>
      rw [opened] at at'
      cases at'
      have letting : PassStep pass _ .letGo _ := .letGo (passes_own
        (before.setFile run ((before.file run).lockedBy (.pass pass))) pass (.holding run survey))
      have judged : run ∈ (survey.judge run .abandoned).abandoned := by
        simp [abandoned_judge]
      obtain ⟨rest, report, reaches⟩ := reaches_closing
        (passes_own _ pass (.surveying (survey.judge run .abandoned))) real judged
      obtain ⟨gone, status⟩ := safe.ended
        ((Reaches.one (clearStep_of_ne letting (by simp))).trans reaches) (passes_own ..)
      replace gone : before.phases run = .gone := gone
      exact ⟨by simp [gone], by simp [gone], status⟩

/-- **Exactly the clear probes keep the repairs fair.** Along every run of owners and passes, from
an empty data root, every probe is clear if and only if after every step the system is safe: no way
to go on with clear probes lets a repair stamp a run whose owner is at work or whose outcome was
stamped. -/
theorem closes_fair_iff {trace : List (Event × World)} (run : Along Step .start trace) :
    Along (fun before event _ => ClearProbe before event) .start trace ↔
      Along (fun _ _ after => Safe after) .start trace := by
  constructor
  · intro clear
    have kept : ∀ before event after, (Sound before ∧ Justified before) →
        ClearStep before event after → (Sound after ∧ Justified after) ∧ Safe after := by
      rintro before event after ⟨sound, justified⟩ ⟨step, clear⟩
      have soundAfter := sound_step sound step
      have justifiedAfter := justified_step sound justified step clear
      exact ⟨⟨soundAfter, justifiedAfter⟩, safe_of_justified soundAfter justifiedAfter⟩
    exact ((run.and clear).invariant (fun world => Sound world ∧ Justified world) kept
      ⟨sound_start, justified_start⟩).mono fun _ _ _ holds => holds.2.2
  · intro safe
    exact (run.and safe).mono fun _ _ _ holds => clear_of_safe holds.1 holds.2

/-- An ingest's run. -/
def ingestRun : RunId where
  command := .ingest
  startedAt := "2026-06-28T10:00:00Z".toList
  sha8 := "deadbeef".toList
  stamped := by decide
  hashed := by decide

/-- The registry with that run open. -/
def ingestTable : RunTable where
  rows := [{ run := ingestRun, status := .running, finishedAt := none }]
  distinct := List.nodup_singleton _

theorem opens_ingest : openPipelineRun .empty ingestRun = some ingestTable := by
  unfold openPipelineRun
  rw [dif_neg (by simp [RunTable.empty])]
  rfl

theorem lists_ingest : listOpenPipelineRuns ingestTable .books = [ingestRun] := by
  simp [listOpenPipelineRuns, ingestTable, ingestRun, Command.registry]

theorem start_free (run : RunId) : (World.start.file run).holder = none := rfl

/-- A probe between an owner's opening of its record and its lock is not safe. -/
theorem bare_probe_unsafe : ∃ trace, Along Step .start trace ∧
    ¬ Along (fun _ _ after => Safe after) .start trace := by
  have steps : Along Step .start _ :=
    along_cons.mpr ⟨.owner (.register opens_ingest),
      along_cons.mpr ⟨@Step.owner _ _ ingestRun _ (.create (by simp)),
        along_cons.mpr ⟨.pass (@PassStep.begin 0 _ false rfl),
          along_cons.mpr ⟨.pass (.list (passes_own ..) rfl rfl),
            along_cons.mpr ⟨.pass (.openRecord (passes_own ..) lists_ingest (by simp)),
              along_cons.mpr ⟨.pass (.tryLock (passes_own ..) (by simp [start_free])), along_nil⟩⟩⟩⟩⟩⟩
  refine ⟨_, steps, fun safe => ?_⟩
  have clear := (closes_fair_iff steps).mpr safe
  have last := clear.2.2.2.2.2.1 0 rfl ingestRun _ (passes_own ..) rfl (by simp [start_free])
  simp at last

end Bookrack.Runtime.OpenRuns
