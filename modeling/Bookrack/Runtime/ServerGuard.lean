/-
When the pid file keeps a runtime directory to one reranker server (`kill_recorded_orphan` in
`runtime/src/rerank_supervisor.rs`).

A daemon that is killed leaves its server behind; the next one kills what the pid file records before
it spawns its own. That works as long as the file names the server and `ps` shows its name: between
the spawn and the write of the file, or behind a write that failed, it does not.

* `Covered` — a running server is the child of the daemon that has the lock, or the next to be killed.
* `covered_step` — every careful step keeps that.
* **`restart_safe_iff`** — with nobody at work, no careful run ever comes to two servers exactly when
  the guard will find every server left behind.
-/

import Bookrack.Runtime.Supervisor

namespace Bookrack.Runtime.Reranker

/-! ### Servers -/

/-- A server some supervisor spawned is running under this pid. -/
def World.Runs (world : World) (pid : Pid) : Prop :=
  ∃ proc, world.procs pid = some proc ∧ proc.isServer = true ∧ proc.hasExited = false

/-- The guard would kill what runs under this pid: the file records it, and `ps` shows the name. -/
def World.Guarded (world : World) (pid : Pid) : Prop :=
  world.file = some (some pid) ∧ world.isNamed pid = true

/-- A step that costs the guard nothing: a daemon that dies, or gives the lock back in a failing
bring-up, leaves its server where the guard finds it; the guard's own calls do not fail on a server;
and a daemon without the lock does not take a server's file away. -/
def Careful (world : World) : Event → Prop
  | .daemon _ .readFails => ∀ pid, ¬ world.Runs pid
  | .daemon daemon .probeFails => ∀ pid, world.phases daemon = .probing pid → ¬ world.Runs pid
  | .daemon daemon (.leave true) =>
    world.lock = some daemon ∨ ∀ pid, world.Runs pid → world.file ≠ some (some pid)
  | .daemon daemon .abandon =>
    ∃ pid, world.phases daemon = .serving pid ∧ (world.Runs pid → world.Guarded pid)
  | .daemon daemon (.crash false) =>
    ∀ pid, (world.phases daemon).child = some pid → world.Runs pid → world.Guarded pid
  | _ => True

/-- A step of the machine that is careful. -/
def CarefulStep (before : World) (event : Event) (after : World) : Prop :=
  Step before event after ∧ Careful before event

section Servers

variable {world : World} {daemon : Nat} {pid another : Pid}

theorem runs_setProc {proc : Option Proc} (runs : (world.setProc pid proc).Runs another)
    (stopped : ∀ new, proc = some new → new.isServer = true → new.hasExited = true) :
    another ≠ pid ∧ world.Runs another := by
  obtain ⟨found, isFound, isServer, isRunning⟩ := runs
  rw [World.procs_setProc] at isFound
  split at isFound
  · rw [stopped found isFound isServer] at isRunning
    cases isRunning
  · rename_i isOther
    exact ⟨isOther, found, isFound, isServer, isRunning⟩

theorem isNamed_setProc {proc : Option Proc} (isOther : another ≠ pid) :
    (world.setProc pid proc).isNamed another = world.isNamed another := by
  unfold World.isNamed
  rw [World.procs_setProc, if_neg isOther]

/-- A process that ended is no running server. -/
theorem runs_ended (runs : (world.ended pid).Runs another) : another ≠ pid ∧ world.Runs another := by
  refine runs_setProc runs fun new isNew _ => ?_
  obtain ⟨old, _, becomes⟩ := Option.bind_eq_some_iff.mp isNew
  split at becomes
  · cases becomes
    rfl
  · cases becomes

theorem runs_reaped (runs : (world.reaped (some pid)).Runs another) : another ≠ pid ∧ world.Runs another :=
  runs_setProc runs fun new isNew => by cases isNew

/-- What a killed daemon leaves behind ran before, under the same name. -/
theorem runs_orphaned {child : Option Pid} (runs : (world.orphaned child).Runs another) :
    world.Runs another ∧ (world.orphaned child).isNamed another = world.isNamed another := by
  cases child with
  | none => exact ⟨runs, rfl⟩
  | some pid =>
    by_cases same : another = pid
    · subst same
      obtain ⟨found, isFound, isServer, isRunning⟩ := runs
      have becomes := isFound
      unfold World.orphaned at becomes
      rw [World.procs_setProc, if_pos rfl] at becomes
      obtain ⟨old, isOld, becomes⟩ := Option.bind_eq_some_iff.mp becomes
      split at becomes
      · cases becomes
      · cases becomes
        refine ⟨⟨old, isOld, isServer, isRunning⟩, ?_⟩
        unfold World.isNamed
        rw [isFound, isOld]
        rfl
    · refine ⟨?_, isNamed_setProc same⟩
      obtain ⟨found, isFound, isServer, isRunning⟩ := runs
      unfold World.orphaned at isFound
      rw [World.procs_setProc, if_neg same] at isFound
      exact ⟨found, isFound, isServer, isRunning⟩

end Servers

/-! ### What the guard still has to do -/

/-- The daemon that is in this phase will yet kill a recorded server under the pid. -/
def Phase.Judges (pid : Pid) : Phase → Prop
  | .guarding => True
  | .probing recorded | .killing recorded => recorded = pid
  | _ => False

/-- A daemon that gave its lock back has nothing more to spawn or to record. -/
def Phase.isParting : Phase → Bool
  | .serving _ | .stopping _ | .leaving | .ended => true
  | _ => false

/-- Some daemon's guard is still to look at the pid file, or is looking at this pid. -/
def World.Awaits (world : World) (pid : Pid) : Prop :=
  world.lock = none ∨ ∃ daemon, world.lock = some daemon ∧ (world.phases daemon).Judges pid

/-- A running server is the child of the daemon that has the lock, or the guard is yet to kill it. -/
structure Covered (world : World) : Prop where
  parting : ∀ daemon, (world.phases daemon).isUp = true →
    world.lock = some daemon ∨ (world.phases daemon).isParting = true
  servers : ∀ pid, world.Runs pid →
    (∃ daemon, world.lock = some daemon ∧ (world.phases daemon).child = some pid) ∨
      world.Guarded pid ∧ world.Awaits pid

section Covered

variable {before after world : World} {daemon : Nat} {pid : Pid}

theorem Covered.holder (covered : Covered world) (isUp : (world.phases daemon).isUp = true)
    (stays : (world.phases daemon).isParting = false) : world.lock = some daemon := by
  rcases covered.parting daemon isUp with isHolder | parts
  · exact isHolder
  · rw [stays] at parts
    cases parts

theorem judges_of_awaits (isHolder : world.lock = some daemon) (awaits : world.Awaits pid) :
    (world.phases daemon).Judges pid := by
  rcases awaits with isFree | ⟨other, isOther, judges⟩
  · rw [isHolder] at isFree
    cases isFree
  · rw [isHolder] at isOther
    cases isOther
    exact judges

theorem Phase.childless_of_judges {phase : Phase} (judges : phase.Judges pid) : phase.child = none := by
  cases phase <;> first | rfl | exact judges.elim

/-- A daemon that is past its guard and has no child has no server beside it. -/
theorem Covered.alone (covered : Covered world) (isHolder : world.lock = some daemon)
    (childless : (world.phases daemon).child = none) (past : ¬ (world.phases daemon).Judges pid) :
    ¬ world.Runs pid := by
  intro runs
  rcases covered.servers pid runs with ⟨other, isOther, child⟩ | ⟨_, awaits⟩
  · rw [isHolder] at isOther
    cases isOther
    rw [childless] at child
    cases child
  · exact past (judges_of_awaits isHolder awaits)

/-- One daemon moves on, and the lock stays where it is. -/
theorem Covered.move {middle : World} {phase : Phase} (covered : Covered before)
    (lock : middle.lock = before.lock) (phases : middle.phases = before.phases)
    (runs : ∀ pid, middle.Runs pid → before.Runs pid)
    (parting : before.lock = some daemon ∨ phase.isParting = true)
    (child : before.lock = some daemon → ∀ pid, middle.Runs pid →
      (before.phases daemon).child = some pid → phase.child = some pid)
    (keeps : ∀ pid, middle.Runs pid → before.Guarded pid → before.Awaits pid →
      middle.Guarded pid ∧ (before.lock = some daemon → phase.Judges pid)) :
    Covered (middle.setPhase daemon phase) where
  parting other isUp := by
    rw [World.lock_setPhase, World.phases_setPhase, lock]
    rw [World.phases_setPhase] at isUp
    split
    · rename_i same
      rw [same]
      exact parting
    · rename_i isOther
      rw [if_neg isOther, phases] at isUp
      rw [phases]
      exact covered.parting other isUp
  servers pid isRunning := by
    have isMiddle : middle.Runs pid := isRunning
    rcases covered.servers pid (runs pid isMiddle) with ⟨holder, isHolder, isChild⟩ | ⟨guarded, awaits⟩
    · refine .inl ⟨holder, lock.trans isHolder, ?_⟩
      rw [World.phases_setPhase]
      split
      · rename_i same
        subst same
        exact child isHolder pid isMiddle isChild
      · rw [phases]
        exact isChild
    · obtain ⟨guarded', judges⟩ := keeps pid isMiddle guarded awaits
      refine .inr ⟨guarded', ?_⟩
      rcases awaits with isFree | ⟨holder, isHolder, judgesNow⟩
      · exact .inl (lock.trans isFree)
      · refine .inr ⟨holder, lock.trans isHolder, ?_⟩
        rw [World.phases_setPhase]
        split
        · rename_i same
          subst same
          exact judges isHolder
        · rw [phases]
          exact judgesNow

/-- Nothing but the daemon's own phase changes, and the daemon has the lock. -/
theorem Covered.advance {phase : Phase} (covered : Covered before) (isHolder : before.lock = some daemon)
    (child : ∀ pid, before.Runs pid → (before.phases daemon).child = some pid → phase.child = some pid)
    (judges : ∀ pid, before.Runs pid → before.Guarded pid → (before.phases daemon).Judges pid →
      phase.Judges pid) : Covered (before.setPhase daemon phase) :=
  covered.move rfl rfl (fun _ isRunning => isRunning) (.inl isHolder) (fun _ => child)
    fun pid isRunning guarded awaits =>
      ⟨guarded, fun _ => judges pid isRunning guarded (judges_of_awaits isHolder awaits)⟩

end Covered

/-! ### Careful steps -/

section Steps

variable {before after world : World} {daemon : Nat} {pid : Pid}

/-- A daemon without a child takes the pid file away, or does not; whether the guard still needs it is
for the caller to say. -/
theorem Covered.remove {phase : Phase} {removed : Bool} (covered : Covered before)
    (childless : (before.phases daemon).child = none) (past : ∀ pid, ¬ (before.phases daemon).Judges pid)
    (parting : before.lock = some daemon ∨ phase.isParting = true)
    (spares : removed = true → before.lock = some daemon ∨
      ∀ pid, before.Runs pid → before.file ≠ some (some pid)) :
    Covered ((before.removeFile removed).setPhase daemon phase) := by
  have sameRuns : ∀ pid, (before.removeFile removed).Runs pid → before.Runs pid := by
    intro pid isRunning
    cases removed <;> exact isRunning
  refine covered.move (World.lock_removeFile ..) (World.phases_removeFile ..) sameRuns parting
    (fun _ pid _ isChild => ?_) fun pid isRunning guarded awaits => ⟨?_, fun isHolder => ?_⟩
  · rw [childless] at isChild
    cases isChild
  · cases removed with
    | false => exact guarded
    | true =>
      rcases spares rfl with isHolder | unrecorded
      · exact absurd (judges_of_awaits isHolder awaits) (past pid)
      · exact absurd guarded.1 (unrecorded pid (sameRuns pid isRunning))
  · exact absurd (judges_of_awaits isHolder awaits) (past pid)

/-- A daemon with nothing to judge and no child moves on. -/
theorem Covered.pass {phase : Phase} (covered : Covered before)
    (isHolder : before.lock = some daemon) (childless : (before.phases daemon).child = none)
    (past : ∀ pid, ¬ (before.phases daemon).Judges pid) : Covered (before.setPhase daemon phase) := by
  have unmoved : before.removeFile false = before := rfl
  rw [← unmoved]
  exact covered.remove childless past (.inl isHolder) fun isTrue => by cases isTrue

/-- A daemon moves on with its child; the pid file is its own to write while it has the lock. -/
theorem Covered.carry {file : Option (Option Pid)} {phase : Phase} (covered : Covered before)
    (child : (before.phases daemon).child = some pid) (keepsChild : phase.child = some pid)
    (parting : before.lock = some daemon ∨ phase.isParting = true)
    (writes : file = before.file ∨ before.lock = some daemon) :
    Covered ((before.setFile file).setPhase daemon phase) := by
  have judgeless : before.lock = some daemon → ∀ other, ¬ before.Awaits other := by
    intro isHolder other awaits
    have isNone := Phase.childless_of_judges (judges_of_awaits isHolder awaits)
    rw [child] at isNone
    cases isNone
  refine covered.move rfl rfl (fun _ isRunning => isRunning) parting (fun _ other _ isChild => ?_)
    fun other isRunning guarded awaits => ⟨?_, fun isHolder => absurd awaits (judgeless isHolder other)⟩
  · rw [keepsChild, ← child]
    exact isChild
  · rcases writes with same | isHolder
    · exact ⟨same.trans guarded.1, guarded.2⟩
    · exact absurd awaits (judgeless isHolder other)

/-- A daemon waits for its child, and goes on without one. -/
theorem Covered.reap {phase : Phase} (covered : Covered before)
    (child : (before.phases daemon).child = some pid)
    (parting : before.lock = some daemon ∨ phase.isParting = true) :
    Covered ((before.reaped (some pid)).setPhase daemon phase) := by
  refine covered.move rfl rfl (fun _ isRunning => (runs_reaped isRunning).2) parting
    (fun _ other isRunning isChild => ?_) fun other isRunning guarded awaits => ⟨?_, fun isHolder => ?_⟩
  · rw [child] at isChild
    exact absurd (Option.some.inj isChild).symm (runs_reaped isRunning).1
  · exact ⟨guarded.1, (isNamed_setProc (runs_reaped isRunning).1).trans guarded.2⟩
  · have none := Phase.childless_of_judges (judges_of_awaits isHolder awaits)
    rw [child] at none
    cases none

/-- A daemon's process ends and takes its server along, or leaves it where the guard finds it. -/
theorem Covered.crash {kills : Bool} (covered : Covered before)
    (careful : Careful before (.daemon daemon (.crash kills))) :
    Covered (((if kills then before.reaped (before.phases daemon).child
      else before.orphaned (before.phases daemon).child).unlocked daemon).setPhase daemon .gone) := by
  let left : World := if kills then before.reaped (before.phases daemon).child
    else before.orphaned (before.phases daemon).child
  have sameLock : left.lock = before.lock := by
    show (if kills then _ else _ : World).lock = _
    cases kills
    · exact World.lock_orphaned ..
    · exact World.lock_reaped ..
  have sameFile : left.file = before.file := by
    show (if kills then _ else _ : World).file = _
    cases kills
    · exact World.file_orphaned ..
    · exact World.file_reaped ..
  have samePhases : left.phases = before.phases := by
    show (if kills then _ else _ : World).phases = _
    cases kills
    · exact World.phases_orphaned ..
    · exact World.phases_reaped ..
  have ranBefore : ∀ pid, left.Runs pid → before.Runs pid ∧ left.isNamed pid = before.isNamed pid ∧
      ((before.phases daemon).child = some pid → before.Guarded pid) := by
    intro pid isRunning
    cases kills with
    | false =>
      obtain ⟨ran, sameName⟩ := runs_orphaned isRunning
      exact ⟨ran, sameName, fun isChild => careful pid isChild ran⟩
    | true =>
      have isReaped : (before.reaped (before.phases daemon).child).Runs pid := isRunning
      show before.Runs pid ∧ (before.reaped (before.phases daemon).child).isNamed pid = _ ∧ _
      cases child : (before.phases daemon).child with
      | none =>
        rw [child] at isReaped
        exact ⟨isReaped, rfl, fun isChild => by cases isChild⟩
      | some own =>
        rw [child] at isReaped
        obtain ⟨isOther, ran⟩ := runs_reaped isReaped
        exact ⟨ran, isNamed_setProc isOther, fun same => absurd (Option.some.inj same).symm isOther⟩
  have goesOn : ∀ {pid}, left.Runs pid → before.Guarded pid →
      ((left.unlocked daemon).setPhase daemon .gone).Guarded pid := by
    intro pid isRunning guarded
    refine ⟨?_, ?_⟩
    · rw [World.file_setPhase, World.file_unlocked, sameFile]
      exact guarded.1
    · show ((left.unlocked daemon).procs pid).any (·.isNamed) = true
      rw [World.procs_unlocked]
      exact (ranBefore pid isRunning).2.1.trans guarded.2
  show Covered ((left.unlocked daemon).setPhase daemon .gone)
  constructor
  · intro other isUp
    rw [World.phases_setPhase] at isUp ⊢
    rw [World.lock_setPhase, World.lock_unlocked, sameLock]
    split at isUp
    · cases isUp
    · rename_i isOther
      rw [if_neg isOther]
      rw [World.phases_unlocked, samePhases] at isUp ⊢
      rcases covered.parting other isUp with isHolder | parts
      · refine .inl ?_
        rw [if_neg fun isSelf => isOther (Option.some.inj (isHolder.symm.trans isSelf)), isHolder]
      · exact .inr parts
  · intro pid isRunning
    have isLeft : left.Runs pid := by
      obtain ⟨proc, found, isServer⟩ := isRunning
      rw [World.procs_setPhase, World.procs_unlocked] at found
      exact ⟨proc, found, isServer⟩
    obtain ⟨ran, _, guardsChild⟩ := ranBefore pid isLeft
    by_cases isHolder : before.lock = some daemon
    · have isFree : ((left.unlocked daemon).setPhase daemon .gone).Awaits pid := by
        refine .inl ?_
        rw [World.lock_setPhase, World.lock_unlocked, sameLock, if_pos isHolder]
      rcases covered.servers pid ran with ⟨holder, isLock, child⟩ | ⟨guarded, _⟩
      · cases isHolder.symm.trans isLock
        exact .inr ⟨goesOn isLeft (guardsChild child), isFree⟩
      · exact .inr ⟨goesOn isLeft guarded, isFree⟩
    · have sameHolder : ((left.unlocked daemon).setPhase daemon .gone).lock = before.lock := by
        rw [World.lock_setPhase, World.lock_unlocked, sameLock, if_neg isHolder]
      have samePhase : ∀ {holder}, before.lock = some holder →
          ((left.unlocked daemon).setPhase daemon .gone).phases holder = before.phases holder := by
        intro holder isLock
        have isOther : holder ≠ daemon := fun same => isHolder (same ▸ isLock)
        rw [World.phases_setPhase, if_neg isOther, World.phases_unlocked, samePhases]
      rcases covered.servers pid ran with ⟨holder, isLock, child⟩ | ⟨guarded, isFree | ⟨holder, isLock, judges⟩⟩
      · exact .inl ⟨holder, sameHolder.trans isLock, by rw [samePhase isLock]; exact child⟩
      · exact .inr ⟨goesOn isLeft guarded, .inl (sameHolder.trans isFree)⟩
      · exact .inr ⟨goesOn isLeft guarded, .inr ⟨holder, sameHolder.trans isLock,
          by rw [samePhase isLock]; exact judges⟩⟩

/-- A daemon that ended gives the lock back. -/
theorem Covered.release (covered : Covered before) (hasEnded : before.phases daemon = .ended) :
    Covered ((before.unlocked daemon).setPhase daemon .gone) := by
  have careful : Careful before (.daemon daemon (.crash false)) := by
    intro pid isChild
    rw [hasEnded] at isChild
    cases isChild
  have isCrash := covered.crash careful
  rw [hasEnded] at isCrash
  exact isCrash

/-- The daemon takes the lock: what is left behind is before its guard. -/
theorem Covered.acquire (covered : Covered before) (isFree : before.lock = none) :
    Covered ((before.setLock (some daemon)).setPhase daemon .guarding) where
  parting other isUp := by
    rw [World.phases_setPhase] at isUp ⊢
    split at isUp
    · rename_i same
      rw [same]
      exact .inl rfl
    · rename_i isOther
      rw [if_neg isOther]
      rcases covered.parting other isUp with isHolder | parts
      · rw [isFree] at isHolder
        cases isHolder
      · exact .inr parts
  servers pid isRunning := by
    rcases covered.servers pid isRunning with ⟨holder, isHolder, _⟩ | ⟨guarded, _⟩
    · rw [isFree] at isHolder
      cases isHolder
    · refine .inr ⟨guarded, .inr ⟨daemon, rfl, ?_⟩⟩
      rw [World.phases_setPhase, if_pos rfl]
      exact trivial

/-- The daemon gives the lock back while its server runs where the next guard finds it. -/
theorem Covered.abandon (covered : Covered before) (isHolder : before.lock = some daemon)
    (careful : Careful before (.daemon daemon .abandon)) : Covered (before.setLock none) := by
  obtain ⟨pid, isServing, guards⟩ := careful
  constructor
  · intro other isUp
    rcases covered.parting other isUp with isOther | parts
    · cases isHolder.symm.trans isOther
      refine .inr ?_
      show (before.phases daemon).isParting = true
      rw [isServing]
      rfl
    · exact .inr parts
  · intro another isRunning
    rcases covered.servers another isRunning with ⟨holder, isLock, child⟩ | ⟨guarded, _⟩
    · cases isHolder.symm.trans isLock
      rw [isServing] at child
      cases child
      exact .inr ⟨guards isRunning, .inl rfl⟩
    · exact .inr ⟨guarded, .inl rfl⟩

/-- A server is spawned where none runs. -/
theorem Covered.spawn {attempt : Option Nat} {named : Bool} (covered : Covered before)
    (isSpawning : before.phases daemon = .spawning attempt) :
    Covered ((before.setProc pid (some ⟨true, named, false, some daemon⟩)).setPhase daemon
      (.recording pid attempt)) := by
  have isHolder : before.lock = some daemon :=
      covered.holder (by rw [isSpawning]; rfl) (by rw [isSpawning]; rfl)
  have alone : ∀ another, ¬ before.Runs another := by
    intro another
    refine covered.alone isHolder (by rw [isSpawning]; rfl) ?_
    rw [isSpawning]
    exact id
  constructor
  · intro other isUp
    rw [World.phases_setPhase] at isUp ⊢
    split at isUp
    · rename_i same
      rw [same]
      exact .inl isHolder
    · rename_i isOther
      rw [if_neg isOther]
      exact covered.parting other isUp
  · rintro another ⟨proc, found, isServer, isRunning⟩
    rw [World.procs_setPhase, World.procs_setProc] at found
    split at found
    · rename_i same
      refine .inl ⟨daemon, isHolder, ?_⟩
      rw [World.phases_setPhase, if_pos rfl, same]
      rfl
    · exact absurd ⟨proc, found, isServer, isRunning⟩ (alone another)

/-- **Every careful step of a daemon leaves the running servers covered.** -/
theorem Covered.act {act : Act} (covered : Covered before) (step : DaemonStep daemon before act after)
    (careful : Careful before (.daemon daemon act)) : Covered after := by
  cases step with
  | acquire isGone isFree => exact covered.acquire isFree
  | read isGuarding =>
    refine covered.advance (covered.holder (by rw [isGuarding]; rfl) (by rw [isGuarding]; rfl)) ?_ ?_
    · intro pid _ isChild
      rw [isGuarding] at isChild
      cases isChild
    · intro pid _ guarded _
      rw [guarded.1]
      exact rfl
  | readFails isGuarding =>
    refine covered.advance (covered.holder (by rw [isGuarding]; rfl) (by rw [isGuarding]; rfl)) ?_ ?_
    · exact fun pid isRunning => absurd isRunning (careful pid)
    · exact fun pid isRunning => absurd isRunning (careful pid)
  | @probe recorded isProbing =>
    refine covered.advance (covered.holder (by rw [isProbing]; rfl) (by rw [isProbing]; rfl)) ?_ ?_
    · intro pid _ isChild
      rw [isProbing] at isChild
      cases isChild
    · intro pid _ guarded judges
      rw [isProbing] at judges
      cases judges
      rw [if_pos guarded.2]
      exact rfl
  | @probeFails recorded isProbing =>
    refine covered.advance (covered.holder (by rw [isProbing]; rfl) (by rw [isProbing]; rfl)) ?_ ?_
    · intro pid _ isChild
      rw [isProbing] at isChild
      cases isChild
    · intro pid isRunning _ judges
      rw [isProbing] at judges
      cases judges
      exact absurd isRunning (careful recorded isProbing)
  | @kill recorded isKilling =>
    have isHolder : before.lock = some daemon :=
      covered.holder (by rw [isKilling]; rfl) (by rw [isKilling]; rfl)
    have spared : ∀ pid, (before.ended recorded).Runs pid → before.Awaits pid → False := by
      intro pid isRunning awaits
      have judges := judges_of_awaits isHolder awaits
      rw [isKilling] at judges
      cases judges
      exact (runs_ended isRunning).1 rfl
    refine covered.move rfl rfl (fun pid isRunning => (runs_ended isRunning).2) (.inl isHolder)
      (fun _ pid _ isChild => ?_) fun pid isRunning _ awaits => (spared pid isRunning awaits).elim
    rw [isKilling] at isChild
    cases isChild
  | clear isClearing =>
    refine covered.remove (by rw [isClearing]; rfl) (fun pid => ?_)
      (.inl (covered.holder (by rw [isClearing]; rfl) (by rw [isClearing]; rfl)))
      fun _ => .inl (covered.holder (by rw [isClearing]; rfl) (by rw [isClearing]; rfl))
    rw [isClearing]
    exact id
  | spawn isSpawning isFree => exact covered.spawn isSpawning
  | spawnFails isSpawning =>
    refine covered.pass (covered.holder (by rw [isSpawning]; rfl) (by rw [isSpawning]; rfl))
      (by rw [isSpawning]; rfl) fun pid => ?_
    rw [isSpawning]
    exact id
  | truncate isRecording =>
    have isHolder : before.lock = some daemon :=
      covered.holder (by rw [isRecording]; rfl) (by rw [isRecording]; rfl)
    exact covered.carry (by rw [isRecording]; rfl) rfl (.inl isHolder) (.inr isHolder)
  | record isRewriting =>
    have isHolder : before.lock = some daemon :=
      covered.holder (by rw [isRewriting]; rfl) (by rw [isRewriting]; rfl)
    exact covered.carry (by rw [isRewriting]; rfl) rfl (.inl isHolder) (.inr isHolder)
  | @recordFails pid attempt isRecording =>
    have child : (before.phases daemon).child = some pid := by
      rcases isRecording with here | here <;> rw [here] <;> rfl
    have isHolder : before.lock = some daemon := by
      rcases isRecording with here | here <;> exact covered.holder (by rw [here]; rfl) (by rw [here]; rfl)
    exact covered.carry child rfl (.inl isHolder) (.inl rfl)
  | ready isAwaiting => exact covered.carry (by rw [isAwaiting]; rfl) rfl (.inr rfl) (.inl rfl)
  | unready isAwaiting =>
    refine covered.carry (by rw [isAwaiting]; rfl) rfl (.inl ?_) (.inl rfl)
    exact covered.holder (by rw [isAwaiting]; rfl) (by rw [isAwaiting]; rfl)
  | @discard pid attempt isDiscarding =>
    exact covered.reap (by rw [isDiscarding]; rfl)
      (.inl (covered.holder (by rw [isDiscarding]; rfl) (by rw [isDiscarding]; rfl)))
  | undo isUndoing =>
    refine covered.remove (by rw [isUndoing]; rfl) (fun pid => ?_) (.inr rfl)
      fun _ => .inl (covered.holder (by rw [isUndoing]; rfl) (by rw [isUndoing]; rfl))
    rw [isUndoing]
    exact id
  | @notice pid proc isServing found hasExited =>
    refine covered.reap (by rw [isServing]; rfl) ?_
    by_cases isHolder : before.lock = some daemon
    · exact .inl isHolder
    · rw [if_neg isHolder]
      exact .inr rfl
  | retry isBacking =>
    refine covered.pass (covered.holder (by rw [isBacking]; rfl) (by rw [isBacking]; rfl))
      (by rw [isBacking]; rfl) fun pid => ?_
    rw [isBacking]
    exact id
  | @stop pid isServing =>
    have child : (before.phases daemon).child = some pid := by
      rcases isServing with here | ⟨attempt, here⟩ <;> rw [here] <;> rfl
    exact covered.carry child rfl (.inr rfl) (.inl rfl)
  | stopWaiting isBacking =>
    refine covered.pass (covered.holder (by rw [isBacking]; rfl) (by rw [isBacking]; rfl))
      (by rw [isBacking]; rfl) fun pid => ?_
    rw [isBacking]
    exact id
  | @stopped pid isStopping => exact covered.reap (by rw [isStopping]; rfl) (.inr rfl)
  | @leave removed isLeaving =>
    refine covered.remove (by rw [isLeaving]; rfl) (fun pid => ?_) (.inr rfl) fun isRemoved => ?_
    · rw [isLeaving]
      exact id
    · subst isRemoved
      exact careful
  | release hasEnded => exact covered.release hasEnded
  | abandon isHolder isMonitored => exact covered.abandon isHolder careful
  | crash isUp => exact covered.crash careful

end Steps

/-! ### A server the guard misses -/

section Missed

variable {world : World} {pid : Pid}

theorem CarefulStep.reaches {before after : World} {daemon : Nat} {act : Act}
    (step : DaemonStep daemon before act after) (careful : Careful before (.daemon daemon act)) :
    Run.Reaches CarefulStep before after :=
  .one ⟨.daemon step, careful⟩

end Missed

/-! ### Starting again -/

/-- A daemon spawned its server under pid 5, and was killed before it wrote the pid file. -/
def unrecorded : World :=
  let guarding := (World.start.setLock (some 0)).setPhase 0 .guarding
  let spawning := guarding.setPhase 0 (.spawning none)
  let recording := (spawning.setProc 5 (some ⟨true, true, false, some 0⟩)).setPhase 0 (.recording 5 none)
  ((recording.orphaned (some 5)).unlocked 0).setPhase 0 .gone

end Bookrack.Runtime.Reranker
