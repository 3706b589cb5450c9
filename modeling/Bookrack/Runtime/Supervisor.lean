/-
The supervised reranker backend across the lives of the daemons of one runtime directory
(`runtime/src/rerank_supervisor.rs`, under the session lock of `session/src/lib.rs`).

Every call another process can see is a step of its own: the reading of the pid file, the probe of the
recorded process and the signal, each write of the file, the spawn, the wait. A daemon can be killed
between any two of them; what it spawned then stays behind. The texts of the errors, the health
endpoint and the state shown to the observer are left out, and so is the delay before a respawn.

* `Step` — everything a daemon, its server or the rest of the machine can do.
* **`sound_step`** — a daemon's child is the process that has it as parent, in every state of every run.
-/

import Bookrack.Base.Run
import Mathlib.Data.Set.Finite.Basic
import Mathlib.Logic.Function.Basic

namespace Bookrack.Runtime.Reranker

/-! ### The state -/

abbrev Pid := Nat

/-- An entry of the process table: whether a supervisor spawned it, whether `ps` shows `llama-server` in
its command line, and whether it has exited with its parent still to wait for it. The parent is the
daemon that spawned it, as long as that daemon lives. -/
structure Proc where
  isServer : Bool
  isNamed : Bool
  hasExited : Bool
  parent : Option Nat
  deriving DecidableEq, Repr

/-- How far a daemon is with its server. The attempt tells a respawn from the first start, which has
none. `recording` and `rewriting` are before and after the pid file is truncated. -/
inductive Phase
  | gone
  | guarding
  | probing (pid : Pid)
  | killing (pid : Pid)
  | clearing
  | spawning (attempt : Option Nat)
  | recording (pid : Pid) (attempt : Option Nat)
  | rewriting (pid : Pid) (attempt : Option Nat)
  | awaiting (pid : Pid) (attempt : Option Nat)
  | discarding (pid : Pid) (attempt : Option Nat)
  | undoing
  | serving (pid : Pid)
  | backingOff (attempt : Nat)
  | stopping (pid : Pid)
  | leaving
  | ended
  deriving DecidableEq, Repr

/-- The `Child` a daemon has a handle on. -/
def Phase.child : Phase → Option Pid
  | .recording pid _ | .rewriting pid _ | .awaiting pid _ | .discarding pid _ => some pid
  | .serving pid | .stopping pid => some pid
  | _ => none

/-- The daemon's process lives. -/
def Phase.isUp : Phase → Bool
  | .gone => false
  | _ => true

/-- `monitor_loop` is running, and was not told to stop. -/
def Phase.isMonitored : Phase → Bool
  | .spawning attempt | .recording _ attempt | .rewriting _ attempt => attempt.isSome
  | .awaiting _ attempt | .discarding _ attempt => attempt.isSome
  | .serving _ | .backingOff _ => true
  | _ => false

/-- The machine, as far as the supervisors of one runtime directory see it. `file` is the pid file: no
file, a first line that is no pid, or the pid. -/
structure World where
  procs : Pid → Option Proc
  file : Option (Option Pid)
  lock : Option Nat
  phases : Nat → Phase

/-- Nothing has been started yet. -/
def World.start : World where
  procs := fun _ => none
  file := none
  lock := none
  phases := fun _ => .gone

namespace World

def setPhase (world : World) (daemon : Nat) (phase : Phase) : World :=
  { world with phases := Function.update world.phases daemon phase }

def setProc (world : World) (pid : Pid) (proc : Option Proc) : World :=
  { world with procs := Function.update world.procs pid proc }

def setFile (world : World) (file : Option (Option Pid)) : World := { world with file }

def setLock (world : World) (lock : Option Nat) : World := { world with lock }

/-- `remove_file`, whose failure is passed over. -/
def removeFile (world : World) (removed : Bool) : World :=
  if removed then world.setFile none else world

/-- The session lock when a daemon's process is over. -/
def unlocked (world : World) (daemon : Nat) : World :=
  if world.lock = some daemon then world.setLock none else world

/-- A process ends: its parent is still to wait for it, or nobody is. -/
def ended (world : World) (pid : Pid) : World :=
  world.setProc pid ((world.procs pid).bind fun proc =>
    if proc.parent.isSome then some { proc with hasExited := true } else none)

/-- A daemon's process ends with this child: what has exited is reaped, what runs is left behind. -/
def orphaned (world : World) : Option Pid → World
  | none => world
  | some pid => world.setProc pid ((world.procs pid).bind fun proc =>
      if proc.hasExited then none else some { proc with parent := none })

/-- A daemon kills its child, if it has one, and waits for it. -/
def reaped (world : World) : Option Pid → World
  | none => world
  | some pid => world.setProc pid none

/-! #### Reading what was set -/

section Fields

variable (world : World) (daemon other : Nat) (pid another : Pid)

@[simp] theorem procs_setPhase (phase : Phase) : (world.setPhase daemon phase).procs = world.procs := rfl
@[simp] theorem file_setPhase (phase : Phase) : (world.setPhase daemon phase).file = world.file := rfl
@[simp] theorem lock_setPhase (phase : Phase) : (world.setPhase daemon phase).lock = world.lock := rfl
@[simp] theorem phases_setProc (proc : Option Proc) : (world.setProc pid proc).phases = world.phases := rfl
@[simp] theorem file_setProc (proc : Option Proc) : (world.setProc pid proc).file = world.file := rfl
@[simp] theorem lock_setProc (proc : Option Proc) : (world.setProc pid proc).lock = world.lock := rfl
@[simp] theorem procs_setFile (file : Option (Option Pid)) : (world.setFile file).procs = world.procs := rfl
@[simp] theorem phases_setFile (file : Option (Option Pid)) : (world.setFile file).phases = world.phases := rfl
@[simp] theorem lock_setFile (file : Option (Option Pid)) : (world.setFile file).lock = world.lock := rfl
@[simp] theorem file_setFile (file : Option (Option Pid)) : (world.setFile file).file = file := rfl
@[simp] theorem procs_setLock (lock : Option Nat) : (world.setLock lock).procs = world.procs := rfl
@[simp] theorem phases_setLock (lock : Option Nat) : (world.setLock lock).phases = world.phases := rfl
@[simp] theorem file_setLock (lock : Option Nat) : (world.setLock lock).file = world.file := rfl
@[simp] theorem lock_setLock (lock : Option Nat) : (world.setLock lock).lock = lock := rfl

@[simp] theorem phases_setPhase (phase : Phase) :
    (world.setPhase daemon phase).phases other = if other = daemon then phase else world.phases other :=
  Function.update_apply ..

@[simp] theorem procs_setProc (proc : Option Proc) :
    (world.setProc pid proc).procs another = if another = pid then proc else world.procs another :=
  Function.update_apply ..

@[simp] theorem procs_removeFile (removed : Bool) : (world.removeFile removed).procs = world.procs := by
  cases removed <;> rfl

@[simp] theorem phases_removeFile (removed : Bool) : (world.removeFile removed).phases = world.phases := by
  cases removed <;> rfl

@[simp] theorem lock_removeFile (removed : Bool) : (world.removeFile removed).lock = world.lock := by
  cases removed <;> rfl

@[simp] theorem file_removeFile (removed : Bool) :
    (world.removeFile removed).file = if removed then none else world.file := by
  cases removed <;> rfl

@[simp] theorem procs_unlocked : (world.unlocked daemon).procs = world.procs := by
  unfold unlocked
  split <;> rfl

@[simp] theorem phases_unlocked : (world.unlocked daemon).phases = world.phases := by
  unfold unlocked
  split <;> rfl

@[simp] theorem file_unlocked : (world.unlocked daemon).file = world.file := by
  unfold unlocked
  split <;> rfl

@[simp] theorem lock_unlocked :
    (world.unlocked daemon).lock = if world.lock = some daemon then none else world.lock := by
  unfold unlocked
  split <;> rfl

@[simp] theorem phases_orphaned (child : Option Pid) : (world.orphaned child).phases = world.phases := by
  cases child <;> rfl

@[simp] theorem file_orphaned (child : Option Pid) : (world.orphaned child).file = world.file := by
  cases child <;> rfl

@[simp] theorem lock_orphaned (child : Option Pid) : (world.orphaned child).lock = world.lock := by
  cases child <;> rfl

@[simp] theorem phases_reaped (child : Option Pid) : (world.reaped child).phases = world.phases := by
  cases child <;> rfl

@[simp] theorem file_reaped (child : Option Pid) : (world.reaped child).file = world.file := by
  cases child <;> rfl

@[simp] theorem lock_reaped (child : Option Pid) : (world.reaped child).lock = world.lock := by
  cases child <;> rfl

@[simp] theorem phases_ended : (world.ended pid).phases = world.phases := rfl
@[simp] theorem file_ended : (world.ended pid).file = world.file := rfl
@[simp] theorem lock_ended : (world.ended pid).lock = world.lock := rfl

end Fields

end World

/-! ### Steps -/

/-- What a daemon does next, with what the system calls answered. -/
inductive Act
  | acquire
  | read
  | readFails
  | probe
  | probeFails
  | kill
  | clear (removed : Bool)
  | spawn (pid : Pid) (named : Bool)
  | spawnFails
  | truncate
  | record
  | recordFails
  | ready
  | unready
  | discard
  | undo (removed : Bool)
  | notice
  | retry
  | stop
  | stopped
  | leave (removed : Bool)
  | release
  | abandon
  | crash (kills : Bool)
  deriving DecidableEq, Repr

/-- What `kill_recorded_orphan` does with what it read. -/
def judgement : Option (Option Pid) → Phase
  | none => .spawning none
  | some none => .clearing
  | some (some pid) => .probing pid

/-- `process_is_alive` and `command_line_names_llama_server`; a process that has exited and not been
waited for passes both. -/
def World.isNamed (world : World) (pid : Pid) : Bool := (world.procs pid).any (·.isNamed)

/-- The phase after a server that would not start: bring-up is refused, or the next attempt waits. -/
def failedSpawn : Option Nat → Phase
  | none => .ended
  | some attempt => .backingOff (attempt + 1)

/-- The phase after a server that started and never got ready. -/
def failedStart : Option Nat → Phase
  | none => .undoing
  | some attempt => .backingOff (attempt + 1)

/-- What a daemon does. Bring-up is everything up to the first `ready`; `abandon` is a bring-up that
fails behind it, which gives the lock back and leaves the monitor to find its channel closed. -/
inductive DaemonStep (daemon : Nat) : World → Act → World → Prop
  | acquire {world : World} : world.phases daemon = .gone → world.lock = none →
      DaemonStep daemon world .acquire ((world.setLock (some daemon)).setPhase daemon .guarding)
  | read {world : World} : world.phases daemon = .guarding →
      DaemonStep daemon world .read (world.setPhase daemon (judgement world.file))
  | readFails {world : World} : world.phases daemon = .guarding →
      DaemonStep daemon world .readFails (world.setPhase daemon (.spawning none))
  | probe {world : World} {pid : Pid} : world.phases daemon = .probing pid →
      DaemonStep daemon world .probe
        (world.setPhase daemon (if world.isNamed pid then .killing pid else .clearing))
  | probeFails {world : World} {pid : Pid} : world.phases daemon = .probing pid →
      DaemonStep daemon world .probeFails (world.setPhase daemon .clearing)
  | kill {world : World} {pid : Pid} : world.phases daemon = .killing pid →
      DaemonStep daemon world .kill ((world.ended pid).setPhase daemon .clearing)
  | clear {world : World} {removed : Bool} : world.phases daemon = .clearing →
      DaemonStep daemon world (.clear removed) ((world.removeFile removed).setPhase daemon (.spawning none))
  | spawn {world : World} {attempt : Option Nat} {pid : Pid} {named : Bool} :
      world.phases daemon = .spawning attempt → world.procs pid = none →
      DaemonStep daemon world (.spawn pid named)
        ((world.setProc pid (some ⟨true, named, false, some daemon⟩)).setPhase daemon (.recording pid attempt))
  | spawnFails {world : World} {attempt : Option Nat} : world.phases daemon = .spawning attempt →
      DaemonStep daemon world .spawnFails (world.setPhase daemon (failedSpawn attempt))
  | truncate {world : World} {pid : Pid} {attempt : Option Nat} :
      world.phases daemon = .recording pid attempt →
      DaemonStep daemon world .truncate
        ((world.setFile (some none)).setPhase daemon (.rewriting pid attempt))
  | record {world : World} {pid : Pid} {attempt : Option Nat} :
      world.phases daemon = .rewriting pid attempt →
      DaemonStep daemon world .record
        ((world.setFile (some (some pid))).setPhase daemon (.awaiting pid attempt))
  | recordFails {world : World} {pid : Pid} {attempt : Option Nat} :
      world.phases daemon = .recording pid attempt ∨ world.phases daemon = .rewriting pid attempt →
      DaemonStep daemon world .recordFails (world.setPhase daemon (.awaiting pid attempt))
  | ready {world : World} {pid : Pid} {attempt : Option Nat} :
      world.phases daemon = .awaiting pid attempt →
      DaemonStep daemon world .ready (world.setPhase daemon (.serving pid))
  | unready {world : World} {pid : Pid} {attempt : Option Nat} :
      world.phases daemon = .awaiting pid attempt →
      DaemonStep daemon world .unready (world.setPhase daemon (.discarding pid attempt))
  | discard {world : World} {pid : Pid} {attempt : Option Nat} :
      world.phases daemon = .discarding pid attempt →
      DaemonStep daemon world .discard ((world.reaped (some pid)).setPhase daemon (failedStart attempt))
  | undo {world : World} {removed : Bool} : world.phases daemon = .undoing →
      DaemonStep daemon world (.undo removed) ((world.removeFile removed).setPhase daemon .ended)
  | notice {world : World} {pid : Pid} {proc : Proc} :
      world.phases daemon = .serving pid → world.procs pid = some proc → proc.hasExited = true →
      DaemonStep daemon world .notice ((world.reaped (some pid)).setPhase daemon
        (if world.lock = some daemon then .backingOff 0 else .leaving))
  | retry {world : World} {attempt : Nat} : world.phases daemon = .backingOff attempt →
      DaemonStep daemon world .retry (world.setPhase daemon (.spawning (some attempt)))
  | stop {world : World} {pid : Pid} :
      world.phases daemon = .serving pid ∨ (∃ attempt, world.phases daemon = .awaiting pid (some attempt)) →
      DaemonStep daemon world .stop (world.setPhase daemon (.stopping pid))
  | stopWaiting {world : World} {attempt : Nat} : world.phases daemon = .backingOff attempt →
      DaemonStep daemon world .stop (world.setPhase daemon .leaving)
  | stopped {world : World} {pid : Pid} : world.phases daemon = .stopping pid →
      DaemonStep daemon world .stopped ((world.reaped (some pid)).setPhase daemon .leaving)
  | leave {world : World} {removed : Bool} : world.phases daemon = .leaving →
      DaemonStep daemon world (.leave removed) ((world.removeFile removed).setPhase daemon .ended)
  | release {world : World} : world.phases daemon = .ended →
      DaemonStep daemon world .release ((world.unlocked daemon).setPhase daemon .gone)
  | abandon {world : World} : world.lock = some daemon → (world.phases daemon).isMonitored = true →
      DaemonStep daemon world .abandon (world.setLock none)
  | crash {world : World} {kills : Bool} : (world.phases daemon).isUp = true →
      DaemonStep daemon world (.crash kills)
        (((if kills then world.reaped (world.phases daemon).child
            else world.orphaned (world.phases daemon).child).unlocked daemon).setPhase daemon .gone)

/-- A step of the machine: a daemon's, a process that ends by itself, or another process starting. -/
inductive Event
  | daemon (daemon : Nat) (act : Act)
  | exit (pid : Pid)
  | born (pid : Pid) (named : Bool)
  deriving DecidableEq, Repr

inductive Step : World → Event → World → Prop
  | daemon {before after : World} {daemon : Nat} {act : Act} :
      DaemonStep daemon before act after → Step before (.daemon daemon act) after
  | exit {world : World} {pid : Pid} {proc : Proc} :
      world.procs pid = some proc → proc.hasExited = false → Step world (.exit pid) (world.ended pid)
  | born {world : World} {pid : Pid} {named : Bool} : world.procs pid = none →
      Step world (.born pid named) (world.setProc pid (some ⟨false, named, false, none⟩))

/-- Some run leads from one state of the machine to another. -/
def Reaches : World → World → Prop := Run.Reaches Step

/-! ### Whose child a process is -/

/-- A daemon's child is the process that has it as parent; only a server has a parent among the
daemons, and only a daemon's child stays behind when it has exited. -/
structure Sound (world : World) : Prop where
  child : ∀ daemon pid, (world.phases daemon).child = some pid ↔
    ∃ proc, world.procs pid = some proc ∧ proc.parent = some daemon
  server : ∀ pid proc, world.procs pid = some proc → proc.parent ≠ none → proc.isServer = true
  exited : ∀ pid proc, world.procs pid = some proc → proc.hasExited = true → proc.parent ≠ none
  held : ∀ daemon, world.lock = some daemon → (world.phases daemon).isUp = true
  finite : {pid | world.procs pid ≠ none}.Finite

section Sound

variable {before after world : World} {daemon : Nat} {pid : Pid}

/-- A step that leaves the processes and every daemon's child. -/
theorem Sound.of_children (sound : Sound before) (procs : after.procs = before.procs)
    (children : ∀ other, (after.phases other).child = (before.phases other).child)
    (held : ∀ other, after.lock = some other → (after.phases other).isUp = true) : Sound after where
  child other another := by
    rw [children, procs]
    exact sound.child other another
  server := by
    rw [procs]
    exact sound.server
  exited := by
    rw [procs]
    exact sound.exited
  held := held
  finite := by
    rw [procs]
    exact sound.finite

/-- The daemon alone moves on, and keeps its child. -/
theorem Sound.setPhase {phase : Phase} (sound : Sound world)
    (child : phase.child = (world.phases daemon).child)
    (isUp : world.lock = some daemon → phase.isUp = true) : Sound (world.setPhase daemon phase) := by
  refine sound.of_children rfl (fun other => ?_) fun other isHolder => ?_
  · rw [World.phases_setPhase]
    split
    · rename_i same
      rw [child, same]
    · rfl
  · rw [World.phases_setPhase]
    split
    · rename_i same
      exact isUp (same ▸ isHolder)
    · exact sound.held other isHolder

theorem Sound.setFile {file : Option (Option Pid)} (sound : Sound world) : Sound (world.setFile file) :=
  sound.of_children rfl (fun _ => rfl) sound.held

theorem Sound.removeFile {removed : Bool} (sound : Sound world) : Sound (world.removeFile removed) := by
  cases removed
  · exact sound
  · exact sound.setFile

/-- The processes after one entry of the table changed are still finitely many. -/
theorem finite_setProc {proc : Option Proc} (finite : {pid | world.procs pid ≠ none}.Finite) :
    {another | (world.setProc pid proc).procs another ≠ none}.Finite := by
  refine (finite.insert pid).subset fun another isThere => ?_
  by_cases same : another = pid
  · exact .inl same
  · rw [Set.mem_ofPred_eq, World.procs_setProc, if_neg same] at isThere
    exact .inr isThere

/-- A process changes, and its parent stays. -/
theorem Sound.setProc {proc new : Proc} (sound : Sound world) (found : world.procs pid = some proc)
    (parent : new.parent = proc.parent) (isServer : new.isServer = proc.isServer)
    (exits : new.hasExited = true → new.parent ≠ none) : Sound (world.setProc pid (some new)) where
  child other another := by
    rw [World.phases_setProc, sound.child, World.procs_setProc]
    split
    · rename_i same
      subst same
      constructor
      · rintro ⟨entry, isEntry, isParent⟩
        rw [found] at isEntry
        cases isEntry
        exact ⟨new, rfl, parent.trans isParent⟩
      · rintro ⟨entry, isEntry, isParent⟩
        cases isEntry
        exact ⟨proc, found, parent.symm.trans isParent⟩
    · rfl
  server another entry isEntry hasParent := by
    rw [World.procs_setProc] at isEntry
    split at isEntry
    · cases isEntry
      rw [isServer]
      exact sound.server pid proc found (parent ▸ hasParent)
    · exact sound.server another entry isEntry hasParent
  exited another entry isEntry hasExited := by
    rw [World.procs_setProc] at isEntry
    split at isEntry
    · cases isEntry
      exact exits hasExited
    · exact sound.exited another entry isEntry hasExited
  held := sound.held
  finite := finite_setProc sound.finite

/-- A process nobody is to wait for leaves the table, or comes into it. -/
theorem Sound.setLoner {proc : Option Proc} (sound : Sound world)
    (alone : ∀ old, world.procs pid = some old → old.parent = none)
    (comes : ∀ new, proc = some new → new.parent = none ∧ new.hasExited = false) :
    Sound (world.setProc pid proc) where
  child other another := by
    rw [World.phases_setProc, sound.child, World.procs_setProc]
    split
    · rename_i same
      subst same
      constructor
      · rintro ⟨entry, isEntry, isParent⟩
        rw [alone entry isEntry] at isParent
        cases isParent
      · rintro ⟨entry, isEntry, isParent⟩
        rw [(comes entry isEntry).1] at isParent
        cases isParent
    · rfl
  server another entry isEntry hasParent := by
    rw [World.procs_setProc] at isEntry
    split at isEntry
    · exact absurd (comes entry isEntry).1 hasParent
    · exact sound.server another entry isEntry hasParent
  exited another entry isEntry hasExited := by
    rw [World.procs_setProc] at isEntry
    split at isEntry
    · rw [(comes entry isEntry).2] at hasExited
      cases hasExited
    · exact sound.exited another entry isEntry hasExited
  held := sound.held
  finite := finite_setProc sound.finite

theorem Sound.ended (sound : Sound world) : Sound (world.ended pid) := by
  cases found : world.procs pid with
  | none =>
    have same : world.ended pid = world.setProc pid none := by
      unfold World.ended
      rw [found]
      rfl
    rw [same]
    exact sound.setLoner (fun old isOld => by simp [found] at isOld) fun new isNew => by cases isNew
  | some proc =>
    unfold World.ended
    rw [found, Option.bind_some]
    split
    · rename_i hasParent
      exact sound.setProc found rfl rfl fun _ => Option.isSome_iff_ne_none.mp hasParent
    · rename_i isAlone
      refine sound.setLoner (fun old isOld => ?_) fun new isNew => by cases isNew
      rw [found] at isOld
      cases isOld
      exact Option.not_isSome_iff_eq_none.mp isAlone

/-- A daemon's child leaves it, and the daemon moves on without one. -/
theorem Sound.letGo {phase : Phase} {proc : Option Proc} (sound : Sound world)
    (child : (world.phases daemon).child = some pid)
    (isUp : world.lock = some daemon → phase.isUp = true) (childless : phase.child = none)
    (leaves : ∀ new, proc = some new → new.parent = none ∧ new.hasExited = false) :
    Sound ((world.setProc pid proc).setPhase daemon phase) where
  child other another := by
    rw [World.phases_setPhase, World.procs_setPhase, World.procs_setProc]
    obtain ⟨own, isOwn, isParent⟩ := (sound.child daemon pid).mp child
    have noneLeft : ∀ entry, proc = some entry → ∀ other, entry.parent ≠ some other := by
      intro entry isEntry other hasParent
      rw [(leaves entry isEntry).1] at hasParent
      cases hasParent
    by_cases same : another = pid
    · subst same
      rw [if_pos rfl]
      constructor
      · intro isChild
        split at isChild
        · rw [childless] at isChild
          cases isChild
        · rename_i isOther
          obtain ⟨entry, isEntry, hasParent⟩ := (sound.child other another).mp isChild
          rw [isOwn] at isEntry
          cases isEntry
          rw [isParent] at hasParent
          exact absurd (Option.some.inj hasParent).symm isOther
      · rintro ⟨entry, isEntry, hasParent⟩
        exact absurd hasParent (noneLeft entry isEntry other)
    · rw [if_neg same]
      split
      · rename_i isSelf
        subst isSelf
        rw [childless]
        constructor
        · intro isChild
          cases isChild
        · intro isParented
          have isChild := (sound.child other another).mpr isParented
          rw [child] at isChild
          exact absurd (Option.some.inj isChild).symm same
      · exact sound.child other another
  server another entry isEntry hasParent := by
    rw [World.procs_setPhase, World.procs_setProc] at isEntry
    split at isEntry
    · exact absurd (leaves entry isEntry).1 hasParent
    · exact sound.server another entry isEntry hasParent
  exited another entry isEntry hasExited := by
    rw [World.procs_setPhase, World.procs_setProc] at isEntry
    split at isEntry
    · rw [(leaves entry isEntry).2] at hasExited
      cases hasExited
    · exact sound.exited another entry isEntry hasExited
  held other isHolder := by
    rw [World.phases_setPhase]
    split
    · rename_i same
      exact isUp (same ▸ isHolder)
    · exact sound.held other isHolder
  finite := finite_setProc sound.finite

theorem Sound.unlocked (sound : Sound world) : Sound (world.unlocked daemon) := by
  refine sound.of_children (World.procs_unlocked world daemon) (fun other => ?_) fun other isHolder => ?_
  · rw [World.phases_unlocked]
  · rw [World.lock_unlocked] at isHolder
    rw [World.phases_unlocked]
    split at isHolder
    · cases isHolder
    · exact sound.held other isHolder

theorem unlocked_ne : (world.unlocked daemon).lock ≠ some daemon := by
  rw [World.lock_unlocked]
  split
  · intro isNone
    cases isNone
  · assumption

theorem unlocked_setProc (proc : Option Proc) :
    (world.setProc pid proc).unlocked daemon = (world.unlocked daemon).setProc pid proc := by
  unfold World.unlocked
  split <;> rename_i isHolder
  · rw [if_pos (show world.lock = some daemon from isHolder)]
    rfl
  · rw [if_neg (show ¬ world.lock = some daemon from isHolder)]

/-- A server comes up as the child of the daemon that spawned it. -/
theorem Sound.spawn {attempt : Option Nat} {named : Bool} (sound : Sound world)
    (childless : (world.phases daemon).child = none) (isFree : world.procs pid = none) :
    Sound ((world.setProc pid (some ⟨true, named, false, some daemon⟩)).setPhase daemon
      (.recording pid attempt)) where
  child other another := by
    rw [World.phases_setPhase, World.procs_setPhase, World.procs_setProc]
    by_cases isSelf : other = daemon
    · subst isSelf
      rw [if_pos rfl]
      show some pid = some another ↔ _
      split
      · rename_i same
        exact ⟨fun _ => ⟨_, rfl, rfl⟩, fun _ => by rw [same]⟩
      · rename_i isOther
        constructor
        · intro same
          exact absurd (Option.some.inj same).symm isOther
        · intro isParented
          rw [(sound.child other another).mpr isParented] at childless
          cases childless
    · rw [if_neg isSelf, World.phases_setProc]
      split
      · rename_i same
        subst same
        constructor
        · intro isChild
          obtain ⟨proc, found, _⟩ := (sound.child other another).mp isChild
          rw [isFree] at found
          cases found
        · rintro ⟨proc, found, parent⟩
          cases found
          exact absurd (Option.some.inj parent).symm isSelf
      · exact sound.child other another
  server another entry isEntry hasParent := by
    rw [World.procs_setPhase, World.procs_setProc] at isEntry
    split at isEntry
    · cases isEntry
      rfl
    · exact sound.server another entry isEntry hasParent
  exited another entry isEntry hasExited := by
    rw [World.procs_setPhase, World.procs_setProc] at isEntry
    split at isEntry
    · cases isEntry
      cases hasExited
    · exact sound.exited another entry isEntry hasExited
  held other isHolder := by
    rw [World.phases_setPhase]
    split
    · rfl
    · exact sound.held other isHolder
  finite := finite_setProc sound.finite

/-- A daemon's process ends, whatever becomes of its child. -/
theorem Sound.crash {kills : Bool} (sound : Sound world) :
    Sound (((if kills then world.reaped (world.phases daemon).child
      else world.orphaned (world.phases daemon).child).unlocked daemon).setPhase daemon .gone) := by
  have isUp : (world.unlocked daemon).lock = some daemon → Phase.gone.isUp = true :=
    fun isHolder => absurd isHolder unlocked_ne
  cases child : (world.phases daemon).child with
  | none =>
    have left : (if kills then world.reaped none else world.orphaned none) = world := by
      cases kills <;> rfl
    rw [left]
    refine sound.unlocked.setPhase ?_ isUp
    rw [World.phases_unlocked, child]
    rfl
  | some pid =>
    have childOf : ((world.unlocked daemon).phases daemon).child = some pid := by
      rw [World.phases_unlocked, child]
    obtain ⟨proc, found, parent⟩ := (sound.child daemon pid).mp child
    cases kills with
    | true =>
      show Sound (((world.setProc pid none).unlocked daemon).setPhase daemon .gone)
      rw [unlocked_setProc]
      exact sound.unlocked.letGo childOf isUp rfl fun new isNew => by cases isNew
    | false =>
      show Sound (((world.setProc pid ((world.procs pid).bind fun proc =>
        if proc.hasExited then none else some { proc with parent := none })).unlocked daemon).setPhase
          daemon .gone)
      rw [unlocked_setProc, found, Option.bind_some]
      refine sound.unlocked.letGo childOf isUp rfl fun new isNew => ?_
      split at isNew
      · cases isNew
      · rename_i isRunning
        cases isNew
        exact ⟨rfl, Bool.eq_false_iff.mpr isRunning⟩

theorem isUp_judgement (file : Option (Option Pid)) : (judgement file).isUp = true := by
  rcases file with _ | _ | pid <;> rfl

theorem child_judgement (file : Option (Option Pid)) : (judgement file).child = none := by
  rcases file with _ | _ | pid <;> rfl

/-- Every step of a daemon keeps the processes and their parents in step with the daemons' children. -/
theorem Sound.act {act : Act} (sound : Sound before) (step : DaemonStep daemon before act after) :
    Sound after := by
  cases step with
  | acquire isGone isFree =>
    refine sound.of_children rfl (fun other => ?_) fun other isHolder => ?_
    · rw [World.phases_setPhase]
      split
      · rename_i same
        rw [same, isGone]
        rfl
      · rfl
    · cases isHolder
      rw [World.phases_setPhase, if_pos rfl]
      rfl
  | read isGuarding =>
    exact sound.setPhase (by rw [isGuarding, child_judgement]; rfl) fun _ => isUp_judgement _
  | readFails isGuarding => exact sound.setPhase (by rw [isGuarding]; rfl) fun _ => rfl
  | probe isProbing =>
    refine sound.setPhase ?_ fun _ => ?_
    · rw [isProbing]
      split <;> rfl
    · split <;> rfl
  | probeFails isProbing => exact sound.setPhase (by rw [isProbing]; rfl) fun _ => rfl
  | kill isKilling =>
    exact sound.ended.setPhase (by rw [World.phases_ended, isKilling]; rfl) fun _ => rfl
  | clear isClearing =>
    exact sound.removeFile.setPhase (by rw [World.phases_removeFile, isClearing]; rfl) fun _ => rfl
  | spawn isSpawning isFree => exact sound.spawn (by rw [isSpawning]; rfl) isFree
  | @spawnFails attempt isSpawning =>
    refine sound.setPhase ?_ fun _ => ?_
    · rw [isSpawning]
      cases attempt <;> rfl
    · cases attempt <;> rfl
  | truncate isRecording =>
    exact sound.setFile.setPhase (by rw [World.phases_setFile, isRecording]; rfl) fun _ => rfl
  | record isRewriting =>
    exact sound.setFile.setPhase (by rw [World.phases_setFile, isRewriting]; rfl) fun _ => rfl
  | recordFails isRecording =>
    refine sound.setPhase ?_ fun _ => rfl
    rcases isRecording with here | here <;> rw [here] <;> rfl
  | ready isAwaiting => exact sound.setPhase (by rw [isAwaiting]; rfl) fun _ => rfl
  | unready isAwaiting => exact sound.setPhase (by rw [isAwaiting]; rfl) fun _ => rfl
  | @discard pid attempt isDiscarding =>
    refine sound.letGo (by rw [isDiscarding]; rfl) (fun _ => ?_) ?_ fun new isNew => by cases isNew
    all_goals cases attempt <;> rfl
  | undo isUndoing =>
    exact sound.removeFile.setPhase (by rw [World.phases_removeFile, isUndoing]; rfl) fun _ => rfl
  | notice isServing found hasExited =>
    refine sound.letGo (by rw [isServing]; rfl) (fun _ => ?_) ?_ fun new isNew => by cases isNew
    all_goals split <;> rfl
  | retry isBacking => exact sound.setPhase (by rw [isBacking]; rfl) fun _ => rfl
  | stop isServing =>
    refine sound.setPhase ?_ fun _ => rfl
    rcases isServing with here | ⟨attempt, here⟩ <;> rw [here] <;> rfl
  | stopWaiting isBacking => exact sound.setPhase (by rw [isBacking]; rfl) fun _ => rfl
  | stopped isStopping =>
    exact sound.letGo (by rw [isStopping]; rfl) (fun _ => rfl) rfl fun new isNew => by cases isNew
  | leave isLeaving =>
    exact sound.removeFile.setPhase (by rw [World.phases_removeFile, isLeaving]; rfl) fun _ => rfl
  | release hasEnded =>
    exact sound.unlocked.setPhase (by rw [World.phases_unlocked, hasEnded]; rfl) fun isHolder =>
      absurd isHolder unlocked_ne
  | abandon isHolder isMonitored =>
    exact sound.of_children rfl (fun _ => rfl) fun other isNone => by cases isNone
  | crash isUp => exact sound.crash

/-- **Every step keeps the processes and their parents in step with the daemons' children.** -/
theorem sound_step {event : Event} (sound : Sound before) (step : Step before event after) : Sound after := by
  cases step with
  | daemon step => exact sound.act step
  | exit found isRunning => exact sound.ended
  | born isFree =>
    refine sound.setLoner (fun old isOld => ?_) fun new isNew => ?_
    · rw [isFree] at isOld
      cases isOld
    · cases isNew
      exact ⟨rfl, rfl⟩

theorem sound_start : Sound World.start where
  child daemon pid := by
    constructor
    · intro isChild
      cases isChild
    · rintro ⟨proc, found, _⟩
      cases found
  server pid proc found := by cases found
  exited pid proc found := by cases found
  held daemon isHolder := by cases isHolder
  finite := by
    refine Set.finite_empty.subset fun pid isThere => ?_
    exact absurd rfl isThere

end Sound

end Bookrack.Runtime.Reranker
