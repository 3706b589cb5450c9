/-
Handlers in flight, and letting them finish.

A handler past its locked section owes the store of the pause flag, if it is a pause or a resume,
and its tick; nothing orders these against the other handlers' or the worker's. What a state of the
daemon settles to is where it ends when the calls in flight finish oldest first and nothing else
happens.
-/

import Bookrack.Runtime.RowStep

namespace Bookrack.Runtime

open Queue Registry Run Deferred

/-- The stores of the pause flag still owed, oldest first. -/
def pendingStores (calls : List Call) : List Bool := calls.filterMap Call.store

/-- The ticks still to be published, oldest first. -/
def pendingTicks (calls : List Call) : List QueueTick := calls.map Call.tick

theorem pendingStores_append (first second : List Call) :
    pendingStores (first ++ second) = pendingStores first ++ pendingStores second :=
  List.filterMap_append

theorem pendingStores_cons (call : Call) (calls : List Call) :
    pendingStores (call :: calls) = call.store.toList ++ pendingStores calls := by
  unfold pendingStores
  cases store : call.store <;> simp [store]

/-- The calls in flight finish, oldest first, and nothing else happens. -/
structure Finishes (daemon : Daemon) (trace : Trace) : Prop where
  run : Along Step daemon trace
  inOrder : ∀ entry ∈ trace, entry.1.1 = .resumeCall 0
  done : (finish daemon trace).calls = []

/-- The oldest call owes nothing but its tick and its reply. -/
theorem step_reply {daemon : Daemon} {call : Call} {calls : List Call}
    (inFlight : daemon.calls = call :: calls) (settled : call.store = none) :
    Step daemon (.resumeCall 0, .replied (call.receipt.reply daemon.queuePaused))
      { daemon with lastTick := some call.tick, calls := calls } := by
  simp [Step, step, Daemon.resumeCall, inFlight, settled]

/-- The oldest call owes a store. -/
theorem step_store {daemon : Daemon} {call : Call} {calls : List Call} {value : Bool}
    (inFlight : daemon.calls = call :: calls) (owed : call.store = some value) :
    Step daemon (.resumeCall 0, .stored value)
      (daemon.storeFlag value ({ call with store := none } :: calls)) := by
  simp [Step, step, Daemon.resumeCall, inFlight, owed]

/-- **Every state settles**: with the queue documents untouched, the flag ends at the newest store
and the subscribers at the newest tick. -/
theorem finishes_exists (daemon : Daemon) : ∃ trace, Finishes daemon trace ∧
    (finish daemon trace).queue = daemon.queue ∧ (finish daemon trace).disk = daemon.disk ∧
    some (finish daemon trace).queuePaused =
      newest (some daemon.queuePaused) (pendingStores daemon.calls) ∧
    (finish daemon trace).lastTick = newest daemon.lastTick (pendingTicks daemon.calls) := by
  generalize inFlight : daemon.calls = calls
  induction calls generalizing daemon with
  | nil => exact ⟨[], ⟨trivial, by simp, inFlight⟩, rfl, rfl, rfl, rfl⟩
  | cons call calls ih =>
    cases owed : call.store with
    | none =>
      obtain ⟨trace, finishes, queue, disk, flag, tick⟩ :=
        ih { daemon with lastTick := some call.tick, calls := calls } rfl
      refine ⟨((.resumeCall 0, _), _) :: trace, ⟨⟨step_reply inFlight owed, finishes.run⟩, ?_,
        finishes.done⟩, queue, disk, ?_, ?_⟩
      · simpa using fun event effect after member => finishes.inOrder ((event, effect), after) member
      · simpa [pendingStores_cons, owed] using flag
      · show _ = newest daemon.lastTick (call.tick :: pendingTicks calls)
        rw [newest_cons]
        exact tick
    | some value =>
      obtain ⟨trace, finishes, queue, disk, flag, tick⟩ :=
        ih { daemon.storeFlag value calls with lastTick := some call.tick } rfl
      refine ⟨((.resumeCall 0, _), _) :: ((.resumeCall 0, _), _) :: trace,
        ⟨⟨step_store inFlight owed, step_reply rfl rfl, finishes.run⟩, ?_, finishes.done⟩,
        queue, disk, ?_, ?_⟩
      · simpa using fun event effect after member => finishes.inOrder ((event, effect), after) member
      · simpa [pendingStores_cons, owed, Daemon.storeFlag] using flag
      · show _ = newest daemon.lastTick (call.tick :: pendingTicks calls)
        rw [newest_cons]
        exact tick

end Bookrack.Runtime
