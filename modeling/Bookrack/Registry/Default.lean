/-
The default-library pointer: the selection in the on-disk registry and the in-memory copy of it that
routes unnamed calls.

`library.set_default` (`control/methods/libraries.rs`) validates or mounts the library, writes the
disk, and refreshes the memory, each step on its own and without the write mutex. Two calls can
cross, and an unmount can come between the last two steps, so that the refresh itself fails.
`default_agrees_iff` gives the exact condition on the steps of a run; `unmounted_before_refresh` is a
run without it.
-/

import Bookrack.Base.Deferred
import Bookrack.Base.Run
import Bookrack.Registry.Registry

namespace Bookrack.Registry

open Run Deferred

/-! ### The on-disk registry -/

/-- What the registry file says: the libraries it defines and its `default` selection. -/
structure RegistryFile where
  libraries : Finset String
  default : Option String

/-- The errors of a registry write. -/
inductive ConfigError
  | unknownLibrary (name : String) (available : List String)
  | unwritable (chain : String)
  deriving DecidableEq, Repr

/-- The text of a registry write's error. -/
def ConfigError.text : ConfigError → String
  | .unknownLibrary name available =>
    "no library named " ++ debugText name ++ " in the registry (available: "
      ++ (if available = [] then "<none>" else String.intercalate ", " available) ++ ")"
  | .unwritable chain => chain

/-- `config_err`. -/
def configErr : ConfigError → RpcError
  | error@(.unknownLibrary ..) => rpcFromProblem invalidLibrary (Problem.new error.text)
  | error@(.unwritable _) => rpcFromProblem internalError (Problem.new error.text)

/-- `set_default_library`; `fault` is the error the lock, the read or the write of the file ended
in, if they did. -/
def RegistryFile.setDefaultLibrary (file : RegistryFile) (name : String) (fault : Option String) :
    Except ConfigError RegistryFile :=
  match fault with
  | some chain => .error (.unwritable chain)
  | none =>
    if name ∈ file.libraries then .ok { file with default := some name }
    else .error (.unknownLibrary name (sortNames file.libraries))

/-! ### Calls in flight -/

/-- A call past its disk write; `previous` is the selection its write replaced. -/
structure WrittenCall where
  name : String
  previous : Option String
  deriving DecidableEq, Repr

/-- The two copies of the default and the `set_default` calls in flight: those that have validated
their name, and those that have written the disk, in the order of the writes. -/
structure DefaultState where
  file : RegistryFile
  registry : LibraryRegistry
  validated : List String
  written : List WrittenCall

/-- What a step shows. -/
inductive DefaultEffect
  | quiet
  | refused (error : RpcError)
  | defaultSet (name : String)
  | unmounted (name : String)
  deriving DecidableEq, Repr

/-- The first step of a call: a name that is not served is mounted. -/
def DefaultState.validate (state : DefaultState) (name : String) (bringUp : Option RpcError) :
    DefaultEffect × DefaultState :=
  match state.registry.get (some name) with
  | .ok _ => (.quiet, { state with validated := state.validated ++ [name] })
  | .error _ =>
    match Mounter.mount state.registry name bringUp with
    | .ok registry =>
      (.quiet, { state with registry := registry, validated := state.validated ++ [name] })
    | .error error => (.refused error, state)

/-- The second step of the call at `index`: the disk write. -/
def DefaultState.writeFile (state : DefaultState) (index : Nat) (fault : Option String) :
    Option (DefaultEffect × DefaultState) :=
  match state.validated[index]? with
  | none => none
  | some name =>
    let others := state.validated.eraseIdx index
    match state.file.setDefaultLibrary name fault with
    | .ok file =>
      some (.quiet,
        { state with
          file := file
          validated := others
          written := state.written ++ [{ name := name, previous := state.file.default }] })
    | .error error => some (.refused (configErr error), { state with validated := others })

/-- The last step of the call at `index`: the refresh of the copy in memory. -/
def DefaultState.refresh (state : DefaultState) (index : Nat) :
    Option (DefaultEffect × DefaultState) :=
  match state.written[index]? with
  | none => none
  | some call =>
    let others := state.written.eraseIdx index
    match state.registry.setDefault call.name with
    | .ok registry =>
      some (.defaultSet call.name, { state with registry := registry, written := others })
    | .error error => some (.refused (registryErr error), { state with written := others })

/-- `library.unmount`. -/
def DefaultState.unmount (state : DefaultState) (name : String) (facts : UnmountFacts) :
    DefaultEffect × DefaultState :=
  match Mounter.unmount state.registry name facts with
  | .ok registry => (.unmounted name, { state with registry := registry })
  | .error refusal => (.refused (unmountErr refusal), state)

/-- One event. -/
inductive DefaultEvent
  | validate (name : String) (bringUp : Option RpcError)
  | writeFile (index : Nat) (fault : Option String)
  | refresh (index : Nat)
  | unmount (name : String) (facts : UnmountFacts)
  deriving DecidableEq, Repr

/-- What an event does, `none` when it cannot happen now. -/
def DefaultState.step (state : DefaultState) : DefaultEvent → Option (DefaultEffect × DefaultState)
  | .validate name bringUp => some (state.validate name bringUp)
  | .writeFile index fault => state.writeFile index fault
  | .refresh index => state.refresh index
  | .unmount name facts => some (state.unmount name facts)

/-- One step of a run. -/
def DefaultStep (before : DefaultState) (label : DefaultEvent × DefaultEffect)
    (after : DefaultState) : Prop :=
  before.step label.1 = some (label.2, after)

/-! ### What the run should look like -/

/-- With no call in flight the two copies of the default are equal. -/
def DefaultAgreesAtRest (state : DefaultState) : Prop :=
  state.validated = [] → state.written = [] → state.registry.default = state.file.default

/-- A call that returns an error has not changed the selection on disk: the step that returns it
does not, and its own write, if it came that far, replaced the name by itself. -/
def ErrorLeavesFile (before : DefaultState) (label : DefaultEvent × DefaultEffect)
    (after : DefaultState) : Prop :=
  ∀ error, label.2 = .refused error → after.file = before.file ∧
    ∀ index call, label.1 = .refresh index → before.written[index]? = some call →
      call.previous = some call.name

/-! ### The condition -/

/-- The default in memory once the given calls have refreshed it in order. -/
def DefaultState.refreshed (state : DefaultState) (calls : List WrittenCall) : Option String :=
  match calls.getLast? with
  | some call => some call.name
  | none => state.registry.default

/-- **The condition on a run's refreshes.** A refresh finds its library mounted and, unless a newer
write is still to be refreshed, overtakes no older one of another name; or its library is no longer
mounted, its write changed nothing, and, unless a newer write is still to be refreshed, the older
ones end at its name. -/
def RefreshOrderly (before : DefaultState) (label : DefaultEvent × DefaultEffect)
    (_ : DefaultState) : Prop :=
  ∀ older call newer, label.1 = .refresh older.length → before.written = older ++ call :: newer →
    if call.name ∈ before.registry.mounted then
      newer = [] → ∀ last, older.getLast? = some last → last.name = call.name
    else call.previous = some call.name ∧
      (newer = [] → before.refreshed older = some call.name)

/-! ### The invariant -/

/-- The names still to be refreshed, oldest first. -/
def pendingNames (calls : List WrittenCall) : List (Option String) :=
  calls.map fun call => some call.name

/-- The refreshes still to come end at the selection on disk. -/
def DefaultInvariant (state : DefaultState) : Prop :=
  state.refreshed state.written = state.file.default

theorem newest_pendingNames (state : DefaultState) (calls : List WrittenCall) :
    newest (some state.registry.default) (pendingNames calls) = some (state.refreshed calls) := by
  unfold newest pendingNames DefaultState.refreshed
  rw [List.getLast?_map]
  cases calls.getLast? <;> rfl

theorem defaultInvariant_iff_agrees {state : DefaultState} :
    DefaultInvariant state ↔
      Agrees state.file.default (pendingNames state.written) (some state.registry.default) := by
  unfold Agrees DefaultInvariant
  rw [newest_pendingNames]
  simp

theorem pendingNames_append (first second : List WrittenCall) :
    pendingNames (first ++ second) = pendingNames first ++ pendingNames second :=
  List.map_append

theorem unmount_default {registry after : LibraryRegistry} {name : String}
    (removed : registry.unmount name = .ok after) : after.default = registry.default := by
  unfold LibraryRegistry.unmount at removed
  split at removed
  · cases removed
    rfl
  · cases removed

/-- A step that keeps the default in memory, the file and the calls past their write. -/
theorem defaultInvariant_of_same {state after : DefaultState} (holds : DefaultInvariant state)
    (memory : after.registry.default = state.registry.default) (file : after.file = state.file)
    (written : after.written = state.written) : DefaultInvariant after := by
  rw [DefaultInvariant, DefaultState.refreshed, memory, file, written]
  exact holds

/-- A step that is not a refresh keeps the invariant and reports no harm. -/
theorem writeFile_keeps {before after : DefaultState} {effect : DefaultEffect} {index : Nat}
    {fault : Option String} (holds : DefaultInvariant before)
    (steps : before.writeFile index fault = some (effect, after)) :
    DefaultInvariant after ∧ (∀ error, effect = .refused error → after.file = before.file) := by
  unfold DefaultState.writeFile at steps
  split at steps
  · cases steps
  · rename_i name found
    split at steps
    · rename_i file writes
      cases steps
      refine ⟨defaultInvariant_iff_agrees.mpr ?_, fun error refused => nomatch refused⟩
      have selects : file.default = some name := by
        unfold RegistryFile.setDefaultLibrary at writes
        split at writes
        · cases writes
        · split at writes
          · cases writes
            rfl
          · cases writes
      show Agrees file.default (pendingNames (before.written ++ [_])) _
      rw [selects, pendingNames_append]
      exact agrees_commit _ _ _
    · cases steps
      exact ⟨defaultInvariant_of_same holds rfl rfl rfl, fun _ _ => rfl⟩

theorem validate_keeps {before : DefaultState} (holds : DefaultInvariant before) (name : String)
    (bringUp : Option RpcError) :
    DefaultInvariant (before.validate name bringUp).2 ∧
      (before.validate name bringUp).2.file = before.file := by
  unfold DefaultState.validate
  split
  · exact ⟨defaultInvariant_of_same holds rfl rfl rfl, rfl⟩
  · split
    · rename_i registry mounts
      exact ⟨defaultInvariant_of_same holds (mounterMount_mounted mounts).2 rfl rfl, rfl⟩
    · exact ⟨holds, rfl⟩

theorem unmount_keeps {before : DefaultState} (holds : DefaultInvariant before) (name : String)
    (facts : UnmountFacts) :
    DefaultInvariant (before.unmount name facts).2 ∧
      (before.unmount name facts).2.file = before.file := by
  unfold DefaultState.unmount
  split
  · rename_i registry unmounts
    have removed := (mounterUnmount_ok_iff.mp unmounts).2.2.2.2
    exact ⟨defaultInvariant_of_same holds (unmount_default removed) rfl rfl, rfl⟩
  · exact ⟨holds, rfl⟩

/-- The refresh, inverted: it goes through exactly when the library is mounted. -/
theorem refresh_cases {before after : DefaultState} {effect : DefaultEffect} {index : Nat}
    (steps : before.refresh index = some (effect, after)) :
    ∃ older call newer, before.written = older ++ call :: newer ∧ older.length = index ∧
      ((call.name ∈ before.registry.mounted ∧ effect = .defaultSet call.name ∧
          after = { before with registry := { before.registry with default := some call.name }
                                written := older ++ newer }) ∨
        (call.name ∉ before.registry.mounted ∧ (∃ error, effect = .refused error) ∧
          after = { before with written := older ++ newer })) := by
  unfold DefaultState.refresh at steps
  split at steps
  · cases steps
  · rename_i call found
    obtain ⟨older, newer, written, length, erased, -⟩ := pick_split found
    refine ⟨older, call, newer, written, length, ?_⟩
    rw [erased] at steps
    by_cases served : call.name ∈ before.registry.mounted
    · simp only [LibraryRegistry.setDefault, served, if_true] at steps
      cases steps
      exact Or.inl ⟨served, rfl, rfl⟩
    · simp only [LibraryRegistry.setDefault, served, if_false] at steps
      cases steps
      exact Or.inr ⟨served, ⟨_, rfl⟩, rfl⟩

/-- What the condition asks of the refresh of one call. -/
theorem refreshOrderly_iff {before after : DefaultState} {effect : DefaultEffect}
    {older newer : List WrittenCall} {call : WrittenCall}
    (written : before.written = older ++ call :: newer) :
    RefreshOrderly before (.refresh older.length, effect) after ↔
      if call.name ∈ before.registry.mounted then
        newer = [] → ∀ last, older.getLast? = some last → last.name = call.name
      else call.previous = some call.name ∧
        (newer = [] → before.refreshed older = some call.name) := by
  constructor
  · exact fun orderly => orderly older call newer rfl written
  · intro met older' call' newer' isRefresh written'
    obtain ⟨rfl, rfl, rfl⟩ := pick_unique (written.symm.trans written')
      (DefaultEvent.refresh.inj isRefresh)
    exact met

/-- A refresh that goes through publishes the name. -/
theorem refresh_served {before : DefaultState} (holds : DefaultInvariant before)
    {older newer : List WrittenCall} {call : WrittenCall}
    (written : before.written = older ++ call :: newer) :
    DefaultInvariant
        { before with registry := { before.registry with default := some call.name }
                      written := older ++ newer } ↔
      (newer = [] → ∀ last, older.getLast? = some last → last.name = call.name) := by
  have agrees := defaultInvariant_iff_agrees.mp holds
  rw [written, pendingNames_append] at agrees
  have survives := agrees_publish_iff agrees
  rw [defaultInvariant_iff_agrees]
  show Agrees before.file.default (pendingNames (older ++ newer)) (some (some call.name)) ↔ _
  rw [pendingNames_append]
  refine survives.trans ?_
  have none : pendingNames newer = [] ↔ newer = [] := List.map_eq_nil_iff
  have last : (pendingNames older).getLast? = older.getLast?.map fun call => some call.name :=
    List.getLast?_map
  show (pendingNames newer = [] → _) ↔ _
  rw [none, last]
  cases older.getLast? <;> simp

/-- A refresh that fails withdraws the name. -/
theorem refresh_unserved {before : DefaultState} (holds : DefaultInvariant before)
    {older newer : List WrittenCall} {call : WrittenCall}
    (written : before.written = older ++ call :: newer) :
    DefaultInvariant { before with written := older ++ newer } ↔
      (newer = [] → before.refreshed older = some call.name) := by
  have agrees := defaultInvariant_iff_agrees.mp holds
  rw [written, pendingNames_append] at agrees
  have survives := agrees_withdraw_iff agrees
  rw [defaultInvariant_iff_agrees]
  show Agrees before.file.default (pendingNames (older ++ newer))
    (some before.registry.default) ↔ _
  rw [pendingNames_append]
  refine survives.trans ?_
  have none : pendingNames newer = [] ↔ newer = [] := List.map_eq_nil_iff
  show (pendingNames newer = [] → _) ↔ _
  rw [none, newest_pendingNames]
  simp

/-- **One step** keeps the invariant and reports no error after a change on disk exactly when it
meets the condition. -/
theorem default_step_iff {before after : DefaultState} {label : DefaultEvent × DefaultEffect}
    (holds : DefaultInvariant before) (steps : DefaultStep before label after) :
    DefaultInvariant after ∧ ErrorLeavesFile before label after ↔
      RefreshOrderly before label after := by
  obtain ⟨event, effect⟩ := label
  have steps : before.step event = some (effect, after) := steps
  cases event with
  | validate name bringUp =>
    obtain ⟨kept, file⟩ := validate_keeps holds name bringUp
    have same : before.validate name bringUp = (effect, after) := Option.some.inj steps
    rw [same] at kept file
    exact iff_of_true ⟨kept, fun _ _ => ⟨file, fun _ _ isRefresh => nomatch isRefresh⟩⟩
      fun _ _ _ isRefresh => nomatch isRefresh
  | writeFile index fault =>
    obtain ⟨kept, file⟩ := writeFile_keeps holds steps
    exact iff_of_true ⟨kept, fun error refused => ⟨file error refused,
      fun _ _ isRefresh => nomatch isRefresh⟩⟩ fun _ _ _ isRefresh => nomatch isRefresh
  | unmount name facts =>
    obtain ⟨kept, file⟩ := unmount_keeps holds name facts
    have same : before.unmount name facts = (effect, after) := Option.some.inj steps
    rw [same] at kept file
    exact iff_of_true ⟨kept, fun _ _ => ⟨file, fun _ _ isRefresh => nomatch isRefresh⟩⟩
      fun _ _ _ isRefresh => nomatch isRefresh
  | refresh index =>
    obtain ⟨older, call, newer, written, rfl,
      ⟨served, rfl, rfl⟩ | ⟨unserved, ⟨error, rfl⟩, rfl⟩⟩ := refresh_cases steps
    · rw [refreshOrderly_iff written, if_pos served, refresh_served holds written]
      exact and_iff_left fun _ refused => nomatch refused
    · rw [refreshOrderly_iff written, if_neg unserved, refresh_unserved holds written, and_comm]
      refine and_congr_left fun _ => ⟨fun harmless => ?_, fun unchanged => ?_⟩
      · refine (harmless error rfl).2 older.length call rfl ?_
        rw [written, List.getElem?_append_right (Nat.le_refl _), Nat.sub_self]
        rfl
      · refine fun _ _ => ⟨rfl, fun index found isRefresh present => ?_⟩
        obtain rfl : older.length = index := DefaultEvent.refresh.inj isRefresh
        rw [written, List.getElem?_append_right (Nat.le_refl _), Nat.sub_self] at present
        cases present
        exact unchanged

/-- **The default library.** In a run whose refreshes meet the condition, the two copies of the
default are equal whenever no call is in flight, and a call that returned an error left the one on
disk unchanged. The refreshes meet the condition exactly when no error comes after a change on disk
and in every state the refreshes still to come end at the selection on disk. -/
theorem default_agrees_iff {start : DefaultState} {trace : List ((DefaultEvent × DefaultEffect) ×
    DefaultState)} (atRest : start.written = [])
    (agrees : start.registry.default = start.file.default)
    (run : Along DefaultStep start trace) :
    (Along RefreshOrderly start trace →
      (∀ entry ∈ trace, DefaultAgreesAtRest entry.2) ∧ Along ErrorLeavesFile start trace) ∧
    (Along RefreshOrderly start trace ↔
      (∀ entry ∈ trace, entry.2.refreshed entry.2.written = entry.2.file.default) ∧
        Along ErrorLeavesFile start trace) := by
  have initial : DefaultInvariant start := by
    rw [DefaultInvariant, atRest]
    exact agrees
  have exact_iff : Along RefreshOrderly start trace ↔
      (∀ entry ∈ trace, DefaultInvariant entry.2) ∧ Along ErrorLeavesFile start trace := by
    clear atRest agrees
    induction trace generalizing start with
    | nil => simp
    | cons entry rest ih =>
      have step := default_step_iff initial run.1
      constructor
      · intro orderly
        obtain ⟨next, harmless⟩ := step.mpr orderly.1
        obtain ⟨later, harmlessLater⟩ := (ih run.2 next).mp orderly.2
        exact ⟨List.forall_mem_cons.mpr ⟨next, later⟩, harmless, harmlessLater⟩
      · rintro ⟨each, harmless⟩
        obtain ⟨next, later⟩ := List.forall_mem_cons.mp each
        exact ⟨step.mp ⟨next, harmless.1⟩, (ih run.2 next).mpr ⟨later, harmless.2⟩⟩
  refine ⟨fun orderly => ?_, exact_iff⟩
  obtain ⟨each, harmless⟩ := exact_iff.mp orderly
  refine ⟨fun entry member _ noneWritten => ?_, harmless⟩
  have ends := each entry member
  rw [DefaultInvariant, noneWritten] at ends
  exact ends

/-- Two served libraries, `main` the default in both copies. -/
def mainDefault : DefaultState where
  file := { libraries := {"main", "beta"}, default := some "main" }
  registry := .serving {"main", "beta"} (some "main")
  validated := []
  written := []

/-- A call that moves the default, from its validation to its reply. -/
def moveDefault : List ((DefaultEvent × DefaultEffect) × DefaultState) :=
  let call : WrittenCall := { name := "beta", previous := some "main" }
  let written : DefaultState :=
    { mainDefault with file := { mainDefault.file with default := some "beta" }, written := [call] }
  [((.validate "beta" none, .quiet), { mainDefault with validated := ["beta"] }),
    ((.writeFile 0 none, .quiet), written),
    ((.refresh 0, .defaultSet "beta"),
      { written with registry := { mainDefault.registry with default := some "beta" }
                     written := [] })]

theorem moveDefault_run : Along DefaultStep mainDefault moveDefault := ⟨rfl, rfl, rfl, trivial⟩

theorem default_agrees_iff_moveDefault :
    (∀ entry ∈ moveDefault, DefaultAgreesAtRest entry.2) ∧
      Along ErrorLeavesFile mainDefault moveDefault := by
  refine (default_agrees_iff rfl rfl moveDefault_run).1 ⟨?_, ?_, ?_, trivial⟩
  · exact fun _ _ _ isRefresh => nomatch isRefresh
  · exact fun _ _ _ isRefresh => nomatch isRefresh
  · intro older call newer isRefresh written
    obtain rfl : older = [] := List.length_eq_zero_iff.mp (DefaultEvent.refresh.inj isRefresh).symm
    cases written
    rw [if_pos (by decide)]
    intro _ last isLast
    cases isLast

/-- The same call with `beta` unmounted between its disk write and its refresh. -/
def moveDefaultUnmounted : List ((DefaultEvent × DefaultEffect) × DefaultState) :=
  let call : WrittenCall := { name := "beta", previous := some "main" }
  let facts : UnmountFacts := { primary := some "main", queuedJobs := 0 }
  let written : DefaultState :=
    { mainDefault with file := { mainDefault.file with default := some "beta" }, written := [call] }
  let unmounted := (written.unmount "beta" facts).2
  [((.validate "beta" none, .quiet), { mainDefault with validated := ["beta"] }),
    ((.writeFile 0 none, .quiet), written),
    ((.unmount "beta" facts, .unmounted "beta"), unmounted),
    ((.refresh 0, .refused (registryErr (.libraryUnknown "beta" unmounted.registry.sortedNames))),
      { unmounted with written := [] })]

/-- **A failed call moves the default on disk**: the refresh finds `beta` unmounted and the call
returns an error, with the disk naming `beta` and the memory `main`. -/
theorem unmounted_before_refresh :
    ¬ ∀ (start : DefaultState) (trace : List ((DefaultEvent × DefaultEffect) × DefaultState)),
      start.written = [] → start.registry.default = start.file.default →
        Along DefaultStep start trace →
          (∀ entry ∈ trace, DefaultAgreesAtRest entry.2) ∧ Along ErrorLeavesFile start trace := by
  intro claim
  have run : Along DefaultStep mainDefault moveDefaultUnmounted := ⟨rfl, rfl, rfl, rfl, trivial⟩
  obtain ⟨agrees, -⟩ := claim mainDefault moveDefaultUnmounted rfl rfl run
  have ends := agrees _ (List.mem_cons_of_mem _ (List.mem_cons_of_mem _ (List.mem_cons_of_mem _
    (List.mem_singleton_self _)))) rfl rfl
  exact absurd ends (by decide)

end Bookrack.Registry
