/-
The in-process library registry (`ops/src/registry.rs`) and the daemon-side capability that changes
its mounted set (`runtime/src/mount.rs`).

A handle is known by its name, and a lock is never poisoned. Opening a library's stores is outside
the model: `Mounter.mount` takes its result as an argument.
-/

import Bookrack.Core.Problem
import Mathlib.Data.Finset.Sort
import Mathlib.Data.String.Basic

namespace Bookrack.Registry

/-! ### Refusals -/

/-- `RegistryError`. -/
inductive RegistryError
  | libraryUnknown (name : String) (available : List String)
  | empty
  | alreadyMounted (name : String)
  | unnamedAmbiguous (mounted : List String) (default : Option String)
  | libraryUnmounted (name : String) (reason : Problem)
  deriving DecidableEq, Repr

/-- What an unserved library's refusal reports of the recorded reason. -/
def skipDetail (reason : Problem) : String :=
  match reason.data.detail with
  | some detail => "Bring-up skipped it: " ++ reason.summary ++ ". " ++ detail
  | none => "Bring-up skipped it: " ++ reason.summary ++ "."

/-- `RegistryError::explain`. -/
def RegistryError.explain : RegistryError → Problem
  | .libraryUnknown name available =>
    let problem := Problem.new ("no library named " ++ debugText name)
    if available = [] then problem.hint "Register one with `bookrack libraries register`."
    else problem.hint ("Use one of: " ++ String.intercalate ", " available ++ ".")
  | .empty =>
    (Problem.new "the library registry is empty").hint
      "Register a library with `bookrack libraries register`."
  | .alreadyMounted name =>
    (Problem.new ("a library named " ++ debugText name ++ " is already mounted")).hint
      "It is already being served, so there is nothing to mount."
  | .libraryUnmounted name reason =>
    ((Problem.new ("library " ++ debugText name ++ " is registered but not mounted")).detail
      (skipDetail reason)).hint
      (reason.data.hint.getD ("Run `bookrack libraries mount " ++ name ++ "`."))
  | .unnamedAmbiguous mounted default =>
    let pointer :=
      match default with
      | some name => "The registry default " ++ debugText name ++ " is not mounted."
      | none => "The registry names no default."
    ((Problem.new "cannot tell which library a call naming none is for").detail
      ("Mounted libraries: " ++ String.intercalate ", " mounted ++ ". " ++ pointer)).hint
      ("Name one with `--library <name>` on the command line, or pass the "
        ++ "`library` argument over MCP.")

/-- `from_registry`: the wire code of a registry refusal. -/
def RegistryError.code : RegistryError → Int
  | .libraryUnknown .. | .unnamedAmbiguous .. | .libraryUnmounted .. => invalidLibrary
  | .empty => invalidParams
  | .alreadyMounted .. => internalError

/-- `registry_err`. -/
def registryErr (error : RegistryError) : RpcError := rpcFromProblem error.code error.explain

/-! ### The registry -/

/-- The two tables and the default pointer. A name is in at most one of the tables. -/
structure LibraryRegistry where
  mounted : Finset String
  unmounted : String → Option Problem
  default : Option String
  apart : ∀ name ∈ mounted, unmounted name = none

/-- A registry that serves `mounted` and records no other library. -/
def LibraryRegistry.serving (mounted : Finset String) (default : Option String) :
    LibraryRegistry where
  mounted
  unmounted := fun _ => none
  default
  apart := fun _ _ => rfl

/-- Names as the errors list them. -/
def sortNames (names : Finset String) : List String := names.sort (· ≤ ·)

/-- `sorted_names` of the mounted set. -/
def LibraryRegistry.sortedNames (registry : LibraryRegistry) : List String :=
  sortNames registry.mounted

/-- `unnamed_route`: the default when it is mounted, the only mounted library when no default is
declared. -/
def LibraryRegistry.unnamedRoute (registry : LibraryRegistry) : Except RegistryError String :=
  match registry.default, registry.sortedNames with
  | some name, names =>
    if name ∈ registry.mounted then .ok name
    else if names = [] then .error .empty
    else .error (.unnamedAmbiguous names (some name))
  | none, [] => .error .empty
  | none, [only] => .ok only
  | none, names => .error (.unnamedAmbiguous names none)

/-- `LibraryRegistry::get`. -/
def LibraryRegistry.get (registry : LibraryRegistry) : Option String → Except RegistryError String
  | none => registry.unnamedRoute
  | some name =>
    if name ∈ registry.mounted then .ok name
    else
      match registry.unmounted name with
      | some reason => .error (.libraryUnmounted name reason)
      | none => .error (.libraryUnknown name registry.sortedNames)

/-- `LibraryRegistry::set_default`. -/
def LibraryRegistry.setDefault (registry : LibraryRegistry) (name : String) :
    Except RegistryError LibraryRegistry :=
  if name ∈ registry.mounted then .ok { registry with default := some name }
  else .error (.libraryUnknown name registry.sortedNames)

/-- `LibraryRegistry::mount`: clears any record of the library as not served. -/
def LibraryRegistry.mount (registry : LibraryRegistry) (name : String) :
    Except RegistryError LibraryRegistry :=
  if name ∈ registry.mounted then .error (.alreadyMounted name)
  else .ok
    { mounted := insert name registry.mounted
      unmounted := fun other => if other = name then none else registry.unmounted other
      default := registry.default
      apart := by
        intro other member
        split
        · rfl
        · rename_i different
          exact registry.apart other ((Finset.mem_insert.mp member).resolve_left different) }

/-- `LibraryRegistry::record_unmounted`. -/
def LibraryRegistry.recordUnmounted (registry : LibraryRegistry) (name : String)
    (reason : Problem) : Except RegistryError LibraryRegistry :=
  if served : name ∈ registry.mounted then .error (.alreadyMounted name)
  else .ok
    { registry with
      unmounted := fun other => if other = name then some reason else registry.unmounted other
      apart := by
        intro other member
        rw [if_neg (by rintro rfl; exact served member)]
        exact registry.apart other member }

/-- `LibraryRegistry::unmount`. -/
def LibraryRegistry.unmount (registry : LibraryRegistry) (name : String) :
    Except RegistryError LibraryRegistry :=
  if name ∈ registry.mounted then .ok
    { registry with
      mounted := registry.mounted.erase name
      apart := fun other member => registry.apart other (Finset.mem_of_mem_erase member) }
  else .error (.libraryUnknown name registry.sortedNames)

/-- A named lookup succeeds exactly for the served libraries. -/
theorem get_isOk (registry : LibraryRegistry) (name : String) :
    (registry.get (some name)).toOption.isSome ↔ name ∈ registry.mounted := by
  unfold LibraryRegistry.get
  by_cases served : name ∈ registry.mounted
  · simp [served, Except.toOption]
  · simp only [served, if_false, iff_false]
    cases registry.unmounted name <;> simp [Except.toOption]

theorem get_mounted {registry : LibraryRegistry} {name : String} (served : name ∈ registry.mounted) :
    registry.get (some name) = .ok name := by
  simp [LibraryRegistry.get, served]

theorem get_ok {registry : LibraryRegistry} {name found : String}
    (ok : registry.get (some name) = .ok found) : found = name ∧ name ∈ registry.mounted := by
  have served : name ∈ registry.mounted := (get_isOk registry name).mp (by rw [ok]; rfl)
  rw [get_mounted served] at ok
  exact ⟨(Except.ok.inj ok).symm, served⟩

/-! ### Changing the mounted set -/

/-- `UnmountFacts`: what an unmount has to know about the daemon around it. -/
structure UnmountFacts where
  primary : Option String
  queuedJobs : Nat
  deriving DecidableEq, Repr

/-- Why a runtime unmount was refused. -/
inductive MountRefusal
  | registry (error : RegistryError)
  | refused (library : String) (problem : Problem)
  deriving DecidableEq, Repr

/-- `unmount_err`. -/
def unmountErr : MountRefusal → RpcError
  | .registry error => registryErr error
  | .refused _ problem => rpcFromProblem invalidParams problem

/-- The refusal of the library the daemon came up under. -/
def primaryProblem : Problem :=
  ((Problem.new "cannot unmount the library the daemon came up under").detail
    ("The daemon's identity — what `bookrack status` reports as its library and data root — is "
      ++ "fixed at bring-up, so unmounting this one would leave the status card describing a "
      ++ "library that is no longer served.")).hint
    ("Stop the daemon with `bookrack quit` and start it under another library; changing which "
      ++ "library a daemon is identified by means changing the daemon.")

/-- The refusal of the last mounted library. -/
def lastMountedProblem : Problem :=
  ((Problem.new "cannot unmount the last mounted library").detail
    ("A daemon serves at least one library; with this one gone it would answer for none.")).hint
    ("Use `bookrack quit` to stop the daemon, or mount another library first with "
      ++ "`bookrack libraries mount <name>`.")

/-- The refusal of a library with queued work. -/
def queuedWorkProblem (queued : Nat) : Problem :=
  ((Problem.new "cannot unmount a library with queued work").detail
    (toString queued ++ " job(s) against this library are pending or running; each would fail on "
      ++ "its next pull once the library stops being served.")).hint
    ("Wait for the queue to drain, or drop the pending jobs with `bookrack queue clear`, then "
      ++ "unmount.")

/-- `Mounter::unmount`: the name is resolved before any of the three guards is asked. -/
def Mounter.unmount (registry : LibraryRegistry) (name : String) (facts : UnmountFacts) :
    Except MountRefusal LibraryRegistry :=
  match registry.get (some name) with
  | .error error => .error (.registry error)
  | .ok _ =>
    if facts.primary = some name then .error (.refused name primaryProblem)
    else if registry.mounted.card = 1 then .error (.refused name lastMountedProblem)
    else if 0 < facts.queuedJobs then
      .error (.refused name (queuedWorkProblem facts.queuedJobs))
    else
      match registry.unmount name with
      | .ok after => .ok after
      | .error error => .error (.registry error)

/-- `Mounter::mount`; `bringUp` is the refusal the checks and the opening of the library's stores
ended in, if they did. -/
def Mounter.mount (registry : LibraryRegistry) (name : String) (bringUp : Option RpcError) :
    Except RpcError LibraryRegistry :=
  if name ∈ registry.mounted then .error (registryErr (.alreadyMounted name))
  else
    match bringUp with
    | some error => .error error
    | none =>
      match registry.mount name with
      | .ok after => .ok after
      | .error error => .error (registryErr error)

/-- **When an unmount goes through**: the library is served, it is neither the primary nor the last
one, and no job against it was counted. It then takes exactly that name out. -/
theorem mounterUnmount_ok_iff {registry after : LibraryRegistry} {name : String}
    {facts : UnmountFacts} :
    Mounter.unmount registry name facts = .ok after ↔
      name ∈ registry.mounted ∧ facts.primary ≠ some name ∧ registry.mounted.card ≠ 1 ∧
        facts.queuedJobs = 0 ∧ registry.unmount name = .ok after := by
  unfold Mounter.unmount
  by_cases served : name ∈ registry.mounted
  · rw [get_mounted served]
    by_cases isPrimary : facts.primary = some name
    · simp [isPrimary]
    · by_cases isLast : registry.mounted.card = 1
      · simp [isPrimary, isLast]
      · by_cases queued : 0 < facts.queuedJobs
        · simp [isPrimary, isLast, queued, Nat.ne_of_gt queued]
        · cases removed : registry.unmount name <;>
            simp [isPrimary, isLast, served, Nat.eq_zero_of_not_pos queued]
  · cases found : registry.get (some name) with
    | ok handle => exact absurd (get_ok found).2 served
    | error error => simp [served]

theorem unmount_mounted {registry after : LibraryRegistry} {name : String}
    (removed : registry.unmount name = .ok after) : after.mounted = registry.mounted.erase name := by
  unfold LibraryRegistry.unmount at removed
  split at removed
  · cases removed
    rfl
  · cases removed

/-- A runtime mount only adds to the served set. -/
theorem mounterMount_mounted {registry after : LibraryRegistry} {name : String}
    {bringUp : Option RpcError} (mounts : Mounter.mount registry name bringUp = .ok after) :
    after.mounted = insert name registry.mounted ∧ after.default = registry.default := by
  unfold Mounter.mount LibraryRegistry.mount at mounts
  split at mounts
  · cases mounts
  · cases bringUp with
    | some error => cases mounts
    | none =>
      cases mounts
      exact ⟨rfl, rfl⟩

end Bookrack.Registry
