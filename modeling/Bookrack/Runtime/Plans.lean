/-
Pinned plans: `PlanRegistry` (`runtime/src/control/plan_registry.rs`).

* `register`, `take`, `sweepExpired` on the map of plans; `step` and `pinned` run a history of calls.
  A minted id and a serialized plan are what a call hands in; times are instants.
* `pinned_sound`: a plan of the map was registered before and not handed out since.
* `pinned_of_registered`: a plan that was registered, not handed out and not expired is in the map.
* **`plans_singleUse`**: what the calls of any history return.
-/

import Mathlib.Data.List.Basic
import Mathlib.Data.List.Induction

namespace Bookrack.Runtime

/-! ### The registry -/

/-- `PlanId`. -/
structure PlanId where
  raw : String
  deriving DecidableEq, Repr

/-- `RegisteredPlan`. -/
structure RegisteredPlan where
  kind : String
  library : String
  payload : List UInt8
  expiresAt : Nat
  deriving DecidableEq, Repr

/-- `PlanLookupError`. -/
inductive PlanLookupError
  | notFound
  | expired
  | kindMismatch (expected actual : String)
  | libraryMismatch (expected actual : String)
  deriving DecidableEq, Repr

/-- The map of `PlanRegistry`. -/
abbrev Plans := PlanId → Option RegisteredPlan

namespace Plans

/-- `HashMap::insert`. -/
def insert (id : PlanId) (plan : RegisteredPlan) (plans : Plans) : Plans :=
  fun other => if other = id then some plan else plans other

/-- `HashMap::remove`, without the plan. -/
def remove (id : PlanId) (plans : Plans) : Plans := fun other => if other = id then none else plans other

/-- `retain(|_, p| p.expires_at > now)`. -/
def sweepExpired (now : Nat) (plans : Plans) : Plans :=
  fun id => (plans id).filter fun plan => decide (now < plan.expiresAt)

/-- `PlanRegistry::register`. A plan that does not serialize is refused before an id is minted. -/
def register {ε : Type} (ttl now : Nat) (kind library : String) (plan : Except ε (List UInt8)) (minted : PlanId)
    (plans : Plans) : Except ε PlanId × Plans :=
  match plan with
  | .error error => (.error error, plans)
  | .ok payload => (.ok minted, (plans.sweepExpired now).insert minted ⟨kind, library, payload, now + ttl⟩)

/-- `PlanRegistry::take`. -/
def take (now : Nat) (id : PlanId) (expectedKind expectedLibrary : String) (plans : Plans) :
    Except PlanLookupError (List UInt8) × Plans :=
  match plans id with
  | none => (.error .notFound, plans)
  | some entry =>
    let map := plans.remove id
    if entry.expiresAt ≤ now then (.error .expired, map)
    else if entry.kind ≠ expectedKind then
      (.error (.kindMismatch expectedKind entry.kind), map.insert id entry)
    else if entry.library ≠ expectedLibrary then
      (.error (.libraryMismatch expectedLibrary entry.library), map.insert id entry)
    else (.ok entry.payload, map)

end Plans

namespace Plans

variable {plans : Plans} {id other : PlanId} {plan : RegisteredPlan} {now ttl : Nat} {kind library : String}
  {payload : List UInt8}

theorem insert_same : plans.insert id plan id = some plan := if_pos rfl

theorem insert_other (away : other ≠ id) : plans.insert id plan other = plans other := if_neg away

/-- A plan put back where it was taken from. -/
theorem insert_remove (isPlan : plans id = some plan) : (plans.remove id).insert id plan = plans := by
  funext other
  by_cases same : other = id
  · rw [same, insert_same, isPlan]
  · rw [insert_other same, remove, if_neg same]

theorem sweepExpired_eq_some : plans.sweepExpired now id = some plan ↔ plans id = some plan ∧
    now < plan.expiresAt := by
  simp [sweepExpired, Option.filter_eq_some_iff]

/-- **What a take does**: it leaves the map without the plan, or as it was. -/
theorem take_cases (plans : Plans) (now : Nat) (id : PlanId) (kind library : String) :
    (∃ plan, plans id = some plan ∧ now < plan.expiresAt ∧ plan.kind = kind ∧ plan.library = library ∧
      plans.take now id kind library = (.ok plan.payload, plans.remove id)) ∨
    (∃ plan, plans id = some plan ∧ plan.expiresAt ≤ now ∧
      plans.take now id kind library = (.error .expired, plans.remove id)) ∨
    (∃ error, error ≠ .expired ∧ plans.take now id kind library = (.error error, plans) ∧
      ∀ plan, plans id = some plan → now < plan.expiresAt ∧ ¬ (plan.kind = kind ∧ plan.library = library)) := by
  cases isPlan : plans id with
  | none =>
    refine .inr (.inr ⟨.notFound, nofun, by rw [take, isPlan], nofun⟩)
  | some plan =>
    by_cases expired : plan.expiresAt ≤ now
    · refine .inr (.inl ⟨plan, rfl, expired, ?_⟩)
      simp only [take, isPlan, if_pos expired]
    have live : now < plan.expiresAt := Nat.lt_of_not_le expired
    by_cases sameKind : plan.kind = kind
    · by_cases sameLibrary : plan.library = library
      · refine .inl ⟨plan, rfl, live, sameKind, sameLibrary, ?_⟩
        simp only [take, isPlan, if_neg expired, if_neg (not_not.mpr sameKind), if_neg (not_not.mpr sameLibrary)]
      · refine .inr (.inr ⟨.libraryMismatch library plan.library, nofun, ?_, ?_⟩)
        · simp only [take, isPlan, if_neg expired, if_neg (not_not.mpr sameKind), if_pos sameLibrary,
            insert_remove isPlan]
        · rintro _ ⟨⟩
          exact ⟨live, fun same => sameLibrary same.2⟩
    · refine .inr (.inr ⟨.kindMismatch kind plan.kind, nofun, ?_, ?_⟩)
      · simp only [take, isPlan, if_neg expired, if_pos sameKind, insert_remove isPlan]
      · rintro _ ⟨⟩
        exact ⟨live, fun same => sameKind same.1⟩

theorem remove_eq_some : plans.remove id other = some plan ↔ other ≠ id ∧ plans other = some plan := by
  by_cases same : other = id <;> simp [remove, same]

/-- A take leaves no plan in the map that was not there. -/
theorem take_some (isPlan : (plans.take now id kind library).2 other = some plan) : plans other = some plan := by
  obtain ⟨_, -, -, -, -, isTake⟩ | ⟨_, -, -, isTake⟩ | ⟨_, -, isTake, -⟩ := plans.take_cases now id kind library
  · rw [isTake] at isPlan
    exact (remove_eq_some.mp isPlan).2
  · rw [isTake] at isPlan
    exact (remove_eq_some.mp isPlan).2
  · rw [isTake] at isPlan
    exact isPlan

/-- A take hands out a plan that is in the map, not expired, and of the kind and library asked for. -/
theorem take_ok (handed : (plans.take now id kind library).1 = .ok payload) : ∃ plan, plans id = some plan ∧
    now < plan.expiresAt ∧ plan.kind = kind ∧ plan.library = library ∧ plan.payload = payload ∧
    (plans.take now id kind library).2 = plans.remove id := by
  obtain ⟨plan, isPlan, live, isKind, isLibrary, isTake⟩ | ⟨_, -, -, isTake⟩ | ⟨_, -, isTake, -⟩ :=
    plans.take_cases now id kind library
  · rw [isTake] at handed ⊢
    exact ⟨plan, isPlan, live, isKind, isLibrary, Except.ok.inj handed, rfl⟩
  · rw [isTake] at handed
    cases handed
  · rw [isTake] at handed
    cases handed

/-- A plan that is not expired and not handed out stays in the map. -/
theorem take_keeps (isPlan : plans other = some plan) (live : now < plan.expiresAt)
    (refused : other = id → ∀ payload, (plans.take now id kind library).1 ≠ .ok payload) :
    (plans.take now id kind library).2 other = some plan := by
  obtain ⟨entry, -, -, -, -, isTake⟩ | ⟨entry, isEntry, expired, isTake⟩ | ⟨_, -, isTake, -⟩ :=
    plans.take_cases now id kind library
  · rw [isTake]
    refine remove_eq_some.mpr ⟨fun same => refused same entry.payload ?_, isPlan⟩
    rw [isTake]
  · rw [isTake]
    refine remove_eq_some.mpr ⟨fun same => ?_, isPlan⟩
    obtain rfl := Option.some.inj ((same ▸ isPlan).symm.trans isEntry)
    exact absurd live (Nat.not_lt_of_le expired)
  · rw [isTake]
    exact isPlan

end Plans

/-! ### Histories -/

variable {ε : Type}

/-- One call, with the time it is made at. -/
inductive PlanCall (ε : Type)
  | register (now : Nat) (kind library : String) (plan : Except ε (List UInt8)) (minted : PlanId)
  | take (now : Nat) (id : PlanId) (expectedKind expectedLibrary : String)
  | sweepExpired (now : Nat)
  deriving DecidableEq

/-- What a call returns. -/
inductive PlanAnswer (ε : Type)
  | registered (result : Except ε PlanId)
  | taken (result : Except PlanLookupError (List UInt8))
  | swept

/-- The time of a call. -/
def PlanCall.now : PlanCall ε → Nat
  | register now .. => now
  | take now .. => now
  | sweepExpired now => now

/-- The id a call mints. -/
def PlanCall.minted? : PlanCall ε → Option PlanId
  | register _ _ _ (.ok _) minted => some minted
  | _ => none

/-- One call on the map. -/
def planStep (ttl : Nat) (plans : Plans) : PlanCall ε → PlanAnswer ε × Plans
  | .register now kind library plan minted =>
    let (result, plans) := plans.register ttl now kind library plan minted
    (.registered result, plans)
  | .take now id expectedKind expectedLibrary =>
    let (result, plans) := plans.take now id expectedKind expectedLibrary
    (.taken result, plans)
  | .sweepExpired now => (.swept, plans.sweepExpired now)

/-- The plans after a history. -/
def pinned (ttl : Nat) (calls : List (PlanCall ε)) : Plans :=
  calls.foldl (fun plans call => (planStep ttl plans call).2) fun _ => none

/-- What a call returns behind a history. -/
def planAnswer (ttl : Nat) (calls : List (PlanCall ε)) (call : PlanCall ε) : PlanAnswer ε :=
  (planStep ttl (pinned ttl calls) call).1

/-- What a take returns behind a history. -/
def takeAfter (ttl : Nat) (calls : List (PlanCall ε)) (now : Nat) (id : PlanId) (kind library : String) :
    Except PlanLookupError (List UInt8) := ((pinned ttl calls).take now id kind library).1

/-- The calls are made at times that do not go back, and no id is minted twice. -/
structure PlanHistory (calls : List (PlanCall ε)) : Prop where
  timed : calls.Pairwise fun early late => early.now ≤ late.now
  distinct : (calls.filterMap PlanCall.minted?).Nodup

/-- A plan of the id was handed out. -/
def HandedOut (ttl : Nat) (calls : List (PlanCall ε)) (id : PlanId) : Prop :=
  ∃ before now kind library after payload, calls = before ++ .take now id kind library :: after ∧
    takeAfter ttl before now id kind library = .ok payload

/-- A take refused for its kind or its library. -/
def PlanAnswer.Mismatch : PlanAnswer ε → Prop
  | .taken (.error (.kindMismatch ..)) => True
  | .taken (.error (.libraryMismatch ..)) => True
  | _ => False

/-- What the takes of a history return, and what the other calls leave of the plans. -/
structure SingleUse (ttl : Nat) (calls : List (PlanCall ε)) : Prop where
  /-- What a take returns was registered under its id, its kind and its library, and is not expired. -/
  rightful : ∀ before now id kind library after, calls = before ++ .take now id kind library :: after →
    ∀ payload, takeAfter ttl before now id kind library = .ok payload →
    ∃ since, .register since kind library (.ok payload) id ∈ before ∧ now < since + ttl
  /-- Only one take of an id returns it. -/
  once : ∀ before now id kind library between now' kind' library' after,
    calls = before ++ .take now id kind library :: between ++ .take now' id kind' library' :: after →
    ∀ payload, takeAfter ttl before now id kind library = .ok payload →
    ∀ payload', takeAfter ttl (before ++ .take now id kind library :: between) now' id kind' library' ≠ .ok
      payload'
  /-- Until then, and until it expires, a take that names it does. -/
  available : ∀ before now id kind library after, calls = before ++ .take now id kind library :: after →
    ∀ since payload, .register since kind library (.ok payload) id ∈ before → now < since + ttl →
    ¬ HandedOut ttl before id → takeAfter ttl before now id kind library = .ok payload
  /-- A take refused for its kind or its library changes no later answer. -/
  mismatch : ∀ before refused early call after, calls = before ++ refused :: (early ++ call :: after) →
    (planAnswer ttl before refused).Mismatch →
    planAnswer ttl (before ++ refused :: early) call = planAnswer ttl (before ++ early) call
  /-- A call that is no take drops no plan that is not expired. -/
  unexpired : ∀ before call after, calls = before ++ call :: after →
    (∀ now id kind library, call ≠ .take now id kind library) →
    ∀ id plan, pinned ttl before id = some plan → call.now < plan.expiresAt →
    pinned ttl (before ++ [call]) id = some plan

section History

variable {ttl : Nat} {calls : List (PlanCall ε)} {call : PlanCall ε} {id : PlanId} {plan : RegisteredPlan}

theorem pinned_concat : pinned ttl (calls ++ [call]) = (planStep ttl (pinned ttl calls) call).2 := by
  rw [pinned, List.foldl_append]
  rfl

theorem PlanHistory.before {later : List (PlanCall ε)} (history : PlanHistory (calls ++ later)) :
    PlanHistory calls where
  timed := (List.pairwise_append.mp history.timed).1
  distinct := by
    have distinct := history.distinct
    rw [List.filterMap_append] at distinct
    exact (List.nodup_append.mp distinct).1

theorem handedOut_concat : HandedOut ttl (calls ++ [call]) id ↔ HandedOut ttl calls id ∨
    ∃ now kind library payload, call = .take now id kind library ∧
      takeAfter ttl calls now id kind library = .ok payload := by
  constructor
  · rintro ⟨before, now, kind, library, after, payload, isCalls, handed⟩
    rcases List.eq_nil_or_concat' after with rfl | ⟨init, last, rfl⟩
    · obtain ⟨rfl, same⟩ := List.append_inj' isCalls rfl
      exact .inr ⟨now, kind, library, payload, List.singleton_inj.mp same, handed⟩
    · rw [← List.cons_append, ← List.append_assoc] at isCalls
      obtain ⟨rfl, -⟩ := List.append_inj' isCalls rfl
      exact .inl ⟨before, now, kind, library, init, payload, rfl, handed⟩
  · rintro (⟨before, now, kind, library, after, payload, rfl, handed⟩ | ⟨now, kind, library, payload, rfl,
      handed⟩)
    · exact ⟨before, now, kind, library, after ++ [call], payload, by simp, handed⟩
    · exact ⟨calls, now, kind, library, [], payload, rfl, handed⟩

/-- **A plan of the map was registered before.** -/
theorem pinned_registered (isPlan : pinned ttl calls id = some plan) :
    ∃ since, .register since plan.kind plan.library (.ok plan.payload) id ∈ calls ∧
      plan.expiresAt = since + ttl := by
  induction calls using List.reverseRecOn with
  | nil => cases isPlan
  | append_singleton calls call ih =>
    rw [pinned_concat] at isPlan
    have earlier : pinned ttl calls id = some plan → ∃ since,
        .register since plan.kind plan.library (.ok plan.payload) id ∈ calls ++ [call] ∧
          plan.expiresAt = since + ttl := by
      intro wasPlan
      obtain ⟨since, member, expires⟩ := ih wasPlan
      exact ⟨since, List.mem_append_left _ member, expires⟩
    cases call with
    | register now kind library result minted =>
      cases result with
      | error error => exact earlier isPlan
      | ok payload =>
        by_cases fresh : id = minted
        · subst fresh
          obtain rfl := Option.some.inj (Plans.insert_same.symm.trans isPlan)
          exact ⟨now, List.mem_append_right _ (List.mem_singleton.mpr rfl), rfl⟩
        · exact earlier (Plans.sweepExpired_eq_some.mp ((Plans.insert_other fresh).symm.trans isPlan)).1
    | take now taken kind library => exact earlier (Plans.take_some isPlan)
    | sweepExpired now => exact earlier (Plans.sweepExpired_eq_some.mp isPlan).1

/-- A plan that was handed out had been minted. -/
theorem HandedOut.minted (handed : HandedOut ttl calls id) : id ∈ calls.filterMap PlanCall.minted? := by
  obtain ⟨before, now, kind, library, after, payload, rfl, handed⟩ := handed
  obtain ⟨plan, isPlan, -⟩ := Plans.take_ok handed
  obtain ⟨since, member, -⟩ := pinned_registered isPlan
  exact List.mem_filterMap.mpr ⟨_, List.mem_append_left _ member, rfl⟩

theorem PlanHistory.fresh {now : Nat} {kind library : String} {payload : List UInt8}
    (history : PlanHistory (calls ++ [.register now kind library (.ok payload) id])) :
    id ∉ calls.filterMap PlanCall.minted? := by
  have distinct := history.distinct
  rw [List.filterMap_append, List.nodup_append] at distinct
  exact fun member => distinct.2.2 id member id (by simp [PlanCall.minted?]) rfl

/-- **A plan of the map was not handed out.** -/
theorem pinned_not_handedOut (history : PlanHistory calls) (isPlan : pinned ttl calls id = some plan) :
    ¬ HandedOut ttl calls id := by
  induction calls using List.reverseRecOn with
  | nil => cases isPlan
  | append_singleton calls call ih =>
    rw [pinned_concat] at isPlan
    rw [handedOut_concat]
    rintro (handed | ⟨now, kind, library, payload, rfl, handed⟩)
    · have earlier : pinned ttl calls id ≠ some plan := fun wasPlan => ih history.before wasPlan handed
      cases call with
      | register now kind library result minted =>
        cases result with
        | error error => exact earlier isPlan
        | ok payload =>
          by_cases fresh : id = minted
          · subst fresh
            exact history.fresh handed.minted
          · exact earlier (Plans.sweepExpired_eq_some.mp ((Plans.insert_other fresh).symm.trans isPlan)).1
      | take now taken kind library => exact earlier (Plans.take_some isPlan)
      | sweepExpired now => exact earlier (Plans.sweepExpired_eq_some.mp isPlan).1
    · obtain ⟨_, -, -, -, -, -, isMap⟩ := Plans.take_ok handed
      have removed : (pinned ttl calls).remove id id = some plan := isMap ▸ isPlan
      exact (Plans.remove_eq_some.mp removed).1 rfl

/-- **A plan that was registered and not handed out is in the map until it expires.** -/
theorem pinned_of_registered (history : PlanHistory calls) {since now : Nat} {kind library : String}
    {payload : List UInt8} (member : .register since kind library (.ok payload) id ∈ calls)
    (kept : ¬ HandedOut ttl calls id) (past : ∀ call ∈ calls, call.now ≤ now) (live : now < since + ttl) :
    pinned ttl calls id = some ⟨kind, library, payload, since + ttl⟩ := by
  induction calls using List.reverseRecOn with
  | nil => cases member
  | append_singleton calls call ih =>
    rw [handedOut_concat, not_or] at kept
    rw [pinned_concat]
    have pastCall : call.now < since + ttl :=
      Nat.lt_of_le_of_lt (past call (List.mem_append_right _ (List.mem_singleton.mpr rfl))) live
    have earlier (before : .register since kind library (.ok payload) id ∈ calls) :
        pinned ttl calls id = some ⟨kind, library, payload, since + ttl⟩ :=
      ih history.before before kept.1 fun other isOther => past other (List.mem_append_left _ isOther)
    rcases List.mem_append.mp member with before | isLast
    · cases call with
      | register now' kind' library' result minted =>
        cases result with
        | error error => exact earlier before
        | ok payload' =>
          have fresh : id ≠ minted := by
            rintro rfl
            exact history.fresh (List.mem_filterMap.mpr ⟨_, before, rfl⟩)
          exact (Plans.insert_other fresh).trans (Plans.sweepExpired_eq_some.mpr ⟨earlier before, pastCall⟩)
      | take now' taken kind' library' =>
        refine Plans.take_keeps (earlier before) pastCall ?_
        rintro rfl payload' handed
        exact kept.2 ⟨now', kind', library', payload', rfl, handed⟩
      | sweepExpired now' => exact Plans.sweepExpired_eq_some.mpr ⟨earlier before, pastCall⟩
    · obtain rfl := List.mem_singleton.mp isLast
      exact Plans.insert_same

/-- A refused take leaves the map as it was. -/
theorem planStep_mismatch {plans : Plans} (refused : (planStep ttl plans call).1.Mismatch) :
    (planStep ttl plans call).2 = plans := by
  cases call with
  | register now kind library result minted => cases refused
  | sweepExpired now => cases refused
  | take now id kind library =>
    obtain ⟨_, -, -, -, -, isTake⟩ | ⟨_, -, -, isTake⟩ | ⟨_, -, isTake, -⟩ :=
      plans.take_cases now id kind library
    · rw [planStep, isTake] at refused
      cases refused
    · rw [planStep, isTake] at refused
      cases refused
    · rw [planStep, isTake]

end History

/-- **Pinned plans are single-use and scoped**, in every history of calls. -/
theorem plans_singleUse (ttl : Nat) (calls : List (PlanCall ε)) (history : PlanHistory calls) :
    SingleUse ttl calls where
  rightful before now id kind library after isCalls payload handed := by
    obtain ⟨plan, isPlan, live, rfl, rfl, rfl, -⟩ := Plans.take_ok handed
    obtain ⟨since, member, expires⟩ := pinned_registered isPlan
    exact ⟨since, member, expires ▸ live⟩
  once before now id kind library between now' kind' library' after isCalls payload handed payload' again := by
    rw [isCalls] at history
    obtain ⟨plan, isPlan, -⟩ := Plans.take_ok again
    exact pinned_not_handedOut history.before isPlan
      ⟨before, now, kind, library, between, payload, rfl, handed⟩
  available before now id kind library after isCalls since payload member live kept := by
    rw [isCalls] at history
    have past : ∀ call ∈ before, call.now ≤ now := fun call isCall =>
      (List.pairwise_append.mp history.timed).2.2 call isCall _ List.mem_cons_self
    have isPlan := pinned_of_registered history.before member kept past live
    simp only [takeAfter, Plans.take, isPlan, if_neg (Nat.not_le_of_lt live), ne_eq, not_true_eq_false, if_false]
  mismatch before refused early call after isCalls isRefused := by
    have same : pinned ttl (before ++ refused :: early) = pinned ttl (before ++ early) := by
      have kept := planStep_mismatch isRefused
      rw [pinned, pinned, List.foldl_append, List.foldl_append, List.foldl_cons]
      exact congrArg (early.foldl _) kept
    rw [planAnswer, planAnswer, same]
  unexpired before call after isCalls notTake id plan isPlan live := by
    rw [pinned_concat]
    cases call with
    | take now id kind library => exact absurd rfl (notTake now id kind library)
    | sweepExpired now => exact Plans.sweepExpired_eq_some.mpr ⟨isPlan, live⟩
    | register now kind library result minted =>
      cases result with
      | error error => exact isPlan
      | ok payload =>
        rw [isCalls] at history
        obtain ⟨since, member, -⟩ := pinned_registered isPlan
        have fresh : id ≠ minted := by
          rintro rfl
          rw [← List.singleton_append, ← List.append_assoc] at history
          exact history.before.fresh (List.mem_filterMap.mpr ⟨_, member, rfl⟩)
        exact (Plans.insert_other fresh).trans (Plans.sweepExpired_eq_some.mpr ⟨isPlan, live⟩)

/-- A plan asked for under another kind, then handed out, then asked for again. -/
def rebuildCalls : List (PlanCall Unit) :=
  [.register 5 "corpus.rebuild" "main" (.ok [123, 125]) ⟨"plan_1"⟩,
    .take 7 ⟨"plan_1"⟩ "vectors.reembed" "main",
    .sweepExpired 8,
    .take 9 ⟨"plan_1"⟩ "corpus.rebuild" "main",
    .take 9 ⟨"plan_1"⟩ "corpus.rebuild" "main"]

theorem plans_singleUse_rebuildCalls : SingleUse 900 rebuildCalls :=
  plans_singleUse 900 rebuildCalls ⟨by decide, by decide⟩

end Bookrack.Runtime
