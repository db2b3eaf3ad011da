import Mathlib.Logic.Function.Basic
import OpenGameAgent.Delegation.RunProtocol

/-!
# The active runs of a delegation manager

Any number of calls on any number of managers, in any interleaving; the delegation service,
the runtime and the host answer as they like.

A run registers its entry under the key of its delegation and removes in its `finally` block
whatever stands under that key.  So a second run of one delegation may replace or remove the
entry of the first.

* `RunsApart` — a run registers where nothing is registered, and ends where nothing of
  another run is.
* `manager_tracks_active_runs` — while that is so, the manager knows exactly its live runs.
-/

namespace OpenGameAgent

/-- Managers that share nothing but their surroundings. -/
def managerMachine (options : Nat → DelegationManagerOptions) :
    Machine DelegationEffect DelegationAnswer where
  State := Nat → DelegationManager
  Caller := Nat
  Method := DelegationMethod
  body number method := method.body (options number)
  perform managers number e proposal :=
    (((managers number).perform (options number).limits e proposal).1,
      Function.update managers number
        ((managers number).perform (options number).limits e proposal).2)

abbrev ManagerConfig (options : Nat → DelegationManagerOptions) :=
  Config (managerMachine options) DelegationPhase

/-- New managers. -/
def ManagerConfig.start (options : Nat → DelegationManagerOptions) : ManagerConfig options :=
  ⟨fun _ => .empty, []⟩

/-- The active run made the object under the key. -/
def DelegationPhase.made (key : DelegationKey) (object : Nat) : DelegationPhase → Bool
  | .registered own _ number => own = key && number = object
  | .outside | .reserved | .claimed _ _ => false

/-- The condition on a step: a run registers its entry where no run of its delegation or with
its input is registered, and a run that ends finds its own entry or none under its key. -/
def RunsApart (managers : Nat → DelegationManager) (number : Nat) (phase : DelegationPhase) :
    DelegationEffect → Prop
  | .register key _ input =>
    (managers number).active.get? key = none ∧
      ∀ active ∈ (managers number).active.values,
        active.input.same input.sessionId input.actorId input.inputId = false
  | .finish key _ =>
    ∀ active ∈ (managers number).active.get? key, phase.made key active.number = true
  | _ => True

instance decidableRunsApart (managers : Nat → DelegationManager) (number : Nat)
    (phase : DelegationPhase) (e : DelegationEffect) :
    Decidable (RunsApart managers number phase e) := by
  unfold RunsApart
  cases e <;> infer_instance

instance {options : Nat → DelegationManagerOptions} (c : ManagerConfig options)
    (labels : List (Label (managerMachine options))) :
    Decidable (c.RunMeets delegationObserver RunsApart labels) :=
  @Config.decidableRunMeets _ _ _ _ _ RunsApart decidableRunsApart c labels

/-! ## The invariant of one manager -/

/-- Does a call on the manager see its run in such a phase? -/
def inPhase (number : Nat) (test : DelegationPhase → Bool) (call : Nat × DelegationPhase) : Bool :=
  call.1 = number && test call.2

@[simp] theorem inPhase_own (number : Nat) (test : DelegationPhase → Bool)
    (phase : DelegationPhase) : inPhase number test (number, phase) = test phase := by
  simp [inPhase]

theorem inPhase_other {number caller : Nat} (h : caller ≠ number) (test : DelegationPhase → Bool)
    (phase : DelegationPhase) : inPhase number test (caller, phase) = false := by
  simp [inPhase, h]

/-- The run of the `i`-th call is active on the manager. -/
def Active (roster : List (Nat × DelegationPhase)) (number i : Nat) (key : DelegationKey)
    (delivery : DelegationDelivery) (object : Nat) : Prop :=
  roster[i]? = some (number, DelegationPhase.registered key delivery object)

/-- What a manager knows of the calls on it. -/
structure Tracked (limits : DelegationLimits) (number : Nat) (manager : DelegationManager)
    (roster : List (Nat × DelegationPhase)) : Prop where
  bounded : (manager.active.entries.length : Int) + manager.starting ≤ limits.maxActiveRuns
  active : manager.active.entries.length = roster.countP (inPhase number DelegationPhase.active)
  starting : manager.starting = roster.countP (inPhase number DelegationPhase.starting)
  entry : ∀ i key delivery object, Active roster number i key delivery object →
    ∃ handle, manager.active.get? key = some ⟨object, delivery, handle, toInput delivery.record⟩
  fresh : ∀ i key delivery object, Active roster number i key delivery object →
    object < manager.numbered
  distinct : ∀ i j key key' delivery delivery' object, Active roster number i key delivery object →
    Active roster number j key' delivery' object → i = j
  inputs : ∀ key key' a b, manager.active.get? key = some a → manager.active.get? key' = some b →
    a.input.same b.input.sessionId b.input.actorId b.input.inputId = true → key = key'

section Tracked

variable {limits : DelegationLimits} {number i : Nat} {manager : DelegationManager}
  {roster : List (Nat × DelegationPhase)} {phase phase' : DelegationPhase}

/-- Counting calls when one of them moves on. -/
theorem countP_set_add (test : Nat × DelegationPhase → Bool) {a : Nat × DelegationPhase}
    (h : roster[i]? = some a) (b : Nat × DelegationPhase) :
    (roster.set i b).countP test + (if test a then 1 else 0) =
      roster.countP test + if test b then 1 else 0 := by
  obtain ⟨hlt, ha⟩ := List.getElem?_eq_some_iff.1 h
  rw [List.countP_set hlt, ha]
  have hpos : (if test a then 1 else 0) ≤ roster.countP test := by
    split
    · rename_i htest
      exact List.countP_pos_iff.2 ⟨a, List.mem_of_getElem? h, htest⟩
    · exact Nat.zero_le _
  omega

/-- The other calls when one of them moves on. -/
theorem active_set {a b : Nat × DelegationPhase} {j : Nat} {key : DelegationKey}
    {delivery : DelegationDelivery} {object : Nat} (hi : roster[i]? = some a)
    (h : Active (roster.set i b) number j key delivery object) :
    (i = j ∧ b = (number, .registered key delivery object)) ∨
      (i ≠ j ∧ Active roster number j key delivery object) := by
  obtain ⟨hlt, -⟩ := List.getElem?_eq_some_iff.1 hi
  unfold Active at h
  rw [List.getElem?_set] at h
  split at h
  · rename_i hij
    exact Or.inl ⟨hij, Option.some.inj h⟩
  · rename_i hij
    exact Or.inr ⟨hij, h⟩

/-- The entries stay and no run becomes active. -/
theorem Tracked.of_active (h : Tracked limits number manager roster) {starting : Int}
    {calls : List (Nat × DelegationPhase)}
    (hbounded : (manager.active.entries.length : Int) + starting ≤ limits.maxActiveRuns)
    (hactive : manager.active.entries.length =
      calls.countP (inPhase number DelegationPhase.active))
    (hstarting : starting = calls.countP (inPhase number DelegationPhase.starting))
    (hkeep : ∀ j key delivery object, Active calls number j key delivery object →
      Active roster number j key delivery object) :
    Tracked limits number { manager with starting } calls where
  bounded := hbounded
  active := hactive
  starting := hstarting
  entry := fun j _ _ _ hj => h.entry j _ _ _ (hkeep j _ _ _ hj)
  fresh := fun j _ _ _ hj => h.fresh j _ _ _ (hkeep j _ _ _ hj)
  distinct := fun j k _ _ _ _ _ hj hk =>
    h.distinct j k _ _ _ _ _ (hkeep j _ _ _ hj) (hkeep k _ _ _ hk)
  inputs := h.inputs

/-- A call moves on and no run starts or stops being active on the manager. -/
theorem Tracked.of_kept (h : Tracked limits number manager roster) {a b : Nat × DelegationPhase}
    (hi : roster[i]? = some a)
    (hactive : inPhase number DelegationPhase.active b = false)
    (hactive' : inPhase number DelegationPhase.active a = false)
    (hstarting : inPhase number DelegationPhase.starting b =
      inPhase number DelegationPhase.starting a) :
    Tracked limits number manager (roster.set i b) := by
  have hkeep : ∀ j key delivery object, Active (roster.set i b) number j key delivery object →
      Active roster number j key delivery object := by
    intro j key delivery object hj
    rcases active_set hi hj with ⟨-, rfl⟩ | ⟨-, hj⟩
    · simp [inPhase, DelegationPhase.active] at hactive
    · exact hj
  have hcount := countP_set_add (inPhase number DelegationPhase.active) hi b
  have hcount' := countP_set_add (inPhase number DelegationPhase.starting) hi b
  rw [hactive, hactive'] at hcount
  rw [hstarting] at hcount'
  have hcounted := h.active
  have hstarted := h.starting
  exact h.of_active h.bounded (by omega) (by omega) hkeep

theorem set_self {a : Nat × DelegationPhase} (hi : roster[i]? = some a) :
    roster.set i a = roster := by
  obtain ⟨hlt, ha⟩ := List.getElem?_eq_some_iff.1 hi
  rw [← ha, List.set_getElem_self]

/-- A starting run registers its entry. -/
theorem Tracked.register (h : Tracked limits number manager roster) {key : DelegationKey}
    {delivery : DelegationDelivery}
    (hi : roster[i]? = some (number, .claimed key delivery))
    (hkey : manager.active.get? key = none)
    (hinput : ∀ active ∈ manager.active.values, active.input.same (toInput delivery.record).sessionId
      (toInput delivery.record).actorId (toInput delivery.record).inputId = false) :
    Tracked limits number
      { active := manager.active.set key ⟨manager.numbered, delivery, none, toInput delivery.record⟩
        starting := manager.starting - 1
        numbered := manager.numbered + 1 }
      (roster.set i (number, .registered key delivery manager.numbered)) := by
  have hlength := OrderedMap.length_set_of_get?_eq_none hkey
    (⟨manager.numbered, delivery, none, toInput delivery.record⟩ : ActiveRun)
  have hcount := countP_set_add (inPhase number DelegationPhase.active) hi
    (number, .registered key delivery manager.numbered)
  have hcount' := countP_set_add (inPhase number DelegationPhase.starting) hi
    (number, .registered key delivery manager.numbered)
  simp only [inPhase_own, DelegationPhase.active, DelegationPhase.starting, Bool.false_eq_true,
    if_true, if_false] at hcount hcount'
  have hbounded := h.bounded
  have hactive := h.active
  have hstarting := h.starting
  constructor
  case bounded =>
    dsimp only
    omega
  case active =>
    dsimp only
    omega
  case starting =>
    dsimp only
    omega
  case entry =>
    intro j key' delivery' object hj
    rcases active_set hi hj with ⟨-, hc⟩ | ⟨-, hj⟩
    · obtain ⟨rfl, rfl, rfl⟩ := DelegationPhase.registered.inj (Prod.mk.inj hc).2
      exact ⟨none, OrderedMap.get?_set_self _ _ _⟩
    · obtain ⟨handle, hentry⟩ := h.entry j key' delivery' object hj
      have hne : key ≠ key' := by
        rintro rfl
        rw [hkey] at hentry
        cases hentry
      exact ⟨handle, (OrderedMap.get?_set_of_ne _ hne _).trans hentry⟩
  case fresh =>
    intro j key' delivery' object hj
    rcases active_set hi hj with ⟨-, hc⟩ | ⟨-, hj⟩
    · obtain ⟨rfl, rfl, rfl⟩ := DelegationPhase.registered.inj (Prod.mk.inj hc).2
      exact Nat.lt_succ_self _
    · exact Nat.lt_succ_of_lt (h.fresh j key' delivery' object hj)
  case distinct =>
    intro j k key' key'' delivery' delivery'' object hj hk
    rcases active_set hi hj with ⟨hij, hc⟩ | ⟨-, hj⟩ <;>
      rcases active_set hi hk with ⟨hik, hc'⟩ | ⟨-, hk⟩
    · exact hij.symm.trans hik
    · obtain ⟨rfl, rfl, rfl⟩ := DelegationPhase.registered.inj (Prod.mk.inj hc).2
      exact absurd (h.fresh k _ _ _ hk) (Nat.lt_irrefl _)
    · obtain ⟨rfl, rfl, rfl⟩ := DelegationPhase.registered.inj (Prod.mk.inj hc').2
      exact absurd (h.fresh j _ _ _ hj) (Nat.lt_irrefl _)
    · exact h.distinct j k _ _ _ _ _ hj hk
  case inputs =>
    intro key' key'' a b ha hb hsame
    dsimp only at ha hb
    rw [OrderedMap.get?_set] at ha hb
    split at ha <;> split at hb
    · rename_i hk hk'
      exact hk.symm.trans hk'
    · rw [Option.some.injEq] at ha
      subst ha
      have hother := hinput b (OrderedMap.mem_values.2 ⟨_, hb⟩)
      unfold DelegatedInput.same at hother hsame
      simp only [Bool.and_eq_true, decide_eq_true_eq] at hsame
      simp [hsame] at hother
    · rw [Option.some.injEq] at hb
      subst hb
      rw [hinput a (OrderedMap.mem_values.2 ⟨_, ha⟩)] at hsame
      cases hsame
    · exact h.inputs _ _ _ _ ha hb hsame

/-- A new call comes in. -/
theorem Tracked.call (h : Tracked limits number manager roster) (caller : Nat) :
    Tracked limits number manager (roster ++ [(caller, .outside)]) := by
  have hkeep : ∀ j key delivery object,
      Active (roster ++ [(caller, .outside)]) number j key delivery object →
      Active roster number j key delivery object := by
    intro j key delivery object hj
    unfold Active at hj ⊢
    rw [List.getElem?_append] at hj
    split at hj
    · exact hj
    · have hmem := List.mem_of_getElem? hj
      simp at hmem
  refine h.of_active h.bounded ?_ ?_ hkeep
  · rw [h.active, List.countP_append]
    simp [inPhase, DelegationPhase.active]
  · rw [h.starting, List.countP_append]
    simp [inPhase, DelegationPhase.starting]

/-- A run reserves its place. -/
theorem Tracked.reserve (h : Tracked limits number manager roster)
    (hi : roster[i]? = some (number, .outside))
    (hplace : (manager.active.entries.length : Int) + manager.starting < limits.maxActiveRuns) :
    Tracked limits number { manager with starting := manager.starting + 1 }
      (roster.set i (number, .reserved)) := by
  have hcount := countP_set_add (inPhase number DelegationPhase.active) hi (number, .reserved)
  have hcount' := countP_set_add (inPhase number DelegationPhase.starting) hi (number, .reserved)
  simp only [inPhase_own, DelegationPhase.active, DelegationPhase.starting, Bool.false_eq_true,
    if_true, if_false] at hcount hcount'
  have hkeep : ∀ j key delivery object,
      Active (roster.set i (number, .reserved)) number j key delivery object →
      Active roster number j key delivery object := by
    intro j key delivery object hj
    rcases active_set hi hj with ⟨-, hc⟩ | ⟨-, hj⟩
    · cases hc
    · exact hj
  have hactive := h.active
  have hstarting := h.starting
  exact h.of_active (by omega) (by omega) (by omega) hkeep

/-- An active run gets its handle. -/
theorem Tracked.attach (h : Tracked limits number manager roster) {key : DelegationKey}
    {entry : ActiveRun} (hentry : manager.active.get? key = some entry) (handle : GameRunHandle) :
    Tracked limits number
      { manager with active := manager.active.set key { entry with handle := some handle } }
      roster := by
  have hlength := OrderedMap.length_set_of_get?_eq_some hentry { entry with handle := some handle }
  have hinput : ∀ key' a,
      (manager.active.set key { entry with handle := some handle }).get? key' = some a →
      ∃ b, manager.active.get? key' = some b ∧ b.input = a.input := by
    intro key' a ha
    rw [OrderedMap.get?_set] at ha
    split at ha
    · rename_i hk
      subst hk
      rw [Option.some.injEq] at ha
      exact ⟨entry, hentry, ha ▸ rfl⟩
    · exact ⟨a, ha, rfl⟩
  constructor
  case bounded =>
    dsimp only
    rw [hlength]
    exact h.bounded
  case active =>
    dsimp only
    rw [hlength]
    exact h.active
  case starting => exact h.starting
  case entry =>
    intro j key' delivery object hj
    obtain ⟨other, hother⟩ := h.entry j key' delivery object hj
    dsimp only
    rw [OrderedMap.get?_set]
    split
    · rename_i hk
      subst hk
      rw [hentry, Option.some.injEq] at hother
      exact ⟨some handle, by rw [hother]⟩
    · exact ⟨other, hother⟩
  case fresh => exact h.fresh
  case distinct => exact h.distinct
  case inputs =>
    intro key' key'' a b ha hb hsame
    obtain ⟨a', ha', hinputA⟩ := hinput key' a ha
    obtain ⟨b', hb', hinputB⟩ := hinput key'' b hb
    refine h.inputs key' key'' a' b' ha' hb' ?_
    rw [hinputA, hinputB]
    exact hsame

/-- A run that never became active ends. -/
theorem Tracked.finish_starting (h : Tracked limits number manager roster)
    (hi : roster[i]? = some (number, phase)) (hphase : phase.starting = true) :
    Tracked limits number { manager with starting := manager.starting - 1 }
      (roster.set i (number, .outside)) := by
  have hpassive : phase.active = false := by
    cases phase <;> first | rfl | cases hphase
  have hcount := countP_set_add (inPhase number DelegationPhase.active) hi (number, .outside)
  have hcount' := countP_set_add (inPhase number DelegationPhase.starting) hi (number, .outside)
  rw [inPhase_own, inPhase_own, hpassive] at hcount
  rw [inPhase_own, inPhase_own, hphase] at hcount'
  simp only [DelegationPhase.active, DelegationPhase.starting, Bool.false_eq_true, if_true,
    if_false] at hcount hcount'
  have hkeep : ∀ j key delivery object,
      Active (roster.set i (number, .outside)) number j key delivery object →
      Active roster number j key delivery object := by
    intro j key delivery object hj
    rcases active_set hi hj with ⟨-, hc⟩ | ⟨-, hj⟩
    · cases hc
    · exact hj
  have hbounded := h.bounded
  have hactive := h.active
  have hstarting := h.starting
  exact h.of_active (by omega) (by omega) (by omega) hkeep

/-- An active run ends. -/
theorem Tracked.finish_active (h : Tracked limits number manager roster) {key : DelegationKey}
    {delivery : DelegationDelivery} {object : Nat}
    (hi : roster[i]? = some (number, .registered key delivery object)) :
    Tracked limits number { manager with active := manager.active.delete key }
      (roster.set i (number, .outside)) := by
  obtain ⟨handle, hentry⟩ := h.entry i key delivery object hi
  have hlength := OrderedMap.length_delete_of_get?_eq_some hentry
  have hcount := countP_set_add (inPhase number DelegationPhase.active) hi (number, .outside)
  have hcount' := countP_set_add (inPhase number DelegationPhase.starting) hi (number, .outside)
  simp only [inPhase_own, DelegationPhase.active, DelegationPhase.starting, Bool.false_eq_true,
    if_true, if_false] at hcount hcount'
  have hkeep : ∀ j key' delivery' object',
      Active (roster.set i (number, .outside)) number j key' delivery' object' →
      i ≠ j ∧ Active roster number j key' delivery' object' := by
    intro j key' delivery' object' hj
    rcases active_set hi hj with ⟨-, hc⟩ | hj
    · cases hc
    · exact hj
  have hbounded := h.bounded
  have hactive := h.active
  have hstarting := h.starting
  constructor
  case bounded =>
    dsimp only
    omega
  case active =>
    dsimp only
    omega
  case starting =>
    dsimp only
    omega
  case entry =>
    intro j key' delivery' object' hj
    obtain ⟨hij, hj⟩ := hkeep j _ _ _ hj
    obtain ⟨handle', hentry'⟩ := h.entry j key' delivery' object' hj
    -- Another run's entry stands under another key: there is one entry under each.
    have hne : key ≠ key' := by
      rintro rfl
      rw [hentry, Option.some.injEq] at hentry'
      obtain rfl : object = object' := congrArg ActiveRun.number hentry'
      exact hij (h.distinct i j _ _ _ _ _ hi hj)
    refine ⟨handle', ?_⟩
    dsimp only
    rw [OrderedMap.get?_delete, if_neg hne]
    exact hentry'
  case fresh => exact fun j key' delivery' object' hj => h.fresh j _ _ _ (hkeep j _ _ _ hj).2
  case distinct =>
    intro j k key' key'' delivery' delivery'' object' hj hk
    exact h.distinct j k _ _ _ _ _ (hkeep j _ _ _ hj).2 (hkeep k _ _ _ hk).2
  case inputs =>
    intro key' key'' a b ha hb hsame
    dsimp only at ha hb
    rw [OrderedMap.get?_delete] at ha hb
    split at ha
    · cases ha
    · split at hb
      · cases hb
      · exact h.inputs _ _ _ _ ha hb hsame

/-- What a call does to its own manager keeps the manager true to its calls. -/
theorem Tracked.perform {managers : Nat → DelegationManager}
    (h : Tracked limits number (managers number) roster) (hi : roster[i]? = some (number, phase))
    {e : DelegationEffect} (hallows : delegationObserver.allows phase e)
    (hapart : RunsApart managers number phase e) (proposal : DelegationAnswer e) :
    Tracked limits number ((managers number).perform limits e proposal).2
      (roster.set i (number, delegationObserver.next phase e
        ((managers number).perform limits e proposal).1)) := by
  have hsame : Tracked limits number (managers number) (roster.set i (number, phase)) := by
    rw [set_self hi]
    exact h
  cases e
  case reserve =>
    obtain rfl : phase = .outside := hallows
    unfold DelegationManager.perform
    dsimp only
    split
    · exact hsame
    · rename_i hplace
      exact h.reserve hi (not_le.1 hplace)
  case register key delivery input =>
    obtain ⟨rfl, rfl⟩ := hallows
    exact h.register hi hapart.1 hapart.2
  case attach key object handle =>
    obtain ⟨delivery, rfl⟩ := hallows
    obtain ⟨other, hentry⟩ := h.entry i key delivery object hi
    unfold DelegationManager.perform
    dsimp only
    rw [hentry]
    dsimp only
    rw [if_neg (not_not_intro rfl)]
    have hnext := h.attach hentry handle
    rw [← set_self hi] at hnext
    exact hnext
  case finish key reserved =>
    rcases hallows with ⟨hstarting, rfl⟩ | ⟨delivery, object, rfl, rfl⟩
    · have hnone : (managers number).active.get? key = none := by
        cases hget : (managers number).active.get? key with
        | none => rfl
        | some active =>
          have hmade := hapart active hget
          cases phase <;> first | cases hmade | cases hstarting
      have hdelete := OrderedMap.delete_of_get?_eq_none hnone
      unfold DelegationManager.perform
      dsimp only
      rw [hdelete]
      exact h.finish_starting hi hstarting
    · exact h.finish_active hi
  case claim request =>
    obtain rfl : phase = .reserved := hallows
    cases proposal with
    | error error => exact hsame
    | ok delivery =>
      exact h.of_kept hi (inPhase_own _ _ _) (inPhase_own _ _ _)
        ((inPhase_own _ _ _).trans (inPhase_own _ _ _).symm)
  all_goals exact hsame

end Tracked

/-! ## Runs -/

/-- No calls, no active runs. -/
theorem tracked_start (limits : DelegationLimits) (number : Nat) :
    Tracked limits number .empty [] := by
  have hnone : ∀ i key delivery object, ¬ Active [] number i key delivery object := by
    intro i key delivery object hi
    simp [Active] at hi
  constructor
  case bounded => simp [DelegationManager.empty]
  case active => simp [DelegationManager.empty]
  case starting => simp [DelegationManager.empty]
  case entry => exact fun i key delivery object hi => absurd hi (hnone i _ _ _)
  case fresh => exact fun i key delivery object hi => absurd hi (hnone i _ _ _)
  case distinct => exact fun i j key key' delivery delivery' object hi => absurd hi (hnone i _ _ _)
  case inputs =>
    intro key key' a b ha
    simp [DelegationManager.empty] at ha

/-- What a call does keeps every manager true to its calls. -/
theorem tracked_perform {options : Nat → DelegationManagerOptions}
    {managers : Nat → DelegationManager} {roster : List (Nat × DelegationPhase)}
    (h : ∀ number, Tracked (options number).limits number (managers number) roster)
    {i caller : Nat} {phase : DelegationPhase} (hi : roster[i]? = some (caller, phase))
    {e : DelegationEffect} (hallows : delegationObserver.allows phase e)
    (hapart : RunsApart managers caller phase e) (proposal : DelegationAnswer e) (number : Nat) :
    Tracked (options number).limits number
      (Function.update managers caller
        ((managers caller).perform (options caller).limits e proposal).2 number)
      (roster.set i (caller, delegationObserver.next phase e
        ((managers caller).perform (options caller).limits e proposal).1)) := by
  by_cases hcaller : caller = number
  · subst hcaller
    rw [Function.update_self]
    exact (h caller).perform hi hallows hapart proposal
  · rw [Function.update_of_ne (Ne.symm hcaller)]
    exact (h number).of_kept hi (inPhase_other hcaller _ _) (inPhase_other hcaller _ _)
      ((inPhase_other hcaller _ _).trans (inPhase_other hcaller _ phase).symm)

theorem managerMachine_invariant (options : Nat → DelegationManagerOptions) :
    (managerMachine options).Invariant delegationObserver RunsApart fun managers roster =>
      ∀ number, Tracked (options number).limits number (managers number) roster where
  body _ method := follows_body method
  call _ _ caller h number := (h number).call caller
  perform _ _ _ _ _ _ proposal h hi hallows hapart := tracked_perform h hi hallows hapart proposal

theorem start_keeps (options : Nat → DelegationManagerOptions) :
    (ManagerConfig.start options).Keeps delegationObserver
      fun (managers : Nat → DelegationManager) roster =>
        ∀ number, Tracked (options number).limits number (managers number) roster where
  follows thread hmem := by simp [ManagerConfig.start] at hmem
  holds number := tracked_start (options number).limits number

/-- A call without a lease. -/
def DelegationPhase.leaseless : DelegationPhase → Bool
  | .outside | .reserved => true
  | .claimed _ _ | .registered _ _ _ => false

/-- A call without a lease leaves the entries alone. -/
theorem perform_active_of_leaseless (limits : DelegationLimits)
    {managers : Nat → DelegationManager} {number : Nat} {phase : DelegationPhase}
    (hphase : phase.leaseless = true) {e : DelegationEffect}
    (hallows : delegationObserver.allows phase e) (hapart : RunsApart managers number phase e)
    (proposal : DelegationAnswer e) :
    ((managers number).perform limits e proposal).2.active = (managers number).active := by
  cases e
  case reserve =>
    unfold DelegationManager.perform
    dsimp only
    split
    · rfl
    · rfl
  case register key delivery input =>
    obtain ⟨rfl, -⟩ := hallows
    cases hphase
  case attach key object handle =>
    obtain ⟨delivery, rfl⟩ := hallows
    cases hphase
  case finish key reserved =>
    refine OrderedMap.delete_of_get?_eq_none ?_
    cases hget : (managers number).active.get? key with
    | none => rfl
    | some active =>
      have hmade := hapart active hget
      cases phase <;> first | cases hmade | cases hphase
  all_goals rfl

/-- The manager knows exactly its live runs, and finds each active one by its key and by its
input. -/
structure KnowsRuns (limits : DelegationLimits) (number : Nat) (manager : DelegationManager)
    (roster : List (Nat × DelegationPhase)) : Prop where
  bounded : (manager.active.entries.length : Int) + manager.starting ≤ limits.maxActiveRuns
  counted : (manager.active.entries.length : Int) + manager.starting =
    roster.countP (inPhase number DelegationPhase.live)
  found : ∀ i key delivery object, Active roster number i key delivery object →
    ∃ entry : ActiveRun, entry.number = object ∧ entry.delivery = delivery ∧
      entry.input = toInput delivery.record ∧ manager.active.get? key = some entry ∧
      (manager.active.values.find? fun active => active.input.same entry.input.sessionId
        entry.input.actorId entry.input.inputId) = some entry

theorem countP_live (number : Nat) (roster : List (Nat × DelegationPhase)) :
    roster.countP (inPhase number DelegationPhase.live) =
      roster.countP (inPhase number DelegationPhase.active) +
        roster.countP (inPhase number DelegationPhase.starting) := by
  induction roster with
  | nil => rfl
  | cons call roster ih =>
    have hcall : ∀ phase : DelegationPhase, (if phase.live then 1 else 0) =
        (if phase.active then 1 else 0) + if phase.starting then 1 else 0 := by
      intro phase
      cases phase <;> rfl
    obtain ⟨caller, phase⟩ := call
    rw [List.countP_cons, List.countP_cons, List.countP_cons, ih]
    by_cases hcaller : caller = number
    · subst hcaller
      have hphase := hcall phase
      simp only [inPhase_own]
      omega
    · simp only [inPhase_other hcaller, Bool.false_eq_true, if_false, Nat.add_zero]

@[simp] theorem DelegatedInput.same_self (input : DelegatedInput) :
    input.same input.sessionId input.actorId input.inputId = true := by
  simp [DelegatedInput.same]

theorem Tracked.knowsRuns {limits : DelegationLimits} {number : Nat} {manager : DelegationManager}
    {roster : List (Nat × DelegationPhase)} (h : Tracked limits number manager roster) :
    KnowsRuns limits number manager roster where
  bounded := h.bounded
  counted := by
    have hactive := h.active
    have hstarting := h.starting
    have hlive := countP_live number roster
    omega
  found i key delivery object hi := by
    obtain ⟨handle, hentry⟩ := h.entry i key delivery object hi
    refine ⟨_, rfl, rfl, rfl, hentry, ?_⟩
    have hmem := OrderedMap.mem_values.2 ⟨key, hentry⟩
    cases hfind : manager.active.values.find? fun active =>
        active.input.same (toInput delivery.record).sessionId (toInput delivery.record).actorId
          (toInput delivery.record).inputId with
    | none =>
      rw [List.find?_eq_none] at hfind
      exact absurd (DelegatedInput.same_self _) (hfind _ hmem)
    | some other =>
      have hsame := List.find?_some hfind
      obtain ⟨key', hother⟩ := OrderedMap.mem_values.1 (List.mem_of_find?_eq_some hfind)
      obtain rfl := h.inputs key' key _ _ hother hentry hsame
      exact hother.symm.trans hentry

/-- While runs keep apart, every manager knows exactly its live runs, and a call without a
lease leaves the entries of the others in place. -/
theorem manager_tracks_active_runs (options : Nat → DelegationManagerOptions)
    (labels : List (Label (managerMachine options)))
    (hmeets : (ManagerConfig.start options).RunMeets delegationObserver RunsApart labels) :
    (∀ number, KnowsRuns (options number).limits number
      (((ManagerConfig.start options).run delegationObserver labels).state number)
      ((ManagerConfig.start options).run delegationObserver labels).roster) ∧
    ∀ i answers number phase,
      ((ManagerConfig.start options).run delegationObserver labels).roster[i]? =
        some (number, phase) → phase.leaseless = true →
      ((ManagerConfig.start options).run delegationObserver labels).Meets RunsApart
        (.resume i answers) →
      ∀ other, ((((ManagerConfig.start options).run delegationObserver labels).exec
          delegationObserver (.resume i answers)).state other).active =
        (((ManagerConfig.start options).run delegationObserver labels).state other).active := by
  have hkeeps := Config.run_keeps (managerMachine_invariant options) (start_keeps options) hmeets
  refine ⟨fun number => (hkeeps.holds number).knowsRuns, ?_⟩
  generalize (ManagerConfig.start options).run delegationObserver labels = c at hkeeps ⊢
  intro i answers number phase hi hphase hstep other
  unfold Config.exec
  unfold Config.Meets at hstep
  dsimp only at hstep ⊢
  split
  · rename_i caller phase' e k hthread
    rw [hthread] at hstep
    obtain ⟨hallows, -⟩ := hkeeps.follows _ (List.mem_of_getElem? hthread)
    have hroster : c.roster[i]? = some (caller, phase') := by
      simp [Config.roster, hthread]
    obtain ⟨rfl, rfl⟩ := Prod.mk.inj (Option.some.inj (hroster.symm.trans hi))
    have hown := perform_active_of_leaseless (options caller).limits hphase hallows hstep
      (answers e)
    by_cases hother : other = caller
    · subst hother
      exact (congrArg DelegationManager.active (Function.update_self _ _ _)).trans hown
    · exact congrArg DelegationManager.active (Function.update_of_ne hother _ _)
  · rfl

/-! ## Two runs of one delegation -/

/-- A manager with room for two runs. -/
def guildManager : DelegationManagerOptions where
  limits :=
    { maxIdentifierBytes := 64
      maxControlTextBytes := 64
      maxResultBytes := 64
      maxJsonDepth := 4
      maxCounterDigits := 8
      maxActiveRuns := 2
      maxPageSize := 8
      maxRecoveryBatchSize := 8 }
  targets := [⟨"scout", "guild", "scout-1", 4⟩]
  workerId := "worker-1"

def scoutRecord : DelegationRecord where
  delegationId := "map-the-pass"
  partition := ⟨"owner", "main", "0"⟩
  parent := ⟨"guild", "leader", "input-1", "run-1", "1", "call-1"⟩
  target := ⟨"scout", "guild", "scout-1", 4⟩
  task := .text "map the pass"
  context := none
  rootDelegationId := "map-the-pass"
  parentDelegationId := none
  depth := "0"
  childInputId := "child-1"
  delegationKey := 1
  status := .running
  revision := Decimal.ofNat 2
  attempt := Decimal.ofNat 1
  childRunId := none
  result := none
  failureCode := none
  startedAt := some "2026-01-01T00:00:00.000Z"
  settledAt := none
  updatedAt := "2026-01-01T00:00:00.000Z"

/-- Answers of the surroundings, with the one to a claim. -/
def guildAnswers (claimed : Except DelegationError DelegationDelivery) :
    (e : DelegationEffect) → DelegationAnswer e
  | .aborted => false
  | .operationalNow => .ok "2026-01-01T00:00:00.000Z"
  | .leaseExpiresAt _ => .ok "2026-01-01T00:05:00.000Z"
  | .reserve | .attach _ _ _ => .ok ()
  | .register _ _ _ => (0 : Nat)
  | .finish _ _ => ()
  | .findActive _ | .findInput _ _ _ => (none : Option ActiveRun)
  | .claim _ | .assertLease _ _ _ | .renew _ _ _ _ => claimed
  | .bindRun _ _ _ _ | .complete _ _ _ _ | .fail _ _ _ _ | .abandon _ _ _ | .cancel _ _ _
  | .require _ => .error .notFound
  | .list _ => .ok ⟨[scoutRecord], none⟩
  | .readDeferred _ => (none : Option PendingOperation)
  | .resumeDeferred _ _ | .submit _ => .error (.host "closed")
  | .completion _ => .error (.host "closed")
  | .outcome _ _ _ => .error (.host "closed")
  | .readActiveCoordinate _ _ => (none : Option RunCoordinate)
  | .control _ _ => .ok false

/-- A run that claims its delegation and becomes active. -/
def scoutRuns : List (Label (managerMachine fun _ => guildManager)) :=
  .call (0 : Nat) (.run scoutRecord.key) ::
    List.replicate 6 (.resume 0 (guildAnswers
      (.ok ⟨scoutRecord, "token-1", "worker-1", "2026-01-01T00:05:00.000Z"⟩)))

/-- Another run of it, which finds it claimed. -/
def scoutRunsAgain : List (Label (managerMachine fun _ => guildManager)) :=
  scoutRuns ++ .call (0 : Nat) (.run scoutRecord.key) ::
    List.replicate 7 (.resume 1 (guildAnswers (.error .lease)))

theorem manager_tracks_scout :
    KnowsRuns guildManager.limits 0
      (((ManagerConfig.start fun _ => guildManager).run delegationObserver scoutRuns).state (0 : Nat))
      ((ManagerConfig.start fun _ => guildManager).run delegationObserver scoutRuns).roster :=
  (manager_tracks_active_runs (fun _ => guildManager) scoutRuns (by decide +kernel)).1 0

/-- The run that could not claim the delegation takes the entry of the one that did. -/
theorem failed_claim_forgets_active_run :
    ¬ KnowsRuns guildManager.limits 0
      (((ManagerConfig.start fun _ => guildManager).run delegationObserver
        scoutRunsAgain).state (0 : Nat))
      ((ManagerConfig.start fun _ => guildManager).run delegationObserver scoutRunsAgain).roster :=
  fun h => absurd h.counted (by decide +kernel)

end OpenGameAgent
