import OpenGameAgent.Delegation.ActiveRuns
import OpenGameAgent.Delegation.DelegationLeases

/-!
# Runs whose lease was taken over

Managers that share one in-memory delegation store.  A run that outlives its lease does not
know that another run has claimed its delegation; what it still asks of the store names the
token of its old lease, except for the cancellation on its abort path, which names the
current revision.

* `SharedDelegations.Fenced` — the invariant: a token that was claimed over is dead.
* `superseded_runs_change_nothing` — a run whose lease was taken over changes a record
  exactly when its abort path reaches a record that is not settled; and a settled record
  stays as it is.
-/

namespace OpenGameAgent

/-- The effects of managers on the store; the others are answered as proposed. -/
def InMemoryDelegationStore.perform (limits : DelegationLimits) (token : Nat → String)
    (store : InMemoryDelegationStore) :
    (e : DelegationEffect) → DelegationAnswer e → DelegationAnswer e × InMemoryDelegationStore
  | .claim request, _ => respond (claim limits token request) store
  | .assertLease key leaseToken now, _ => respond (assertLease limits key leaseToken now) store
  | .renew key leaseToken now leaseExpiresAt, _ =>
    respond (renew limits key leaseToken now leaseExpiresAt) store
  | .bindRun key leaseToken runId now, _ => respond (bindRun limits key leaseToken runId now) store
  | .complete key leaseToken result now, _ =>
    respond (complete limits key leaseToken result now) store
  | .fail key leaseToken code now, _ => respond (fail limits key leaseToken code now) store
  | .abandon key leaseToken now, _ => respond (abandon limits key leaseToken now) store
  | .cancel key revision now, _ => respond (cancel limits key revision now) store
  | .require key, _ => respond (required limits key) store
  | .list request, _ => respond (list limits request) store
  | _, answer => (answer, store)

/-- A store and its managers; `claims` lists the successful claims, with the number of the
delegation and the token. -/
structure SharedDelegations where
  store : InMemoryDelegationStore
  managers : Nat → DelegationManager
  claims : List (Nat × String)

/-- The claim that an effect with this answer is. -/
def claimedBy : (e : DelegationEffect) → DelegationAnswer e → List (Nat × String)
  | .claim _, .ok delivery => [(delivery.record.delegationKey, delivery.leaseToken)]
  | _, _ => []

section Machine

variable (limits : DelegationLimits) (token : Nat → String)
  (options : Nat → DelegationManagerOptions)

/-- Managers over one store. -/
def delegationMachine : Machine DelegationEffect DelegationAnswer where
  State := SharedDelegations
  Caller := Nat
  Method := DelegationMethod
  body number method := method.body (options number)
  perform shared number e proposal :=
    let answered := shared.store.perform limits token e proposal
    let managed := (shared.managers number).perform (options number).limits e answered.1
    (managed.1,
      { store := answered.2
        managers := Function.update shared.managers number managed.2
        claims := shared.claims ++ claimedBy e managed.1 })

abbrev DelegationConfig := Config (delegationMachine limits token options) DelegationPhase

/-- New managers over a store. -/
def DelegationConfig.start (store : InMemoryDelegationStore) :
    DelegationConfig limits token options :=
  ⟨⟨store, fun _ => .empty, []⟩, []⟩

end Machine

/-- Another claim of the delegation came behind the one of the token. -/
def ClaimedOver (claims : List (Nat × String)) (delegationKey : Nat) (leaseToken : String) : Prop :=
  ∃ earlier later, claims = earlier ++ (delegationKey, leaseToken) :: later ∧
    ∃ other, (delegationKey, other) ∈ later

/-- The lease of the `i`-th call's run was taken over. -/
def DelegationConfig.Superseded {limits : DelegationLimits} {token : Nat → String}
    {options : Nat → DelegationManagerOptions} (c : DelegationConfig limits token options)
    (i : Nat) : Prop :=
  ∃ (number : Nat) (phase : DelegationPhase) (sequence : DelegationSequenceKey)
    (leaseToken : String),
    c.roster[i]? = some (number, phase) ∧ phase.Holds sequence leaseToken ∧
      ClaimedOver c.state.claims sequence.delegationKey leaseToken

/-- The condition on a step: it is not a cancellation that the store carries out. -/
def SparesRecords (limits : DelegationLimits) (shared : SharedDelegations) (_ : Nat)
    (_ : DelegationPhase) : DelegationEffect → Prop
  | .cancel key revision now => ¬ shared.store.Cancels limits key revision now
  | _ => True

/-! ## The invariant -/

/-- What holds of every reachable state. -/
structure SharedDelegations.Fenced (token : Nat → String) (shared : SharedDelegations) : Prop where
  sound : shared.store.Sound token
  issued : ∀ delegationKey leaseToken, (delegationKey, leaseToken) ∈ shared.claims →
    ∃ n < shared.store.issued, leaseToken = token n
  dead : ∀ delegationKey leaseToken, ClaimedOver shared.claims delegationKey leaseToken →
    shared.store.Dead delegationKey leaseToken

section Steps

open InMemoryDelegationStore

variable {limits : DelegationLimits} {token : Nat → String} {shared : SharedDelegations}
  {store next : InMemoryDelegationStore} {managers : Nat → DelegationManager}
  {phase : DelegationPhase} {sequence : DelegationSequenceKey} {leaseToken : String}

/-- A request other than a claim only writes. -/
theorem perform_writes (limits : DelegationLimits) (token : Nat → String)
    (store : InMemoryDelegationStore) {e : DelegationEffect} (he : ∀ request, e ≠ .claim request)
    (proposal : DelegationAnswer e) :
    Writes store (store.perform limits token e proposal).2 := by
  cases e
  case claim request => exact absurd rfl (he request)
  case assertLease key leaseToken now => exact assertLease_leaves.respond ▸ .refl
  case require key => exact required_spec.respond ▸ .refl
  case list request => exact list_leaves.respond ▸ .refl
  case renew key leaseToken now leaseExpiresAt => exact renew_writes.respond
  case bindRun key leaseToken runId now => exact bindRun_writes.respond
  case complete key leaseToken result now => exact complete_writes.respond
  case fail key leaseToken code now => exact fail_writes.respond
  case abandon key leaseToken now => exact abandon_writes.respond
  case cancel key revision now => exact cancel_writes.respond
  all_goals exact .refl

theorem Fenced.continues (h : shared.Fenced token) (hsound : next.Sound token)
    (hcontinues : shared.store.Continues next) (managers : Nat → DelegationManager) :
    SharedDelegations.Fenced token ⟨next, managers, shared.claims⟩ where
  sound := hsound
  issued delegationKey leaseToken hmem := by
    obtain ⟨n, hn, htoken⟩ := h.issued delegationKey leaseToken hmem
    exact ⟨n, hn.trans_le hcontinues.issued, htoken⟩
  dead delegationKey leaseToken hover := (h.dead delegationKey leaseToken hover).continues hcontinues

theorem claimedOver_append {claims : List (Nat × String)} {claim : Nat × String}
    {delegationKey : Nat} (h : ClaimedOver (claims ++ [claim]) delegationKey leaseToken) :
    ClaimedOver claims delegationKey leaseToken ∨
      (delegationKey = claim.1 ∧ (delegationKey, leaseToken) ∈ claims) := by
  obtain ⟨earlier, later, hsplit, other, hmem⟩ := h
  rcases List.eq_nil_or_concat later with rfl | ⟨rest, last, rfl⟩
  · cases hmem
  · rw [List.concat_eq_append, ← List.cons_append, ← List.append_assoc] at hsplit
    obtain ⟨hclaims, hlast⟩ := List.append_inj' hsplit rfl
    obtain rfl := List.singleton_inj.1 hlast
    rw [List.concat_eq_append, List.mem_append] at hmem
    rcases hmem with hmem | hmem
    · exact Or.inl ⟨earlier, rest, hclaims, other, hmem⟩
    · obtain rfl := List.mem_singleton.1 hmem
      exact Or.inr ⟨rfl, by simp [hclaims]⟩

/-- A claim takes over the tokens claimed before it. -/
theorem Fenced.claimed (htoken : Function.Injective token) (h : shared.Fenced token)
    {delivery : DelegationDelivery} (hclaimed : Claimed token shared.store delivery next) :
    SharedDelegations.Fenced token ⟨next, managers,
      shared.claims ++ [(delivery.record.delegationKey, delivery.leaseToken)]⟩ := by
  have hold : ∀ delegationKey leaseToken, (delegationKey, leaseToken) ∈ shared.claims →
      delivery.leaseToken ≠ leaseToken := by
    intro delegationKey leaseToken hmem hsame
    obtain ⟨n, hn, hissued⟩ := h.issued delegationKey leaseToken hmem
    have hnumber := htoken (hclaimed.leaseToken.symm.trans (hsame.trans hissued))
    omega
  constructor
  case sound => exact hclaimed.sound
  case issued =>
    intro delegationKey leaseToken hmem
    dsimp only at hmem ⊢
    rw [List.mem_append, List.mem_singleton] at hmem
    rw [hclaimed.issued]
    rcases hmem with hmem | hmem
    · obtain ⟨n, hn, hissued⟩ := h.issued delegationKey leaseToken hmem
      exact ⟨n, Nat.lt_succ_of_lt hn, hissued⟩
    · exact ⟨shared.store.issued, Nat.lt_succ_self _,
        (Prod.mk.inj hmem).2.trans hclaimed.leaseToken⟩
  case dead =>
    intro delegationKey leaseToken hover
    rcases claimedOver_append hover with hover | ⟨rfl, hmem⟩
    · have hdead := h.dead delegationKey leaseToken hover
      obtain ⟨earlier, later, hsplit, -⟩ := hover
      have hne := hold delegationKey leaseToken (by simp [hsplit])
      refine ⟨fun lease hlease => ?_, ?_⟩
      · rcases hclaimed.leased delegationKey lease hlease with hlease | hlease
        · exact hdead.leased lease hlease
        · exact hlease ▸ hne
      · dsimp only
        rw [hclaimed.settledTokens]
        exact hdead.settled
    · have hne := hold _ leaseToken hmem
      refine ⟨fun lease hlease => hclaimed.own lease hlease ▸ hne, ?_⟩
      dsimp only
      rw [hclaimed.unsettled]
      exact nofun

theorem perform_claim (limits : DelegationLimits) (h : store.Sound token) (request : DelegationClaimRequest)
    (proposal : DelegationAnswer (.claim request)) :
    (∀ delivery, (store.perform limits token (.claim request) proposal).1 = .ok delivery →
      Claimed token store delivery (store.perform limits token (.claim request) proposal).2) ∧
    ∀ error, (store.perform limits token (.claim request) proposal).1 = .error error →
      (store.perform limits token (.claim request) proposal).2.Sound token ∧
        store.Continues (store.perform limits token (.claim request) proposal).2 := by
  have hclaim : Ends (claim limits token request) store (Claimed token store) fun _ next =>
      next = store ∨ next = { store with issued := store.issued + 1 } := claim_spec h
  obtain ⟨hok, herror⟩ := Ends.respond hclaim
  refine ⟨hok, fun error hanswer => ?_⟩
  have hnext : (store.perform limits token (.claim request) proposal).2 = store ∨
      (store.perform limits token (.claim request) proposal).2 =
        { store with issued := store.issued + 1 } := herror error hanswer
  rcases hnext with hnext | hnext
  · rw [hnext]
    exact ⟨h, .refl store⟩
  · have hissued : store.Continues { store with issued := store.issued + 1 } :=
      { terminal := fun _ _ hget _ => hget
        leased := fun _ lease hget => ⟨lease, hget, rfl⟩
        settled := fun _ _ hget => Or.inl hget
        issued := Nat.le_succ _ }
    rw [hnext]
    exact ⟨h.issue, hissued⟩

/-- A settled record stays as it is. -/
theorem perform_terminal (h : store.Sound token) (e : DelegationEffect)
    (proposal : DelegationAnswer e) {key : DelegationKey} {record : DelegationRecord}
    (hget : store.records.get? key = some record) (hterminal : record.status.terminal = true) :
    (store.perform limits token e proposal).2.records.get? key = some record := by
  by_cases he : ∃ request, e = .claim request
  · obtain ⟨request, rfl⟩ := he
    obtain ⟨hok, herror⟩ := perform_claim limits h request proposal
    cases hanswer : (store.perform limits token (.claim request) proposal).1 with
    | ok delivery => exact (hok delivery hanswer).terminal key record hget hterminal
    | error error => exact (herror error hanswer).2.terminal key record hget hterminal
  · have hwrites := perform_writes limits token store
      (fun request hc => he ⟨request, hc⟩) proposal
    exact (h.writes hwrites).2.terminal key record hget hterminal

/-- An effect of a manager keeps superseded tokens dead. -/
theorem Fenced.perform (htoken : Function.Injective token) (h : shared.Fenced token)
    (options : Nat → DelegationManagerOptions) (number : Nat) (e : DelegationEffect)
    (proposal : DelegationAnswer e) :
    ((delegationMachine limits token options).perform shared number e proposal).2.Fenced token := by
  by_cases he : ∃ request, e = .claim request
  · obtain ⟨request, rfl⟩ := he
    obtain ⟨hok, herror⟩ := perform_claim limits h.sound request proposal
    unfold delegationMachine
    dsimp only
    cases hanswer : (shared.store.perform limits token (.claim request) proposal).1 with
    | ok delivery =>
      exact Fenced.claimed htoken h (hok delivery hanswer)
    | error error =>
      obtain ⟨hsound, hcontinues⟩ := herror error hanswer
      have hnone : shared.claims ++ claimedBy (.claim request) (.error error) = shared.claims :=
        List.append_nil _
      have hnext := Fenced.continues h hsound hcontinues
        (Function.update shared.managers number (shared.managers number))
      rw [← hnone] at hnext
      exact hnext
  · have hwrites := perform_writes limits token shared.store
      (fun request hc => he ⟨request, hc⟩) proposal
    obtain ⟨hsound, hcontinues⟩ := h.sound.writes hwrites
    have hnone : ∀ answer : DelegationAnswer e, claimedBy e answer = [] := by
      intro answer
      cases e
      case claim request => exact absurd ⟨request, rfl⟩ he
      all_goals rfl
    unfold delegationMachine
    dsimp only
    rw [hnone, List.append_nil]
    exact Fenced.continues h hsound hcontinues _

/-- A run holds one lease. -/
theorem DelegationPhase.Holds.unique {sequence' : DelegationSequenceKey} {leaseToken' : String}
    (h : phase.Holds sequence leaseToken) (h' : phase.Holds sequence' leaseToken') :
    sequence = sequence' ∧ leaseToken = leaseToken' := by
  cases phase
  case outside => exact h.elim
  case reserved => exact h.elim
  case claimed key delivery => exact ⟨h.1.symm.trans h'.1, h.2.symm.trans h'.2⟩
  case registered key delivery number => exact ⟨h.1.symm.trans h'.1, h.2.symm.trans h'.2⟩

/-- A run whose token is dead changes a record exactly by cancelling it. -/
theorem perform_dead (limits : DelegationLimits) (hholds : phase.Holds sequence leaseToken)
    (hdead : store.Dead sequence.delegationKey leaseToken) {e : DelegationEffect}
    (hallows : delegationObserver.allows phase e) (proposal : DelegationAnswer e) :
    (store.perform limits token e proposal).2.records = store.records ↔
      match e with
      | .cancel key revision now => ¬ store.Cancels limits key revision now
      | _ => True := by
  have hown : ∀ sequence' leaseToken', phase.Holds sequence' leaseToken' →
      store.Dead sequence'.delegationKey leaseToken' := by
    intro sequence' leaseToken' hholds'
    obtain ⟨rfl, rfl⟩ := hholds.unique hholds'
    exact hdead
  have hsame : ∀ {next : InMemoryDelegationStore}, next = store →
      (next.records = store.records ↔ True) := by
    rintro _ rfl
    exact iff_of_true rfl trivial
  cases e
  case claim request =>
    obtain rfl : phase = .reserved := hallows
    exact hholds.elim
  case renew key leaseToken now leaseExpiresAt =>
    obtain rfl : phase = .outside := hallows
    exact hholds.elim
  case bindRun key leaseToken runId now =>
    exact hsame (bindRun_dead (hown key leaseToken hallows)).respond
  case complete key leaseToken result now =>
    exact hsame (complete_dead (hown key leaseToken hallows)).respond
  case fail key leaseToken code now =>
    exact hsame (fail_dead (hown key leaseToken hallows)).respond
  case abandon key leaseToken now =>
    exact hsame (abandon_dead (hown key leaseToken hallows)).respond
  case assertLease key leaseToken now => exact hsame assertLease_leaves.respond
  case require key => exact hsame required_spec.respond
  case list request => exact hsame list_leaves.respond
  case cancel key revision now =>
    have hcancel : Ends (cancel limits key revision now) store
        (fun _ next => store.Cancels limits key revision now ∧ next.records ≠ store.records)
        fun _ next => ¬ store.Cancels limits key revision now ∧ next.records = store.records :=
      cancel_spec
    obtain ⟨hok, herror⟩ := Ends.respond hcancel
    change (respond (cancel limits key revision now) store).2.records = store.records ↔ _
    cases hanswer : (respond (cancel limits key revision now) store).1 with
    | ok record =>
      obtain ⟨hcancels, hchanged⟩ := hok record hanswer
      exact iff_of_false hchanged (not_not_intro hcancels)
    | error error =>
      obtain ⟨hcancels, hkept⟩ := herror error hanswer
      exact iff_of_true hkept hcancels
  all_goals exact hsame rfl

end Steps

/-! ## Runs -/

section Runs

variable {limits : DelegationLimits} {token : Nat → String}
  {options : Nat → DelegationManagerOptions}

theorem delegationMachine_invariant (htoken : Function.Injective token) :
    (delegationMachine limits token options).Invariant delegationObserver
      (fun _ _ _ _ => True) fun shared _ => shared.Fenced token where
  body _ method := follows_body method
  call _ _ _ h := h
  perform _ _ _ number _ e proposal h _ _ _ := Fenced.perform htoken h options number e proposal

theorem DelegationConfig.start_keeps (limits : DelegationLimits)
    (options : Nat → DelegationManagerOptions) {store : InMemoryDelegationStore}
    (hsound : store.Sound token) :
    (DelegationConfig.start limits token options store).Keeps delegationObserver
      fun (shared : SharedDelegations) _ => shared.Fenced token where
  follows thread hmem := by simp [DelegationConfig.start] at hmem
  holds :=
    { sound := hsound
      issued := nofun
      dead := by
        rintro delegationKey leaseToken ⟨earlier, later, hsplit, -⟩
        simp [DelegationConfig.start] at hsplit }

/-- A step of a superseded run. -/
theorem exec_superseded {c : DelegationConfig limits token options}
    (hkeeps : c.Keeps delegationObserver fun (shared : SharedDelegations) _ => shared.Fenced token)
    {i : Nat} (hsuperseded : DelegationConfig.Superseded c i) (answers : (e : DelegationEffect) → DelegationAnswer e) :
    (c.exec delegationObserver (.resume i answers)).state.store.records = c.state.store.records ↔
      c.Meets (SparesRecords limits) (.resume i answers) := by
  obtain ⟨number, phase, sequence, leaseToken, hi, hholds, hover⟩ := hsuperseded
  unfold Config.exec Config.Meets
  dsimp only
  split
  · rename_i caller phase' e k hthread
    obtain ⟨hallows, -⟩ := hkeeps.follows _ (List.mem_of_getElem? hthread)
    have hroster : c.roster[i]? = some (caller, phase') := by
      simp [Config.roster, hthread]
    obtain ⟨rfl, rfl⟩ := Prod.mk.inj (Option.some.inj (hroster.symm.trans hi))
    have hdead := hkeeps.holds.dead _ _ hover
    refine (perform_dead limits hholds hdead hallows (answers e)).trans ?_
    unfold SparesRecords
    cases e <;> exact Iff.rfl
  · exact iff_of_true rfl trivial

/-- A settled record stays as it is. -/
theorem run_terminal (htoken : Function.Injective token)
    {c : DelegationConfig limits token options}
    (hkeeps : c.Keeps delegationObserver fun (shared : SharedDelegations) _ => shared.Fenced token)
    {key : DelegationKey} {record : DelegationRecord}
    (hget : c.state.store.records.get? key = some record)
    (hterminal : record.status.terminal = true)
    (labels : List (Label (delegationMachine limits token options))) :
    (c.run delegationObserver labels).state.store.records.get? key = some record := by
  induction labels generalizing c with
  | nil => exact hget
  | cons label labels ih =>
    have hmeets : c.Meets (fun _ _ _ _ => True) label :=
      (@Config.runMeets_of_forall _ _ _ _ delegationObserver _ (fun _ _ _ _ => trivial) c [label]).1
    refine ih (hkeeps.exec (delegationMachine_invariant htoken) hmeets) ?_
    cases label with
    | call caller method => exact hget
    | resume i answers =>
      unfold Config.exec
      dsimp only
      split
      · exact perform_terminal hkeeps.holds.sound _ _ hget hterminal
      · exact hget

/-- Whatever the managers of a store do, in any order: a run whose lease was taken over
changes a record exactly by a cancellation that the store carries out, and a settled record
stays as it is. -/
theorem superseded_runs_change_nothing (htoken : Function.Injective token)
    {store : InMemoryDelegationStore} (hsound : store.Sound token)
    (labels : List (Label (delegationMachine limits token options))) :
    let c := (DelegationConfig.start limits token options store).run delegationObserver labels
    (∀ i, DelegationConfig.Superseded c i → ∀ answers,
      ((c.exec delegationObserver (.resume i answers)).state.store.records =
          c.state.store.records ↔ c.Meets (SparesRecords limits) (.resume i answers))) ∧
    ∀ key record, c.state.store.records.get? key = some record →
      record.status.terminal = true → ∀ later,
      (c.run delegationObserver later).state.store.records.get? key = some record := by
  have hkeeps := Config.run_keeps (delegationMachine_invariant htoken)
    (DelegationConfig.start_keeps limits options hsound)
    (Config.runMeets_of_forall (fun _ _ _ _ => trivial) _ labels)
  exact ⟨fun i hsuperseded answers => exec_superseded hkeeps hsuperseded answers,
    fun key record hget hterminal later => run_terminal htoken hkeeps hget hterminal later⟩

end Runs

/-! ## A cancellation from the abort path -/

theorem text_ofNat_injective : Function.Injective fun n => (Decimal.ofNat n).text := by
  intro m n h
  have hsame := congrArg Decimal.value (Decimal.text_ext h)
  rwa [Decimal.value_ofNat, Decimal.value_ofNat] at hsame

/-- A new store. -/
def InMemoryDelegationStore.empty : InMemoryDelegationStore where
  records := .empty
  leases := .empty
  settledTokens := .empty
  issued := 0
  keyed := by simp

/-- A store with one delegation that waits for a run. -/
def scoutStore : InMemoryDelegationStore :=
  InMemoryDelegationStore.empty.put
    { scoutRecord with
      status := .pending
      revision := Decimal.ofNat 1
      attempt := Decimal.ofNat 0
      startedAt := none }

theorem scoutStore_sound (token : Nat → String) : scoutStore.Sound token where
  unique key key' record record' hget hget' _ := by
    have hkey := scoutStore.keyed key record hget
    have hkey' := scoutStore.keyed key' record' hget'
    obtain rfl := List.mem_singleton.1 (OrderedMap.mem_values.2 ⟨key, hget⟩)
    obtain rfl := List.mem_singleton.1 (OrderedMap.mem_values.2 ⟨key', hget'⟩)
    exact hkey.symm.trans hkey'
  leased := nofun
  settled := nofun
  leaseToken := nofun
  settledToken := nofun

/-- Answers of the surroundings at some time. -/
def scoutAnswers (aborted : Bool) (now : Except DelegationError String) (expiry : String) :
    (e : DelegationEffect) → DelegationAnswer e
  | .aborted => aborted
  | .operationalNow => now
  | .leaseExpiresAt _ => .ok expiry
  | e => guildAnswers (.error .lease) e

abbrev ScoutLabel := Label (delegationMachine guildManager.limits
  (fun n => (Decimal.ofNat n).text) fun _ => guildManager)

def scoutCall (number : Nat) : ScoutLabel := .call number (.run scoutRecord.key)

def scoutStep (thread : Nat) (aborted : Bool) (now : Except DelegationError String)
    (expiry : String) : ScoutLabel :=
  .resume thread (scoutAnswers aborted now expiry)

/-- A run claims the delegation and is held up until its lease has expired and another
manager's run has claimed it; then its clock fails and its signal is aborted. -/
def scoutHeldUp : List ScoutLabel :=
  [scoutCall 0] ++
  List.replicate 6
    (scoutStep 0 false (.ok "2026-01-01T00:00:00.000Z") "2026-01-01T00:05:00.000Z") ++
  [scoutCall 1] ++
  List.replicate 5
    (scoutStep 1 false (.ok "2026-01-01T00:06:00.000Z") "2026-01-01T00:11:00.000Z") ++
  [scoutStep 0 false (.error (.host "aborted")) "",
    scoutStep 0 true (.error (.host "aborted")) "",
    scoutStep 0 true (.error (.host "aborted")) "",
    scoutStep 0 true (.ok "2026-01-01T00:07:00.000Z") ""]

/-- What the first run got. -/
def scoutDelivery : DelegationDelivery :=
  ⟨scoutRecord, "0", "worker-1", "2026-01-01T00:05:00.000Z"⟩

/-- The configuration before the first run's cancellation reaches the store. -/
def scoutHeldUpConfig : DelegationConfig guildManager.limits (fun n => (Decimal.ofNat n).text)
    fun _ => guildManager :=
  (DelegationConfig.start _ _ _ scoutStore).run delegationObserver scoutHeldUp

def scoutRoster : List (Nat × DelegationPhase) := Config.roster scoutHeldUpConfig

/-- The phase the first run is held up in. -/
def scoutHeldPhase : DelegationPhase := .registered scoutRecord.key scoutDelivery 0

theorem scoutRoster_held : scoutRoster.head? = some (0, scoutHeldPhase) := by decide +kernel

theorem superseded_scout_runs :
    let c := (DelegationConfig.start guildManager.limits (fun n => (Decimal.ofNat n).text)
      (fun _ => guildManager) scoutStore).run delegationObserver scoutHeldUp
    (∀ i, DelegationConfig.Superseded c i → ∀ answers,
      ((c.exec delegationObserver (.resume i answers)).state.store.records =
          c.state.store.records ↔ c.Meets (SparesRecords guildManager.limits) (.resume i answers))) ∧
    ∀ key record, c.state.store.records.get? key = some record →
      record.status.terminal = true → ∀ later,
      (c.run delegationObserver later).state.store.records.get? key = some record :=
  superseded_runs_change_nothing text_ofNat_injective (scoutStore_sound _) scoutHeldUp

/-- The run whose lease was taken over cancels the delegation of the one that holds it. -/
theorem superseded_run_cancels :
    DelegationConfig.Superseded scoutHeldUpConfig 0 ∧
    (scoutHeldUpConfig.exec delegationObserver
      (.resume 0 (guildAnswers (.error .lease)))).state.store.records ≠
        scoutHeldUpConfig.state.store.records := by
  refine ⟨⟨0, scoutHeldPhase, scoutRecord.sequence, "0", ?_,
    ⟨rfl, rfl⟩, [], [(1, "1")], ?_, "1", ?_⟩, fun h => ?_⟩
  · exact List.head?_eq_getElem?.symm.trans scoutRoster_held
  · decide +kernel
  · decide
  · have hstatus := congrArg (fun records =>
      (OrderedMap.get? records scoutRecord.key).map fun record => record.status) h
    revert hstatus
    decide +kernel

end OpenGameAgent
