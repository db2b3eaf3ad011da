import OpenGameAgent.Delegation.DelegationManager

/-!
# What a call on a delegation manager may do when

A run reserves a place, claims its delegation, becomes active and finishes; while it holds
a lease it settles the delegation with that lease alone.  `delegationObserver` says so, and
every method of a manager follows it: `follows_body`.
-/

namespace OpenGameAgent

/-- How far the current run of a call has got. -/
inductive DelegationPhase where
  /-- Before a run has reserved its place, or behind its end. -/
  | outside
  | reserved
  | claimed (key : DelegationKey) (delivery : DelegationDelivery)
  | registered (key : DelegationKey) (delivery : DelegationDelivery) (number : Nat)
  deriving DecidableEq

namespace DelegationPhase

/-- The run holds the lease of this token on the delegation. -/
def Holds (phase : DelegationPhase) (sequence : DelegationSequenceKey) (leaseToken : String) :
    Prop :=
  match phase with
  | outside | reserved => False
  | claimed _ delivery | registered _ delivery _ =>
    delivery.record.sequence = sequence ∧ delivery.leaseToken = leaseToken

/-- The run is between its reservation and its end. -/
def live (phase : DelegationPhase) : Bool := phase ≠ outside

/-- The run has reserved a place and is not active yet. -/
def starting : DelegationPhase → Bool
  | reserved | claimed _ _ => true
  | outside | registered _ _ _ => false

/-- The run is active. -/
def active : DelegationPhase → Bool
  | registered _ _ _ => true
  | outside | reserved | claimed _ _ => false

end DelegationPhase

/-- The phases of a call. -/
def delegationObserver : Observer DelegationEffect DelegationAnswer DelegationPhase where
  start := .outside
  next phase e a :=
    match e, a with
    | .reserve, .ok _ => .reserved
    | .claim request, .ok delivery => .claimed request.toDelegationKey delivery
    | .register key delivery _, number => .registered key delivery number
    | .finish _ _, _ => .outside
    | _, _ => phase
  allows phase e :=
    match e with
    | .reserve => phase = .outside
    | .claim _ => phase = .reserved
    | .register key delivery input =>
      phase = .claimed key delivery ∧ input = toInput delivery.record
    | .attach key number _ => ∃ delivery, phase = .registered key delivery number
    | .bindRun sequence leaseToken _ _ | .fail sequence leaseToken _ _
    | .abandon sequence leaseToken _ | .complete sequence leaseToken _ _ =>
      phase.Holds sequence leaseToken
    | .renew _ _ _ _ => phase = .outside
    | .finish key reserved =>
      (phase.starting = true ∧ reserved = true) ∨
        ∃ delivery number, phase = .registered key delivery number ∧ reserved = false
    | _ => True

/-! ## Requests -/

section Requests

variable {limits : DelegationLimits} {phase : DelegationPhase} {sequence : DelegationSequenceKey}
  {leaseToken now : String}

theorem quiet_throwIfAborted : Task.Quiet delegationObserver phase DelegationTask.throwIfAborted := by
  refine (Task.quiet_perform ⟨trivial, fun _ => rfl⟩).bind fun aborted => ?_
  split
  · exact Task.quiet_throw
  · exact Task.quiet_pure

theorem quiet_operationalNow : Task.Quiet delegationObserver phase operationalNow :=
  (Task.quiet_perform ⟨trivial, fun _ => rfl⟩).bind fun _ =>
    Task.quiet_ofExcept.bind fun _ => Task.quiet_ofExcept.bind fun _ => Task.quiet_pure

theorem quiet_assertDelegationLease : Task.Quiet delegationObserver phase
    (assertDelegationLease limits sequence leaseToken now) :=
  Task.quiet_ofExcept.bind fun _ => Task.quiet_ofExcept.bind fun _ =>
    (Task.quiet_perform ⟨trivial, fun _ => rfl⟩).bind fun _ => Task.quiet_ofExcept

theorem quiet_bindDelegationRun (h : phase.Holds sequence leaseToken) {runId : String} :
    Task.Quiet delegationObserver phase
      (bindDelegationRun limits sequence leaseToken runId now) :=
  Task.quiet_ofExcept.bind fun _ => Task.quiet_ofExcept.bind fun _ =>
    Task.quiet_ofExcept.bind fun _ =>
      (Task.quiet_perform ⟨h, fun _ => rfl⟩).bind fun _ => Task.quiet_ofExcept

theorem quiet_failDelegation (h : phase.Holds sequence leaseToken) {code : String} :
    Task.Quiet delegationObserver phase (failDelegation limits sequence leaseToken code now) :=
  Task.quiet_ofExcept.bind fun _ => Task.quiet_ofExcept.bind fun _ =>
    Task.quiet_ofExcept.bind fun _ =>
      (Task.quiet_perform ⟨h, fun _ => rfl⟩).bind fun _ => Task.quiet_ofExcept

theorem quiet_abandonDelegation (h : phase.Holds sequence leaseToken) :
    Task.Quiet delegationObserver phase (abandonDelegation limits sequence leaseToken now) :=
  Task.quiet_ofExcept.bind fun _ => Task.quiet_ofExcept.bind fun _ =>
    (Task.quiet_perform ⟨h, fun _ => rfl⟩).bind fun _ => Task.quiet_ofExcept

theorem quiet_completeDelegation (h : phase.Holds sequence leaseToken) {result : JsonValue} :
    Task.Quiet delegationObserver phase
      (completeDelegation limits sequence leaseToken result now) :=
  Task.quiet_ofExcept.bind fun _ => Task.quiet_ofExcept.bind fun _ =>
    Task.quiet_ofExcept.bind fun _ =>
      (Task.quiet_perform ⟨h, fun _ => rfl⟩).bind fun _ => Task.quiet_ofExcept

theorem quiet_requireDelegation {key : DelegationKey} :
    Task.Quiet delegationObserver phase (requireDelegation limits key) :=
  Task.quiet_ofExcept.bind fun _ => Task.quiet_ofExcept.bind fun _ =>
    (Task.quiet_perform ⟨trivial, fun _ => rfl⟩).bind fun _ => Task.quiet_ofExcept

theorem quiet_cancelDelegation {key : DelegationKey} {revision : String} :
    Task.Quiet delegationObserver phase (cancelDelegation limits key revision) := by
  refine quiet_operationalNow.bind fun now => Task.quiet_ofExcept.bind fun _ =>
    (Task.quiet_perform ⟨trivial, fun _ => rfl⟩).bind fun answer =>
      Task.quiet_ofExcept.bind fun record =>
        (Task.quiet_perform ⟨trivial, fun _ => rfl⟩).bind fun active => ?_
  split
  · refine (Task.quiet_perform ⟨trivial, fun _ => rfl⟩).bind fun coordinate => ?_
    exact (Task.quiet_perform ⟨trivial, fun _ => rfl⟩).bind fun accepted =>
      Task.quiet_ofExcept.bind fun _ => Task.quiet_pure
  · exact Task.quiet_pure

end Requests

/-! ## Runs -/

section Run

variable {options : DelegationManagerOptions} {key : DelegationKey}
  {delivery : DelegationDelivery} {phase : DelegationPhase}

theorem quiet_settleRun (h : phase.Holds delivery.record.sequence delivery.leaseToken)
    {submitted : GameRunHandle} {result : GameRunResult} :
    Task.Quiet delegationObserver phase (settleRun options delivery submitted result) := by
  unfold settleRun
  split
  · exact quiet_operationalNow.bind fun _ => quiet_abandonDelegation h
  · exact quiet_operationalNow.bind fun _ => quiet_failDelegation h
  · exact quiet_operationalNow.bind fun _ => quiet_failDelegation h
  · refine Task.Quiet.bind ?_ fun output => ?_
    · refine Task.Quiet.tryCatch ?_ fun _ => ?_
      · exact Task.quiet_ofExcept.bind fun text =>
          (Task.quiet_perform ⟨trivial, fun _ => rfl⟩).bind fun answer =>
            Task.quiet_ofExcept.bind fun output => Task.quiet_pure
      · exact quiet_throwIfAborted.bind fun _ => Task.quiet_pure
    · split
      · exact quiet_operationalNow.bind fun _ => quiet_failDelegation h
      · exact Task.quiet_ofExcept.bind fun _ => quiet_operationalNow.bind fun _ =>
          quiet_completeDelegation h

/-- Where a run of `key` may be when its `try` block ends. -/
def Within (key : DelegationKey) (phase : DelegationPhase) (locals : RunLocals) : Prop :=
  (phase = .reserved ∧ locals.reserved = true ∧ locals.delivery = none) ∨
  (∃ delivery, phase = .claimed key delivery ∧ locals.reserved = true ∧
    locals.delivery = some delivery) ∨
  ∃ delivery number, phase = .registered key delivery number ∧ locals.reserved = false ∧
    locals.delivery = some delivery

theorem quiet_startChild {target : DelegationTarget} {input : DelegatedInput}
    {pending : Option PendingOperation} :
    Task.Quiet delegationObserver phase (startChild target input pending) := by
  unfold startChild
  split
  · exact (Task.quiet_perform ⟨trivial, fun _ => rfl⟩).bind fun _ => Task.quiet_ofExcept
  · exact (Task.quiet_perform ⟨trivial, fun _ => rfl⟩).bind fun _ => Task.quiet_ofExcept

theorem follows_runClaimed {target : DelegationTarget} {locals : RunLocals}
    (hdelivery : locals.delivery = some delivery) :
    Task.Follows delegationObserver (fun phase locals _ => Within key phase locals)
      (.claimed key delivery) locals (runClaimed options key delivery target) := by
  unfold runClaimed awaiting
  rw [Task.follows_perform_bind]
  refine ⟨⟨rfl, rfl⟩, fun number => ?_⟩
  rw [Task.follows_modify_bind]
  have hholds : (DelegationPhase.registered key delivery number).Holds delivery.record.sequence
      delivery.leaseToken := ⟨rfl, rfl⟩
  have hwithin : ∀ handle, Within key (.registered key delivery number)
      ⟨false, locals.delivery, handle⟩ := fun handle =>
    Or.inr (Or.inr ⟨delivery, number, rfl, rfl, hdelivery⟩)
  refine quiet_operationalNow.follows_bind (fun _ => hwithin _) fun now => ?_
  refine quiet_assertDelegationLease.follows_bind (fun _ => hwithin _) fun asserted => ?_
  rw [Task.follows_perform_bind]
  refine ⟨trivial, fun pending => ?_⟩
  split
  · exact (quiet_operationalNow.bind fun _ => quiet_abandonDelegation hholds).follows
      fun _ => hwithin _
  · refine quiet_startChild.follows_bind (fun _ => hwithin _) fun submitted => ?_
    rw [Task.follows_modify_bind, Task.follows_perform_bind]
    refine ⟨⟨delivery, rfl⟩, fun attached => ?_⟩
    refine Task.quiet_ofExcept.follows_bind (fun _ => hwithin _) fun _ => ?_
    refine quiet_operationalNow.follows_bind (fun _ => hwithin _) fun now => ?_
    refine (quiet_bindDelegationRun hholds).follows_bind (fun _ => hwithin _) fun bound => ?_
    rw [Task.follows_perform_bind]
    refine ⟨trivial, fun completion => ?_⟩
    refine Task.quiet_ofExcept.follows_bind (fun _ => hwithin _) fun result => ?_
    exact (quiet_settleRun hholds).follows fun _ => hwithin _

theorem follows_claimDelegation {limits : DelegationLimits} {request : DelegationClaimRequest}
    {locals : RunLocals} :
    Task.Follows delegationObserver
      (fun phase locals' result => locals' = locals ∧ match result with
        | .ok delivery => phase = .claimed request.toDelegationKey delivery
        | .error _ => phase = .reserved) .reserved locals (claimDelegation limits request) := by
  unfold claimDelegation awaiting
  refine Task.quiet_ofExcept.follows_bind (fun _ => ⟨rfl, rfl⟩) fun _ => ?_
  refine Task.quiet_ofExcept.follows_bind (fun _ => ⟨rfl, rfl⟩) fun _ => ?_
  refine Task.quiet_ofExcept.follows_bind (fun _ => ⟨rfl, rfl⟩) fun _ => ?_
  refine Task.quiet_ofExcept.follows_bind (fun _ => ⟨rfl, rfl⟩) fun _ => ?_
  refine Task.quiet_ofExcept.follows_bind (fun _ => ⟨rfl, rfl⟩) fun _ => ?_
  rw [Task.follows_perform_bind]
  refine ⟨rfl, fun answer => ?_⟩
  rw [Task.follows_ofExcept]
  cases answer with
  | ok delivery => exact ⟨rfl, rfl⟩
  | error e => exact ⟨rfl, rfl⟩

theorem follows_runReserved :
    Task.Follows delegationObserver (fun phase locals _ => Within key phase locals) .reserved
      .start (runReserved options key) := by
  have hstart : Within key .reserved .start := Or.inl ⟨rfl, rfl, rfl⟩
  unfold runReserved awaiting
  refine quiet_operationalNow.follows_bind (fun _ => hstart) fun now => ?_
  rw [Task.follows_perform_bind]
  refine ⟨trivial, fun expiry => ?_⟩
  refine Task.quiet_ofExcept.follows_bind (fun _ => hstart) fun expiresAt => ?_
  refine Task.quiet_ofExcept.follows_bind (fun _ => hstart) fun _ => ?_
  rw [Task.follows_bind]
  refine follows_claimDelegation.mono ?_
  rintro phase _ result ⟨rfl, hphase⟩
  cases result with
  | error e =>
    dsimp only at hphase ⊢
    subst hphase
    exact hstart
  | ok delivery =>
    dsimp only at hphase ⊢
    subst hphase
    rw [Task.follows_modify_bind]
    have hclaimed : Within key (.claimed key delivery) ⟨true, some delivery, none⟩ :=
      Or.inr (Or.inl ⟨delivery, rfl, rfl, rfl⟩)
    have hholds : (DelegationPhase.claimed key delivery).Holds delivery.record.sequence
        delivery.leaseToken := ⟨rfl, rfl⟩
    split
    · split
      · exact follows_runClaimed rfl
      · exact (quiet_operationalNow.bind fun _ => quiet_failDelegation hholds).follows
          fun _ => hclaimed
    · exact (quiet_operationalNow.bind fun _ => quiet_failDelegation hholds).follows
        fun _ => hclaimed

theorem follows_runFailed {locals : RunLocals} (h : Within key phase locals)
    (error : DelegationError) :
    Task.Follows delegationObserver (fun phase locals _ => Within key phase locals) phase locals
      (runFailed options key error) := by
  have hholds : ∀ delivery, locals.delivery = some delivery →
      phase.Holds delivery.record.sequence delivery.leaseToken := by
    intro delivery hdelivery
    rcases h with ⟨-, -, hnone⟩ | ⟨other, rfl, -, hsome⟩ | ⟨other, number, rfl, -, hsome⟩
    · rw [hnone] at hdelivery
      cases hdelivery
    · obtain rfl := Option.some.inj (hsome.symm.trans hdelivery)
      exact ⟨rfl, rfl⟩
    · obtain rfl := Option.some.inj (hsome.symm.trans hdelivery)
      exact ⟨rfl, rfl⟩
  unfold runFailed awaiting
  rw [Task.follows_perform_bind]
  refine ⟨trivial, fun aborted => ?_⟩
  split
  · -- The signal is aborted: the delegation is cancelled.
    refine Task.Quiet.follows ?_ fun _ => h
    refine Task.Quiet.bind ?_ fun _ => Task.quiet_throw
    refine Task.Quiet.tryCatch ?_ fun _ => Task.quiet_pure
    refine quiet_requireDelegation.bind fun current => ?_
    split
    · exact quiet_cancelDelegation.bind fun _ => Task.quiet_pure
    · exact Task.quiet_pure
  · split
    · exact Task.quiet_throw.follows fun _ => h
    · rw [Task.follows_get_bind]
      split
      · rename_i delivery hdelivery _
        refine Task.Quiet.follows ?_ fun _ => h
        refine Task.Quiet.bind ?_ fun _ => Task.quiet_throw
        refine Task.Quiet.tryCatch ?_ fun _ => Task.quiet_pure
        exact quiet_operationalNow.bind fun _ =>
          (quiet_abandonDelegation (hholds delivery hdelivery)).bind fun _ => Task.quiet_pure
      · rename_i delivery _ hdelivery _
        refine Task.Quiet.follows ?_ fun _ => h
        refine Task.Quiet.tryCatch ?_ fun _ => Task.quiet_throw
        exact quiet_operationalNow.bind fun _ =>
          quiet_failDelegation (hholds delivery hdelivery)
      · exact Task.quiet_throw.follows fun _ => h

/-- A run comes back to where it began. -/
theorem follows_runDelegation {locals : RunLocals} :
    Task.Follows delegationObserver (fun phase _ _ => phase = .outside) .outside locals
      (runDelegation options key) := by
  unfold runDelegation awaiting
  refine quiet_throwIfAborted.follows_bind (fun _ => rfl) fun _ => ?_
  rw [Task.follows_perform_bind]
  refine ⟨rfl, fun answer => ?_⟩
  rw [Task.follows_bind, Task.follows_ofExcept]
  cases answer with
  | error e => exact rfl
  | ok reserved =>
    dsimp only
    rw [Task.follows_set_bind, Task.follows_ensuring, Task.follows_tryCatch]
    refine follows_runReserved.mono fun phase locals result hwithin => ?_
    have hfinish : ∀ (phase : DelegationPhase) (locals : RunLocals), Within key phase locals →
        Task.Follows delegationObserver
          (fun phase (_ : RunLocals) (_ : Except DelegationError Unit) => phase = .outside)
          phase locals (do
            let locals ← get
            awaiting (.finish key locals.reserved)) := by
      intro phase locals hwithin
      unfold awaiting
      rw [Task.follows_get_bind]
      refine ⟨?_, fun _ => rfl⟩
      rcases hwithin with ⟨rfl, hreserved, -⟩ | ⟨delivery, rfl, hreserved, -⟩ |
          ⟨delivery, number, rfl, hreserved, -⟩
      · exact Or.inl ⟨rfl, hreserved⟩
      · exact Or.inl ⟨rfl, hreserved⟩
      · exact Or.inr ⟨delivery, number, rfl, hreserved⟩
    cases result with
    | ok record => exact hfinish phase locals hwithin
    | error e =>
      exact (follows_runFailed hwithin e).mono fun phase locals _ hwithin =>
        hfinish phase locals hwithin

end Run

/-! ## The other methods -/

section Methods

variable {options : DelegationManagerOptions}

theorem quiet_authorizeToolExecution {sessionId actorId inputId : String} :
    Task.Quiet delegationObserver .outside
      (authorizeToolExecution options sessionId actorId inputId) := by
  refine quiet_throwIfAborted.bind fun _ =>
    (Task.quiet_perform ⟨trivial, fun _ => rfl⟩).bind fun active => ?_
  split
  · exact Task.quiet_throw
  · exact quiet_operationalNow.bind fun _ =>
      quiet_assertDelegationLease.bind fun _ => Task.quiet_pure

theorem quiet_controlDelegation {key : DelegationKey} {text : String} {followUp : Bool} :
    Task.Quiet delegationObserver .outside (controlDelegation options key text followUp) := by
  unfold controlDelegation
  split
  · exact Task.quiet_throw
  · refine (Task.quiet_perform ⟨trivial, fun _ => rfl⟩).bind fun active => ?_
    split
    · refine (Task.quiet_perform ⟨trivial, fun _ => rfl⟩).bind fun coordinate => ?_
      split
      · exact Task.quiet_pure
      · exact (Task.quiet_perform ⟨trivial, fun _ => rfl⟩).bind fun _ => Task.quiet_ofExcept
    · exact Task.quiet_pure

theorem quiet_renewDelegation {key : DelegationKey} {leaseExpiresAt : String} :
    Task.Quiet delegationObserver .outside (renewDelegation options key leaseExpiresAt) := by
  refine (Task.quiet_perform ⟨trivial, fun _ => rfl⟩).bind fun active => ?_
  split
  · exact Task.quiet_throw
  · exact quiet_operationalNow.bind fun _ => Task.quiet_ofExcept.bind fun _ =>
      Task.quiet_ofExcept.bind fun _ =>
        (Task.quiet_perform ⟨rfl, fun _ => rfl⟩).bind fun _ => Task.quiet_ofExcept

theorem follows_recoverRecords {settled records : List DelegationRecord} {locals : RunLocals} :
    Task.Follows delegationObserver (fun phase _ _ => phase = .outside) .outside locals
      (recoverRecords options settled records) := by
  induction records generalizing settled locals with
  | nil => exact rfl
  | cons record rest ih =>
    refine quiet_throwIfAborted.follows_bind (fun _ => rfl) fun _ => ?_
    rw [Task.follows_bind, Task.follows_tryCatch, Task.follows_bind]
    refine follows_runDelegation.mono fun phase locals result hphase => ?_
    subst hphase
    cases result with
    | ok record => exact ih
    | error e =>
      dsimp only
      split
      · exact ih
      · exact rfl

theorem follows_recoverDelegations {partition : DelegationPartition} {locals : RunLocals} :
    Task.Follows delegationObserver (fun phase _ _ => phase = .outside) .outside locals
      (recoverDelegations options partition) := by
  unfold recoverDelegations awaiting
  refine Task.quiet_ofExcept.follows_bind (fun _ => rfl) fun _ => ?_
  refine Task.quiet_ofExcept.follows_bind (fun _ => rfl) fun _ => ?_
  split
  · exact rfl
  · rw [Task.follows_perform_bind]
    refine ⟨trivial, fun answer => ?_⟩
    exact Task.quiet_ofExcept.follows_bind (fun _ => rfl) fun page => follows_recoverRecords

/-- Every call keeps to its phases. -/
theorem follows_body (method : DelegationMethod) :
    (method.body options).Follows delegationObserver (fun _ _ => True) .outside := by
  cases method with
  | run key => exact follows_runDelegation.start.mono fun _ _ _ => trivial
  | recover partition => exact follows_recoverDelegations.start.mono fun _ _ _ => trivial
  | cancel key revision => exact (quiet_cancelDelegation _).start.mono fun _ _ _ => trivial
  | renew key expires => exact (quiet_renewDelegation _).start.mono fun _ _ _ => trivial
  | control key text followUp =>
    exact (quiet_controlDelegation _).start.mono fun _ _ _ => trivial
  | authorizeToolExecution sessionId actorId inputId =>
    exact (quiet_authorizeToolExecution _).start.mono fun _ _ _ => trivial

end Methods

end OpenGameAgent
