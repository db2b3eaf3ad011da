import OpenGameAgent.Agent.TranscriptCompaction
import OpenGameAgent.Delegation.Delegations
import OpenGameAgent.Library.Coroutine

/-!
# The delegation manager

`DelegationManager` of `packages/delegation/src/manager.ts`, with the requests of
`service.ts` that it makes.

Its methods wait: for its mutex, for the delegation service, for the runtime and for
callbacks of the host.  Each is a task over `DelegationEffect`, which has one effect for
every place where a method waits or reads what others may change meanwhile.  A section
under the mutex is one effect.

* `DelegationManager` — the fields of a manager that change; `DelegationManager.perform`
  is what its own effects do to them.
* `runDelegation`, `cancelDelegation`, … — the methods.
-/

namespace OpenGameAgent

/-! ## What a manager waits for -/

structure DelegatedTaskPayload where
  delegationId : String
  rootDelegationId : String
  parentDelegationId : Option String
  depth : String
  parentSessionId : String
  parentActorId : String
  parentInputId : String
  parentRunId : String
  parentTurn : String
  task : JsonValue
  context : Option JsonValue
  deriving DecidableEq

structure DelegatedInput where
  sessionId : String
  actorId : String
  inputId : String
  payload : DelegatedTaskPayload
  deriving DecidableEq

/-- `GameRunHandle`; its promise is an effect. -/
structure GameRunHandle where
  runId : String
  initialCoordinate : RunCoordinate
  deriving DecidableEq

/-- The fields of `GameDeferredOperation` that a manager reads. -/
structure PendingOperation where
  inputId : String
  operationId : String
  deriving DecidableEq

inductive GameRunStatus where
  | completed | aborted | failed | deferred
  deriving DecidableEq, Repr

structure GameRunResult where
  runId : String
  status : GameRunStatus
  finalOutput : Option String
  deriving DecidableEq

inductive GameRunControl where
  | abort
  | steer (text : String)
  | followUp (text : String)
  deriving DecidableEq, Repr

/-- `ActiveRun`; `number` tells one object from another. -/
structure ActiveRun where
  number : Nat
  delivery : DelegationDelivery
  handle : Option GameRunHandle
  input : DelegatedInput
  deriving DecidableEq

inductive DelegationEffect where
  /-- `signal.aborted`. -/
  | aborted
  | operationalNow
  | leaseExpiresAt (operationalNow : String)
  /-- The mutex section that counts a starting run. -/
  | reserve
  /-- The mutex section that makes a starting run an active one. -/
  | register (key : DelegationKey) (delivery : DelegationDelivery) (input : DelegatedInput)
  /-- The mutex section that gives an active run its handle. -/
  | attach (key : DelegationKey) (number : Nat) (handle : GameRunHandle)
  /-- The mutex section of the last `finally`. -/
  | finish (key : DelegationKey) (reserved : Bool)
  /-- `this.active.get(activeKey(key))` under the mutex. -/
  | findActive (key : DelegationKey)
  /-- The search for an input under the mutex. -/
  | findInput (sessionId actorId inputId : String)
  | claim (request : DelegationClaimRequest)
  | assertLease (key : DelegationSequenceKey) (leaseToken now : String)
  | renew (key : DelegationSequenceKey) (leaseToken now leaseExpiresAt : String)
  | bindRun (key : DelegationSequenceKey) (leaseToken runId now : String)
  | complete (key : DelegationSequenceKey) (leaseToken : String) (result : JsonValue)
      (now : String)
  | fail (key : DelegationSequenceKey) (leaseToken code now : String)
  | abandon (key : DelegationSequenceKey) (leaseToken now : String)
  | cancel (key : DelegationKey) (revision now : String)
  | require (key : DelegationKey)
  | list (request : DelegationListRequest)
  | readDeferred (target : DelegationTarget)
  | resumeDeferred (target : DelegationTarget) (operationId : String)
  | submit (input : DelegatedInput)
  /-- `waitForAbort(handle.completion, signal)`. -/
  | completion (handle : GameRunHandle)
  | outcome (record : DelegationRecord) (childCoordinate : RunCoordinate)
      (childFinalOutput : String)
  | readActiveCoordinate (sessionId actorId : String)
  | control (coordinate : RunCoordinate) (command : GameRunControl)

/-- What an effect is answered with. -/
abbrev DelegationAnswer : DelegationEffect → Type
  | .aborted => Bool
  | .operationalNow | .leaseExpiresAt _ => Except DelegationError String
  | .reserve | .attach _ _ _ => Except DelegationError Unit
  | .register _ _ _ => Nat
  | .finish _ _ => Unit
  | .findActive _ | .findInput _ _ _ => Option ActiveRun
  | .claim _ | .assertLease _ _ _ | .renew _ _ _ _ => Except DelegationError DelegationDelivery
  | .bindRun _ _ _ _ | .complete _ _ _ _ | .fail _ _ _ _ | .abandon _ _ _ | .cancel _ _ _
  | .require _ => Except DelegationError DelegationRecord
  | .list _ => Except DelegationError DelegationPage
  | .readDeferred _ => Option PendingOperation
  | .resumeDeferred _ _ | .submit _ => Except DelegationError GameRunHandle
  | .completion _ => Except DelegationError GameRunResult
  | .outcome _ _ _ => Except DelegationError JsonValue
  | .readActiveCoordinate _ _ => Option RunCoordinate
  | .control _ _ => Except DelegationError Bool

/-! ## The manager's own effects -/

/-- The fields of a manager that change; `numbered` counts the objects it made. -/
structure DelegationManager where
  active : OrderedMap DelegationKey ActiveRun
  starting : Int
  numbered : Nat

/-- `new DelegationManager(...)`. -/
def DelegationManager.empty : DelegationManager := ⟨.empty, 0, 0⟩

/-- `sameInput`. -/
def DelegatedInput.same (input : DelegatedInput) (sessionId actorId inputId : String) : Bool :=
  input.sessionId = sessionId && input.actorId = actorId && input.inputId = inputId

/-- The effects of a manager on itself; the others are answered as proposed. -/
def DelegationManager.perform (limits : DelegationLimits) (manager : DelegationManager) :
    (e : DelegationEffect) → DelegationAnswer e → DelegationAnswer e × DelegationManager
  | .reserve, _ =>
    if (manager.active.entries.length : Int) + manager.starting ≥ limits.maxActiveRuns then
      (.error .capacity, manager)
    else (.ok (), { manager with starting := manager.starting + 1 })
  | .register key delivery input, _ =>
    (manager.numbered,
      { active := manager.active.set key ⟨manager.numbered, delivery, none, input⟩
        starting := manager.starting - 1
        numbered := manager.numbered + 1 })
  | .attach key number handle, _ =>
    match manager.active.get? key with
    | none => (.error .lease, manager)
    | some active =>
      if active.number ≠ number then (.error .lease, manager)
      else (.ok (),
        { manager with active := manager.active.set key { active with handle := some handle } })
  | .finish key reserved, _ =>
    ((),
      { manager with
        active := manager.active.delete key
        starting := if reserved then manager.starting - 1 else manager.starting })
  | .findActive key, _ => (manager.active.get? key, manager)
  | .findInput sessionId actorId inputId, _ =>
    (manager.active.values.find? fun active => active.input.same sessionId actorId inputId,
      manager)
  | _, answer => (answer, manager)

/-! ## The methods -/

/-- The local variables of `run`. -/
structure RunLocals where
  reserved : Bool
  delivery : Option DelegationDelivery
  handle : Option GameRunHandle
  deriving DecidableEq

/-- Before `run` has reserved a place. -/
def RunLocals.start : RunLocals := ⟨true, none, none⟩

abbrev DelegationTask :=
  Task DelegationEffect DelegationAnswer RunLocals DelegationError

/-- `await`. -/
def awaiting (e : DelegationEffect) : DelegationTask (DelegationAnswer e) := Task.perform e

/-- The options of a manager that its methods read; `limits` are those of its service. -/
structure DelegationManagerOptions where
  limits : DelegationLimits
  targets : List DelegationTarget
  workerId : String

/-- `signal.throwIfAborted()`. -/
def DelegationTask.throwIfAborted : DelegationTask Unit := do
  if ← awaiting .aborted then throw (.host "aborted")

/-- `timestamp(await this.options.operationalNow())`. -/
def operationalNow : DelegationTask String := do
  let now ← Task.ofExcept (← awaiting .operationalNow)
  Task.ofExcept (delegationTimestamp now)
  return now

/-! ### Requests of the service -/

section Service

variable (limits : DelegationLimits)

def claimDelegation (request : DelegationClaimRequest) : DelegationTask DelegationDelivery := do
  Task.ofExcept (delegationPartition limits request.toDelegationPartition)
  Task.ofExcept (delegationIdentifier limits request.delegationId "delegation_id")
  Task.ofExcept (delegationIdentifier limits request.leaseOwnerId "lease_owner_id")
  Task.ofExcept (delegationTimestamp request.operationalNow)
  Task.ofExcept (delegationTimestamp request.leaseExpiresAt)
  Task.ofExcept (← awaiting (.claim request))

def assertDelegationLease (key : DelegationSequenceKey) (leaseToken now : String) :
    DelegationTask DelegationDelivery := do
  Task.ofExcept (delegationIdentifier limits leaseToken "lease_token")
  Task.ofExcept (delegationTimestamp now)
  Task.ofExcept (← awaiting (.assertLease key leaseToken now))

def bindDelegationRun (key : DelegationSequenceKey) (leaseToken runId now : String) :
    DelegationTask DelegationRecord := do
  Task.ofExcept (delegationIdentifier limits leaseToken "lease_token")
  Task.ofExcept (delegationIdentifier limits runId "run_id")
  Task.ofExcept (delegationTimestamp now)
  Task.ofExcept (← awaiting (.bindRun key leaseToken runId now))

def failDelegation (key : DelegationSequenceKey) (leaseToken code now : String) :
    DelegationTask DelegationRecord := do
  Task.ofExcept (delegationIdentifier limits leaseToken "lease_token")
  Task.ofExcept (delegationIdentifier limits code "failure_code")
  Task.ofExcept (delegationTimestamp now)
  Task.ofExcept (← awaiting (.fail key leaseToken code now))

def abandonDelegation (key : DelegationSequenceKey) (leaseToken now : String) :
    DelegationTask DelegationRecord := do
  Task.ofExcept (delegationIdentifier limits leaseToken "lease_token")
  Task.ofExcept (delegationTimestamp now)
  Task.ofExcept (← awaiting (.abandon key leaseToken now))

def completeDelegation (key : DelegationSequenceKey) (leaseToken : String) (result : JsonValue)
    (now : String) : DelegationTask DelegationRecord := do
  Task.ofExcept (delegationIdentifier limits leaseToken "lease_token")
  Task.ofExcept (delegationJson limits result limits.maxResultBytes)
  Task.ofExcept (delegationTimestamp now)
  Task.ofExcept (← awaiting (.complete key leaseToken result now))

def requireDelegation (key : DelegationKey) : DelegationTask DelegationRecord := do
  Task.ofExcept (delegationPartition limits key.toDelegationPartition)
  Task.ofExcept (delegationIdentifier limits key.delegationId "delegation_id")
  Task.ofExcept (← awaiting (.require key))

end Service

/-! ### Running a delegation -/

/-- `toInput`. -/
def toInput (record : DelegationRecord) : DelegatedInput where
  sessionId := record.target.sessionId
  actorId := record.target.actorId
  inputId := record.childInputId
  payload :=
    { delegationId := record.delegationId
      rootDelegationId := record.rootDelegationId
      parentDelegationId := record.parentDelegationId
      depth := record.depth
      parentSessionId := record.parent.sessionId
      parentActorId := record.parent.actorId
      parentInputId := record.parent.inputId
      parentRunId := record.parent.runId
      parentTurn := record.parent.turn
      task := record.task
      context := record.context }

/-- `cancel`: the record is cancelled, and an active run of this manager aborted. -/
def cancelDelegation (limits : DelegationLimits) (key : DelegationKey) (revision : String) :
    DelegationTask DelegationRecord := do
  let now ← operationalNow
  Task.ofExcept (delegationDecimal limits revision "revision")
  let record ← Task.ofExcept (← awaiting (.cancel key revision now))
  match (← awaiting (.findActive key) : Option ActiveRun) with
  | some ⟨_, _, some handle, input⟩ => do
    let coordinate ← awaiting (.readActiveCoordinate input.sessionId input.actorId)
    let _ ← Task.ofExcept (← awaiting
      (.control (coordinate.getD handle.initialCoordinate) .abort))
    return record
  | _ => return record

section Run

variable (options : DelegationManagerOptions) (key : DelegationKey)

/-- The final output of a child run, as the outcome callback gets it. -/
def childFinalOutput (submitted : GameRunHandle) (result : GameRunResult) :
    Except DelegationError String := do
  match result.finalOutput with
  | none => .error (.host "The completed child run has no exact final output.")
  | some output =>
    demand (result.runId = submitted.runId)
      (.host "The completed child run has no exact final output.")
    delegationJson options.limits (.text output) options.limits.maxResultBytes
    demand (!isBlank output) (.host "The completed child run has no exact final output.")
    return output

/-- What `run` does with the result of the child run. -/
def settleRun (delivery : DelegationDelivery) (submitted : GameRunHandle)
    (result : GameRunResult) : DelegationTask DelegationRecord := do
  match result.status with
  | .deferred => do
    abandonDelegation options.limits delivery.record.sequence delivery.leaseToken
      (← operationalNow)
  | .aborted => do
    failDelegation options.limits delivery.record.sequence delivery.leaseToken "child_aborted"
      (← operationalNow)
  | .failed => do
    failDelegation options.limits delivery.record.sequence delivery.leaseToken "child_failed"
      (← operationalNow)
  | .completed => do
    let output : Option JsonValue ← tryCatch (do
      let text ← Task.ofExcept (childFinalOutput options submitted result)
      let output ← Task.ofExcept (← awaiting
        (.outcome delivery.record submitted.initialCoordinate text))
      return some output) fun _ => do
        DelegationTask.throwIfAborted
        return none
    match output with
    | none => do
      failDelegation options.limits delivery.record.sequence delivery.leaseToken
        "result_unavailable" (← operationalNow)
    | some output => do
      Task.ofExcept (delegationJson options.limits output options.limits.maxResultBytes)
      completeDelegation options.limits delivery.record.sequence delivery.leaseToken output
        (← operationalNow)

/-- The child run of a delegation, resumed if it is pending. -/
def startChild (target : DelegationTarget) (input : DelegatedInput)
    (pending : Option PendingOperation) : DelegationTask GameRunHandle :=
  match pending with
  | some pending => do
    Task.ofExcept (← awaiting (.resumeDeferred target pending.operationId))
  | none => do Task.ofExcept (← awaiting (.submit input))

/-- `run` from the registration of the claimed delegation on. -/
def runClaimed (delivery : DelegationDelivery) (target : DelegationTarget) :
    DelegationTask DelegationRecord := do
  let input := toInput delivery.record
  let number ← awaiting (.register key delivery input)
  modify fun locals => { locals with reserved := false }
  let _ ← assertDelegationLease options.limits delivery.record.sequence delivery.leaseToken
    (← operationalNow)
  let pending : Option PendingOperation ← awaiting (.readDeferred target)
  if pending.any fun pending => pending.inputId ≠ input.inputId then
    abandonDelegation options.limits delivery.record.sequence delivery.leaseToken
      (← operationalNow)
  else do
    let submitted ← startChild target input pending
    modify fun locals => { locals with handle := some submitted }
    Task.ofExcept (← awaiting (.attach key number submitted))
    let _ ← bindDelegationRun options.limits delivery.record.sequence delivery.leaseToken
      submitted.runId (← operationalNow)
    let result ← Task.ofExcept (← awaiting (.completion submitted))
    settleRun options delivery submitted result

/-- The `try` block of `run`. -/
def runReserved : DelegationTask DelegationRecord := do
  let now ← operationalNow
  let expiresAt ← Task.ofExcept (← awaiting (.leaseExpiresAt now))
  Task.ofExcept (delegationTimestamp expiresAt)
  let delivery ← claimDelegation options.limits
    { key with
      leaseOwnerId := options.workerId
      operationalNow := now
      leaseExpiresAt := expiresAt }
  modify fun locals => { locals with delivery := some delivery }
  match options.targets.find? fun target =>
      target.delegateId = delivery.record.target.delegateId with
  | some target =>
    if target = delivery.record.target then runClaimed options key delivery target
    else do
      failDelegation options.limits delivery.record.sequence delivery.leaseToken
        "target_configuration_changed" (← operationalNow)
  | none => do
    failDelegation options.limits delivery.record.sequence delivery.leaseToken
      "target_configuration_changed" (← operationalNow)

/-- The `catch` block of `run`. -/
def runFailed (error : DelegationError) : DelegationTask DelegationRecord := do
  if ← awaiting .aborted then
    tryCatch (do
      let current ← requireDelegation options.limits key
      if current.status = .pending ∨ current.status = .running then
        let _ ← cancelDelegation options.limits key current.revision.text) fun _ => pure ()
    throw (.host "aborted")
  else if error = .lease then throw error
  else do
    let locals ← get
    match locals.delivery, locals.handle with
    | some delivery, none => do
      tryCatch (do
        let _ ← abandonDelegation options.limits delivery.record.sequence delivery.leaseToken
          (← operationalNow)) fun _ => pure ()
      throw error
    | some delivery, some _ => do
      tryCatch (do
        failDelegation options.limits delivery.record.sequence delivery.leaseToken
          "executor_failed" (← operationalNow)) fun _ => throw error
    | none, _ => throw error

/-- `run`. -/
def runDelegation : DelegationTask DelegationRecord := do
  DelegationTask.throwIfAborted
  Task.ofExcept (← awaiting .reserve)
  set RunLocals.start
  Task.ensuring (tryCatch (runReserved options key) (runFailed options key)) do
    let locals ← get
    awaiting (.finish key locals.reserved)

end Run

/-! ### The other methods -/

section Methods

variable (options : DelegationManagerOptions)

/-- `authorizeToolExecution`. -/
def authorizeToolExecution (sessionId actorId inputId : String) : DelegationTask Unit := do
  DelegationTask.throwIfAborted
  match (← awaiting (.findInput sessionId actorId inputId) : Option ActiveRun) with
  | none => throw .lease
  | some active => do
    let _ ← assertDelegationLease options.limits active.delivery.record.sequence
      active.delivery.leaseToken (← operationalNow)

/-- `control`. -/
def controlDelegation (key : DelegationKey) (text : String) (followUp : Bool) :
    DelegationTask Bool := do
  if text.isEmpty || text.utf8ByteSize > options.limits.maxControlTextBytes then
    throw (.delegation "invalid_control_text")
  else do
    match (← awaiting (.findActive key) : Option ActiveRun) with
    | some ⟨_, _, some _, input⟩ => do
      match (← awaiting (.readActiveCoordinate input.sessionId input.actorId) :
          Option RunCoordinate) with
      | none => return false
      | some coordinate => do
        Task.ofExcept (← awaiting
          (.control coordinate (if followUp then .followUp text else .steer text)))
    | _ => return false

/-- `renew`. -/
def renewDelegation (key : DelegationKey) (leaseExpiresAt : String) :
    DelegationTask DelegationDelivery := do
  match (← awaiting (.findActive key) : Option ActiveRun) with
  | none => throw .lease
  | some active => do
    let now ← operationalNow
    Task.ofExcept (delegationIdentifier options.limits active.delivery.leaseToken "lease_token")
    Task.ofExcept (delegationTimestamp leaseExpiresAt)
    Task.ofExcept (← awaiting (.renew active.delivery.record.sequence
      active.delivery.leaseToken now leaseExpiresAt))

/-- The loop of `recover`. -/
def recoverRecords (settled : List DelegationRecord) :
    List DelegationRecord → DelegationTask (List DelegationRecord)
  | [] => return settled
  | record :: rest => do
    DelegationTask.throwIfAborted
    let result ← tryCatch (do return some (← runDelegation options record.key)) fun error =>
      if error = .lease then pure none else throw error
    recoverRecords (settled ++ result.toList) rest

/-- `recover`. -/
def recoverDelegations (partition : DelegationPartition) :
    DelegationTask (List DelegationRecord) := do
  Task.ofExcept (delegationPartition options.limits partition)
  Task.ofExcept (delegationPositive options.limits.maxRecoveryBatchSize "list_limit")
  if options.limits.maxRecoveryBatchSize > options.limits.maxPageSize then
    throw (.range "delegation_page_too_large")
  else do
    let page : DelegationPage ← Task.ofExcept (← awaiting (.list
      { partition with
        statuses := some [.pending, .running]
        afterDelegationKey := none
        limit := options.limits.maxRecoveryBatchSize }))
    recoverRecords options [] page.records

end Methods

/-- The calls on a manager. -/
inductive DelegationMethod where
  | run (key : DelegationKey)
  | recover (partition : DelegationPartition)
  | cancel (key : DelegationKey) (revision : String)
  | renew (key : DelegationKey) (leaseExpiresAt : String)
  | control (key : DelegationKey) (text : String) (followUp : Bool)
  | authorizeToolExecution (sessionId actorId inputId : String)

/-- What a call runs. -/
def DelegationMethod.body (options : DelegationManagerOptions) :
    DelegationMethod → Coroutine DelegationEffect DelegationAnswer Unit
  | .run key => (runDelegation options key).start .start
  | .recover partition => (recoverDelegations options partition).start .start
  | .cancel key revision => (cancelDelegation options.limits key revision).start .start
  | .renew key leaseExpiresAt => (renewDelegation options key leaseExpiresAt).start .start
  | .control key text followUp => (controlDelegation options key text followUp).start .start
  | .authorizeToolExecution sessionId actorId inputId =>
    (OpenGameAgent.authorizeToolExecution options sessionId actorId inputId).start .start

end OpenGameAgent
