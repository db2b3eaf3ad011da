import OpenGameAgent.Actions.Transitions

/-!
# The interface of an Action journal

`ActionJournal` of `packages/actions/src/types.ts`: the calls, their answers, and the
tests on a record that both journals make.

* `ActionCall` — a call with the run authority it meets: runs are opened and closed
  outside the journal.
-/

namespace OpenGameAgent

/-- The check on a run's authority: it throws `runAuthorityClosed` for a closed run. -/
abbrev RunAuthorityCheck := RunCoordinate → Except ActionError Unit

/-- `isActionRunAuthorityOpen`: closure is the only error that permits retiring work. -/
def isActionRunAuthorityOpen (check : Except ActionError Unit) : Except ActionError Bool :=
  match check with
  | .ok () => .ok true
  | .error .runAuthorityClosed => .ok false
  | .error e => .error e

/-- The calls of `ActionJournal`. -/
inductive ActionOperation where
  | ensure (intent : PreparedActionIntent) (now : String)
  | get (stream : StreamKey) (operationId : String)
  | recoverDelivery (stream : StreamKey)
  | nextDelivery (request : ActionClaimRequest)
  | recordReceipt (input : ActionReceiptInput)
  | reconcile (input : ActionReconcileInput)
  | listGoalProjections (request : ActionGoalProjectionListRequest)
  | settleGoalProjection (input : ActionGoalProjectionSettlementInput)
  | purgeTerminal (request : ActionTerminalPurgeRequest)

/-- A call, and what the run authority says while it runs. -/
structure ActionCall (Authority : Type) where
  authority : Authority
  operation : ActionOperation

inductive ActionAnswer where
  | record (record : ActionRecord)
  | found (record : Option ActionRecord)
  | recovery (delivery : Option ActionDelivery)
  | selection (selection : ActionDeliverySelection)
  | page (page : ActionGoalProjectionPage)
  | purged (operationIds : List String)

/-- The record `ensure` admits for an intent. -/
def PreparedActionIntent.admitted (intent : PreparedActionIntent) (now : String) : ActionRecord :=
  { intent with
    status := .pending
    attempt := 0
    createdAt := now
    updatedAt := now
    claim := none
    receipt := none
    goalProjectionSettlement := none }

/-- A Goal projection that is not settled yet counts against its stream. -/
def ActionRecord.projectionPending (record : ActionRecord) : Bool :=
  record.goalProjection.isSome && record.goalProjectionSettlement.isNone

def requireGoalProjectionLimits (ctx : ActionContext) :
    Except ActionError ActionGoalProjectionLimits :=
  match ctx.goalProjectionLimits with
  | none => .error (.type "Goal projection limits are not configured.")
  | some limits => .ok limits

/-- Does a claim request ask for the runs this record belongs to? -/
def PreparedActionIntent.inRun (intent : PreparedActionIntent) (runId : Option String) : Bool :=
  runId.all fun id => id = intent.coordinate.runId

/-- Is the record a claimed one of the request whose lease has run out? -/
def ActionRecord.dueFor (record : ActionRecord) (request : ActionClaimRequest) : Bool :=
  record.inStream request.stream && record.inRun request.runId && record.status = .claimed &&
    record.claim.any fun c => c.expiresAt ≤ request.claimedAt

/-- Can the record be purged? -/
def ActionRecord.purgeable (record : ActionRecord) (request : ActionTerminalPurgeRequest) : Bool :=
  record.inStream ⟨request.sessionId, request.actorId⟩ &&
    !request.retainOperationIds.contains record.operationId && record.status.terminal &&
    record.updatedAt < request.beforeUpdatedAt &&
    (record.goalProjection.isNone || record.goalProjectionSettlement.isSome)

end OpenGameAgent
