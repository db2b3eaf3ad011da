import Mathlib.Data.List.Sort
import OpenGameAgent.Actions.Types

/-!
# Validation of Actions

`packages/actions/src/identity.ts`, `validation.ts` and the checks of
`goal-projection.ts`, with the schema of `packages/protocol/src/actions.ts`.

SHA-256 is the parameter `ActionContext.sha256`, from the UTF-16 units of a text to
its hexadecimal digest.
-/

namespace OpenGameAgent

/-- What every check of a journal is relative to. -/
structure ActionContext where
  sha256 : List UInt16 → String
  goalProjectionLimits : Option ActionGoalProjectionLimits

/-! ## Identity -/

def assertOpaqueIdentifier (value : String) : Except ActionError Unit :=
  if isOpaqueIdentifier value then .ok () else .error .invalidIdentifier

def assertOpaqueIdentifiers : List String → Except ActionError Unit
  | [] => .ok ()
  | value :: rest => do
    assertOpaqueIdentifier value
    assertOpaqueIdentifiers rest

/-- `validateCoordinate`. -/
def validateCoordinate (draft : ActionIntentDraft) : Except ActionError Unit := do
  assertOpaqueIdentifiers
    [draft.coordinate.sessionId, draft.coordinate.actorId, draft.coordinate.runId]
  if draft.coordinate.sessionId ≠ draft.sessionId ∨ draft.coordinate.actorId ≠ draft.actorId then
    .error (.type "The action coordinate must match its session and actor.")
  else return ()

/-- `actionOperationId`. -/
def actionOperationId (ctx : ActionContext) (draft : ActionIntentDraft) :
    Except ActionError String := do
  assertOpaqueIdentifiers [draft.sessionId, draft.actorId]
  validateCoordinate draft
  assertOpaqueIdentifiers [draft.actionName, draft.operationKey]
  return "act_" ++ ctx.sha256 (canonicalizeJsonValue (.record
    [("protocolVersion", some (.text "2")), ("coordinate", some draft.coordinate.toJson),
      ("actionName", some (.text draft.actionName)),
      ("operationKey", some (.text draft.operationKey))]))

/-- `isActionOperationId`: the pattern `^act_[0-9a-f]{64}$`. -/
def isActionOperationId (s : String) : Bool :=
  match s.toList with
  | 'a' :: 'c' :: 't' :: '_' :: digits => areSha256Digits digits
  | _ => false

def validateAuthority (authority : ActionAuthority) : Except ActionError Unit :=
  assertOpaqueIdentifier authority.timelineId

/-- `normalizeConflictKeys`; in the sorted list a repeated key stands next to its copy. -/
def normalizeConflictKeys (keys : List String) : Except ActionError (List String) := do
  assertOpaqueIdentifiers keys
  if keys.Nodup then return keys.insertionSort textLe
  else .error (.type "Action conflict keys must be unique.")

/-- `normalizeActionGoalProjectionBinding`, which returns the binding it was given. -/
def normalizeActionGoalProjectionBinding (input : ActionGoalProjectionBinding)
    (action : ActionIntentDraft) (limits : Option ActionGoalProjectionLimits) :
    Except ActionError Unit := do
  assertOpaqueIdentifiers [input.goalId, input.partition.ownerId, input.partition.timelineId,
    input.stepId, input.inputId]
  assertOpaqueIdentifiers input.partition.sessionId.toList
  assertOpaqueIdentifiers input.partition.actorId.toList
  if input.partition.timelineId ≠ action.expectedAuthority.timelineId ∨
      input.partition.generation ≠ action.expectedAuthority.generation then
    .error (.type "The Goal projection partition does not match the Action authority.")
  else if input.partition.sessionId.any (· ≠ action.sessionId) ||
      input.partition.actorId.any (· ≠ action.actorId) then
    .error (.type "The Goal projection partition does not match the Action stream.")
  else if limits.any fun l => l.maxBindingBytes < jsonBytes input.toJson then
    .error (.range "The Goal projection binding exceeds its configured byte budget.")
  else return ()

def ActionIntentDraft.fingerprintJson (draft : ActionIntentDraft) (conflictKeys : List String) :
    JsonValue :=
  .record [("protocolVersion", some (.text "2")), ("coordinate", some draft.coordinate.toJson),
    ("actionName", some (.text draft.actionName)),
    ("operationKey", some (.text draft.operationKey)), ("payload", some draft.payload),
    ("expectedAuthority", some draft.expectedAuthority.toJson),
    ("conflictKeys", some (textsJson conflictKeys)),
    ("replayPolicy", some (.text draft.replayPolicy.text)),
    ("goalProjection", draft.goalProjection.map ActionGoalProjectionBinding.toJson)]

/-- `prepareActionIntent`. -/
def prepareActionIntent (ctx : ActionContext) (draft : ActionIntentDraft) :
    Except ActionError PreparedActionIntent := do
  validateCoordinate draft
  let operationId ← actionOperationId ctx draft
  validateAuthority draft.expectedAuthority
  let conflictKeys ← normalizeConflictKeys draft.conflictKeys
  match draft.goalProjection with
  | none => pure ()
  | some binding => normalizeActionGoalProjectionBinding binding draft ctx.goalProjectionLimits
  return { draft with
    conflictKeys := conflictKeys
    operationId := operationId
    payloadFingerprint := ctx.sha256 (canonicalizeJsonValue draft.payload)
    intentFingerprint :=
      ctx.sha256 (canonicalizeJsonValue (draft.fingerprintJson conflictKeys)) }

/-! ## Records -/

def validateTimestamp (value : String) : Except ActionError Unit :=
  if isCanonicalTimestamp value then .ok () else .error .stateConflict

/-- `hasKnownUnappliedActionOutcome`: the world is known not to have changed. -/
def hasKnownUnappliedActionOutcome (record : ActionRecord) : Bool :=
  if record.attempt = 0 then record.receipt.isNone
  else record.receipt.any fun receipt =>
    receipt.outcome = .rejected && receipt.attempt = record.attempt

def isActionSourceFailed (record : ActionRecord) : Bool :=
  record.status = .failed && hasKnownUnappliedActionOutcome record

/-- The parts of `ActionRecordSchema` that come from the intent. -/
def PreparedActionIntent.fitsSchema (i : PreparedActionIntent) : Bool :=
  isOpaqueIdentifier i.sessionId && isOpaqueIdentifier i.actorId &&
    isActionOperationId i.operationId && isSha256 i.intentFingerprint &&
    isSha256 i.payloadFingerprint && i.coordinate.valid && isOpaqueIdentifier i.actionName &&
    isOpaqueIdentifier i.operationKey && isOpaqueIdentifier i.expectedAuthority.timelineId &&
    i.conflictKeys.all isOpaqueIdentifier &&
    i.goalProjection.all fun b =>
      isOpaqueIdentifier b.goalId && isOpaqueIdentifier b.partition.ownerId &&
        isOpaqueIdentifier b.partition.timelineId && b.partition.sessionId.all isOpaqueIdentifier &&
        b.partition.actorId.all isOpaqueIdentifier && isOpaqueIdentifier b.stepId &&
        isOpaqueIdentifier b.inputId

def ActionClaim.fitsSchema (c : ActionClaim) : Bool :=
  isOpaqueIdentifier c.claimToken && isOpaqueIdentifier c.claimantId && c.attempt ≠ 0 &&
    hasTimestampPattern c.claimedAt && hasTimestampPattern c.expiresAt

def ActionReceipt.fitsSchema (r : ActionReceipt) : Bool :=
  isActionOperationId r.operationId && isOpaqueIdentifier r.claimToken && r.attempt ≠ 0 &&
    hasTimestampPattern r.receivedAt &&
    r.authorityAfter.all fun a => isOpaqueIdentifier a.timelineId

/-- `ActionRecordSchema`. -/
def ActionRecord.fitsSchema (r : ActionRecord) : Bool :=
  r.toPreparedActionIntent.fitsSchema && hasTimestampPattern r.createdAt &&
    hasTimestampPattern r.updatedAt && r.claim.all ActionClaim.fitsSchema &&
    r.receipt.all ActionReceipt.fitsSchema &&
    r.goalProjectionSettlement.all fun s => hasTimestampPattern s.settledAt

/-- `assertActionRecordEnvelope`. -/
def assertActionRecordEnvelope (r : ActionRecord) : Except ActionError Unit :=
  if r.fitsSchema then .ok () else .error .invalidEnvelope

/-- Every timestamp of a record names a day. -/
def ActionRecord.timestampsCanonical (r : ActionRecord) : Bool :=
  isCanonicalTimestamp r.createdAt && isCanonicalTimestamp r.updatedAt &&
    (r.claim.all fun c => isCanonicalTimestamp c.claimedAt && isCanonicalTimestamp c.expiresAt) &&
    (r.receipt.all fun receipt => isCanonicalTimestamp receipt.receivedAt) &&
    r.goalProjectionSettlement.all fun s => isCanonicalTimestamp s.settledAt

/-- The identity of an intent is the one its content determines. -/
def assertPreparedIntent (ctx : ActionContext) (intent : PreparedActionIntent) :
    Except ActionError Unit := do
  let prepared ← prepareActionIntent ctx intent.toActionIntentDraft
  if prepared.operationId ≠ intent.operationId ∨
      prepared.intentFingerprint ≠ intent.intentFingerprint ∨
      prepared.payloadFingerprint ≠ intent.payloadFingerprint then .error .stateConflict
  else return ()

/-- The claim of a record agrees with its status and its attempt. -/
def ActionRecord.claimConsistent (r : ActionRecord) : Bool :=
  r.status.unsettled = r.claim.isSome &&
    r.claim.all fun c => c.attempt = r.attempt && r.attempt ≠ 0 && c.claimedAt < c.expiresAt

/-- The settlement of a record agrees with its source. -/
def ActionRecord.settlementConsistent (r : ActionRecord) : Bool :=
  r.goalProjectionSettlement.all fun s =>
    r.goalProjection.isSome &&
      ((s.outcome = .advanced && r.status = .succeeded &&
          r.receipt.any fun receipt => receipt.outcome = .succeeded) ||
        (s.outcome = .sourceFailed && isActionSourceFailed r)) &&
      r.receipt.all (fun receipt => receipt.receivedAt ≤ s.settledAt) && r.updatedAt = s.settledAt

/-- A record that is pending or failed made no change in the world. -/
def ActionRecord.outcomeConsistent (r : ActionRecord) : Bool :=
  (r.status ≠ .pending && r.status ≠ .failed) || hasKnownUnappliedActionOutcome r

/-- `assertActionRecord`; the checks behind the identity all throw the same error. -/
def assertActionRecord (ctx : ActionContext) (r : ActionRecord) : Except ActionError Unit := do
  assertActionRecordEnvelope r
  assertPreparedIntent ctx r.toPreparedActionIntent
  if r.timestampsCanonical && r.claimConsistent &&
      (r.receipt.all fun receipt => receipt.operationId = r.operationId) &&
      r.outcomeConsistent && r.settlementConsistent then return ()
  else .error .stateConflict

/-- The record whose size `assertActionGoalProjectionRecordFits` measures: a record that
is not settled yet is given room for a settlement. -/
def ActionRecord.budgeted (r : ActionRecord) : ActionRecord :=
  match r.goalProjectionSettlement with
  | none => { r with goalProjectionSettlement := some ⟨.sourceFailed, r.updatedAt⟩ }
  | some _ => r

/-- `assertActionGoalProjectionRecordFits`. -/
def assertActionGoalProjectionRecordFits (ctx : ActionContext) (r : ActionRecord) :
    Except ActionError Unit :=
  if r.goalProjection.isNone then .ok ()
  else match ctx.goalProjectionLimits with
    | none => .error (.type "Goal projection limits are required for Action persistence.")
    | some limits =>
      if limits.maxRecordBytes < jsonBytes r.budgeted.toJson then
        .error (.range "The Goal projection Action record exceeds its configured byte budget.")
      else .ok ()

/-! ## Requests -/

/-- `validateStream`. -/
def validateStream (sessionId actorId : String) : Except ActionError Unit :=
  assertOpaqueIdentifiers [sessionId, actorId]

def assertPositiveSafeInteger (value : Nat) (name : String) : Except ActionError Unit :=
  if 0 < value ∧ value ≤ maxSafeInteger then .ok ()
  else .error (.type (name ++ " must be a positive safe integer."))

/-- `validateActionClaimRequest`. -/
def validateActionClaimRequest (request : ActionClaimRequest) : Except ActionError Unit := do
  assertOpaqueIdentifiers ([request.sessionId, request.actorId] ++ request.runId.toList ++
    [request.claimantId, request.claimToken])
  validateTimestamp request.claimedAt
  validateTimestamp request.expiresAt
  if request.expiresAt ≤ request.claimedAt then
    .error (.type "The action claim expiration must be after its claim time.")
  else assertPositiveSafeInteger request.candidateLimit "candidateLimit"

/-- `validateActionReceiptInput`. -/
def validateActionReceiptInput (input : ActionReceiptInput) : Except ActionError Unit := do
  validateStream input.sessionId input.actorId
  if ¬ isActionOperationId input.operationId then
    .error (.type "The action operation ID is invalid.")
  else if input.claimToken.isEmpty then .error (.type "The action claim token is invalid.")
  else if input.attempt = 0 then .error (.type "A receipt attempt must be positive.")
  else do
    validateTimestamp input.receivedAt
    match input.authorityAfter with
    | none => return ()
    | some authority => validateAuthority authority

/-- `validateActionReconcileInput`. -/
def validateActionReconcileInput (input : ActionReconcileInput) : Except ActionError Unit := do
  validateStream input.sessionId input.actorId
  if ¬ isActionOperationId input.operationId then
    .error (.type "The action operation ID is invalid.")
  else do
    assertOpaqueIdentifier input.claimToken
    if input.attempt = 0 then .error (.type "A reconciliation attempt must be positive.")
    else do
      validateTimestamp input.reconciledAt
      match input.authorityAfter with
      | none => return ()
      | some authority => validateAuthority authority

/-- `captureActionTerminalPurgeRequest`. -/
def captureActionTerminalPurgeRequest (request : ActionTerminalPurgeRequest) :
    Except ActionError Unit := do
  validateStream request.sessionId request.actorId
  validateTimestamp request.beforeUpdatedAt
  assertPositiveSafeInteger request.limit "limit"
  if request.retainOperationIds.length > request.retainMaxCount then
    .error (.range "retainOperationIds exceeds retainBudget.maxCount.")
  else if (request.retainOperationIds.map fun value => utf8Length (utf16 value)).sum >
      request.retainMaxBytes then
    .error (.range "retainOperationIds exceeds retainBudget.maxBytes.")
  else if ¬ request.retainOperationIds.Nodup then
    .error (.type "retainOperationIds must be unique.")
  else if ¬ request.retainOperationIds.all isActionOperationId then
    .error (.type "A retained Action operation ID is invalid.")
  else return ()

/-- `captureActionGoalProjectionListRequest`. -/
def captureActionGoalProjectionListRequest (request : ActionGoalProjectionListRequest)
    (limits : ActionGoalProjectionLimits) : Except ActionError Unit := do
  assertOpaqueIdentifiers [request.sessionId, request.actorId]
  assertPositiveSafeInteger request.limit "limit"
  if request.limit > limits.maxListBatchSize then
    .error (.range "The Goal projection page limit exceeds its configured maximum.")
  else return ()

end OpenGameAgent
