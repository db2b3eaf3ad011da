import OpenGameAgent.Protocol.Timestamp
import OpenGameAgent.Protocol.Transcript

/-!
# Action records

The types of `packages/actions/src/types.ts` with their JSON form, and the errors of
`packages/actions/src/errors.ts`.

Attempts, revisions and generations are canonical decimals, so they are natural
numbers.  A timestamp stays the text it is: the code compares timestamps as strings.
-/

namespace OpenGameAgent

/-! ## Errors -/

/-- The errors the Action code throws; `type` and `range` carry their text. -/
inductive ActionError where
  | intentConflict
  | notFound
  | claimConflict
  | stateConflict
  | goalProjectionCapacity
  | attemptExhausted
  | invalidEnvelope
  | invalidIdentifier
  | invalidStreamCoordinate
  | runAuthorityClosed
  | constraint
  | type (message : String)
  | range (message : String)
  deriving DecidableEq, Repr

/-! ## Records -/

inductive ActionReplayPolicy where
  | never | safe | recoverable
  deriving DecidableEq, Repr

def ActionReplayPolicy.text : ActionReplayPolicy → String
  | .never => "never"
  | .safe => "safe"
  | .recoverable => "recoverable"

inductive ActionStatus where
  | pending | claimed | succeeded | failed | uncertain
  deriving DecidableEq, Repr

def ActionStatus.text : ActionStatus → String
  | .pending => "pending"
  | .claimed => "claimed"
  | .succeeded => "succeeded"
  | .failed => "failed"
  | .uncertain => "uncertain"

structure ActionAuthority where
  timelineId : String
  generation : Nat
  revision : Nat
  deriving DecidableEq, Repr

structure ActionGoalProjectionPartition where
  ownerId : String
  timelineId : String
  generation : Nat
  sessionId : Option String
  actorId : Option String
  deriving DecidableEq, Repr

structure ActionGoalProjectionBinding where
  goalId : String
  partition : ActionGoalProjectionPartition
  stepId : String
  expectedRevision : Nat
  inputId : String
  deriving DecidableEq, Repr

structure ActionGoalProjectionLimits where
  maxBindingBytes : Nat
  maxPendingPerStream : Nat
  maxListBatchSize : Nat
  maxRecordBytes : Nat

structure ActionIntentDraft where
  sessionId : String
  actorId : String
  coordinate : RunCoordinate
  actionName : String
  operationKey : String
  payload : JsonValue
  expectedAuthority : ActionAuthority
  conflictKeys : List String
  replayPolicy : ActionReplayPolicy
  goalProjection : Option ActionGoalProjectionBinding

/-- A draft with the identity that its content determines. -/
structure PreparedActionIntent extends ActionIntentDraft where
  operationId : String
  intentFingerprint : String
  payloadFingerprint : String

structure ActionClaim where
  claimToken : String
  claimantId : String
  attempt : Nat
  claimedAt : String
  expiresAt : String
  deriving DecidableEq, Repr

inductive ReceiptOutcome where
  | succeeded | rejected | unknown
  deriving DecidableEq, Repr

def ReceiptOutcome.text : ReceiptOutcome → String
  | .succeeded => "succeeded"
  | .rejected => "rejected"
  | .unknown => "unknown"

structure ActionReceipt where
  operationId : String
  claimToken : String
  attempt : Nat
  outcome : ReceiptOutcome
  receivedAt : String
  result : Option JsonValue
  modelResult : Option JsonValue
  authorityAfter : Option ActionAuthority

inductive SettlementOutcome where
  | advanced | sourceFailed
  deriving DecidableEq, Repr

def SettlementOutcome.text : SettlementOutcome → String
  | .advanced => "advanced"
  | .sourceFailed => "source_failed"

structure ActionGoalProjectionSettlement where
  outcome : SettlementOutcome
  settledAt : String
  deriving DecidableEq, Repr

structure ActionRecord extends PreparedActionIntent where
  status : ActionStatus
  attempt : Nat
  createdAt : String
  updatedAt : String
  claim : Option ActionClaim
  receipt : Option ActionReceipt
  goalProjectionSettlement : Option ActionGoalProjectionSettlement

/-- Claimed or uncertain: the world may be changing. -/
def ActionStatus.unsettled : ActionStatus → Bool
  | .claimed | .uncertain => true
  | _ => false

/-- Succeeded or failed. -/
def ActionStatus.terminal : ActionStatus → Bool
  | .succeeded | .failed => true
  | _ => false

/-- What `recordKey` writes into one JSON text. -/
structure ActionKey where
  sessionId : String
  actorId : String
  operationId : String
  deriving DecidableEq, Repr

def PreparedActionIntent.key (intent : PreparedActionIntent) : ActionKey :=
  ⟨intent.sessionId, intent.actorId, intent.operationId⟩

/-- `recordKey`. -/
abbrev ActionRecord.key (record : ActionRecord) : ActionKey :=
  record.toPreparedActionIntent.key

def PreparedActionIntent.inStream (intent : PreparedActionIntent) (stream : StreamKey) : Bool :=
  intent.sessionId = stream.sessionId && intent.actorId = stream.actorId

/-! ## Requests -/

structure ActionClaimRequest where
  sessionId : String
  actorId : String
  runId : Option String
  claimantId : String
  claimToken : String
  claimedAt : String
  expiresAt : String
  candidateLimit : Nat

def ActionClaimRequest.stream (request : ActionClaimRequest) : StreamKey :=
  ⟨request.sessionId, request.actorId⟩

structure ActionReceiptInput where
  sessionId : String
  actorId : String
  operationId : String
  claimToken : String
  attempt : Nat
  outcome : ReceiptOutcome
  receivedAt : String
  result : Option JsonValue
  modelResult : Option JsonValue
  authorityAfter : Option ActionAuthority

def ActionReceiptInput.key (input : ActionReceiptInput) : ActionKey :=
  ⟨input.sessionId, input.actorId, input.operationId⟩

inductive ReconcileResolution where
  | applied | notApplied | unknown
  deriving DecidableEq, Repr

structure ActionReconcileInput where
  sessionId : String
  actorId : String
  operationId : String
  claimToken : String
  attempt : Nat
  resolution : ReconcileResolution
  reconciledAt : String
  result : Option JsonValue
  modelResult : Option JsonValue
  authorityAfter : Option ActionAuthority

def ActionReconcileInput.key (input : ActionReconcileInput) : ActionKey :=
  ⟨input.sessionId, input.actorId, input.operationId⟩

structure ActionGoalProjectionSettlementInput where
  sessionId : String
  actorId : String
  operationId : String
  intentFingerprint : String
  outcome : SettlementOutcome
  settledAt : String

def ActionGoalProjectionSettlementInput.key (input : ActionGoalProjectionSettlementInput) :
    ActionKey :=
  ⟨input.sessionId, input.actorId, input.operationId⟩

structure ActionGoalProjectionListRequest where
  sessionId : String
  actorId : String
  afterSequence : Option Nat
  limit : Nat

structure ActionTerminalPurgeRequest where
  sessionId : String
  actorId : String
  beforeUpdatedAt : String
  limit : Nat
  retainOperationIds : List String
  retainMaxCount : Nat
  retainMaxBytes : Nat

inductive DeliveryKind where
  | dispatch | reconcile
  deriving DecidableEq, Repr

structure ActionDelivery where
  kind : DeliveryKind
  action : ActionRecord

structure ActionDeliverySelection where
  delivery : Option ActionDelivery
  changed : Bool

structure ActionGoalProjectionCandidate where
  sequence : Nat
  action : ActionRecord

structure ActionGoalProjectionPage where
  candidates : List ActionGoalProjectionCandidate
  nextAfterSequence : Option Nat

/-! ## JSON form -/

def ActionAuthority.toJson (a : ActionAuthority) : JsonValue :=
  .record [("timelineId", some (.text a.timelineId)),
    ("generation", some (.text (toString a.generation))),
    ("revision", some (.text (toString a.revision)))]

def ActionGoalProjectionPartition.toJson (p : ActionGoalProjectionPartition) : JsonValue :=
  .record [("ownerId", some (.text p.ownerId)), ("timelineId", some (.text p.timelineId)),
    ("generation", some (.text (toString p.generation))), ("sessionId", p.sessionId.map .text),
    ("actorId", p.actorId.map .text)]

def ActionGoalProjectionBinding.toJson (b : ActionGoalProjectionBinding) : JsonValue :=
  .record [("goalId", some (.text b.goalId)), ("partition", some b.partition.toJson),
    ("stepId", some (.text b.stepId)),
    ("expectedRevision", some (.text (toString b.expectedRevision))),
    ("inputId", some (.text b.inputId))]

def ActionClaim.toJson (c : ActionClaim) : JsonValue :=
  .record [("claimToken", some (.text c.claimToken)), ("claimantId", some (.text c.claimantId)),
    ("attempt", some (.text (toString c.attempt))), ("claimedAt", some (.text c.claimedAt)),
    ("expiresAt", some (.text c.expiresAt))]

def ActionReceipt.toJson (r : ActionReceipt) : JsonValue :=
  .record [("operationId", some (.text r.operationId)), ("claimToken", some (.text r.claimToken)),
    ("attempt", some (.text (toString r.attempt))), ("outcome", some (.text r.outcome.text)),
    ("receivedAt", some (.text r.receivedAt)), ("result", r.result),
    ("modelResult", r.modelResult),
    ("authorityAfter", r.authorityAfter.map ActionAuthority.toJson)]

def ActionGoalProjectionSettlement.toJson (s : ActionGoalProjectionSettlement) : JsonValue :=
  .record [("outcome", some (.text s.outcome.text)), ("settledAt", some (.text s.settledAt))]

/-- The members a record has from its intent. -/
def PreparedActionIntent.members (i : PreparedActionIntent) : List (String × Option JsonValue) :=
  [("sessionId", some (.text i.sessionId)), ("actorId", some (.text i.actorId)),
    ("operationId", some (.text i.operationId)),
    ("intentFingerprint", some (.text i.intentFingerprint)),
    ("payloadFingerprint", some (.text i.payloadFingerprint)),
    ("coordinate", some i.coordinate.toJson), ("actionName", some (.text i.actionName)),
    ("operationKey", some (.text i.operationKey)), ("payload", some i.payload),
    ("expectedAuthority", some i.expectedAuthority.toJson),
    ("conflictKeys", some (textsJson i.conflictKeys)),
    ("replayPolicy", some (.text i.replayPolicy.text)),
    ("goalProjection", i.goalProjection.map ActionGoalProjectionBinding.toJson)]

def ActionRecord.toJson (r : ActionRecord) : JsonValue :=
  .record (r.members ++
    [("status", some (.text r.status.text)), ("attempt", some (.text (toString r.attempt))),
      ("createdAt", some (.text r.createdAt)), ("updatedAt", some (.text r.updatedAt)),
      ("claim", r.claim.map ActionClaim.toJson), ("receipt", r.receipt.map ActionReceipt.toJson),
      ("goalProjectionSettlement",
        r.goalProjectionSettlement.map ActionGoalProjectionSettlement.toJson)])

end OpenGameAgent
