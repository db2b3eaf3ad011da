import OpenGameAgent.Actions.Validation
import OpenGameAgent.Library.OrderedMap
import OpenGameAgent.Library.Program
import OpenGameAgent.Library.Run

/-!
# Action approvals

The records of `packages/actions/src/approvals.ts`, their checks and transitions, and
`InMemoryActionApprovalStore`.

A revision is a canonical decimal, so it is a natural number.  The checks of a member's
type pass on the types here and are left out.
-/

namespace OpenGameAgent

/-! ## Records -/

/-- The errors of the approval code; `action` is one of the checks it shares with the
Action journals. -/
inductive ApprovalError where
  | conflict
  | notFound
  | action (error : ActionError)
  deriving DecidableEq, Repr

/-- `TypeError`. -/
def ApprovalError.type (message : String) : ApprovalError := .action (.type message)

inductive ActionApprovalStatus where
  | pending | approved | rejected | consumed | expired
  deriving DecidableEq, Repr

structure ActionApprovalRequest where
  sessionId : String
  actorId : String
  coordinate : RunCoordinate
  approvalId : String
  requestFingerprint : String
  policyId : String
  operationId : String
  intentFingerprint : String
  actionName : String
  expectedAuthority : ActionAuthority
  taskId : Option String
  presentation : Option JsonValue
  requestedAt : String
  expiresAt : String

inductive ApprovalVerdict where
  | approved | rejected
  deriving DecidableEq, Repr

structure ActionApprovalDecision where
  decision : ApprovalVerdict
  reviewerId : String
  decidedAt : String
  reason : Option String
  deriving DecidableEq, Repr

structure ActionApprovalRecord where
  request : ActionApprovalRequest
  status : ActionApprovalStatus
  revision : Nat
  updatedAt : String
  decision : Option ActionApprovalDecision
  consumedAt : Option String

inductive ApprovalChoice where
  | approve | reject
  deriving DecidableEq, Repr

structure ActionApprovalDecisionInput where
  sessionId : String
  actorId : String
  approvalId : String
  expectedRevision : Nat
  requestFingerprint : String
  decision : ApprovalChoice
  reviewerId : String
  reason : Option String
  decidedAt : String

structure ActionApprovalConsumeInput where
  sessionId : String
  actorId : String
  coordinate : RunCoordinate
  approvalId : String
  expectedRevision : Nat
  operationId : String
  intentFingerprint : String
  currentAuthority : ActionAuthority
  consumedAt : String

structure ActionApprovalExpireInput where
  sessionId : String
  actorId : String
  approvalId : String
  expectedRevision : Nat
  expiredAt : String

structure ActionApprovalListRequest where
  sessionId : String
  actorId : String
  runId : Option String
  limit : Nat

structure ActionApprovalTerminalPurgeRequest where
  sessionId : String
  actorId : String
  beforeUpdatedAt : String
  limit : Nat
  retainApprovalIds : List String
  retainMaxCount : Nat
  retainMaxBytes : Nat

/-! ## Checks -/

/-- A check that the approval code shares with the Action journals. -/
def shared {α : Type} (x : Except ActionError α) : Except ApprovalError α := x.mapError .action

/-- `assertApprovalId`: the pattern `^apr_[0-9a-f]{64}$`. -/
def isApprovalId (s : String) : Bool :=
  match s.toList with
  | 'a' :: 'p' :: 'r' :: '_' :: digits => areSha256Digits digits
  | _ => false

def assertApprovalId (value : String) : Except ApprovalError Unit :=
  demand (isApprovalId value) (.type "The approval identifier is invalid.")

/-- `validateApprovalStream`. -/
def validateApprovalStream (sessionId actorId : String) : Except ApprovalError Unit :=
  shared (assertOpaqueIdentifiers [sessionId, actorId])

/-- `assertEventStreamCoordinate`. -/
def assertApprovalCoordinate (sessionId actorId : String) (coordinate : RunCoordinate) :
    Except ApprovalError Unit :=
  demand (isOpaqueIdentifier sessionId && isOpaqueIdentifier actorId && coordinate.valid &&
    sessionId = coordinate.sessionId && actorId = coordinate.actorId)
    (.action .invalidStreamCoordinate)

/-- `fingerprintApprovalRequest`. -/
def approvalRequestFingerprintFromRequest (ctx : ActionContext)
    (request : ActionApprovalRequest) : String :=
  ctx.sha256 (canonicalizeJsonValue (.record
    [("protocolVersion", some (.text "3")), ("coordinate", some request.coordinate.toJson),
      ("policyId", some (.text request.policyId)),
      ("operationId", some (.text request.operationId)),
      ("intentFingerprint", some (.text request.intentFingerprint)),
      ("actionName", some (.text request.actionName)),
      ("expectedAuthority", some request.expectedAuthority.toJson),
      ("taskId", some ((request.taskId.map JsonValue.text).getD .null)),
      ("presentationPresent", some (.bool request.presentation.isSome)),
      ("presentation", some (request.presentation.getD .null))]))

/-- The identifier that the content of a request determines. -/
def approvalIdOf (ctx : ActionContext) (operationId requestFingerprint : String) : String :=
  "apr_" ++ ctx.sha256 (canonicalizeJsonValue (.record
    [("protocolVersion", some (.text "1")), ("operationId", some (.text operationId)),
      ("requestFingerprint", some (.text requestFingerprint))]))

/-- `assertActionApprovalRequest`. -/
def assertActionApprovalRequest (ctx : ActionContext) (request : ActionApprovalRequest) :
    Except ApprovalError Unit := do
  validateApprovalStream request.sessionId request.actorId
  assertApprovalCoordinate request.sessionId request.actorId request.coordinate
  assertApprovalId request.approvalId
  demand (isSha256 request.requestFingerprint) (.type "The request fingerprint is invalid.")
  shared (assertOpaqueIdentifiers [request.policyId, request.operationId, request.actionName])
  demand (isSha256 request.intentFingerprint) (.type "The intent fingerprint is invalid.")
  shared (assertOpaqueIdentifiers request.taskId.toList)
  shared (validateAuthority request.expectedAuthority)
  shared (validateTimestamp request.requestedAt)
  shared (validateTimestamp request.expiresAt)
  demand (!(request.expiresAt ≤ request.requestedAt))
    (.type "The approval expiration must be after its request time.")
  demand (approvalRequestFingerprintFromRequest ctx request = request.requestFingerprint)
    (.type "The approval request fingerprint does not match its content.")
  demand (approvalIdOf ctx request.operationId request.requestFingerprint = request.approvalId)
    (.type "The approval identifier is not content-bound.")

/-- The part of `assertActionApprovalRecord` about a decision. -/
def assertApprovalDecision (request : ActionApprovalRequest)
    (decision : ActionApprovalDecision) : Except ApprovalError Unit := do
  shared (assertOpaqueIdentifier decision.reviewerId)
  shared (validateTimestamp decision.decidedAt)
  demand (!(decision.decidedAt < request.requestedAt || request.expiresAt ≤ decision.decidedAt))
    (.type "The approval decision timestamp is invalid.")

/-- The part of `assertActionApprovalRecord` about a consumption. -/
def assertApprovalConsumption (record : ActionApprovalRecord) (consumedAt : String) :
    Except ApprovalError Unit := do
  shared (validateTimestamp consumedAt)
  demand (record.decision.any (fun decision => !(consumedAt < decision.decidedAt)) &&
      !(record.request.expiresAt ≤ consumedAt) && record.updatedAt = consumedAt)
    (.type "The approval consumption chronology is invalid.")

/-- `assertActionApprovalRecord`. -/
def assertActionApprovalRecord (ctx : ActionContext) (record : ActionApprovalRecord) :
    Except ApprovalError Unit := do
  assertActionApprovalRequest ctx record.request
  demand (0 < record.revision) (.type "The approval revision is invalid.")
  shared (validateTimestamp record.updatedAt)
  record.decision.forM (assertApprovalDecision record.request)
  let verdict := record.decision.map ActionApprovalDecision.decision
  demand (!(record.status = .pending && record.decision.isSome))
    (.type "A pending approval cannot have a decision.")
  demand (!((record.status = .approved || record.status = .rejected ||
      record.status = .consumed) && record.decision.isNone))
    (.type "The approval state requires a durable decision.")
  demand (!(record.status = .approved && verdict ≠ some .approved))
    (.type "The approval state and decision disagree.")
  demand (!(record.status = .rejected && verdict ≠ some .rejected))
    (.type "The approval state and decision disagree.")
  demand (!((record.status = .approved || record.status = .rejected) &&
      some record.updatedAt ≠ record.decision.map ActionApprovalDecision.decidedAt))
    (.type "The approval update timestamp does not match its decision.")
  demand (!(record.status = .consumed && verdict ≠ some .approved))
    (.type "A consumed approval must have an approved decision.")
  demand (!(record.status = .expired && record.updatedAt ≠ record.request.expiresAt))
    (.type "The approval expiration timestamp is invalid.")
  demand ((record.status = .consumed) = record.consumedAt.isSome)
    (.type "The consumed approval state is invalid.")
  record.consumedAt.forM (assertApprovalConsumption record)

/-! ## Transitions -/

/-- `advanceApproval`, on the record with what the transition adds to it. -/
def ActionApprovalRecord.advanceApproval (current : ActionApprovalRecord)
    (status : ActionApprovalStatus) (updatedAt : String) : ActionApprovalRecord :=
  { current with status := status, revision := current.revision + 1, updatedAt := updatedAt }

def assertDecisionInput (input : ActionApprovalDecisionInput) : Except ApprovalError Unit := do
  validateApprovalStream input.sessionId input.actorId
  assertApprovalId input.approvalId
  demand (isSha256 input.requestFingerprint) (.type "The request fingerprint is invalid.")
  shared (assertOpaqueIdentifier input.reviewerId)
  shared (validateTimestamp input.decidedAt)

def assertConsumeInput (input : ActionApprovalConsumeInput) : Except ApprovalError Unit := do
  validateApprovalStream input.sessionId input.actorId
  assertApprovalCoordinate input.sessionId input.actorId input.coordinate
  assertApprovalId input.approvalId
  shared (assertOpaqueIdentifier input.operationId)
  demand (isSha256 input.intentFingerprint) (.type "The intent fingerprint is invalid.")
  shared (validateAuthority input.currentAuthority)
  shared (validateTimestamp input.consumedAt)

def assertExpireInput (input : ActionApprovalExpireInput) : Except ApprovalError Unit := do
  validateApprovalStream input.sessionId input.actorId
  assertApprovalId input.approvalId
  shared (validateTimestamp input.expiredAt)

/-- The decision of an input. -/
def ActionApprovalDecisionInput.decided (input : ActionApprovalDecisionInput) :
    ActionApprovalDecision where
  decision := if input.decision = .approve then .approved else .rejected
  reviewerId := input.reviewerId
  decidedAt := input.decidedAt
  reason := input.reason

/-- The status that a decision gives. -/
def ApprovalVerdict.status : ApprovalVerdict → ActionApprovalStatus
  | .approved => .approved
  | .rejected => .rejected

/-- `decideActionApprovalRecord`. -/
def decideActionApprovalRecord (ctx : ActionContext) (current : ActionApprovalRecord)
    (input : ActionApprovalDecisionInput) : Except ApprovalError ActionApprovalRecord := do
  assertActionApprovalRecord ctx current
  assertDecisionInput input
  demand (current.status = .pending && current.revision = input.expectedRevision) .conflict
  demand (current.request.requestFingerprint = input.requestFingerprint) .conflict
  demand (!(input.decidedAt < current.request.requestedAt)) .conflict
  if current.request.expiresAt ≤ input.decidedAt then
    return current.advanceApproval .expired current.request.expiresAt
  else
    return { current with decision := some input.decided }.advanceApproval
      input.decided.decision.status input.decidedAt

/-- `consumeActionApprovalRecord`; coordinates and authorities are equal when their
canonical texts are. -/
def consumeActionApprovalRecord (ctx : ActionContext) (current : ActionApprovalRecord)
    (input : ActionApprovalConsumeInput) : Except ApprovalError ActionApprovalRecord := do
  assertActionApprovalRecord ctx current
  assertConsumeInput input
  demand (current.status = .approved && current.revision = input.expectedRevision) .conflict
  demand (current.request.coordinate = input.coordinate &&
    current.request.operationId = input.operationId &&
    current.request.intentFingerprint = input.intentFingerprint &&
    current.request.expectedAuthority = input.currentAuthority) .conflict
  if current.request.expiresAt ≤ input.consumedAt then
    return current.advanceApproval .expired current.request.expiresAt
  else
    return { current with consumedAt := some input.consumedAt }.advanceApproval .consumed
      input.consumedAt

/-- `expireActionApprovalRecord`. -/
def expireActionApprovalRecord (ctx : ActionContext) (current : ActionApprovalRecord)
    (input : ActionApprovalExpireInput) : Except ApprovalError ActionApprovalRecord := do
  assertActionApprovalRecord ctx current
  assertExpireInput input
  demand (current.status = .pending && current.revision = input.expectedRevision &&
    !(input.expiredAt < current.request.expiresAt)) .conflict
  return current.advanceApproval .expired current.request.expiresAt

/-! ## The store -/

/-- What `approvalKey` writes into one JSON text. -/
structure ApprovalKey where
  sessionId : String
  actorId : String
  approvalId : String
  deriving DecidableEq, Repr

/-- The calls of a store.  The signal of an expiry is read before the store is, and only
ever refuses the call. -/
inductive ApprovalCall where
  | ensure (request : ActionApprovalRequest)
  | get (key : ApprovalKey)
  | listPending (request : ActionApprovalListRequest) (now : String)
  | decide (input : ActionApprovalDecisionInput)
  | consume (input : ActionApprovalConsumeInput)
  | expire (input : ActionApprovalExpireInput)
  | purgeTerminal (request : ActionApprovalTerminalPurgeRequest)

inductive ApprovalAnswer where
  | record (record : ActionApprovalRecord)
  | found (record : Option ActionApprovalRecord)
  | records (records : List ActionApprovalRecord)
  | purged (approvalIds : List String)

/-- `InMemoryActionApprovalStore`. -/
structure InMemoryActionApprovalStore where
  records : OrderedMap ApprovalKey ActionApprovalRecord

namespace InMemoryActionApprovalStore

def empty : InMemoryActionApprovalStore := ⟨.empty⟩

section Methods

variable (ctx : ActionContext)

/-- `ensure`. -/
def ensure (request : ActionApprovalRequest) :
    EStateM ApprovalError InMemoryActionApprovalStore ActionApprovalRecord := do
  attempt (assertActionApprovalRequest ctx request)
  let store ← get
  let key : ApprovalKey := ⟨request.sessionId, request.actorId, request.approvalId⟩
  match store.records.get? key with
  | some existing =>
    if existing.request.requestFingerprint ≠ request.requestFingerprint then throw .conflict
    else return existing
  | none =>
    let record : ActionApprovalRecord :=
      ⟨request, .pending, 1, request.requestedAt, none, none⟩
    set (⟨store.records.set key record⟩ : InMemoryActionApprovalStore)
    return record

/-- `get`. -/
def find (key : ApprovalKey) :
    EStateM ApprovalError InMemoryActionApprovalStore (Option ActionApprovalRecord) := do
  attempt (validateApprovalStream key.sessionId key.actorId)
  attempt (assertApprovalId key.approvalId)
  let store ← get
  return store.records.get? key

/-- `listPending`. -/
def listPending (request : ActionApprovalListRequest) (now : String) :
    EStateM ApprovalError InMemoryActionApprovalStore (List ActionApprovalRecord) := do
  attempt (validateApprovalStream request.sessionId request.actorId)
  attempt (shared (assertOpaqueIdentifiers request.runId.toList))
  attempt (shared (assertPositiveSafeInteger request.limit "limit"))
  attempt (shared (validateTimestamp now))
  let store ← get
  return (store.records.values.filter fun record =>
    record.request.sessionId = request.sessionId && record.request.actorId = request.actorId &&
      request.runId.all (fun runId => record.request.coordinate.runId = runId) &&
      record.status = .pending && now < record.request.expiresAt).take request.limit

/-- `decide`, `consume` and `expire`: one transition of the record under a key. -/
def advance (key : ApprovalKey)
    (transition : ActionApprovalRecord → Except ApprovalError ActionApprovalRecord) :
    EStateM ApprovalError InMemoryActionApprovalStore ActionApprovalRecord := do
  let store ← get
  match store.records.get? key with
  | none => throw .notFound
  | some current =>
    let advanced ← attempt (transition current)
    set (⟨store.records.set key advanced⟩ : InMemoryActionApprovalStore)
    return advanced

/-- `captureApprovalTerminalPurgeRequest`. -/
def captureApprovalTerminalPurgeRequest (request : ActionApprovalTerminalPurgeRequest) :
    Except ApprovalError Unit := do
  validateApprovalStream request.sessionId request.actorId
  shared (validateTimestamp request.beforeUpdatedAt)
  shared (assertPositiveSafeInteger request.limit "limit")
  demand (request.retainApprovalIds.length ≤ request.retainMaxCount)
    (.action (.range "retainApprovalIds exceeds retainBudget.maxCount."))
  demand ((request.retainApprovalIds.map fun value => utf8Length (utf16 value)).sum ≤
    request.retainMaxBytes) (.action (.range "retainApprovalIds exceeds retainBudget.maxBytes."))
  demand (decide request.retainApprovalIds.Nodup) (.type "retainApprovalIds must be unique.")
  demand (request.retainApprovalIds.all isApprovalId)
    (.type "The approval identifier is invalid.")

/-- Whether a purge may remove a record. -/
def purgeable (request : ActionApprovalTerminalPurgeRequest) (record : ActionApprovalRecord) :
    Bool :=
  record.request.sessionId = request.sessionId && record.request.actorId = request.actorId &&
    !request.retainApprovalIds.contains record.request.approvalId &&
    (record.status = .rejected || record.status = .consumed || record.status = .expired) &&
    record.updatedAt < request.beforeUpdatedAt

/-- `purgeTerminal`; the sort is stable, so the sequence never decides. -/
def purgeTerminal (request : ActionApprovalTerminalPurgeRequest) :
    EStateM ApprovalError InMemoryActionApprovalStore (List String) := do
  attempt (captureApprovalTerminalPurgeRequest request)
  let store ← get
  let eligible := store.records.entries.filter fun entry => purgeable request entry.2
  let candidates := (eligible.insertionSort fun left right =>
    left.2.updatedAt ≤ right.2.updatedAt).take request.limit
  set (⟨candidates.foldl (fun records entry => records.delete entry.1) store.records⟩ :
    InMemoryActionApprovalStore)
  return candidates.map fun entry => entry.2.request.approvalId

/-- One call and what it answers. -/
def call : ApprovalCall → EStateM ApprovalError InMemoryActionApprovalStore ApprovalAnswer
  | .ensure request => .record <$> ensure ctx request
  | .get key => .found <$> find key
  | .listPending request now => .records <$> listPending request now
  | .decide input => .record <$>
      advance ⟨input.sessionId, input.actorId, input.approvalId⟩ fun current =>
        decideActionApprovalRecord ctx current input
  | .consume input => .record <$>
      advance ⟨input.sessionId, input.actorId, input.approvalId⟩ fun current =>
        consumeActionApprovalRecord ctx current input
  | .expire input => .record <$>
      advance ⟨input.sessionId, input.actorId, input.approvalId⟩ fun current =>
        expireActionApprovalRecord ctx current input
  | .purgeTerminal request => .purged <$> purgeTerminal request

/-- The store after some calls. -/
def run (store : InMemoryActionApprovalStore) (calls : List ApprovalCall) :
    InMemoryActionApprovalStore :=
  calls.foldl (fun store operation => (respond (call ctx operation) store).2) store

end Methods

end InMemoryActionApprovalStore

end OpenGameAgent
