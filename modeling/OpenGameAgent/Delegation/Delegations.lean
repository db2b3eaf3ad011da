import OpenGameAgent.Library.Decimal
import OpenGameAgent.Library.Run
import OpenGameAgent.Protocol.Timestamp
import OpenGameAgent.Protocol.Transcript

/-!
# Delegated tasks

The types of `packages/delegation/src/types.ts`, its errors and the checks of
`validation.ts`.

A delegation has a key its host chose and a sequence key the store gave it.  A worker that
claims it gets a lease with a token, and settles it with that token.
-/

namespace OpenGameAgent

/-! ## Records -/

structure DelegationPartition where
  ownerId : String
  timelineId : String
  generation : String
  deriving DecidableEq, Repr

structure DelegationKey extends DelegationPartition where
  delegationId : String
  deriving DecidableEq, Repr

structure DelegationSequenceKey extends DelegationPartition where
  delegationKey : Nat
  deriving DecidableEq, Repr

structure DelegationParent where
  sessionId : String
  actorId : String
  inputId : String
  runId : String
  turn : String
  toolCallId : String
  deriving DecidableEq, Repr

inductive DelegationStatus where
  | pending | running | completed | failed | cancelled
  deriving DecidableEq, Repr

/-- `terminal`. -/
def DelegationStatus.terminal : DelegationStatus → Bool
  | .completed | .failed | .cancelled => true
  | .pending | .running => false

structure DelegationTarget where
  delegateId : String
  sessionId : String
  actorId : String
  maxTurns : Nat
  deriving DecidableEq, Repr

/-- The fields of `DelegationDraft` that a running delegation is made of. -/
structure DelegationDraft where
  delegationId : String
  partition : DelegationPartition
  parent : DelegationParent
  target : DelegationTarget
  task : JsonValue
  context : Option JsonValue
  rootDelegationId : String
  parentDelegationId : Option String
  depth : String
  childInputId : String
  deriving DecidableEq

structure DelegationRecord extends DelegationDraft where
  delegationKey : Nat
  status : DelegationStatus
  revision : Decimal
  attempt : Decimal
  childRunId : Option String
  result : Option JsonValue
  failureCode : Option String
  startedAt : Option String
  settledAt : Option String
  updatedAt : String
  deriving DecidableEq

/-- `mapKey(record.partition, record.delegationId)`. -/
def DelegationRecord.key (record : DelegationRecord) : DelegationKey :=
  { record.partition with delegationId := record.delegationId }

/-- `sequence`. -/
def DelegationRecord.sequence (record : DelegationRecord) : DelegationSequenceKey :=
  { record.partition with delegationKey := record.delegationKey }

structure DelegationDelivery where
  record : DelegationRecord
  leaseToken : String
  leaseOwnerId : String
  leaseExpiresAt : String
  deriving DecidableEq

structure DelegationClaimRequest extends DelegationKey where
  leaseOwnerId : String
  operationalNow : String
  leaseExpiresAt : String
  deriving DecidableEq, Repr

structure DelegationListRequest extends DelegationPartition where
  statuses : Option (List DelegationStatus)
  afterDelegationKey : Option Nat
  limit : Nat
  deriving DecidableEq, Repr

structure DelegationPage where
  records : List DelegationRecord
  nextAfterDelegationKey : Option Nat
  deriving DecidableEq

/-- The fields of `DelegationLimits` that the modelled methods read. -/
structure DelegationLimits where
  maxIdentifierBytes : Nat
  maxControlTextBytes : Nat
  maxResultBytes : Nat
  maxJsonDepth : Nat
  maxCounterDigits : Nat
  maxActiveRuns : Nat
  maxPageSize : Nat
  maxRecoveryBatchSize : Nat

/-- What the methods throw; `host` is an error of the host's, of the runtime or of a signal. -/
inductive DelegationError where
  | delegation (code : String)
  | conflict (code : String)
  | notFound
  | lease
  | capacity
  | range (code : String)
  | host (reason : String)
  deriving DecidableEq, Repr

/-! ## Checks -/

section Checks

variable (limits : DelegationLimits)

/-- `identifier`. -/
def delegationIdentifier (value name : String) : Except DelegationError Unit :=
  demand (!value.isEmpty && value.utf8ByteSize ≤ limits.maxIdentifierBytes)
    (.delegation s!"invalid_{name}")

/-- `decimal`. -/
def delegationDecimal (value name : String) : Except DelegationError Unit :=
  demand (areDecimalDigits value.toList && value.length ≤ limits.maxCounterDigits)
    (.delegation s!"invalid_{name}")

/-- `partition`. -/
def delegationPartition (value : DelegationPartition) : Except DelegationError Unit := do
  delegationIdentifier limits value.ownerId "owner_id"
  delegationIdentifier limits value.timelineId "timeline_id"
  delegationDecimal limits value.generation "generation"

/-- `timestamp`. -/
def delegationTimestamp (value : String) : Except DelegationError Unit :=
  demand (isCanonicalTimestamp value) (.delegation "invalid_delegation_timestamp")

/-- `json`. -/
def delegationJson (value : JsonValue) (maxBytes : Nat) : Except DelegationError Unit :=
  demand (canonicalBytes value ≤ maxBytes && jsonDepth value ≤ limits.maxJsonDepth)
    (.delegation "invalid_delegation_json")

/-- `increment`. -/
def delegationIncrement (value : Decimal) : Except DelegationError Decimal := do
  delegationDecimal limits value.text "counter"
  delegationDecimal limits (Decimal.ofNat (value.value + 1)).text "counter"
  return Decimal.ofNat (value.value + 1)

/-- `positive`; a number that is not a safe integer fails it as one below 1 does. -/
def delegationPositive (value : Nat) (name : String) : Except DelegationError Unit :=
  demand (1 ≤ value && value ≤ maxSafeInteger) (.delegation s!"invalid_{name}")

end Checks

end OpenGameAgent
