import OpenGameAgent.Delegation.Delegations
import OpenGameAgent.Library.OrderedMap
import OpenGameAgent.Library.Program
import OpenGameAgent.Library.StableSort

/-!
# The in-memory delegation store

`packages/delegation/src/in-memory-store.ts` method by method, for delegations that are
there: `create` and `purgeTerminal` are left out.

`newLeaseToken` is the parameter `token`, from the number of tokens given out before; that
it never gives one token twice is what `randomUUID` is used for.

* `InMemoryDelegationStore.Sound` — a lease belongs to a running delegation, a settling
  token to a settled one, and both are tokens the store gave out.
-/

namespace OpenGameAgent

structure DelegationLease where
  token : String
  ownerId : String
  expiresAt : String
  deriving DecidableEq, Repr

/-- The fields of `InMemoryDelegationStore`; every record stands under its own key. -/
structure InMemoryDelegationStore where
  records : OrderedMap DelegationKey DelegationRecord
  leases : OrderedMap Nat DelegationLease
  settledTokens : OrderedMap Nat String
  issued : Nat
  keyed : ∀ key record, records.get? key = some record → record.key = key

abbrev DelegationProgram := EStateM DelegationError InMemoryDelegationStore

namespace InMemoryDelegationStore

/-- `set`. -/
def put (store : InMemoryDelegationStore) (record : DelegationRecord) :
    InMemoryDelegationStore :=
  { store with
    records := store.records.set record.key record
    keyed := by
      intro key other h
      rw [OrderedMap.get?_set] at h
      split at h
      · rename_i hkey
        rw [← Option.some.inj h, hkey]
      · exact store.keyed key other h }

def dropLease (store : InMemoryDelegationStore) (delegationKey : Nat) :
    InMemoryDelegationStore :=
  { store with leases := store.leases.delete delegationKey }

/-- `partitionRecords`. -/
def partitionRecords (store : InMemoryDelegationStore) (partition : DelegationPartition) :
    List DelegationRecord :=
  (store.records.values.filter fun record => record.partition = partition).insertionSort
    fun left right : DelegationRecord => left.delegationKey ≤ right.delegationKey

section Methods

variable (limits : DelegationLimits) (token : Nat → String)

/-- `required`. -/
def required (key : DelegationKey) : DelegationProgram DelegationRecord := do
  attempt (delegationPartition limits key.toDelegationPartition)
  attempt (delegationIdentifier limits key.delegationId "delegation_id")
  let store ← get
  match store.records.get? key with
  | none => throw .notFound
  | some record => return record

/-- `requiredSequence`. -/
def requiredSequence (key : DelegationSequenceKey) : DelegationProgram DelegationRecord := do
  attempt (delegationPartition limits key.toDelegationPartition)
  let store ← get
  match (store.partitionRecords key.toDelegationPartition).find? fun record =>
      record.delegationKey = key.delegationKey with
  | none => throw .notFound
  | some record => return record

/-- `activeLease`. -/
def activeLease (record : DelegationRecord) (leaseToken now : String) :
    DelegationProgram DelegationLease := do
  let store ← get
  match store.leases.get? record.delegationKey with
  | none => throw .lease
  | some lease =>
    if record.status ≠ .running ∨ lease.token ≠ leaseToken ∨ now < record.updatedAt ∨
        lease.expiresAt ≤ now then throw .lease
    else return lease

/-- `update`, of a record with its changed fields. -/
def update (record changed : DelegationRecord) : DelegationProgram DelegationRecord := do
  let revision ← attempt (delegationIncrement limits record.revision)
  let updated := { changed with revision := revision }
  modify fun store => store.put updated
  return updated

/-- `settle`. -/
def settle (record changed : DelegationRecord) (status : DelegationStatus) (now : String)
    (settledToken : Option String) : DelegationProgram DelegationRecord := do
  attempt (delegationTimestamp now)
  modify fun store => store.dropLease record.delegationKey
  let updated ← update limits record
    { changed with
      status := status
      settledAt := some now
      updatedAt := now }
  match settledToken with
  | none => return updated
  | some settledToken => do
    modify fun store =>
      { store with settledTokens := store.settledTokens.set record.delegationKey settledToken }
    return updated

/-- `get`. -/
def find (key : DelegationKey) : DelegationProgram (Option DelegationRecord) := do
  attempt (delegationPartition limits key.toDelegationPartition)
  attempt (delegationIdentifier limits key.delegationId "delegation_id")
  let store ← get
  return store.records.get? key

/-- `list`. -/
def list (request : DelegationListRequest) : DelegationProgram DelegationPage := do
  attempt (delegationPartition limits request.toDelegationPartition)
  attempt (delegationPositive request.limit "list_limit")
  if request.limit > limits.maxPageSize then throw .capacity
  else do
    let store ← get
    let rows := (store.partitionRecords request.toDelegationPartition).filter fun record =>
      (request.statuses.all fun statuses => statuses.contains record.status) &&
        decide (record.delegationKey > request.afterDelegationKey.getD 0)
    let records := rows.take request.limit
    return ⟨records, if rows.length > records.length then
      records.getLast?.map fun record => record.delegationKey else none⟩

/-- The end of `claim`, once the delegation is known to be free. -/
def grantLease (request : DelegationClaimRequest) (record : DelegationRecord) :
    DelegationProgram DelegationDelivery := do
  let store ← get
  let leaseToken := token store.issued
  modify fun store => { store with issued := store.issued + 1 }
  attempt (delegationIdentifier limits leaseToken "lease_token")
  attempt (delegationIdentifier limits request.leaseOwnerId "lease_owner_id")
  let revision ← attempt (delegationIncrement limits record.revision)
  let attempts ← attempt (delegationIncrement limits record.attempt)
  let updated : DelegationRecord :=
    { record with
      status := .running
      revision := revision
      attempt := attempts
      startedAt := some (record.startedAt.getD request.operationalNow)
      updatedAt := request.operationalNow }
  modify fun store => store.put updated
  modify fun store =>
    { store with
      leases := store.leases.set record.delegationKey
        ⟨leaseToken, request.leaseOwnerId, request.leaseExpiresAt⟩ }
  return ⟨updated, leaseToken, request.leaseOwnerId, request.leaseExpiresAt⟩

/-- `claim`. -/
def claim (request : DelegationClaimRequest) : DelegationProgram DelegationDelivery := do
  let record ← required limits request.toDelegationKey
  attempt (delegationTimestamp request.operationalNow)
  attempt (delegationTimestamp request.leaseExpiresAt)
  let store ← get
  if request.leaseExpiresAt ≤ request.operationalNow ∨ record.status.terminal = true ∨
      request.operationalNow < record.updatedAt then throw .lease
  else if (store.leases.get? record.delegationKey).any fun lease =>
      request.operationalNow < lease.expiresAt then throw .lease
  else grantLease limits token request record

/-- `assertLease`. -/
def assertLease (key : DelegationSequenceKey) (leaseToken now : String) :
    DelegationProgram DelegationDelivery := do
  let record ← requiredSequence limits key
  attempt (delegationTimestamp now)
  let lease ← activeLease record leaseToken now
  return ⟨record, lease.token, lease.ownerId, lease.expiresAt⟩

/-- `renew`. -/
def renew (key : DelegationSequenceKey) (leaseToken now expiresAt : String) :
    DelegationProgram DelegationDelivery := do
  let record ← requiredSequence limits key
  attempt (delegationTimestamp now)
  let lease ← activeLease record leaseToken now
  attempt (delegationTimestamp expiresAt)
  if expiresAt < lease.expiresAt ∨ expiresAt ≤ now then throw .lease
  else if expiresAt ≠ lease.expiresAt then do
    let updated ← update limits record { record with updatedAt := now }
    modify fun store =>
      { store with
        leases := store.leases.set record.delegationKey { lease with expiresAt := expiresAt } }
    return ⟨updated, leaseToken, lease.ownerId, expiresAt⟩
  else return ⟨record, leaseToken, lease.ownerId, lease.expiresAt⟩

/-- `bindRun`. -/
def bindRun (key : DelegationSequenceKey) (leaseToken runId now : String) :
    DelegationProgram DelegationRecord := do
  let record ← requiredSequence limits key
  attempt (delegationTimestamp now)
  let _ ← activeLease record leaseToken now
  attempt (delegationIdentifier limits runId "child_run_id")
  match record.childRunId with
  | some childRunId =>
    if childRunId ≠ runId then throw (.conflict "delegation_run_conflict")
    else return record
  | none => update limits record { record with childRunId := some runId, updatedAt := now }

/-- `complete`. -/
def complete (key : DelegationSequenceKey) (leaseToken : String) (result : JsonValue)
    (now : String) : DelegationProgram DelegationRecord := do
  let record ← requiredSequence limits key
  attempt (delegationJson limits result limits.maxResultBytes)
  attempt (delegationTimestamp now)
  let store ← get
  if record.status = .completed then
    if store.settledTokens.get? record.delegationKey ≠ some leaseToken ∨
        record.result.map canonicalizeJsonValue ≠ some (canonicalizeJsonValue result) then
      throw .lease
    else return record
  else do
    let _ ← activeLease record leaseToken now
    settle limits record { record with result := some result } .completed now (some leaseToken)

/-- `fail`. -/
def fail (key : DelegationSequenceKey) (leaseToken code now : String) :
    DelegationProgram DelegationRecord := do
  let record ← requiredSequence limits key
  attempt (delegationIdentifier limits code "failure_code")
  attempt (delegationTimestamp now)
  let store ← get
  if record.status = .failed then
    if store.settledTokens.get? record.delegationKey ≠ some leaseToken ∨
        record.failureCode ≠ some code then throw .lease
    else return record
  else do
    let _ ← activeLease record leaseToken now
    settle limits record { record with failureCode := some code } .failed now (some leaseToken)

/-- `abandon`. -/
def abandon (key : DelegationSequenceKey) (leaseToken now : String) :
    DelegationProgram DelegationRecord := do
  let record ← requiredSequence limits key
  attempt (delegationTimestamp now)
  let _ ← activeLease record leaseToken now
  modify fun store => store.dropLease record.delegationKey
  update limits record { record with status := .pending, updatedAt := now }

/-- `cancel`. -/
def cancel (key : DelegationKey) (expectedRevision now : String) :
    DelegationProgram DelegationRecord := do
  let record ← required limits key
  attempt (delegationDecimal limits expectedRevision "revision")
  if record.revision.text ≠ expectedRevision then throw (.conflict "delegation_conflict")
  else if record.status.terminal then throw (.conflict "delegation_terminal")
  else if now < record.updatedAt then throw .lease
  else do
    modify fun store => store.dropLease record.delegationKey
    settle limits record record .cancelled now none

end Methods

end InMemoryDelegationStore

end OpenGameAgent
