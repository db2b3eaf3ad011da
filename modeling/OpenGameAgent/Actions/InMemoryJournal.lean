import OpenGameAgent.Library.OrderedMap
import OpenGameAgent.Library.Program
import OpenGameAgent.Actions.Journal

/-!
# The in-memory Action journal

`InMemoryActionJournal` of `packages/actions/src/in-memory-journal.ts`.

Its methods run one after another (`serial`), write to the journal's maps and may
throw in between, so each is an `EStateM`.  A loop over `this.records.values()` visits
the keys in insertion order and reads the record that is there when it comes by.

* `InMemoryActionJournal.call` — one method call and its answer.
-/

namespace OpenGameAgent

/-- The journal's maps; every record stands under its own key. -/
structure InMemoryActionJournal where
  records : OrderedMap ActionKey ActionRecord
  conflicts : OrderedMap (String × String) String
  sequences : OrderedMap ActionKey Nat
  nextSequence : Nat
  keyed : ∀ key record, records.get? key = some record → record.key = key

/-- The capacity check of `ensure`. -/
def assertGoalProjectionCapacity (ctx : ActionContext) (records : List ActionRecord)
    (intent : PreparedActionIntent) : Except ActionError Unit :=
  if intent.goalProjection.isNone then .ok ()
  else match ctx.goalProjectionLimits with
    | none => .error (.type "Goal projection limits are required for Action admission.")
    | some limits =>
      if limits.maxPendingPerStream ≤ (records.filter fun record =>
          record.inStream ⟨intent.sessionId, intent.actorId⟩ && record.projectionPending).length
      then .error .goalProjectionCapacity
      else .ok ()

namespace InMemoryActionJournal

def empty : InMemoryActionJournal where
  records := .empty
  conflicts := .empty
  sequences := .empty
  nextSequence := 0
  keyed := by
    intro key record h
    rw [OrderedMap.get?_empty] at h
    cases h

/-! ## Conflict keys -/

def canAcquire (journal : InMemoryActionJournal) (record : ActionRecord) : Bool :=
  record.conflictKeys.all fun key =>
    (journal.conflicts.get? (record.sessionId, key)).all fun owner => owner = record.operationId

def acquire (journal : InMemoryActionJournal) (record : ActionRecord) : InMemoryActionJournal :=
  { journal with
    conflicts := record.conflictKeys.foldl
      (fun conflicts key => conflicts.set (record.sessionId, key) record.operationId)
      journal.conflicts }

def release (journal : InMemoryActionJournal) (record : ActionRecord) : InMemoryActionJournal :=
  { journal with
    conflicts := record.conflictKeys.foldl
      (fun conflicts key =>
        if conflicts.get? (record.sessionId, key) = some record.operationId then
          conflicts.delete (record.sessionId, key)
        else conflicts)
      journal.conflicts }

/-- `this.records.set(recordKey(record, record.operationId), record)`. -/
def put (journal : InMemoryActionJournal) (record : ActionRecord) : InMemoryActionJournal :=
  { journal with
    records := journal.records.set record.key record
    keyed := by
      intro key other h
      rw [OrderedMap.get?_set] at h
      split at h
      · rename_i hkey
        rw [Option.some.injEq] at h
        rw [← h, hkey]
      · exact journal.keyed key other h }

/-! ## The methods -/

section Methods

variable (ctx : ActionContext) (authority : RunAuthorityCheck)

def isRunOpen (record : ActionRecord) : EStateM ActionError InMemoryActionJournal Bool :=
  attempt (isActionRunAuthorityOpen (authority record.coordinate))

/-- `require`. -/
def require (key : ActionKey) : EStateM ActionError InMemoryActionJournal ActionRecord := do
  attempt (validateStream key.sessionId key.actorId)
  attempt (assertOpaqueIdentifier key.operationId)
  let journal ← get
  match journal.records.get? key with
  | none => throw .notFound
  | some record => return record

/-- `ensure`. -/
def ensure (intent : PreparedActionIntent) (now : String) :
    EStateM ActionError InMemoryActionJournal ActionRecord := do
  attempt (validateTimestamp now)
  let journal ← get
  match journal.records.get? intent.key with
  | some existing =>
    if existing.intentFingerprint ≠ intent.intentFingerprint then throw .intentConflict
    else return existing
  | none => do
    attempt (assertGoalProjectionCapacity ctx journal.records.values intent)
    let record := intent.admitted now
    attempt (assertActionRecord ctx record)
    attempt (assertActionGoalProjectionRecordFits ctx record)
    attempt (authority record.coordinate)
    set { journal.put record with
      nextSequence := journal.nextSequence + 1
      sequences := journal.sequences.set record.key (journal.nextSequence + 1) }
    return record

/-- `get`. -/
def find (stream : StreamKey) (operationId : String) :
    EStateM ActionError InMemoryActionJournal (Option ActionRecord) := do
  attempt (validateStream stream.sessionId stream.actorId)
  attempt (assertOpaqueIdentifier operationId)
  let journal ← get
  return journal.records.get? ⟨stream.sessionId, stream.actorId, operationId⟩

/-- `oldestUnsettled`; the map's insertion order is the order of admission. -/
def oldestUnsettled (stream : StreamKey) (runId : Option String) (replayable : List String)
    (journal : InMemoryActionJournal) : Option ActionRecord :=
  journal.records.values.find? fun record =>
    record.inStream stream && record.inRun runId && !replayable.contains record.operationId &&
      record.status.unsettled

/-- `recoverDelivery`. -/
def recoverDelivery (stream : StreamKey) :
    EStateM ActionError InMemoryActionJournal (Option ActionDelivery) := do
  attempt (validateStream stream.sessionId stream.actorId)
  let journal ← get
  return (journal.oldestUnsettled stream none []).map (ActionDelivery.mk .reconcile)

/-- The loop of `retireClosedPending`; `retired` counts the records retired so far. -/
def retireLoop (request : ActionClaimRequest) (retired : Nat) :
    List ActionKey → EStateM ActionError InMemoryActionJournal Nat
  | [] => return retired
  | key :: rest => do
    let journal ← get
    match journal.records.get? key with
    | none => retireLoop request retired rest
    | some record =>
      if !record.inStream request.stream || record.status ≠ .pending then
        retireLoop request retired rest
      else if ← isRunOpen authority record then retireLoop request retired rest
      else do
        let transition ← attempt (retirePendingActionRecord record request.claimedAt)
        attempt (assertActionRecord ctx transition.record)
        attempt (assertActionGoalProjectionRecordFits ctx transition.record)
        modify fun journal => (journal.release record).put transition.record
        if retired + 1 ≥ request.candidateLimit then return retired + 1
        else retireLoop request (retired + 1) rest

/-- `retireClosedPending`. -/
def retireClosedPending (request : ActionClaimRequest) :
    EStateM ActionError InMemoryActionJournal Bool := do
  let journal ← get
  let retired ← retireLoop ctx authority request 0 journal.records.keys
  return retired ≠ 0

/-- One turn of the first loop of `expireDueClaims`: keep the first due claims, ordered by
their expiry. -/
def pushDue (request : ActionClaimRequest) (expired : List (ActionRecord × String))
    (record : ActionRecord) : List (ActionRecord × String) :=
  match record.claim with
  | none => expired
  | some claim =>
    if record.dueFor request then
      ((expired ++ [(record, claim.expiresAt)]).insertionSort
        fun left right => left.2 ≤ right.2).take request.candidateLimit
    else expired

/-- The second loop of `expireDueClaims`. -/
def expireLoop (request : ActionClaimRequest) (replayable : List String) (changed : Bool) :
    List ActionRecord → EStateM ActionError InMemoryActionJournal (List String × Bool)
  | [] => return (replayable, changed)
  | record :: rest => do
    if ← (if record.replayPolicy = .safe then isRunOpen authority record else pure false) then
      expireLoop request (replayable ++ [record.operationId]) changed rest
    else do
      let transition ← attempt (expireActionRecord record request.claimedAt)
      attempt (assertActionGoalProjectionRecordFits ctx transition.record)
      if transition.releaseConflicts then modify fun journal => journal.release record
      modify fun journal => journal.put transition.record
      expireLoop request replayable true rest

/-- `expireDueClaims`. -/
def expireDueClaims (request : ActionClaimRequest) :
    EStateM ActionError InMemoryActionJournal (List String × Bool) := do
  let journal ← get
  let expired := journal.records.values.foldl (pushDue request) []
  expireLoop ctx authority request [] false (expired.map Prod.fst)

/-- The loop of `claimPendingRecord`. -/
def claimLoop (request : ActionClaimRequest) (replayable : List String) (scanned : Nat) :
    List ActionKey → EStateM ActionError InMemoryActionJournal (Option ActionRecord)
  | [] => return none
  | key :: rest => do
    let journal ← get
    match journal.records.get? key with
    | none => claimLoop request replayable scanned rest
    | some record =>
      let replay := replayable.contains record.operationId
      if !record.inStream request.stream || !record.inRun request.runId ||
          (record.status ≠ .pending && !replay) then
        claimLoop request replayable scanned rest
      else if scanned + 1 > request.candidateLimit then return none
      else if ← isRunOpen authority record then
        if !journal.canAcquire record then claimLoop request replayable (scanned + 1) rest
        else do
          let transition ← attempt
            (if replay then reclaimActionRecord record request
              else claimActionRecord record request)
          attempt (assertActionRecord ctx transition.record)
          attempt (assertActionGoalProjectionRecordFits ctx transition.record)
          if replay then modify fun journal => journal.release record
          modify fun journal => (journal.acquire transition.record).put transition.record
          return some transition.record
      else claimLoop request replayable (scanned + 1) rest

/-- `claimPendingRecord`. -/
def claimPendingRecord (request : ActionClaimRequest) (replayable : List String) :
    EStateM ActionError InMemoryActionJournal (Option ActionRecord) := do
  let journal ← get
  claimLoop ctx authority request replayable 0 journal.records.keys

/-- `nextDelivery`. -/
def nextDelivery (request : ActionClaimRequest) :
    EStateM ActionError InMemoryActionJournal ActionDeliverySelection := do
  attempt (validateActionClaimRequest request)
  let retired ← retireClosedPending ctx authority request
  let (replayable, expired) ← expireDueClaims ctx authority request
  let changed := retired || expired
  let journal ← get
  match journal.oldestUnsettled request.stream request.runId replayable with
  | some unsettled => return ⟨some ⟨.reconcile, unsettled⟩, changed⟩
  | none => do
    match ← claimPendingRecord ctx authority request replayable with
    | some claimed => return ⟨some ⟨.dispatch, claimed⟩, true⟩
    | none => do
      let journal ← get
      let waitingReplay := journal.oldestUnsettled request.stream request.runId []
      return ⟨waitingReplay.map (ActionDelivery.mk .reconcile), changed⟩

/-- Write the outcome of a transition, unless it replayed the record. -/
def store (record : ActionRecord) (transition : ActionTransition) :
    EStateM ActionError InMemoryActionJournal ActionRecord := do
  if transition.replayed then return transition.record
  else do
    attempt (assertActionGoalProjectionRecordFits ctx transition.record)
    if transition.releaseConflicts then modify fun journal => journal.release record
    modify fun journal => journal.put transition.record
    return transition.record

/-- `recordReceipt`. -/
def recordReceipt (input : ActionReceiptInput) :
    EStateM ActionError InMemoryActionJournal ActionRecord := do
  let record ← require input.key
  let transition ← attempt (receiptActionRecord record input)
  store ctx record transition

/-- `reconcile`: what is to be dispatched again is retired at once if its run is closed. -/
def reconcile (input : ActionReconcileInput) :
    EStateM ActionError InMemoryActionJournal ActionRecord := do
  let record ← require input.key
  let transition ← attempt (reconcileActionRecord record input)
  if ← (if transition.record.status = .pending then isRunOpen authority record
      else pure true) then
    store ctx record transition
  else do
    let retired ← attempt (retirePendingActionRecord transition.record input.reconciledAt)
    store ctx record ⟨retired.record, transition.releaseConflicts, false⟩

/-- The loop of `listGoalProjections`; it stops one candidate behind the page. -/
def listLoop (limits : ActionGoalProjectionLimits) (request : ActionGoalProjectionListRequest)
    (sequences : OrderedMap ActionKey Nat) (candidates : List ActionGoalProjectionCandidate) :
    List (ActionKey × ActionRecord) →
      Except ActionError (List ActionGoalProjectionCandidate)
  | [] => .ok candidates
  | (key, record) :: rest =>
    match sequences.get? key with
    | none => listLoop limits request sequences candidates rest
    | some sequence =>
      if sequence ≤ request.afterSequence.getD 0 ||
          !record.inStream ⟨request.sessionId, request.actorId⟩ ||
          !record.projectionPending then
        listLoop limits request sequences candidates rest
      else if limits.maxRecordBytes < jsonBytes record.toJson then
        .error (.range
          "A Goal projection Action exceeds its configured hydration byte budget.")
      else if candidates.length + 1 > request.limit then
        .ok (candidates ++ [⟨sequence, record⟩])
      else listLoop limits request sequences (candidates ++ [⟨sequence, record⟩]) rest

/-- The page made of the candidates that were found. -/
def pageOf (request : ActionGoalProjectionListRequest)
    (candidates : List ActionGoalProjectionCandidate) : ActionGoalProjectionPage where
  candidates := candidates.take request.limit
  nextAfterSequence :=
    if candidates.length > request.limit then
      (candidates.take request.limit).getLast?.map ActionGoalProjectionCandidate.sequence
    else none

/-- `listGoalProjections`. -/
def listGoalProjections (request : ActionGoalProjectionListRequest) :
    EStateM ActionError InMemoryActionJournal ActionGoalProjectionPage := do
  let limits ← attempt (requireGoalProjectionLimits ctx)
  attempt (captureActionGoalProjectionListRequest request limits)
  let journal ← get
  let candidates ← attempt
    (listLoop limits request journal.sequences [] journal.records.entries)
  return pageOf request candidates

/-- `settleGoalProjection`. -/
def settleGoalProjection (input : ActionGoalProjectionSettlementInput) :
    EStateM ActionError InMemoryActionJournal ActionRecord := do
  let _ ← attempt (requireGoalProjectionLimits ctx)
  let record ← require input.key
  let settled ← attempt (settleActionGoalProjectionRecord record input)
  if settled.replayed then return record
  else do
    attempt (assertActionRecord ctx settled.record)
    attempt (assertActionGoalProjectionRecordFits ctx settled.record)
    modify fun journal => journal.put settled.record
    return settled.record

/-- The order in which `purgeTerminal` removes records: by update, then by sequence. -/
def purgeBefore (left right : ActionRecord × Nat) : Prop :=
  left.1.updatedAt < right.1.updatedAt ∨
    (left.1.updatedAt = right.1.updatedAt ∧ left.2 ≤ right.2)

instance : DecidableRel purgeBefore := fun _ _ => inferInstanceAs (Decidable (_ ∨ _))

/-- Remove one record with its conflict keys and its sequence. -/
def remove (journal : InMemoryActionJournal) (record : ActionRecord) : InMemoryActionJournal :=
  { journal.release record with
    records := journal.records.delete record.key
    sequences := journal.sequences.delete record.key
    keyed := by
      intro key other h
      rw [OrderedMap.get?_delete] at h
      split at h
      · cases h
      · exact journal.keyed key other h }

/-- The records a purge removes, in order. -/
def purgeCandidates (request : ActionTerminalPurgeRequest) (journal : InMemoryActionJournal) :
    List ActionRecord :=
  let eligible := journal.records.entries.filterMap fun (key, record) =>
    (journal.sequences.get? key).map fun sequence => (record, sequence)
  (((eligible.filter fun entry => entry.1.purgeable request).insertionSort purgeBefore).take
    request.limit).map Prod.fst

/-- `purgeTerminal`. -/
def purgeTerminal (request : ActionTerminalPurgeRequest) :
    EStateM ActionError InMemoryActionJournal (List String) := do
  attempt (captureActionTerminalPurgeRequest request)
  let journal ← get
  let eligible := journal.purgeCandidates request
  set (eligible.foldl remove journal)
  return eligible.map fun record => record.operationId

/-- One call and what it answers. -/
def call (operation : ActionOperation) : EStateM ActionError InMemoryActionJournal ActionAnswer :=
  match operation with
  | .ensure intent now => ActionAnswer.record <$> ensure ctx authority intent now
  | .get stream operationId => ActionAnswer.found <$> find stream operationId
  | .recoverDelivery stream => ActionAnswer.recovery <$> recoverDelivery stream
  | .nextDelivery request => ActionAnswer.selection <$> nextDelivery ctx authority request
  | .recordReceipt input => ActionAnswer.record <$> recordReceipt ctx input
  | .reconcile input => ActionAnswer.record <$> reconcile ctx authority input
  | .listGoalProjections request => ActionAnswer.page <$> listGoalProjections ctx request
  | .settleGoalProjection input => ActionAnswer.record <$> settleGoalProjection ctx input
  | .purgeTerminal request => ActionAnswer.purged <$> purgeTerminal request

end Methods

end InMemoryActionJournal

end OpenGameAgent
