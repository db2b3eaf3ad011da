import OpenGameAgent.Extensions.SignalWaits

/-!
# The calls of a signal store

`SignalStore` of `packages/extensions/src/signal-types.ts`: what a store is asked and what it
answers, the reading methods of `InMemorySignalStore`, and the requests that are valid.

A draft reaches a store with its ticks as canonical decimals, after the checks of
`signal-service.ts`; `texts` is the draft those checks were given.
-/

namespace OpenGameAgent

/-! ## Requests -/

structure SignalListRequest extends SignalPartition where
  kinds : Option (List String)
  afterSignalKey : Option Int
  limit : Nat

structure SignalWaitListRequest extends SignalPartition where
  statuses : Option (List SignalWaitStatus)
  afterWaitKey : Option Int
  limit : Nat

/-- `SignalPage` and `SignalWaitPage`. -/
structure SignalRecordPage (α : Type) where
  records : List α
  nextAfterKey : Option Nat
  deriving DecidableEq

/-- The calls of `SignalStore`. -/
inductive SignalStoreCall where
  | record (draft : GameSignalDraft Decimal) (maxMatches : Nat)
  | getSignal (key : GameSignalKey)
  | listSignals (request : SignalListRequest)
  | registerWait (draft : SignalWaitDraft Decimal) (maxMatches : Nat)
  | getWait (key : SignalWaitKey)
  | listWaits (request : SignalWaitListRequest)
  | cancelWait (key : SignalWaitKey) (expectedRevision : Decimal) (recordedAt : String)
  | expireWaits (partition : SignalGeneration) (throughTickInclusive : Decimal)
      (recordedAt : String) (limit : Nat)
  | purgeTerminalWaits (partition : SignalGeneration) (beforeRecordedAt : String) (limit : Nat)
  | purgeSignals (partition : SignalGeneration) (beforeRecordedAt : String) (limit : Nat)

inductive SignalStoreAnswer where
  | recorded (result : SignalRecordResult)
  | foundSignal (signal : Option GameSignalRecord)
  | signals (page : SignalRecordPage GameSignalRecord)
  | wait (wait : SignalWaitRecord)
  | foundWait (wait : Option SignalWaitRecord)
  | waits (page : SignalRecordPage SignalWaitRecord)
  | keys (keys : List Nat)
  deriving DecidableEq

def GameSignalDraft.texts (draft : GameSignalDraft Decimal) : GameSignalDraft String :=
  { draft with
    gameTime := ⟨draft.gameTime.timelineId, draft.gameTime.generation, draft.gameTime.tick.text⟩ }

def SignalWaitSelector.texts (selector : SignalWaitSelector Decimal) : SignalWaitSelector String :=
  { selector with
    afterTickExclusive := selector.afterTickExclusive.map Decimal.text
    throughTickInclusive := selector.throughTickInclusive.map Decimal.text }

def SignalWaitDraft.texts (draft : SignalWaitDraft Decimal) : SignalWaitDraft String :=
  { draft with selector := draft.selector.texts }

/-! ## Checks -/

/-- `validateGameSignalKey`. -/
def validateGameSignalKey (key : GameSignalKey) : Except SignalError Unit := do
  assertSignalIdentifier key.ownerId
  assertSignalIdentifier key.timelineId
  let _ ← validateSignalDecimal key.generation "generation"
  assertSignalIdentifier key.signalId

/-- `normalizeSignalKindFilter`; in the sorted list a repeated one follows its copy. -/
def normalizeSignalKindFilter (values : Option (List String)) (maximum : Nat) :
    Except SignalError (Option (List String)) :=
  match values with
  | none => .ok none
  | some values => do
    demand (values ≠ []) (.validation "empty_signal_filter")
    demand (values.length ≤ maximum) (.validation "too_many_signal_filter_kinds")
    demand (values.all isOpaqueIdentifier) (.protocol "invalid_identifier")
    demand values.Nodup (.validation "duplicate_signal_filter")
    return some (values.insertionSort textLe)

def SignalWaitStatus.text : SignalWaitStatus → String
  | .waiting => "waiting"
  | .matched => "matched"
  | .cancelled => "cancelled"
  | .expired => "expired"

/-- `normalizeSignalStatusFilter`. -/
def normalizeSignalStatusFilter (values : Option (List SignalWaitStatus)) :
    Except SignalError (Option (List SignalWaitStatus)) :=
  match values with
  | none => .ok none
  | some values => do
    demand (values ≠ []) (.validation "empty_signal_wait_status_filter")
    demand values.Nodup (.validation "duplicate_signal_wait_status_filter")
    return some (values.insertionSort fun left right => textLe left.text right.text)

/-- The checks a request passes before it reaches a store. -/
def SignalStoreCall.Valid (limits : SignalLimits) : SignalStoreCall → Prop
  | .record draft maxMatches => normalizeGameSignal draft.texts limits = .ok draft ∧
      validateSignalPageLimit maxMatches limits.maxWaitMatchesPerSignal
        "invalid_signal_match_limit" = .ok ()
  | .getSignal key => validateGameSignalKey key = .ok ()
  | .listSignals request => (normalizeSignalPartition request.toSchedulePartition).isOk ∧
      (normalizeSignalKindFilter request.kinds limits.maxSignalFilterKinds).isOk ∧
      validateSignalCursor request.afterSignalKey = .ok () ∧
      validateSignalPageLimit request.limit limits.maxSignalPageSize
        "invalid_signal_page_limit" = .ok ()
  | .registerWait draft maxMatches => normalizeSignalWait draft.texts limits = .ok draft ∧
      validateSignalPageLimit maxMatches limits.maxWaitMatchesPerSignal
        "invalid_signal_match_limit" = .ok ()
  | .getWait key => validateSignalWaitKey key = .ok key
  | .listWaits request => (normalizeSignalPartition request.toSchedulePartition).isOk ∧
      (normalizeSignalStatusFilter request.statuses).isOk ∧
      validateSignalCursor request.afterWaitKey = .ok () ∧
      validateSignalPageLimit request.limit limits.maxWaitPageSize
        "invalid_signal_wait_page_limit" = .ok ()
  | .cancelWait key _ recordedAt =>
    validateSignalWaitKey key = .ok key ∧ validateSignalTimestamp recordedAt = .ok ()
  | .expireWaits partition _ recordedAt limit => (normalizeSignalGeneration partition).isOk ∧
      validateSignalTimestamp recordedAt = .ok () ∧
      validateSignalPageLimit limit limits.maxExpireBatchSize
        "invalid_signal_expire_limit" = .ok ()
  | .purgeTerminalWaits partition beforeRecordedAt limit =>
    (validateSignalPurge limits partition beforeRecordedAt limit
      "invalid_signal_wait_purge_limit").isOk
  | .purgeSignals partition beforeRecordedAt limit =>
    (validateSignalPurge limits partition beforeRecordedAt limit
      "invalid_signal_purge_limit").isOk

/-! ## Reading methods -/

namespace InMemorySignalStore

/-- The first records of a list, with the key to go on behind. -/
def firstPage {α : Type} (key : α → Nat) (limit : Nat) (matching : List α) : SignalRecordPage α where
  records := matching.take limit
  nextAfterKey :=
    if matching.length > (matching.take limit).length then
      (matching.take limit).getLast?.map key
    else none

/-- Is the signal one of the request? -/
def listsSignal (request : SignalListRequest) (signal : GameSignalRecord) : Bool :=
  sameSignalGeneration signal.partition.toScheduleGeneration request.toScheduleGeneration &&
    (request.sessionId = none || signal.partition.sessionId = request.sessionId) &&
    (request.actorId = none || signal.partition.actorId = request.actorId) &&
    (request.kinds.all fun kinds => kinds.contains signal.kind) &&
    (request.afterSignalKey.all fun key => key < (signal.signalKey : Int))

/-- `listSignals`. -/
def listSignals (request : SignalListRequest) :
    SignalProgram (SignalRecordPage GameSignalRecord) := do
  let store ← get
  return firstPage GameSignalRecord.signalKey request.limit
    ((store.signals.values.filter (listsSignal request)).insertionSort fun left right =>
      left.signalKey ≤ right.signalKey)

/-- Is the wait one of the request? -/
def listsWait (request : SignalWaitListRequest) (statuses : Option (List SignalWaitStatus))
    (wait : SignalWaitRecord) : Bool :=
  sameSignalGeneration wait.partition.toScheduleGeneration request.toScheduleGeneration &&
    (request.sessionId = none || wait.partition.sessionId = request.sessionId) &&
    (request.actorId = none || wait.partition.actorId = request.actorId) &&
    (statuses.all fun statuses => statuses.contains wait.status) &&
    (request.afterWaitKey.all fun key => key < (wait.waitKey : Int))

/-- `listWaits`. -/
def listWaits (request : SignalWaitListRequest) :
    SignalProgram (SignalRecordPage SignalWaitRecord) := do
  let statuses ← attempt (normalizeSignalStatusFilter request.statuses)
  let store ← get
  return firstPage SignalWaitRecord.waitKey request.limit
    ((store.waits.values.filter (listsWait request statuses)).insertionSort fun left right =>
      left.waitKey ≤ right.waitKey)

/-- One call and what it answers. -/
def call : SignalStoreCall → SignalProgram SignalStoreAnswer
  | .record draft maxMatches => .recorded <$> recordSignal draft maxMatches
  | .getSignal key => do
    let store ← get
    return .foundSignal (store.signals.get? key)
  | .listSignals request => .signals <$> listSignals request
  | .registerWait draft maxMatches => .wait <$> OpenGameAgent.registerWait draft maxMatches
  | .getWait key => do
    let store ← get
    return .foundWait (store.waits.get? key)
  | .listWaits request => .waits <$> listWaits request
  | .cancelWait key expectedRevision recordedAt =>
    .wait <$> OpenGameAgent.cancelWait key expectedRevision recordedAt
  | .expireWaits partition throughTickInclusive recordedAt limit =>
    .keys <$> OpenGameAgent.expireWaits partition throughTickInclusive recordedAt limit
  | .purgeTerminalWaits partition beforeRecordedAt limit =>
    .keys <$> OpenGameAgent.purgeTerminalWaits partition beforeRecordedAt limit
  | .purgeSignals partition beforeRecordedAt limit =>
    .keys <$> OpenGameAgent.purgeSignals partition beforeRecordedAt limit

end InMemorySignalStore

end OpenGameAgent
