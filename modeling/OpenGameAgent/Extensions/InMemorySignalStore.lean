import OpenGameAgent.Extensions.Signals
import OpenGameAgent.Library.OrderedMap
import OpenGameAgent.Library.Program

/-!
# The in-memory signal store

`packages/extensions/src/in-memory-signal-store.ts` method by method, and the requests of
`signal-service.ts` that write.

A method writes to the store and may throw in the middle of a loop of writes, so it is a
program that keeps what it wrote before it threw.
-/

namespace OpenGameAgent

/-! ## State -/

/-- The fields of `InMemorySignalStore`. -/
structure InMemorySignalStore where
  signals : OrderedMap GameSignalKey GameSignalRecord
  signalFingerprints : OrderedMap GameSignalKey (List UInt16)
  waits : OrderedMap SignalWaitKey SignalWaitRecord
  waitFingerprints : OrderedMap SignalWaitKey (List UInt16)
  nextSignalKey : Nat
  nextWaitKey : Nat

/-- `new InMemorySignalStore()`. -/
def InMemorySignalStore.empty : InMemorySignalStore where
  signals := .empty
  signalFingerprints := .empty
  waits := .empty
  waitFingerprints := .empty
  nextSignalKey := 1
  nextWaitKey := 1

abbrev SignalProgram := EStateM SignalError InMemorySignalStore

/-- `signalMapKey` of a draft: the parts of the text the code joins with `\0`. -/
def GameSignalDraft.key (signal : GameSignalDraft Decimal) : GameSignalKey :=
  { signal.partition.toScheduleGeneration with signalId := signal.signalId }

/-- `waitMapKey` of a draft. -/
def SignalWaitDraft.key (wait : SignalWaitDraft Decimal) : SignalWaitKey :=
  { wait.partition.toScheduleGeneration with waitId := wait.waitId }

structure SignalRecordResult where
  signal : GameSignalRecord
  matchedWaitIds : List String
  deriving DecidableEq

/-- `(BigInt(revision) + 1n).toString()`. -/
def Decimal.next (revision : Decimal) : Decimal := .ofNat (revision.value + 1)

/-- Entries in the order of their wait keys. -/
def sortWaits (entries : List (SignalWaitKey × SignalWaitRecord)) :
    List (SignalWaitKey × SignalWaitRecord) :=
  entries.insertionSort fun left right => left.2.waitKey ≤ right.2.waitKey

/-- `matchedWaitIds`. -/
def InMemorySignalStore.matchedWaitIds (store : InMemorySignalStore) (signalKey : Nat) :
    List String :=
  (sortWaits (store.waits.entries.filter fun e => e.2.matchedSignalKey = some signalKey)).map
    fun e => e.2.waitId

/-! ## Signals -/

/-- A loop that writes waits back, each changed by a computation that may throw. -/
def rewriteWaits (change : SignalWaitRecord → Except SignalError SignalWaitRecord) :
    List (SignalWaitKey × SignalWaitRecord) → SignalProgram Unit
  | [] => pure ()
  | (key, wait) :: rest => do
    let updated ← attempt (change wait)
    modify fun store => { store with waits := store.waits.set key updated }
    rewriteWaits change rest

/-- What the loop of `record` writes. -/
def matchWait (signal : GameSignalRecord) (wait : SignalWaitRecord) :
    Except SignalError SignalWaitRecord := do
  let updatedAt ← laterSignalTimestamp wait.updatedAt signal.recordedAt
  return { wait with
    status := .matched
    matchedSignalKey := some signal.signalKey
    revision := wait.revision.next
    updatedAt := updatedAt }

/-- The waits that a new signal wakes up. -/
def InMemorySignalStore.wakes (store : InMemorySignalStore) (signal : GameSignalRecord) :
    List (SignalWaitKey × SignalWaitRecord) :=
  sortWaits (store.waits.entries.filter fun e =>
    e.2.status = .waiting && signalWaitMatches e.2.toSignalWaitDraft signal)

/-- The record of the next signal. -/
def InMemorySignalStore.nextSignal (store : InMemorySignalStore)
    (draft : GameSignalDraft Decimal) : GameSignalRecord :=
  { draft with signalKey := store.nextSignalKey }

/-- `record`. -/
def recordSignal (draft : GameSignalDraft Decimal) (maxMatches : Nat) :
    SignalProgram SignalRecordResult := do
  let store ← get
  match store.signals.get? draft.key with
  | some existing =>
    if store.signalFingerprints.get? draft.key ≠ some (signalFingerprint draft) then
      throw .conflict
    else
      let matchedWaitIds := store.matchedWaitIds existing.signalKey
      if maxMatches < matchedWaitIds.length then throw .waitFanout
      else return { signal := existing, matchedWaitIds := matchedWaitIds }
  | none =>
    let signal := store.nextSignal draft
    let matching := store.wakes signal
    if maxMatches < matching.length then throw .waitFanout
    else do
      set { store with
        nextSignalKey := store.nextSignalKey + 1
        signals := store.signals.set draft.key signal
        signalFingerprints :=
          store.signalFingerprints.set draft.key (signalFingerprint draft) }
      rewriteWaits (matchWait signal) matching
      return { signal := signal, matchedWaitIds := matching.map fun e => e.2.waitId }

/-- `purgeSignals`. -/
def purgeSignals (partition : SignalGeneration) (beforeRecordedAt : String) (limit : Nat) :
    SignalProgram (List Nat) := do
  let store ← get
  let referenced := store.waits.values.filterMap (·.matchedSignalKey)
  let selected := ((store.signals.entries.filter fun e =>
      sameSignalGeneration e.2.partition.toScheduleGeneration partition &&
        e.2.recordedAt < beforeRecordedAt && !referenced.contains e.2.signalKey).insertionSort
    fun left right => left.2.signalKey ≤ right.2.signalKey).take limit
  set { store with
    signals := (selected.map Prod.fst).foldl .delete store.signals
    signalFingerprints := (selected.map Prod.fst).foldl .delete store.signalFingerprints }
  return selected.map fun e => e.2.signalKey

/-! ## Waits -/

/-- The stored signal with the lowest key that a wait matches. -/
def InMemorySignalStore.matchedSignal (store : InMemorySignalStore)
    (wait : SignalWaitDraft Decimal) : Option GameSignalRecord :=
  ((store.signals.values.filter fun signal => signalWaitMatches wait signal).insertionSort
    fun left right => left.signalKey ≤ right.signalKey).head?

/-- Store a new wait. -/
def insertWait (draft : SignalWaitDraft Decimal) (wait : SignalWaitRecord) :
    SignalProgram SignalWaitRecord := do
  modify fun store => { store with
    nextWaitKey := store.nextWaitKey + 1
    waits := store.waits.set draft.key wait
    waitFingerprints := store.waitFingerprints.set draft.key (signalWaitFingerprint draft) }
  return wait

/-- `registerWait`. -/
def registerWait (draft : SignalWaitDraft Decimal) (maxMatches : Nat) :
    SignalProgram SignalWaitRecord := do
  let store ← get
  match store.waits.get? draft.key with
  | some existing =>
    if store.waitFingerprints.get? draft.key ≠ some (signalWaitFingerprint draft) then
      throw .waitConflict
    else return existing
  | none =>
    match store.matchedSignal draft with
    | none =>
      insertWait draft { draft with
        waitKey := store.nextWaitKey
        status := .waiting
        revision := .ofNat 1
        matchedSignalKey := none
        createdAt := draft.recordedAt
        updatedAt := draft.recordedAt }
    | some signal =>
      if maxMatches ≤ (store.matchedWaitIds signal.signalKey).length then throw .waitFanout
      else do
        let updatedAt ← attempt (laterSignalTimestamp draft.recordedAt signal.recordedAt)
        insertWait draft { draft with
          waitKey := store.nextWaitKey
          status := .matched
          revision := .ofNat 1
          matchedSignalKey := some signal.signalKey
          createdAt := draft.recordedAt
          updatedAt := updatedAt }

/-- `cancelWait`. -/
def cancelWait (key : SignalWaitKey) (expectedRevision : Decimal) (recordedAt : String) :
    SignalProgram SignalWaitRecord := do
  let store ← get
  match store.waits.get? key with
  | none => throw .waitNotFound
  | some current =>
    if current.revision ≠ expectedRevision then throw .waitRevisionConflict
    else if current.status ≠ .waiting then throw .waitTerminal
    else do
      let updatedAt ← attempt (laterSignalTimestamp current.updatedAt recordedAt)
      let updated := { current with
        status := .cancelled
        revision := current.revision.next
        updatedAt := updatedAt }
      set { store with waits := store.waits.set key updated }
      return updated

/-- What the loop of `expireWaits` writes. -/
def expireWait (recordedAt : String) (wait : SignalWaitRecord) :
    Except SignalError SignalWaitRecord := do
  let updatedAt ← laterSignalTimestamp wait.updatedAt recordedAt
  return { wait with
    status := .expired
    revision := wait.revision.next
    updatedAt := updatedAt }

/-- `expireWaits`. -/
def expireWaits (partition : SignalGeneration) (throughTickInclusive : Decimal)
    (recordedAt : String) (limit : Nat) : SignalProgram (List Nat) := do
  let store ← get
  let selected := (sortWaits (store.waits.entries.filter fun e =>
    e.2.status = .waiting &&
      sameSignalGeneration e.2.partition.toScheduleGeneration partition &&
      e.2.selector.throughTickInclusive.any fun tick =>
        compareSignalTicks tick throughTickInclusive ≠ .gt)).take limit
  rewriteWaits (expireWait recordedAt) selected
  return selected.map fun e => e.2.waitKey

/-- `purgeTerminalWaits`. -/
def purgeTerminalWaits (partition : SignalGeneration) (beforeRecordedAt : String)
    (limit : Nat) : SignalProgram (List Nat) := do
  let store ← get
  let selected := (sortWaits (store.waits.entries.filter fun e =>
    e.2.status ≠ .waiting &&
      sameSignalGeneration e.2.partition.toScheduleGeneration partition &&
      e.2.updatedAt < beforeRecordedAt)).take limit
  set { store with
    waits := (selected.map Prod.fst).foldl .delete store.waits
    waitFingerprints := (selected.map Prod.fst).foldl .delete store.waitFingerprints }
  return selected.map fun e => e.2.waitKey

/-! ## The service -/

/-- What a signal service is built with: the limits its constructor accepted. -/
structure SignalContext where
  limits : SignalLimits
  limitsValid : validateSignalLimits limits = .ok ()

/-- A request of `SignalService`.  Its `cancelWait` reads the wait first and asks the store
to cancel it some time later: these are two requests here. -/
inductive SignalRequest where
  | record (input : GameSignalDraft String)
  | registerWait (input : SignalWaitDraft String)
  | findWait (key : SignalWaitKey) (expectedRevision recordedAt : String)
  | cancelWait (key : SignalWaitKey) (expectedRevision recordedAt : String)
  | expireWaits (partition : SignalGeneration) (throughTickInclusive recordedAt : String)
      (limit : Nat)
  | purgeTerminalWaits (partition : SignalGeneration) (beforeRecordedAt : String) (limit : Nat)
  | purgeSignals (partition : SignalGeneration) (beforeRecordedAt : String) (limit : Nat)

inductive SignalAnswer where
  | signal (result : SignalRecordResult)
  | wait (record : SignalWaitRecord)
  | keys (keys : List Nat)

/-- The checks of the service before `cancelWait`. -/
def validateCancelWait (key : SignalWaitKey) (expectedRevision recordedAt : String) :
    Except SignalError (SignalWaitKey × Decimal) := do
  let key ← validateSignalWaitKey key
  let revision ← validateSignalDecimal expectedRevision "wait_revision"
  validateSignalTimestamp recordedAt
  return (key, revision)

/-- The first half of the service's `cancelWait`. -/
def findWait (key : SignalWaitKey) (expectedRevision : Decimal) :
    SignalProgram SignalWaitRecord := do
  match (← get).waits.get? key with
  | none => throw .waitNotFound
  | some current =>
    if current.revision ≠ expectedRevision then throw .waitRevisionConflict else return current

/-- The checks of the service before `expireWaits`. -/
def validateExpireWaits (limits : SignalLimits) (partition : SignalGeneration)
    (throughTickInclusive recordedAt : String) (limit : Nat) :
    Except SignalError (SignalGeneration × Decimal) := do
  let normalized ← normalizeSignalGeneration partition
  let through ← validateSignalDecimal throughTickInclusive "expiration_tick"
  validateSignalTimestamp recordedAt
  validateSignalPageLimit limit limits.maxExpireBatchSize "invalid_signal_expire_limit"
  return (normalized, through)

theorem validateExpireWaits_recordedAt {limits : SignalLimits} {partition : SignalGeneration}
    {throughTickInclusive recordedAt : String} {limit : Nat} {checked : SignalGeneration × Decimal}
    (h : validateExpireWaits limits partition throughTickInclusive recordedAt limit = .ok checked) :
    isCanonicalTimestamp recordedAt = true := by
  simp only [validateExpireWaits, bind_eq_ok] at h
  obtain ⟨_, _, _, _, _, htimestamp, _⟩ := h
  exact validateSignalTimestamp_eq_ok.1 htimestamp

/-- The checks of the service before a purge. -/
def validateSignalPurge (limits : SignalLimits) (partition : SignalGeneration)
    (beforeRecordedAt : String) (limit : Nat) (code : String) :
    Except SignalError SignalGeneration := do
  let normalized ← normalizeSignalGeneration partition
  validateSignalTimestamp beforeRecordedAt
  validateSignalPageLimit limit limits.maxPurgeBatchSize code
  return normalized

/-- One request: the checks of the service, then the method of the store. -/
def SignalRequest.run (ctx : SignalContext) : SignalRequest → SignalProgram SignalAnswer
  | .record input => do
    let draft ← attempt (normalizeGameSignal input ctx.limits)
    return .signal (← recordSignal draft ctx.limits.maxWaitMatchesPerSignal)
  | .registerWait input => do
    let draft ← attempt (normalizeSignalWait input ctx.limits)
    return .wait (← OpenGameAgent.registerWait draft ctx.limits.maxWaitMatchesPerSignal)
  | .findWait key expectedRevision recordedAt => do
    let checked ← attempt (validateCancelWait key expectedRevision recordedAt)
    return .wait (← OpenGameAgent.findWait checked.1 checked.2)
  | .cancelWait key expectedRevision recordedAt => do
    let checked ← attempt (validateCancelWait key expectedRevision recordedAt)
    return .wait (← OpenGameAgent.cancelWait checked.1 checked.2 recordedAt)
  | .expireWaits partition throughTickInclusive recordedAt limit => do
    let checked ← attempt
      (validateExpireWaits ctx.limits partition throughTickInclusive recordedAt limit)
    return .keys (← OpenGameAgent.expireWaits checked.1 checked.2 recordedAt limit)
  | .purgeTerminalWaits partition beforeRecordedAt limit => do
    let normalized ← attempt (validateSignalPurge ctx.limits partition beforeRecordedAt limit
      "invalid_signal_wait_purge_limit")
    return .keys (← OpenGameAgent.purgeTerminalWaits normalized beforeRecordedAt limit)
  | .purgeSignals partition beforeRecordedAt limit => do
    let normalized ← attempt (validateSignalPurge ctx.limits partition beforeRecordedAt limit
      "invalid_signal_purge_limit")
    return .keys (← OpenGameAgent.purgeSignals normalized beforeRecordedAt limit)

/-- The answer to a request, and the store it leaves. -/
def signalStep (ctx : SignalContext) (store : InMemorySignalStore) (request : SignalRequest) :
    Except SignalError SignalAnswer × InMemorySignalStore :=
  respond (request.run ctx) store

end OpenGameAgent
