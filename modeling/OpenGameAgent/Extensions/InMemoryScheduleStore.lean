import OpenGameAgent.Extensions.ScheduleValidation
import OpenGameAgent.Library.OrderedMap
import OpenGameAgent.Library.PriorityQueue
import OpenGameAgent.Library.Program

/-!
# The in-memory schedule store

`packages/extensions/src/in-memory-schedule-store.ts`, method by method.

A record is a value here.  The code compares records by identity to notice that a
callback changed the store in the meantime; every write of a record raises its
revision, so two records with one content are one object.

The two methods that ask the host for identifiers, `advance` and `claimOccurrences`,
are programs: the host may call the store while it makes up an identifier.  The other
methods take a store and give the answer with the next one; when they throw, the store
is as it was.  `cursors` stands for the `TinyQueue` of the package `tinyqueue`.
-/

namespace OpenGameAgent

/-! ## State -/

structure OccurrenceLease where
  token : String
  ownerId : String
  expiresAt : String
  deriving DecidableEq, Repr

structure AdvanceCursor where
  schedule : GameScheduleRecord
  dueTick : Decimal
  ordinal : Decimal
  completed : Bool
  deriving DecidableEq

def compareKeys (left right : Nat) : Ordering :=
  if left < right then .lt else if right < left then .gt else .eq

/-- `compareAdvanceCursors`. -/
def compareAdvanceCursors (left right : AdvanceCursor) : Ordering :=
  let tick := compareScheduleDecimals left.dueTick right.dueTick
  if tick = .eq then compareKeys left.schedule.scheduleKey right.schedule.scheduleKey else tick

/-- `compareOccurrenceOrder`. -/
def compareOccurrenceOrder (left right : ScheduledOccurrenceRecord) : Ordering :=
  let tick := compareScheduleDecimals left.dueTime.tick right.dueTime.tick
  if tick = .eq then compareKeys left.occurrenceKey right.occurrenceKey else tick

/-- What a store is built with: the limits its constructor accepted and the queue. -/
structure ScheduleContext where
  limits : ScheduleLimits
  limitsValid : validateScheduleLimits limits = .ok ()
  cursors : PriorityQueue AdvanceCursor compareAdvanceCursors

/-- `advanceMapKey`: the parts of the text the code joins with `\0`. -/
structure ScheduleAdvanceKey extends ScheduleGeneration where
  advanceId : String
  deriving DecidableEq, Repr

/-- The fields of `InMemoryScheduleStore`. -/
structure InMemoryScheduleStore where
  schedules : OrderedMap GameScheduleKey GameScheduleRecord
  scheduleFingerprints : OrderedMap GameScheduleKey (List UInt16)
  occurrences : OrderedMap Nat ScheduledOccurrenceRecord
  advances : OrderedMap ScheduleAdvanceKey ScheduleAdvanceRecord
  advanceFingerprints : OrderedMap ScheduleAdvanceKey (List UInt16)
  clocks : OrderedMap ScheduleGeneration Decimal
  leases : OrderedMap Nat OccurrenceLease
  completedLeaseTokens : OrderedMap Nat String
  retirements : OrderedMap WorkAuthorityLane ScheduleAuthorityRetirementRecord
  retirementIds : OrderedMap String WorkAuthorityLane
  nextScheduleKey : Nat
  nextOccurrenceKey : Nat
  nextAdvanceKey : Nat

/-- `new InMemoryScheduleStore(limits)`. -/
def InMemoryScheduleStore.empty : InMemoryScheduleStore where
  schedules := .empty
  scheduleFingerprints := .empty
  occurrences := .empty
  advances := .empty
  advanceFingerprints := .empty
  clocks := .empty
  leases := .empty
  completedLeaseTokens := .empty
  retirements := .empty
  retirementIds := .empty
  nextScheduleKey := 1
  nextOccurrenceKey := 1
  nextAdvanceKey := 1

/-- A method that asks the host for identifiers. -/
abbrev ScheduleProgram := EStateM ScheduleError InMemoryScheduleStore

/-- A source of identifiers: what it does when it is asked the `n`th time in one call. -/
abbrev IdentifierSource := Nat → ScheduleProgram String

/-! ## Keys -/

/-- `scheduleMapKey` of a draft: the parts of the text the code joins with `\0`. -/
def GameScheduleDraft.key (schedule : GameScheduleDraft Decimal) : GameScheduleKey :=
  { schedule.partition.toScheduleGeneration with scheduleId := schedule.scheduleId }

def ScheduleAdvanceDraft.key (advance : ScheduleAdvanceDraft Decimal) : ScheduleAdvanceKey :=
  { advance.partition with advanceId := advance.advanceId }

/-- `occurrenceAdvanceMapKey`. -/
def ScheduledOccurrenceRecord.advanceKey (occurrence : ScheduledOccurrenceRecord) :
    ScheduleAdvanceKey :=
  { occurrence.partition.toScheduleGeneration with advanceId := occurrence.advanceId }

/-- The lane a partition lies in, if it names a session and an actor. -/
def SchedulePartition.lane? (partition : SchedulePartition) : Option WorkAuthorityLane :=
  match partition.sessionId, partition.actorId with
  | some sessionId, some actorId =>
    some { partition.toScheduleGeneration with sessionId := sessionId, actorId := actorId }
  | _, _ => none

namespace InMemoryScheduleStore

variable (store : InMemoryScheduleStore) (ctx : ScheduleContext)

/-! ## Authority -/

/-- `isRetired`. -/
def isRetired (partition : SchedulePartition) : Bool :=
  partition.lane?.any fun lane => store.retirements.has lane

/-- `assertAuthorityOpen`. -/
def assertAuthorityOpen (partition : SchedulePartition) : Except ScheduleError Unit :=
  match partition.lane? with
  | none => .ok ()
  | some lane =>
    if store.retirements.has lane then .error (.workAuthorityRetired lane) else .ok ()

/-! ## Creation -/

/-- The active schedules of a generation, oldest first. -/
def activeSchedules (generation : ScheduleGeneration) : List GameScheduleRecord :=
  store.schedules.values.filter fun schedule =>
    schedule.status = .active &&
      sameScheduleGeneration schedule.partition.toScheduleGeneration generation

/-- The pending occurrences of a generation. -/
def pendingOccurrences (generation : ScheduleGeneration) : List ScheduledOccurrenceRecord :=
  store.occurrences.values.filter fun occurrence =>
    occurrence.status = .pending &&
      sameScheduleGeneration occurrence.partition.toScheduleGeneration generation

/-- The record `create` stores. -/
def scheduleRecord (schedule : GameScheduleDraft Decimal) (scheduleKey : Nat) :
    GameScheduleRecord :=
  { schedule with
    scheduleKey := scheduleKey
    status := .active
    revision := .ofNat 1
    occurrences := .ofNat 0
    nextDueTick := some schedule.dueTime.tick
    createdAt := schedule.recordedAt
    updatedAt := schedule.recordedAt }

/-- `create`. -/
def create (input : GameScheduleDraft String) (maxActive : Nat) :
    Except ScheduleError (GameScheduleRecord × InMemoryScheduleStore) := do
  validateSchedulePageLimit maxActive ctx.limits.maxActiveSchedulesPerTimelineGeneration
    "invalid_active_schedule_limit"
  let schedule ← normalizeGameSchedule input ctx.limits
  store.assertAuthorityOpen schedule.partition
  match store.schedules.get? schedule.key with
  | some existing =>
    require (store.scheduleFingerprints.get? schedule.key = some (scheduleFingerprint schedule))
      .conflict
    return (existing, store)
  | none =>
    require (!(store.clocks.get? schedule.partition.toScheduleGeneration).any
      fun currentTick => scheduleDecimalLe schedule.dueTime.tick currentTick) .missedOccurrence
    require ((store.activeSchedules schedule.partition.toScheduleGeneration).length < maxActive)
      (.capacity "active_schedules")
    let record := scheduleRecord schedule store.nextScheduleKey
    return (record, { store with
      nextScheduleKey := store.nextScheduleKey + 1
      schedules := store.schedules.set schedule.key record
      scheduleFingerprints :=
        store.scheduleFingerprints.set schedule.key (scheduleFingerprint schedule) })

/-! ## Retirement -/

/-- A schedule that is cancelled at a time. -/
def cancelRecord (record : GameScheduleRecord) (recordedAt : String) :
    Except ScheduleError GameScheduleRecord := do
  let revision ← incrementScheduleDecimal record.revision ctx.limits.maxCounterDigits "revision"
  let updatedAt ← laterScheduleTimestamp record.updatedAt recordedAt
  return { record with
    status := .cancelled
    nextDueTick := none
    revision := revision
    updatedAt := updatedAt }

/-- An occurrence that is cancelled at a time. -/
def cancelOccurrence (record : ScheduledOccurrenceRecord) (recordedAt : String) :
    Except ScheduleError ScheduledOccurrenceRecord := do
  let cancelledAt ← laterScheduleTimestamp record.updatedAt recordedAt
  let revision ← incrementScheduleDecimal record.revision ctx.limits.maxCounterDigits "revision"
  return { record with
    status := .cancelled
    revision := revision
    updatedAt := cancelledAt
    cancelledAt := some cancelledAt }

/-- Write schedules, each under its key. -/
def setSchedules (schedules : OrderedMap GameScheduleKey GameScheduleRecord)
    (updates : List GameScheduleRecord) : OrderedMap GameScheduleKey GameScheduleRecord :=
  updates.foldl (fun map record => map.set record.key record) schedules

/-- Write occurrences, each under its key. -/
def setOccurrences (occurrences : OrderedMap Nat ScheduledOccurrenceRecord)
    (updates : List ScheduledOccurrenceRecord) : OrderedMap Nat ScheduledOccurrenceRecord :=
  updates.foldl (fun map record => map.set record.occurrenceKey record) occurrences

/-- The active schedules of a lane. -/
def laneSchedules (lane : WorkAuthorityLane) : List GameScheduleRecord :=
  store.schedules.values.filter fun record =>
    record.status = .active && sameScheduleAuthorityLane record.partition lane

/-- The pending occurrences of a lane that a phase cancels: the first one spares leased ones. -/
def laneOccurrences (lane : WorkAuthorityLane) (phase : RetirementPhase) :
    List ScheduledOccurrenceRecord :=
  store.occurrences.values.filter fun record =>
    record.status = .pending && sameScheduleAuthorityLane record.partition lane &&
      (phase = .finalized || !store.leases.has record.occurrenceKey)

/-- Whether a request conflicts with the retirement of its lane or of its identifier. -/
def retirementConflict (request : WorkAuthorityRetirementRequest) : Bool :=
  (store.retirementIds.get? request.retirementId).any (fun lane => lane ≠ request.partition) ||
    (store.retirements.get? request.partition).any fun existing =>
      existing.toWorkAuthorityRetirementRequest ≠ request

/-- `retireAuthority`. -/
def retireAuthority (input : WorkAuthorityRetirementRequest) (phase : RetirementPhase) :
    Except ScheduleError (ScheduleAuthorityRetirementRecord × InMemoryScheduleStore) := do
  let request ← normalizeScheduleAuthorityRetirement input ctx.limits
  let existing := store.retirements.get? request.partition
  require (!store.retirementConflict request) .workAuthorityRetirementConflict
  match existing.filter fun record => phase = .fenced || record.phase = .finalized with
  | some record => return (record, store)
  | none =>
    require (!(phase = .finalized && existing.isNone)) .workAuthorityRetirementConflict
    let schedules := store.laneSchedules request.partition
    let occurrences := store.laneOccurrences request.partition phase
    require (schedules.length ≤ ctx.limits.maxActiveSchedulesPerTimelineGeneration)
      (.capacity "active_schedules")
    require (occurrences.length ≤ ctx.limits.maxPendingOccurrencesPerTimelineGeneration)
      (.capacity "pending_occurrences")
    let scheduleUpdates ← schedules.mapM fun record => cancelRecord ctx record request.recordedAt
    let occurrenceUpdates ←
      occurrences.mapM fun record => cancelOccurrence ctx record request.recordedAt
    let retirement : ScheduleAuthorityRetirementRecord := { request with
      phase := phase
      cancelledScheduleCount :=
        (existing.map fun record => record.cancelledScheduleCount).getD 0 +
          scheduleUpdates.length
      cancelledOccurrenceCount :=
        (existing.map fun record => record.cancelledOccurrenceCount).getD 0 +
          occurrenceUpdates.length }
    return (retirement, { store with
      schedules := setSchedules store.schedules scheduleUpdates
      occurrences := setOccurrences store.occurrences occurrenceUpdates
      leases := store.leases.filterKeys fun key =>
        !occurrenceUpdates.any fun record => record.occurrenceKey = key
      retirements := store.retirements.set request.partition retirement
      retirementIds := store.retirementIds.set request.retirementId request.partition })

/-- `readAuthorityRetirement`. -/
def readAuthorityRetirement (input : WorkAuthorityLane) :
    Except ScheduleError (Option ScheduleAuthorityRetirementRecord) := do
  let lane ← normalizeScheduleAuthorityLane input ctx.limits
  return store.retirements.get? lane

/-- `cancelSchedule`. -/
def cancelSchedule (input : GameScheduleKey) (expectedRevision recordedAt : String) :
    Except ScheduleError (GameScheduleRecord × InMemoryScheduleStore) := do
  let key ← validateGameScheduleKey input ctx.limits
  let expected ←
    validateScheduleDecimal expectedRevision "revision" ctx.limits.maxCounterDigits
  validateScheduleTimestamp recordedAt
  match store.schedules.get? key with
  | none => .error .notFound
  | some current =>
    store.assertAuthorityOpen current.partition
    require (current.revision = expected) .revisionConflict
    require (current.status = .active) .terminal
    let updated ← cancelRecord ctx current recordedAt
    return (updated, { store with schedules := store.schedules.set key updated })

/-! ## Advancing -/

/-- What `advance` reads before it generates anything. -/
structure AdvancePlan where
  advance : ScheduleAdvanceDraft Decimal
  clock : Option Decimal
  active : List GameScheduleRecord
  pending : Nat
  firstOccurrenceKey : Nat

/-- `occurrencesForAdvance`. -/
def occurrencesForAdvance (advance : ScheduleAdvanceDraft Decimal) :
    List ScheduledOccurrenceRecord :=
  (store.occurrences.values.filter fun occurrence =>
    occurrence.advanceId = advance.advanceId &&
      sameScheduleGeneration occurrence.partition.toScheduleGeneration advance.partition
    ).insertionSort fun left right => compareOccurrenceOrder left right ≠ .gt

/-- The answer to an advance that was made before. -/
def replayAdvance (advance : ScheduleAdvanceDraft Decimal) (existing : ScheduleAdvanceRecord)
    (maxGenerated : Nat) : Except ScheduleError ScheduleAdvanceResult := do
  require (store.advanceFingerprints.get? advance.key = some (scheduleAdvanceFingerprint advance))
    .advanceConflict
  let occurrences := store.occurrencesForAdvance advance
  require (occurrences.length ≤ maxGenerated) .advanceOverflow
  return { advance := existing, occurrences := occurrences }

/-- The checks of an advance that is new. -/
def planAdvance (advance : ScheduleAdvanceDraft Decimal) : Except ScheduleError AdvancePlan := do
  let clock := store.clocks.get? advance.partition
  require (clock.all fun tick => tick = advance.fromExclusive.tick) .clockConflict
  let active := store.activeSchedules advance.partition
  require (active.all fun schedule => !schedule.nextDueTick.any fun nextDueTick =>
    scheduleDecimalLe nextDueTick advance.fromExclusive.tick) .missedOccurrence
  return {
    advance := advance
    clock := clock
    active := active
    pending := (store.pendingOccurrences advance.partition).length
    firstOccurrenceKey := store.nextOccurrenceKey }

/-- A cursor at a schedule that is due by a tick. -/
def dueCursor (toInclusive : Decimal) (schedule : GameScheduleRecord) : Option AdvanceCursor :=
  (schedule.nextDueTick.filter fun tick => scheduleDecimalLe tick toInclusive).map fun tick =>
    { schedule := schedule, dueTick := tick, ordinal := schedule.occurrences, completed := false }

/-- The cursors an advance starts with. -/
def AdvancePlan.dueCursors (plan : AdvancePlan) : List AdvanceCursor :=
  plan.active.filterMap (dueCursor plan.advance.toInclusive.tick)

/-- What the loop of `advance` has made so far. -/
structure AdvanceLoop (ctx : ScheduleContext) where
  cursors : ctx.cursors.Queue
  generated : List ScheduledOccurrenceRecord
  finalBySchedule : OrderedMap Nat AdvanceCursor
  occurrenceKey : Nat

/-- The loop before its first round. -/
def AdvancePlan.start (plan : AdvancePlan) (ctx : ScheduleContext) : AdvanceLoop ctx where
  cursors := ctx.cursors.ofList plan.dueCursors
  generated := []
  finalBySchedule := .empty
  occurrenceKey := plan.firstOccurrenceKey

/-- The occurrence at a cursor whose ordinal was just counted. -/
def occurrenceRecord (advance : ScheduleAdvanceDraft Decimal) (cursor : AdvanceCursor)
    (occurrenceKey : Nat) (signalId : String) : ScheduledOccurrenceRecord where
  occurrenceKey := occurrenceKey
  signalId := signalId
  scheduleKey := cursor.schedule.scheduleKey
  scheduleId := cursor.schedule.scheduleId
  ordinal := cursor.ordinal
  advanceId := advance.advanceId
  partition := cursor.schedule.partition
  kind := cursor.schedule.kind
  payload := cursor.schedule.payload
  dueTime := { cursor.schedule.dueTime with tick := cursor.dueTick }
  subjectIds := cursor.schedule.subjectIds
  causeIds := cursor.schedule.causeIds
  status := .pending
  revision := .ofNat 1
  attempt := .ofNat 0
  createdAt := advance.recordedAt
  updatedAt := advance.recordedAt
  completedAt := none
  cancelledAt := none

/-- Move a cursor behind the occurrence it was at. -/
def moveCursor (cursor : AdvanceCursor) : Except ScheduleError AdvanceCursor :=
  let completed := cursor.schedule.maximumOccurrences.any fun maximum =>
    scheduleDecimalLe maximum cursor.ordinal
  match completed, cursor.schedule.intervalTicks with
  | false, some intervalTicks => do
    let dueTick ← addScheduleDecimals cursor.dueTick intervalTicks ctx.limits.maxTickDigits
    return { cursor with dueTick := dueTick, completed := false }
  | _, _ => .ok { cursor with completed := true }

/-- Whether a cursor that was moved goes back into the queue. -/
def requeued (toInclusive : Decimal) (cursor : AdvanceCursor) : Option AdvanceCursor :=
  if !cursor.completed && scheduleDecimalLe cursor.dueTick toInclusive then some cursor else none

/-- One round of the loop, at the cursor that was popped. -/
def advanceRound (plan : AdvancePlan) (maxPending : Nat) (newSignalId : IdentifierSource)
    (cursor : AdvanceCursor) (cursors : ctx.cursors.Queue) (loop : AdvanceLoop ctx) :
    ScheduleProgram (AdvanceLoop ctx) := do
  attempt (require (plan.pending + loop.generated.length < maxPending)
    (.capacity "pending_occurrences"))
  let ordinal ←
    attempt (incrementScheduleDecimal cursor.ordinal ctx.limits.maxCounterDigits "occurrences")
  let signalId ← newSignalId loop.generated.length
  attempt (validateScheduleIdentifier signalId ctx.limits.maxIdentifierBytes "signal_id")
  let counted := { cursor with ordinal := ordinal }
  let moved ← attempt (moveCursor ctx counted)
  return {
    cursors :=
      ctx.cursors.pushSome cursors (requeued plan.advance.toInclusive.tick moved)
    generated := loop.generated ++
      [occurrenceRecord plan.advance counted loop.occurrenceKey signalId]
    finalBySchedule := loop.finalBySchedule.set cursor.schedule.scheduleKey moved
    occurrenceKey := loop.occurrenceKey + 1 }

/-- The loop of `advance`; `room` is `maxGenerated - generated.length`. -/
def advanceLoop (plan : AdvancePlan) (maxPending : Nat) (newSignalId : IdentifierSource) :
    Nat → AdvanceLoop ctx → ScheduleProgram (AdvanceLoop ctx)
  | room, loop =>
    match ctx.cursors.pop loop.cursors with
    | none => pure loop
    | some (cursor, cursors) =>
      match room with
      | 0 => throw .advanceOverflow
      | room + 1 => do
        let next ← advanceRound ctx plan maxPending newSignalId cursor cursors loop
        advanceLoop plan maxPending newSignalId room next

/-- The schedule a cursor leaves behind. -/
def scheduleUpdate (plan : AdvancePlan) (cursor : AdvanceCursor) :
    Except ScheduleError GameScheduleRecord := do
  store.assertAuthorityOpen cursor.schedule.partition
  require (store.schedules.get? cursor.schedule.key = some cursor.schedule) .revisionConflict
  let revision ←
    incrementScheduleDecimal cursor.schedule.revision ctx.limits.maxCounterDigits "revision"
  let updatedAt ← laterScheduleTimestamp cursor.schedule.updatedAt plan.advance.recordedAt
  return { cursor.schedule with
    status := if cursor.completed then .completed else .active
    revision := revision
    occurrences := cursor.ordinal
    nextDueTick := if cursor.completed then none else some cursor.dueTick
    updatedAt := updatedAt }

/-- Write what the loop made, unless the store was changed under it. -/
def commitAdvance (plan : AdvancePlan) (loop : AdvanceLoop ctx) :
    Except ScheduleError (ScheduleAdvanceResult × InMemoryScheduleStore) := do
  let scheduleUpdates ← loop.finalBySchedule.values.mapM (store.scheduleUpdate ctx plan)
  require (store.clocks.get? plan.advance.partition = plan.clock) .clockConflict
  require (store.nextOccurrenceKey = plan.firstOccurrenceKey &&
    store.activeSchedules plan.advance.partition = plan.active) .revisionConflict
  let advanceRecord : ScheduleAdvanceRecord :=
    { plan.advance with advanceKey := store.nextAdvanceKey }
  return ({ advance := advanceRecord, occurrences := loop.generated }, { store with
    schedules := setSchedules store.schedules scheduleUpdates
    occurrences := setOccurrences store.occurrences loop.generated
    nextOccurrenceKey := loop.occurrenceKey
    nextAdvanceKey := store.nextAdvanceKey + 1
    advances := store.advances.set plan.advance.key advanceRecord
    advanceFingerprints :=
      store.advanceFingerprints.set plan.advance.key (scheduleAdvanceFingerprint plan.advance)
    clocks := store.clocks.set plan.advance.partition plan.advance.toInclusive.tick })

/-- A method that answers and leaves a store, run on the store as it is. -/
def method {α : Type}
    (f : InMemoryScheduleStore → Except ScheduleError (α × InMemoryScheduleStore)) :
    ScheduleProgram α := do
  let (answer, store) ← attempt (f (← get))
  set store
  return answer

/-- `advance`. -/
def advance (ctx : ScheduleContext) (input : ScheduleAdvanceDraft String)
    (maxGenerated maxPending : Nat) (newSignalId : IdentifierSource) :
    ScheduleProgram ScheduleAdvanceResult := do
  attempt (validateSchedulePageLimit maxGenerated ctx.limits.maxOccurrencesPerAdvance
    "invalid_schedule_advance_limit")
  attempt (validateSchedulePageLimit maxPending
    ctx.limits.maxPendingOccurrencesPerTimelineGeneration "invalid_pending_occurrence_limit")
  let advance ← attempt (normalizeScheduleAdvance input ctx.limits)
  let store ← get
  match store.advances.get? advance.key with
  | some existing => attempt (store.replayAdvance advance existing maxGenerated)
  | none => do
    let plan ← attempt (store.planAdvance advance)
    let loop ← advanceLoop ctx plan maxPending newSignalId maxGenerated (plan.start ctx)
    method fun store => store.commitAdvance ctx plan loop

/-! ## Claiming and settling -/

/-- The occurrences a claim selects. -/
def claimable (claim : ScheduleOccurrenceClaimRequest) : List ScheduledOccurrenceRecord :=
  ((store.occurrences.values.filter fun record =>
    record.status = .pending && !store.isRetired record.partition &&
      sameScheduleGeneration record.partition.toScheduleGeneration claim.toScheduleGeneration &&
      claim.sessionId.all (fun sessionId => record.partition.sessionId = some sessionId) &&
      claim.actorId.all (fun actorId => record.partition.actorId = some actorId) &&
      (store.leases.get? record.occurrenceKey).all
        (fun lease => !decide (claim.operationalNow < lease.expiresAt))
    ).insertionSort fun left right => compareOccurrenceOrder left right ≠ .gt).take claim.limit

/-- The delivery of an occurrence under a new lease. -/
def claimDelivery (claim : ScheduleOccurrenceClaimRequest) (record : ScheduledOccurrenceRecord)
    (token : String) : Except ScheduleError ScheduledOccurrenceDelivery := do
  validateScheduleIdentifier token ctx.limits.maxIdentifierBytes "lease_token"
  let revision ← incrementScheduleDecimal record.revision ctx.limits.maxCounterDigits "revision"
  let attempt ← incrementScheduleDecimal record.attempt ctx.limits.maxCounterDigits "attempt"
  let updatedAt ← laterScheduleTimestamp record.updatedAt claim.operationalNow
  return {
    occurrence := { record with revision := revision, attempt := attempt, updatedAt := updatedAt }
    leaseToken := token
    leaseOwnerId := claim.leaseOwnerId
    leaseExpiresAt := claim.leaseExpiresAt }

/-- The deliveries of the selected occurrences, the first of them the `n`th of the claim. -/
def claimDeliveries (claim : ScheduleOccurrenceClaimRequest) (newLeaseToken : IdentifierSource) :
    Nat → List ScheduledOccurrenceRecord → ScheduleProgram (List ScheduledOccurrenceDelivery)
  | _, [] => pure []
  | n, record :: rest => do
    let token ← newLeaseToken n
    let delivery ← attempt (claimDelivery ctx claim record token)
    let deliveries ← claimDeliveries claim newLeaseToken (n + 1) rest
    return delivery :: deliveries

/-- The checks of the selected occurrences before they are leased. -/
def assertClaimable : List ScheduledOccurrenceRecord → Except ScheduleError Unit
  | [] => .ok ()
  | record :: rest => do
    store.assertAuthorityOpen record.partition
    require (store.occurrences.get? record.occurrenceKey = some record) .occurrenceLeaseConflict
    assertClaimable rest

/-- Lease the delivered occurrences, unless the store was changed meanwhile. -/
def commitClaim (selected : List ScheduledOccurrenceRecord)
    (deliveries : List ScheduledOccurrenceDelivery) :
    Except ScheduleError (List ScheduledOccurrenceDelivery × InMemoryScheduleStore) := do
  store.assertClaimable selected
  return (deliveries, { store with
    occurrences :=
      setOccurrences store.occurrences (deliveries.map fun delivery => delivery.occurrence)
    leases := deliveries.foldl (fun leases delivery =>
      leases.set delivery.occurrence.occurrenceKey {
        token := delivery.leaseToken
        ownerId := delivery.leaseOwnerId
        expiresAt := delivery.leaseExpiresAt }) store.leases })

/-- `claimOccurrences`. -/
def claimOccurrences (ctx : ScheduleContext) (request : ScheduleOccurrenceClaimRequest)
    (newLeaseToken : IdentifierSource) : ScheduleProgram (List ScheduledOccurrenceDelivery) := do
  let claim ← attempt (normalizeScheduleClaim request ctx.limits)
  let store ← get
  attempt (store.assertAuthorityOpen claim.toSchedulePartition)
  let selected := store.claimable claim
  let deliveries ← claimDeliveries ctx claim newLeaseToken 0 selected
  method fun store => store.commitClaim selected deliveries

/-- The occurrence a key of a generation names. -/
def findOccurrence (key : ScheduledOccurrenceSequenceKey) :
    Except ScheduleError ScheduledOccurrenceRecord :=
  match store.occurrences.get? key.occurrenceKey with
  | some current =>
    if sameScheduleGeneration current.partition.toScheduleGeneration key.toScheduleGeneration then
      .ok current
    else .error .occurrenceNotFound
  | none => .error .occurrenceNotFound

/-- Whether a lease still holds for a token at a time. -/
def leaseHolds (occurrenceKey : Nat) (leaseToken recordedAt : String) : Bool :=
  (store.leases.get? occurrenceKey).any fun lease =>
    lease.token = leaseToken && decide (recordedAt < lease.expiresAt)

/-- `completeOccurrence`. -/
def completeOccurrence (input : ScheduledOccurrenceSequenceKey) (leaseToken recordedAt : String) :
    Except ScheduleError (ScheduledOccurrenceRecord × InMemoryScheduleStore) := do
  let key ← validateScheduledOccurrenceSequenceKey input ctx.limits
  validateScheduleTimestamp recordedAt
  let current ← store.findOccurrence key
  if current.status = .completed then do
    require (store.completedLeaseTokens.get? current.occurrenceKey = some leaseToken)
      .occurrenceLeaseConflict
    return (current, store)
  else do
    store.assertAuthorityOpen current.partition
    require (store.leaseHolds current.occurrenceKey leaseToken recordedAt) .occurrenceLeaseConflict
    let completedAt ← laterScheduleTimestamp current.updatedAt recordedAt
    let revision ←
      incrementScheduleDecimal current.revision ctx.limits.maxCounterDigits "revision"
    let updated := { current with
      status := .completed
      revision := revision
      updatedAt := completedAt
      completedAt := some completedAt }
    return (updated, { store with
      occurrences := store.occurrences.set current.occurrenceKey updated
      leases := store.leases.delete current.occurrenceKey
      completedLeaseTokens := store.completedLeaseTokens.set current.occurrenceKey leaseToken })

/-- `abandonOccurrence`. -/
def abandonOccurrence (input : ScheduledOccurrenceSequenceKey) (leaseToken recordedAt : String) :
    Except ScheduleError (ScheduledOccurrenceRecord × InMemoryScheduleStore) := do
  let key ← validateScheduledOccurrenceSequenceKey input ctx.limits
  validateScheduleTimestamp recordedAt
  let current ← store.findOccurrence key
  store.assertAuthorityOpen current.partition
  require (current.status = .pending &&
    store.leaseHolds current.occurrenceKey leaseToken recordedAt) .occurrenceLeaseConflict
  let revision ← incrementScheduleDecimal current.revision ctx.limits.maxCounterDigits "revision"
  let updatedAt ← laterScheduleTimestamp current.updatedAt recordedAt
  let updated := { current with revision := revision, updatedAt := updatedAt }
  return (updated, { store with
    occurrences := store.occurrences.set current.occurrenceKey updated
    leases := store.leases.delete current.occurrenceKey })

/-! ## Purging -/

/-- The checks a purge begins with. -/
def validatePurge (generation : ScheduleGeneration) (beforeRecordedAt : String) (limit : Nat)
    (code : String) : Except ScheduleError Unit := do
  let _ ← normalizeSchedulePartition { generation with sessionId := none, actorId := none }
    ctx.limits
  validateScheduleTimestamp beforeRecordedAt
  validateSchedulePageLimit limit ctx.limits.maxPurgeBatchSize code

/-- The terminal occurrences a purge selects. -/
def purgeableOccurrences (generation : ScheduleGeneration) (beforeRecordedAt : String)
    (limit : Nat) : List ScheduledOccurrenceRecord :=
  ((store.occurrences.values.filter fun record =>
    record.status ≠ .pending &&
      sameScheduleGeneration record.partition.toScheduleGeneration generation &&
      decide (record.updatedAt < beforeRecordedAt)).insertionSort fun left right =>
        left.occurrenceKey ≤ right.occurrenceKey).take limit

/-- `purgeTerminalOccurrences`. -/
def purgeTerminalOccurrences (generation : ScheduleGeneration) (beforeRecordedAt : String)
    (limit : Nat) : Except ScheduleError (List Nat × InMemoryScheduleStore) := do
  validatePurge ctx generation beforeRecordedAt limit "invalid_occurrence_purge_limit"
  let selected := store.purgeableOccurrences generation beforeRecordedAt limit
  let keys := selected.map fun record => record.occurrenceKey
  return (keys, { store with
    occurrences := store.occurrences.filterKeys fun key => key ∉ keys
    leases := store.leases.filterKeys fun key => key ∉ keys
    completedLeaseTokens := store.completedLeaseTokens.filterKeys fun key => key ∉ keys })

/-- The terminal schedules a purge selects: an occurrence that refers to one keeps it. -/
def purgeableSchedules (generation : ScheduleGeneration) (beforeRecordedAt : String)
    (limit : Nat) : List (GameScheduleKey × GameScheduleRecord) :=
  let referenced := store.occurrences.values.map fun record => record.scheduleKey
  ((store.schedules.entries.filter fun entry =>
    entry.2.status ≠ .active &&
      sameScheduleGeneration entry.2.partition.toScheduleGeneration generation &&
      decide (entry.2.updatedAt < beforeRecordedAt) &&
      entry.2.scheduleKey ∉ referenced).insertionSort fun left right =>
        left.2.scheduleKey ≤ right.2.scheduleKey).take limit

/-- `purgeTerminalSchedules`. -/
def purgeTerminalSchedules (generation : ScheduleGeneration) (beforeRecordedAt : String)
    (limit : Nat) : Except ScheduleError (List Nat × InMemoryScheduleStore) := do
  validatePurge ctx generation beforeRecordedAt limit "invalid_schedule_purge_limit"
  let selected := store.purgeableSchedules generation beforeRecordedAt limit
  let keys := selected.map Prod.fst
  return (selected.map fun entry => entry.2.scheduleKey, { store with
    schedules := store.schedules.filterKeys fun key => key ∉ keys
    scheduleFingerprints := store.scheduleFingerprints.filterKeys fun key => key ∉ keys })

/-- The advances a purge selects: an occurrence that refers to one keeps it. -/
def purgeableAdvances (generation : ScheduleGeneration) (beforeRecordedAt : String)
    (limit : Nat) : List (ScheduleAdvanceKey × ScheduleAdvanceRecord) :=
  let referenced := store.occurrences.values.map ScheduledOccurrenceRecord.advanceKey
  ((store.advances.entries.filter fun entry =>
    sameScheduleGeneration entry.2.partition generation &&
      decide (entry.2.recordedAt < beforeRecordedAt) &&
      entry.2.key ∉ referenced).insertionSort fun left right =>
        left.2.advanceKey ≤ right.2.advanceKey).take limit

/-- `purgeAdvances`. -/
def purgeAdvances (generation : ScheduleGeneration) (beforeRecordedAt : String) (limit : Nat) :
    Except ScheduleError (List Nat × InMemoryScheduleStore) := do
  validatePurge ctx generation beforeRecordedAt limit "invalid_schedule_advance_purge_limit"
  let selected := store.purgeableAdvances generation beforeRecordedAt limit
  let keys := selected.map Prod.fst
  return (selected.map fun entry => entry.2.advanceKey, { store with
    advances := store.advances.filterKeys fun key => key ∉ keys
    advanceFingerprints := store.advanceFingerprints.filterKeys fun key => key ∉ keys })

end InMemoryScheduleStore

end OpenGameAgent
