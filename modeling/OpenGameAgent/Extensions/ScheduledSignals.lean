import OpenGameAgent.Extensions.InMemorySignalStore
import OpenGameAgent.Extensions.ScheduleRuns

/-!
# Dispatching scheduled occurrences as signals

`ScheduledSignalDispatcher.dispatch` of `packages/extensions/src/schedule-service.ts`, over
the two in-memory stores.

A dispatch awaits each access to a store, and other calls fall in between, so it is a frame
that is resumed: it holds what it has read and the stage it has reached.  The numbers of a
delivery are decimals here; the dispatch refuses others before it reads anything.
-/

namespace OpenGameAgent

/-! ## Reads of the schedule store -/

/-- `getOccurrence`, `undefined` being the dispatch's own error. -/
def InMemoryScheduleStore.getOccurrence (store : InMemoryScheduleStore)
    (key : ScheduledOccurrenceSequenceKey) : Except ScheduleError ScheduledOccurrenceRecord :=
  store.findOccurrence key

/-! ## Programs over both stores -/

/-- What the two services are built with. -/
structure DispatchContext where
  schedules : ScheduleContext
  signals : SignalContext

structure DispatchStores where
  schedules : InMemoryScheduleStore
  signals : InMemorySignalStore

inductive DispatchError where
  | aborted
  | schedule (error : ScheduleError)
  | signal (error : SignalError)
  deriving DecidableEq, Repr

abbrev DispatchProgram := EStateM DispatchError DispatchStores

/-- A check of the schedule service. -/
def scheduleCheck {α : Type} (x : Except ScheduleError α) : DispatchProgram α :=
  attempt (x.mapError .schedule)

/-- A check of the signal service. -/
def signalCheck {α : Type} (x : Except SignalError α) : DispatchProgram α :=
  attempt (x.mapError .signal)

/-- A method of the schedule store. -/
def onSchedules {α : Type}
    (f : InMemoryScheduleStore → Except ScheduleError (α × InMemoryScheduleStore)) :
    DispatchProgram α := do
  let stores ← get
  let (answer, schedules) ← scheduleCheck (f stores.schedules)
  set { stores with schedules := schedules }
  return answer

/-- A method of the signal store, which keeps what it wrote when it throws. -/
def onSignals {α : Type} (m : SignalProgram α) : DispatchProgram α :=
  fun stores => match m stores.signals with
    | .ok answer signals => .ok answer { stores with signals := signals }
    | .error e signals => .error (.signal e) { stores with signals := signals }

/-- `signal?.throwIfAborted()`. -/
def throwIfAborted (aborted : Bool) : DispatchProgram Unit :=
  if aborted then throw .aborted else pure ()

/-! ## The dispatch -/

/-- A time whose tick is text again. -/
def GameTime.raw (time : GameTime Decimal) : GameTime String :=
  { time with tick := time.tick.text }

/-- A draft whose tick is text again. -/
def GameSignalDraft.raw (draft : GameSignalDraft Decimal) : GameSignalDraft String :=
  { draft with gameTime := draft.gameTime.raw }

/-- The signal an occurrence is projected into. -/
def ScheduledOccurrenceRecord.signalInput (occurrence : ScheduledOccurrenceRecord) :
    GameSignalDraft String where
  signalId := occurrence.signalId
  partition := occurrence.partition
  kind := occurrence.kind
  payload := occurrence.payload
  gameTime := occurrence.dueTime.raw
  subjectIds := occurrence.subjectIds
  causeIds := occurrence.causeIds
  recordedAt := occurrence.createdAt

/-- How far a dispatch has come since it read the occurrence. -/
inductive DispatchStage where
  | found
  | cleared
  | proven (effect : GameSignalDraft Decimal)
  | recorded (effect : GameSignalDraft Decimal)

/-- What a dispatch that awaits holds. -/
structure DispatchFrame where
  delivery : ScheduledOccurrenceDelivery
  completedAt : String
  captured : GameSignalDraft Decimal
  key : ScheduledOccurrenceSequenceKey
  persisted : ScheduledOccurrenceRecord
  stage : DispatchStage

/-- `dispatch` until it has read the occurrence. -/
def startDispatch (ctx : DispatchContext) (delivery : ScheduledOccurrenceDelivery)
    (completedAt : String) (aborted : Bool) : DispatchProgram DispatchFrame := do
  throwIfAborted aborted
  scheduleCheck (validateScheduleTimestamp completedAt)
  let occurrence := delivery.occurrence
  let limits := ctx.schedules.limits
  scheduleCheck
    (validateScheduleIdentifier delivery.leaseToken limits.maxIdentifierBytes "lease_token")
  let _ ← scheduleCheck
    (validateScheduleDecimal occurrence.revision.text "revision" limits.maxCounterDigits)
  let _ ← scheduleCheck
    (validateScheduleDecimal occurrence.attempt.text "attempt" limits.maxCounterDigits)
  let captured ← signalCheck (normalizeGameSignal occurrence.signalInput ctx.signals.limits)
  let key ← scheduleCheck (validateScheduledOccurrenceSequenceKey
    { captured.partition.toScheduleGeneration with occurrenceKey := occurrence.occurrenceKey }
    limits)
  let persisted ← scheduleCheck ((← get).schedules.getOccurrence key)
  return {
    delivery := delivery
    completedAt := completedAt
    captured := captured
    key := key
    persisted := persisted
    stage := .found }

namespace DispatchFrame

/-- Refuse an occurrence whose lane is retired. -/
def clear (ctx : DispatchContext) (frame : DispatchFrame) : DispatchProgram Unit :=
  match frame.persisted.partition.sessionId, frame.persisted.partition.actorId with
  | some sessionId, some actorId => do
    let lane : WorkAuthorityLane :=
      { frame.key.toScheduleGeneration with sessionId := sessionId, actorId := actorId }
    let retirement ← scheduleCheck
      ((← get).schedules.readAuthorityRetirement ctx.schedules lane)
    if retirement.isSome then throw (.schedule (.workAuthorityRetired lane)) else pure ()
  | _, _ => pure ()

/-- Whether the occurrence is the one delivered, still in the state it was delivered in or
completed. -/
def isCurrent (frame : DispatchFrame) (effect : GameSignalDraft Decimal) : Bool :=
  signalFingerprint frame.captured = signalFingerprint effect &&
    !(frame.persisted.status = .pending &&
      (frame.persisted.revision ≠ frame.delivery.occurrence.revision ||
        frame.persisted.attempt ≠ frame.delivery.occurrence.attempt)) &&
    frame.persisted.status ≠ .cancelled

/-- `completeOccurrence` under the token of the delivery. -/
def complete (ctx : DispatchContext) (frame : DispatchFrame) :
    DispatchProgram ScheduledOccurrenceRecord :=
  onSchedules fun store =>
    store.completeOccurrence ctx.schedules frame.key frame.delivery.leaseToken frame.completedAt

/-- The checks of the occurrence that was read; a completed one is proved by the token. -/
def prove (ctx : DispatchContext) (frame : DispatchFrame) (aborted : Bool) :
    DispatchProgram (GameSignalDraft Decimal) := do
  let effect ← signalCheck (normalizeGameSignal frame.persisted.signalInput ctx.signals.limits)
  scheduleCheck (require (frame.isCurrent effect) .occurrenceLeaseConflict)
  throwIfAborted aborted
  if frame.persisted.status = .completed then do
    let _ ← frame.complete ctx
    return effect
  else return effect

/-- `dispatch` from one await to the next: the frame it leaves, or none when it answers. -/
def resume (ctx : DispatchContext) (frame : DispatchFrame) (aborted : Bool) :
    DispatchProgram (Option DispatchFrame) :=
  match frame.stage with
  | .found => do
    frame.clear ctx
    return some { frame with stage := .cleared }
  | .cleared => do
    let effect ← frame.prove ctx aborted
    return some { frame with stage := .proven effect }
  | .proven effect => do
    let draft ← signalCheck (normalizeGameSignal effect.raw ctx.signals.limits)
    let _ ← onSignals (recordSignal draft ctx.signals.limits.maxWaitMatchesPerSignal)
    return some { frame with stage := .recorded effect }
  | .recorded _ => do
    throwIfAborted aborted
    let _ ← frame.complete ctx
    return none

end DispatchFrame

/-! ## Any number of dispatches -/

/-- The stores and the dispatches under way. -/
structure DispatchWorld extends DispatchStores where
  dispatches : OrderedMap Nat DispatchFrame

def DispatchWorld.empty : DispatchWorld where
  schedules := .empty
  signals := .empty
  dispatches := .empty

/-- What happens next: other calls to one of the stores, a dispatch that starts, or one that
goes on. -/
inductive DispatchEvent where
  | schedules (next : InMemoryScheduleStore)
  | signals (request : SignalRequest)
  | start (id : Nat) (delivery : ScheduledOccurrenceDelivery) (completedAt : String)
      (aborted : Bool)
  | resume (id : Nat) (aborted : Bool)

/-- Keep the frame a program of dispatch `id` leaves. -/
def DispatchWorld.run (world : DispatchWorld) (id : Nat)
    (program : DispatchProgram (Option DispatchFrame)) : DispatchWorld :=
  match program world.toDispatchStores with
  | .ok (some frame) stores =>
    { toDispatchStores := stores, dispatches := world.dispatches.set id frame }
  | .ok none stores => { toDispatchStores := stores, dispatches := world.dispatches.delete id }
  | .error _ stores => { toDispatchStores := stores, dispatches := world.dispatches.delete id }

def dispatchStep (ctx : DispatchContext) (world : DispatchWorld) : DispatchEvent → DispatchWorld
  | .schedules next => { world with schedules := next }
  | .signals request =>
    { world with signals := (signalStep ctx.signals world.signals request).2 }
  | .start id delivery completedAt aborted =>
    world.run id (some <$> startDispatch ctx delivery completedAt aborted)
  | .resume id aborted =>
    match world.dispatches.get? id with
    | none => world
    | some frame => world.run id (frame.resume ctx aborted)

/-- The schedule store changes by its own calls only. -/
def DispatchEvent.Allowed (ctx : DispatchContext) (world : DispatchWorld) :
    DispatchEvent → Prop
  | .schedules next => SchedulePath ctx.schedules world.schedules next
  | _ => True

/-- The world after some events. -/
def dispatchRun (ctx : DispatchContext) (events : List DispatchEvent) : DispatchWorld :=
  events.foldl (dispatchStep ctx) .empty

/-- Every event of a run is one that can happen. -/
def DispatchesOf (ctx : DispatchContext) (events : List DispatchEvent) : Prop :=
  ∀ upto event, upto ++ [event] <+: events → event.Allowed ctx (dispatchRun ctx upto)

end OpenGameAgent
