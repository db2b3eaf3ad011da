import OpenGameAgent.Library.OrderedMap
import OpenGameAgent.Library.Program
import OpenGameAgent.Library.RetainedLog
import OpenGameAgent.Protocol.RunAuthority

/-!
# The in-memory event store

`packages/runtime/src/in-memory-event-store.ts`.

A store keeps the events of every stream with the revision of its head, and `EventStreams`
carries the proof that the events are numbered up to the head.  What `newEventId`, `now`
and `retireGoalAuthority` answer is an argument.  These functions belong to the host and
may call the store, so `closeAuthority` stands here as the three parts between them:
`beginClose` runs up to `now`, `resumeClose` from there up to `retireGoalAuthority`, and
`commitClose` from there to the end.

* `EventStreams.log` — a stream as a log that forgets its oldest items.
-/

namespace OpenGameAgent

/-! ## Streams -/

/-- `streams` and `revisions`: the events held and the revision of the last one appended. -/
structure EventStreams where
  streams : OrderedMap StreamKey (List CanonicalEvent)
  revisions : OrderedMap StreamKey Nat
  held : ∀ stream, ((streams.get? stream).getD []).length ≤ (revisions.get? stream).getD 0
  numbered : ∀ stream, RetainedLog.Numbered CanonicalEvent.revision
    ⟨(revisions.get? stream).getD 0, (streams.get? stream).getD [], held stream⟩

namespace EventStreams

theorem none_held (_ : StreamKey) : 0 ≤ 0 := Nat.le_refl 0

def empty : EventStreams where
  streams := .empty
  revisions := .empty
  held := none_held
  numbered _ := rfl

/-- `this.streams.get(key) ?? []`. -/
def events (s : EventStreams) (stream : StreamKey) : List CanonicalEvent :=
  (s.streams.get? stream).getD []

/-- A stream as a log. -/
def log (s : EventStreams) (stream : StreamKey) : RetainedLog CanonicalEvent where
  head := (s.revisions.get? stream).getD 0
  items := s.events stream
  held := s.held stream

theorem numbered_log (s : EventStreams) (stream : StreamKey) :
    RetainedLog.Numbered CanonicalEvent.revision (s.log stream) := s.numbered stream

/-- The revision of the next event of a stream. -/
def nextRevision (s : EventStreams) (stream : StreamKey) : Nat :=
  (s.revisions.get? stream).getD 0 + 1

/-- The streams after an event that carries the next revision. -/
def push (s : EventStreams) (stream : StreamKey) (event : CanonicalEvent)
    (h : event.revision = s.nextRevision stream) : EventStreams where
  streams := s.streams.set stream (s.events stream ++ [event])
  revisions := s.revisions.set stream (s.nextRevision stream)
  held other := by
    by_cases hother : stream = other
    · subst hother
      simp only [OrderedMap.get?_set, if_true, Option.getD_some]
      exact ((s.log stream).append event).held
    · simp only [OrderedMap.get?_set, if_neg hother]
      exact s.held other
  numbered other := by
    by_cases hother : stream = other
    · subst hother
      simp only [OrderedMap.get?_set, if_true, Option.getD_some]
      exact (s.numbered_log stream).append h
    · simp only [OrderedMap.get?_set, if_neg hother]
      exact s.numbered other

/-- The streams after the oldest `count` events of one were dropped. -/
def dropOldest (s : EventStreams) (stream : StreamKey) (count : Nat) : EventStreams where
  streams := s.streams.set stream ((s.events stream).drop count)
  revisions := s.revisions
  held other := by
    by_cases hother : stream = other
    · subst hother
      simp only [OrderedMap.get?_set, if_true, Option.getD_some]
      exact ((s.log stream).drop count).held
    · simp only [OrderedMap.get?_set, if_neg hother]
      exact s.held other
  numbered other := by
    by_cases hother : stream = other
    · subst hother
      simp only [OrderedMap.get?_set, if_true, Option.getD_some]
      exact (s.numbered_log stream).drop count
    · simp only [OrderedMap.get?_set, if_neg hother]
      exact s.numbered other

theorem log_push (s : EventStreams) (stream : StreamKey) (event : CanonicalEvent)
    (h : event.revision = s.nextRevision stream) (other : StreamKey) :
    (s.push stream event h).log other =
      if stream = other then (s.log stream).append event else s.log other := by
  by_cases hother : stream = other
  · subst hother
    simp only [log, events, push, OrderedMap.get?_set, if_true, Option.getD_some]
    rfl
  · simp only [log, events, push, OrderedMap.get?_set, if_neg hother]

theorem log_dropOldest (s : EventStreams) (stream : StreamKey) (count : Nat) (other : StreamKey) :
    (s.dropOldest stream count).log other =
      if stream = other then (s.log stream).drop count else s.log other := by
  by_cases hother : stream = other
  · subst hother
    simp only [log, events, dropOldest, OrderedMap.get?_set, if_true, Option.getD_some]
    rfl
  · simp only [log, events, dropOldest, OrderedMap.get?_set, if_neg hother]

end EventStreams

/-! ## Retention -/

/-- `Set.add`, on the runs in the order they were first seen. -/
def addRun (runs : List String) (runId : String) : List String :=
  if runs.contains runId then runs else runs ++ [runId]

/-- The loop of `terminalPrefix`: `seen` and `terminal` are the runs met and completed so
far, `index` the number of events read, and `found` the prefix found. -/
def terminalPrefixLoop (request : TerminalEventPurgeRequest) (seen terminal : List String)
    (index : Nat) (found : Nat × List String) : List CanonicalEvent → Nat × List String
  | [] => found
  | event :: rest =>
    let runId := event.coordinate.runId
    if request.retainRunIds.contains runId then found
    else
      let seen := addRun seen runId
      match event.data with
      | .runCompleted _ =>
        if request.beforeOccurredAt ≤ event.occurredAt then found
        else
          let terminal := addRun terminal runId
          terminalPrefixLoop request seen terminal (index + 1)
            (if seen.length = terminal.length then (index + 1, seen) else found) rest
      | _ =>
        terminalPrefixLoop request seen terminal (index + 1)
          (if seen.length = terminal.length then (index + 1, seen) else found) rest

/-- `terminalPrefix`: how many events the longest prefix of completed runs has, and its
runs. -/
def terminalPrefix (events : List CanonicalEvent) (request : TerminalEventPurgeRequest) :
    Nat × List String :=
  terminalPrefixLoop request [] [] 0 (0, []) events

/-- What `purgeTerminalRuns` drops of the events of a stream. -/
def purgeCandidate (events : List CanonicalEvent) (request : TerminalEventPurgeRequest) :
    Except EventError (Nat × List String) :=
  let candidate := terminalPrefix (events.take request.limit) request
  if candidate.2.any fun runId =>
      (events.drop candidate.1).any fun event => event.coordinate.runId = runId then
    .error (.type "A canonical event run continues after its terminal event.")
  else .ok candidate

/-! ## The store -/

/-- What the functions of the host answer to an `append`. -/
structure AppendHost where
  eventId : Except EventError String
  occurredAt : Except EventError String

/-- How far a part of `closeAuthority` got. -/
inductive CloseProgress where
  | answered (closure : RunAuthorityClosure)
  | asksClock
  | retiresGoals
  deriving DecidableEq, Repr

structure InMemoryEventStore extends EventStreams where
  authorityClosures : OrderedMap RunAuthorityKey RunAuthorityClosure
  closeOperations : OrderedMap String RunAuthorityKey
  runAuthorities : OrderedMap RunKey RunAdmissionAuthority

namespace InMemoryEventStore

def empty : InMemoryEventStore :=
  { EventStreams.empty with
    authorityClosures := .empty
    closeOperations := .empty
    runAuthorities := .empty }

/-- `assertAuthorityOpen`. -/
def assertAuthorityOpen (store : InMemoryEventStore) (key : RunAuthorityKey) :
    Except EventError Unit :=
  if store.authorityClosures.has key then .error .runAuthorityClosed else .ok ()

/-- `assertRunAuthorityOpenSynchronously`. -/
def assertRunAuthorityOpen (store : InMemoryEventStore) (coordinate : RunCoordinate) :
    Except EventError Unit := do
  assertCoordinateInStream coordinate.stream coordinate
  match store.runAuthorities.get? coordinate.runKey with
  | none => return ()
  | some admission => store.assertAuthorityOpen (coordinate.runKey.under admission)

/-- The check of `append` on the authority of a `run.queued`. -/
def assertAdmissible (store : InMemoryEventStore) (coordinate : RunCoordinate)
    (admissionAuthority : Option RunAdmissionAuthority) : Except EventError Unit :=
  let existing := store.runAuthorities.get? coordinate.runKey
  if existing.isSome ∧ existing ≠ admissionAuthority then .error .runAuthorityConflict
  else match admissionAuthority with
    | none => .ok ()
    | some authority => store.assertAuthorityOpen (coordinate.runKey.under authority)

/-- The checks of `append` on the authority of a run. -/
def assertFence (store : InMemoryEventStore) (coordinate : RunCoordinate) :
    CanonicalEventData → Except EventError Unit
  | .runQueued _ _ admissionAuthority => store.assertAdmissible coordinate admissionAuthority
  | .runStarted _ | .runResumed _ => store.assertRunAuthorityOpen coordinate
  | _ => .ok ()

/-- The authority that admits a run is recorded with its `run.queued`. -/
def recordAdmission (store : InMemoryEventStore) (coordinate : RunCoordinate) :
    CanonicalEventData → InMemoryEventStore
  | .runQueued _ _ (some authority) =>
    { store with runAuthorities := store.runAuthorities.set coordinate.runKey authority }
  | _ => store

/-- The event `append` writes. -/
def nextEvent (store : InMemoryEventStore) (stream : StreamKey) (coordinate : RunCoordinate)
    (data : CanonicalEventData) (eventId occurredAt : String) : CanonicalEvent where
  eventId := eventId
  sequence := store.nextRevision stream
  revision := store.nextRevision stream
  occurredAt := occurredAt
  coordinate := coordinate
  audience := eventAudience data
  data := data

/-- `append`. -/
def append (schema : EventSchema) (stream : StreamKey) (expectedRevision : String)
    (coordinate : RunCoordinate) (data : CanonicalEventData) (host : AppendHost) :
    EStateM EventError InMemoryEventStore CanonicalEvent := do
  attempt (assertCoordinateInStream stream coordinate)
  attempt (assertCanonicalEventData schema data)
  let eventId ← attempt host.eventId
  attempt (assertEventIdentifier eventId)
  let occurredAt ← attempt host.occurredAt
  attempt (assertEventTimestamp occurredAt)
  let store ← get
  let actual := expectedRevisionOf (store.revisions.get? stream)
  if expectedRevision ≠ actual then throw (.wrongExpectedRevision expectedRevision actual)
  else do
    attempt (store.assertFence coordinate data)
    let event := store.nextEvent stream coordinate data eventId occurredAt
    let written := { store with toEventStreams := store.push stream event rfl }
    set (written.recordAdmission coordinate data)
    return event

/-! ### Reading -/

/-- `parseRevision`. -/
def parseRevision (revision : String) : Except EventError Nat :=
  parseRevisionOr "Revision must be a non-negative decimal string." revision

/-- `read`. -/
def read (store : InMemoryEventStore) (stream : StreamKey) (request : EventReadRequest) :
    Except EventError CanonicalEventPage := do
  validateEventStream stream
  assertEventReadLimit request.limit
  let afterRevision := request.afterRevision.getD "0"
  let after ← parseRevision afterRevision
  let candidates := ((store.events stream).filter fun event => after < event.revision).take
    (request.limit + 1)
  let hasMore := decide (candidates.length > request.limit)
  let events := candidates.take request.limit
  return {
    events := events
    cursor := (events.getLast?.map fun event => toString event.revision).getD afterRevision
    hasMore := hasMore }

/-- `readBounds`. -/
def readBounds (store : InMemoryEventStore) (stream : StreamKey) :
    Except EventError EventStreamBounds := do
  validateEventStream stream
  return {
    earliestRevision := (store.events stream).head?.map fun event => toString event.revision
    latestRevision := ((store.revisions.get? stream).map toString).getD "0" }

/-! ### Retention -/

/-- `purgeTerminalRuns`. -/
def purgeTerminalRuns (stream : StreamKey) (request : TerminalEventPurgeRequest) :
    EStateM EventError InMemoryEventStore TerminalEventPurgeResult := do
  attempt (validateEventStream stream)
  attempt (captureEventPurgeRequest request)
  let store ← get
  let candidate ← attempt (purgeCandidate (store.events stream) request)
  if candidate.1 > 0 then
    set { store with toEventStreams := store.dropOldest stream candidate.1 }
  let store ← get
  return {
    earliestRevision := (store.events stream).head?.map fun event => toString event.revision
    latestRevision := ((store.revisions.get? stream).map toString).getD "0"
    purgedEventCount := candidate.1
    purgedRunIds := candidate.2 }

/-! ### Closing an authority -/

/-- `readExisting` of `closeAuthority`. -/
def readExisting (store : InMemoryEventStore) (request : CloseRunAuthorityRequest) :
    Except EventError (Option RunAuthorityClosure) :=
  if (store.closeOperations.get? request.operationId).any fun key => key ≠ request.key then
    .error .runAuthorityConflict
  else match store.authorityClosures.get? request.key with
    | none => .ok none
    | some existing =>
      if existing.toCloseRunAuthorityRequest.serialize ≠ request.serialize then
        .error .runAuthorityConflict
      else .ok (some existing)

/-- `closeAuthority` up to `now`. -/
def beginClose (request : CloseRunAuthorityRequest) :
    EStateM EventError InMemoryEventStore CloseProgress := do
  attempt (captureCloseRunAuthorityRequest request)
  if request.workRetirement.isSome then
    throw (.type "Composite work retirement requires a shared SQLite authority.")
  else do
    let store ← get
    match ← attempt (store.readExisting request) with
    | some existing => return .answered existing
    | none => return .asksClock

/-- The closure `closeAuthority` writes. -/
def closureOf (request : CloseRunAuthorityRequest) (closedAt : String) : RunAuthorityClosure :=
  { request with closedAt := closedAt, workRetirementResult := none }

/-- The store with a closure. -/
def withClosure (store : InMemoryEventStore) (closure : RunAuthorityClosure) :
    InMemoryEventStore :=
  { store with
    authorityClosures := store.authorityClosures.set closure.key closure
    closeOperations := store.closeOperations.set closure.operationId closure.key }

/-- The end of `closeAuthority`, after `retireGoalAuthority`. -/
def commitClose (request : CloseRunAuthorityRequest) (closedAt : String) :
    EStateM EventError InMemoryEventStore RunAuthorityClosure := do
  let closure := closureOf request closedAt
  modify fun store => store.withClosure closure
  return closure

/-- `closeAuthority` from `now` up to `retireGoalAuthority`, or to the end where no Goals
are retired.  `hasGoalBinding` says whether the host passed `retireGoalAuthority`. -/
def resumeClose (hasGoalBinding : Bool) (request : CloseRunAuthorityRequest) (closedAt : String) :
    EStateM EventError InMemoryEventStore CloseProgress := do
  attempt (assertEventTimestamp closedAt)
  let store ← get
  match ← attempt (store.readExisting request) with
  | some reentrant => return .answered reentrant
  | none =>
    match request.goalRetirement with
    | none => do
      let closure ← commitClose request closedAt
      return .answered closure
    | some _ =>
      if hasGoalBinding then return .retiresGoals
      else throw (.type "Closing Goal authority requires a synchronous Goal retirement binding.")

/-! ### What the methods do -/

/-- `append` passes its checks and writes one event, or changes nothing. -/
theorem append_ends (schema : EventSchema) (stream : StreamKey) (expectedRevision : String)
    (coordinate : RunCoordinate) (data : CanonicalEventData) (host : AppendHost)
    (store : InMemoryEventStore) :
    Ends (append schema stream expectedRevision coordinate data host) store
      (fun event store' => coordinate.stream = stream ∧ event.coordinate = coordinate ∧
        event.data = data ∧ store.assertFence coordinate data = .ok () ∧
        ∃ h, store' = ({ store with toEventStreams := store.push stream event h } :
          InMemoryEventStore).recordAdmission coordinate data)
      (fun _ store' => store' = store) := by
  unfold append
  simp only [ends_bind, ends_attempt, ends_get]
  refine ⟨fun _ hcoordinate => ?_, fun _ _ => trivial⟩
  refine ⟨fun _ _ => ?_, fun _ _ => trivial⟩
  refine ⟨fun eventId _ => ?_, fun _ _ => trivial⟩
  refine ⟨fun _ _ => ?_, fun _ _ => trivial⟩
  refine ⟨fun occurredAt _ => ?_, fun _ _ => trivial⟩
  refine ⟨fun _ _ => ?_, fun _ _ => trivial⟩
  split
  · rfl
  · simp only [ends_bind, ends_attempt, ends_set, ends_pure]
    refine ⟨fun _ hfence => ?_, fun _ _ => trivial⟩
    exact ⟨(assertCoordinateInStream_eq_ok hcoordinate).2, rfl, rfl, hfence, rfl, trivial⟩

/-- `purgeTerminalRuns` drops the oldest events of its stream, or changes nothing. -/
theorem purgeTerminalRuns_ends (stream : StreamKey) (request : TerminalEventPurgeRequest)
    (store : InMemoryEventStore) :
    Ends (purgeTerminalRuns stream request) store
      (fun _ store' => store' = store ∨
        ∃ count, store' = { store with toEventStreams := store.dropOldest stream count })
      (fun _ store' => store' = store) := by
  unfold purgeTerminalRuns
  simp only [ends_bind, ends_attempt, ends_get]
  refine ⟨fun _ _ => ?_, fun _ _ => trivial⟩
  refine ⟨fun _ _ => ?_, fun _ _ => trivial⟩
  refine ⟨fun candidate _ => ?_, fun _ _ => trivial⟩
  split
  · simp only [ends_set, ends_bind, ends_get, ends_pure]
    exact Or.inr ⟨candidate.1, rfl⟩
  · simp only [ends_bind, ends_get, ends_pure]
    exact Or.inl trivial

/-- The part before `now` changes nothing: it finds the closure, or asks the clock. -/
theorem beginClose_ends (request : CloseRunAuthorityRequest) (store : InMemoryEventStore) :
    Ends (beginClose request) store
      (fun progress store' => store' = store ∧
        ((∃ closure, progress = .answered closure ∧
            store.readExisting request = .ok (some closure)) ∨
          (progress = .asksClock ∧ store.readExisting request = .ok none)))
      (fun _ store' => store' = store) := by
  unfold beginClose
  simp only [ends_bind, ends_attempt]
  refine ⟨fun _ _ => ?_, fun _ _ => trivial⟩
  split
  · rfl
  · simp only [ends_bind, ends_attempt, ends_get]
    refine ⟨fun existing hexisting => ?_, fun _ _ => trivial⟩
    cases existing with
    | none => exact ⟨rfl, Or.inr ⟨rfl, hexisting⟩⟩
    | some closure => exact ⟨rfl, Or.inl ⟨closure, rfl, hexisting⟩⟩

/-- The part after `now` finds the closure, writes it, or leaves it to be written after the
Goals are retired. -/
theorem resumeClose_ends (hasGoalBinding : Bool) (request : CloseRunAuthorityRequest)
    (closedAt : String) (store : InMemoryEventStore) :
    Ends (resumeClose hasGoalBinding request closedAt) store
      (fun progress store' =>
        (store' = store ∧ ∃ closure, progress = .answered closure ∧
          store.readExisting request = .ok (some closure)) ∨
        (store.readExisting request = .ok none ∧
          ((progress = .answered (closureOf request closedAt) ∧
              store' = store.withClosure (closureOf request closedAt)) ∨
            (progress = .retiresGoals ∧ store' = store))))
      (fun _ store' => store' = store) := by
  unfold resumeClose
  simp only [ends_bind, ends_attempt, ends_get]
  refine ⟨fun _ _ => ?_, fun _ _ => trivial⟩
  refine ⟨fun existing hexisting => ?_, fun _ _ => trivial⟩
  cases existing with
  | some closure => exact Or.inl ⟨rfl, closure, rfl, hexisting⟩
  | none =>
    cases request.goalRetirement with
    | none =>
      simp only [commitClose, ends_bind, ends_modify, ends_pure]
      exact Or.inr ⟨hexisting, Or.inl ⟨trivial, trivial⟩⟩
    | some retirement =>
      cases hasGoalBinding with
      | true => exact Or.inr ⟨hexisting, Or.inr ⟨rfl, rfl⟩⟩
      | false => rfl

theorem commitClose_ends (request : CloseRunAuthorityRequest) (closedAt : String)
    (store : InMemoryEventStore) :
    Ends (commitClose request closedAt) store
      (fun closure store' => closure = closureOf request closedAt ∧
        store' = store.withClosure closure)
      (fun _ _ => False) := by
  simp only [commitClose, ends_bind, ends_modify, ends_pure]
  exact ⟨trivial, trivial⟩

end InMemoryEventStore

end OpenGameAgent
