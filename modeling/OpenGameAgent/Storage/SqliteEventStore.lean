import OpenGameAgent.Runtime.InMemoryEventStore
import OpenGameAgent.Storage.SqliteActionJournal

/-!
# The SQLite event store

`packages/storage-sqlite/src/sqlite-event-store.ts` and `sqlite-run-authority.ts`.

`SqliteEvents` are the tables `canonical_events` and `canonical_event_streams`, and
`SqliteEventDatabase` adds those of the run authority and the rest of the database, which
only the retirement of Goals and of work touches.  `closeAuthority` stands here as the two
parts before and after `now`.

* `SqliteEvents.log` — a stream as a log that forgets its oldest items.
-/

namespace OpenGameAgent

/-- `SQLITE_INTEGER_MAX` of `sqlite-event-store.ts`. -/
def sqliteRevisionMax : Nat := 9223372036854775807

/-- The rows of `canonical_events` in the order of their insertion, and the heads of
`canonical_event_streams`.  The rows of a stream are in the order of their revisions. -/
structure SqliteEvents where
  rows : List CanonicalEvent
  heads : OrderedMap StreamKey Nat
  held : ∀ stream, (rows.filter fun row => row.stream = stream).length ≤
    (heads.get? stream).getD 0
  numbered : ∀ stream, RetainedLog.Numbered CanonicalEvent.revision
    ⟨(heads.get? stream).getD 0, rows.filter fun row => row.stream = stream, held stream⟩
  bounded : ∀ stream, (heads.get? stream).getD 0 ≤ sqliteRevisionMax

namespace SqliteEvents

def empty : SqliteEvents where
  rows := []
  heads := .empty
  held := EventStreams.none_held
  numbered _ := rfl
  bounded _ := Nat.zero_le _

/-- The rows of a stream, `ORDER BY revision`. -/
def select (s : SqliteEvents) (stream : StreamKey) : List CanonicalEvent :=
  s.rows.filter fun row => row.stream = stream

def log (s : SqliteEvents) (stream : StreamKey) : RetainedLog CanonicalEvent where
  head := (s.heads.get? stream).getD 0
  items := s.select stream
  held := s.held stream

theorem numbered_log (s : SqliteEvents) (stream : StreamKey) :
    RetainedLog.Numbered CanonicalEvent.revision (s.log stream) := s.numbered stream

def nextRevision (s : SqliteEvents) (stream : StreamKey) : Nat :=
  (s.heads.get? stream).getD 0 + 1

theorem select_concat (rows : List CanonicalEvent) (event : CanonicalEvent) (stream : StreamKey) :
    ((rows ++ [event]).filter fun row => row.stream = stream) =
      if event.stream = stream then (rows.filter fun row => row.stream = stream) ++ [event]
      else rows.filter fun row => row.stream = stream := by
  by_cases h : event.stream = stream
  · simp [List.filter_append, h]
  · simp [List.filter_append, h]

/-- The tables after an event that carries the next revision of its stream. -/
def push (s : SqliteEvents) (event : CanonicalEvent)
    (h : event.revision = s.nextRevision event.stream)
    (hmax : s.nextRevision event.stream ≤ sqliteRevisionMax) : SqliteEvents where
  rows := s.rows ++ [event]
  heads := s.heads.set event.stream (s.nextRevision event.stream)
  held other := by
    rw [select_concat]
    by_cases hother : event.stream = other
    · subst hother
      simp only [OrderedMap.get?_set, if_true, Option.getD_some]
      exact ((s.log event.stream).append event).held
    · simp only [OrderedMap.get?_set, if_neg hother]
      exact s.held other
  numbered other := by
    simp only [select_concat]
    by_cases hother : event.stream = other
    · subst hother
      simp only [OrderedMap.get?_set, if_true, Option.getD_some]
      exact (s.numbered_log event.stream).append h
    · simp only [OrderedMap.get?_set, if_neg hother]
      exact s.numbered other
  bounded other := by
    by_cases hother : event.stream = other
    · subst hother
      simp only [OrderedMap.get?_set, if_true, Option.getD_some]
      exact hmax
    · simp only [OrderedMap.get?_set, if_neg hother]
      exact s.bounded other

/-- The rows of a stream after `DELETE ... WHERE revision <= ?` on one. -/
theorem select_delete (s : SqliteEvents) (stream : StreamKey) (revision : Nat)
    (other : StreamKey) :
    ((s.rows.filter fun row => !(row.stream = stream && row.revision ≤ revision)).filter
        fun row => row.stream = other) =
      if stream = other then (s.select stream).drop (revision - (s.log stream).dropped)
      else s.select other := by
  by_cases hother : stream = other
  · subst hother
    rw [if_pos rfl]
    refine Eq.trans ?_ (RetainedLog.filter_lt_eq_drop revision (s.numbered_log stream))
    show _ = (s.rows.filter _).filter _
    rw [List.filter_filter, List.filter_filter]
    refine List.filter_congr fun row _ => ?_
    by_cases hle : row.revision ≤ revision
    · simp [hle]
    · simp [hle, Nat.lt_of_not_le hle]
  · rw [if_neg hother]
    unfold select
    rw [List.filter_filter]
    refine List.filter_congr fun row _ => ?_
    by_cases hrow : row.stream = other
    · have hne : row.stream ≠ stream := fun hc => hother (hc.symm.trans hrow)
      simp [hrow, hrow ▸ hne]
    · simp [hrow]

/-- `DELETE FROM canonical_events WHERE ... revision <= ?`. -/
def delete (s : SqliteEvents) (stream : StreamKey) (revision : Nat) : SqliteEvents where
  rows := s.rows.filter fun row => !(row.stream = stream && row.revision ≤ revision)
  heads := s.heads
  held other := by
    rw [select_delete]
    by_cases hother : stream = other
    · subst hother
      rw [if_pos rfl]
      exact ((s.log stream).drop _).held
    · rw [if_neg hother]
      exact s.held other
  numbered other := by
    simp only [select_delete]
    by_cases hother : stream = other
    · subst hother
      simp only [if_true]
      exact (s.numbered_log stream).drop _
    · simp only [if_neg hother]
      exact s.numbered other
  bounded := s.bounded

theorem log_push (s : SqliteEvents) (event : CanonicalEvent)
    (h : event.revision = s.nextRevision event.stream)
    (hmax : s.nextRevision event.stream ≤ sqliteRevisionMax) (other : StreamKey) :
    (s.push event h hmax).log other =
      if event.stream = other then (s.log event.stream).append event else s.log other := by
  by_cases hother : event.stream = other
  · subst hother
    simp only [log, select, push, select_concat, OrderedMap.get?_set, if_true, Option.getD_some]
    rfl
  · simp only [log, select, push, select_concat, OrderedMap.get?_set, if_neg hother]

theorem log_delete (s : SqliteEvents) (stream : StreamKey) (revision : Nat) (other : StreamKey) :
    (s.delete stream revision).log other =
      if stream = other then (s.log stream).drop (revision - (s.log stream).dropped)
      else s.log other := by
  by_cases hother : stream = other
  · subst hother
    rw [if_pos rfl]
    simp only [log, select, delete, select_delete, if_true]
    rfl
  · rw [if_neg hother]
    simp only [log, select, delete, select_delete, if_neg hother]

end SqliteEvents

/-! ## The run authority -/

/-- A row of `oga_run_authority_closures`; `request_json` is the canonical text of the
request. -/
structure ClosureRow where
  request : CloseRunAuthorityRequest
  closedAt : String
  workResult : Option RunAuthorityWorkRetirementResult
  deriving DecidableEq, Repr

/-- `hydrateClosure`.  Its checks repeat those the request passed before it was written. -/
def hydrateClosure (row : ClosureRow) : RunAuthorityClosure :=
  { row.request with closedAt := row.closedAt, workRetirementResult := row.workResult }

/-- What retires Goals and work in the same transaction: the stores the host passed. -/
structure SqliteEventStoreOptions (ρ : Type) where
  goalStore : Option (RunAuthorityGoalRetirement → ρ → Except EventError ρ)
  workStores : Option
    (WorkAuthorityRetirementRequest → ρ → Except EventError (RunAuthorityWorkRetirementResult × ρ))

/-- The tables of an event store; `others` are the tables of other stores. -/
structure SqliteEventDatabase (ρ : Type) extends SqliteEvents where
  closures : OrderedMap RunAuthorityKey ClosureRow
  admissions : OrderedMap (String × String × String) RunAdmissionAuthority
  others : ρ

namespace SqliteEventDatabase

variable {ρ : Type}

def empty (others : ρ) : SqliteEventDatabase ρ :=
  { SqliteEvents.empty with closures := .empty, admissions := .empty, others := others }

/-- The tables of the run authority, as the other stores read them. -/
def runAuthority (database : SqliteEventDatabase ρ) : SqliteRunAuthority where
  admissions := database.admissions
  closures := database.closures.keys.map fun key =>
    (key.sessionId, key.actorId, ⟨key.scope, key.generation⟩)

/-- `assertSqliteAuthorityKeyOpen`. -/
def assertKeyOpen (database : SqliteEventDatabase ρ) (key : RunAuthorityKey) :
    Except EventError Unit :=
  if database.closures.has key then .error .runAuthorityClosed else .ok ()

/-- `assertSqliteRunAuthorityOpen`, with the errors of the event store. -/
def assertRunOpen (database : SqliteEventDatabase ρ) (coordinate : RunCoordinate) :
    Except EventError Unit :=
  match assertSqliteRunAuthorityOpen database.runAuthority coordinate with
  | .ok () => .ok ()
  | .error .runAuthorityClosed => .error .runAuthorityClosed
  | .error _ => .error .invalidStreamCoordinate

def admissionOf (database : SqliteEventDatabase ρ) (coordinate : RunCoordinate) :
    Option RunAdmissionAuthority :=
  database.admissions.get? (coordinate.sessionId, coordinate.actorId, coordinate.runId)

/-- `recordSqliteRunAdmissionAuthority`. -/
def recordAdmission (coordinate : RunCoordinate) (authority : Option RunAdmissionAuthority) :
    EStateM EventError (SqliteEventDatabase ρ) Unit := do
  let database ← get
  let existing := database.admissionOf coordinate
  if existing.isSome ∧ existing ≠ authority then throw .runAuthorityConflict
  else match authority with
    | none => return ()
    | some captured => do
      attempt (database.assertKeyOpen (coordinate.runKey.under captured))
      if existing.isNone then
        set { database with
          admissions := database.admissions.set
            (coordinate.sessionId, coordinate.actorId, coordinate.runId) captured }

/-- The checks of `append` on the authority of a run. -/
def fence (coordinate : RunCoordinate) :
    CanonicalEventData → EStateM EventError (SqliteEventDatabase ρ) Unit
  | .runQueued _ _ admissionAuthority => recordAdmission coordinate admissionAuthority
  | .runStarted _ | .runResumed _ => do
    let database ← get
    attempt (database.assertRunOpen coordinate)
  | _ => return ()

/-- The input a `run.queued` is about. -/
def queuedInput : CanonicalEventData → Option String
  | .runQueued inputId _ _ => some inputId
  | _ => none

/-- Does a row violate a constraint `UNIQUE` of `canonical_events`? -/
def violates (database : SqliteEventDatabase ρ) (event : CanonicalEvent) : Bool :=
  database.rows.any fun row =>
    row.eventId = event.eventId ||
      (row.stream = event.stream && (queuedInput row.data).isSome &&
        queuedInput row.data = queuedInput event.data)

/-- The event `append` writes. -/
def nextEvent (database : SqliteEventDatabase ρ) (coordinate : RunCoordinate)
    (data : CanonicalEventData) (eventId occurredAt : String) : CanonicalEvent where
  eventId := eventId
  sequence := database.nextRevision coordinate.stream
  revision := database.nextRevision coordinate.stream
  occurredAt := occurredAt
  coordinate := coordinate
  audience := eventAudience data
  data := data

/-- The `INSERT` into `canonical_events` and the upsert of the head. -/
def insertEvent (coordinate : RunCoordinate) (data : CanonicalEventData)
    (eventId occurredAt : String) :
    EStateM EventError (SqliteEventDatabase ρ) CanonicalEvent := do
  let database ← get
  if hmax : database.nextRevision coordinate.stream ≤ sqliteRevisionMax then do
    let event := database.nextEvent coordinate data eventId occurredAt
    if database.violates event then throw .constraint
    else do
      set { database with toSqliteEvents := database.push event rfl hmax }
      return event
  else throw .revisionExhausted

/-- `append`. -/
def append (schema : EventSchema) (stream : StreamKey) (expectedRevision : String)
    (coordinate : RunCoordinate) (data : CanonicalEventData) (host : AppendHost) :
    EStateM EventError (SqliteEventDatabase ρ) CanonicalEvent := do
  attempt (assertCoordinateInStream stream coordinate)
  attempt (assertCanonicalEventData schema data)
  let eventId ← attempt host.eventId
  attempt (assertEventIdentifier eventId)
  let occurredAt ← attempt host.occurredAt
  attempt (assertEventTimestamp occurredAt)
  transaction do
    let database ← get
    let actual := expectedRevisionOf (database.heads.get? stream)
    if expectedRevision ≠ actual then throw (.wrongExpectedRevision expectedRevision actual)
    else do
      fence coordinate data
      insertEvent coordinate data eventId occurredAt

/-! ## Reading -/

/-- `parseSqliteRevision`. -/
def parseRevision (revision : String) : Except EventError Nat := do
  let parsed ← parseRevisionOr "Revision must be a non-negative canonical decimal string." revision
  if parsed > sqliteRevisionMax then
    .error (.range "Revision exceeds SQLite's signed 64-bit integer range.")
  else return parsed

/-- `read`. -/
def read (database : SqliteEventDatabase ρ) (stream : StreamKey) (request : EventReadRequest) :
    Except EventError CanonicalEventPage := do
  validateEventStream stream
  assertEventReadLimit request.limit
  let afterRevision := request.afterRevision.getD "0"
  let after ← parseRevision afterRevision
  let rows := ((database.select stream).filter fun row => after < row.revision).take
    (request.limit + 1)
  let hasMore := decide (rows.length > request.limit)
  let events := rows.take request.limit
  return {
    events := events
    cursor := (events.getLast?.map fun event => toString event.revision).getD afterRevision
    hasMore := hasMore }

/-- The module's function `readBounds`: `MIN(revision)` is that of the first row. -/
def bounds (database : SqliteEventDatabase ρ) (stream : StreamKey) : EventStreamBounds where
  earliestRevision := (database.select stream).head?.map fun event => toString event.revision
  latestRevision := ((database.heads.get? stream).map toString).getD "0"

/-- `readBounds`. -/
def readBounds (database : SqliteEventDatabase ρ) (stream : StreamKey) :
    Except EventError EventStreamBounds := do
  validateEventStream stream
  return database.bounds stream

/-! ## Retention -/

/-- `purgeTerminalRuns`; a candidate names the last revision that it deletes. -/
def purgeTerminalRuns (stream : StreamKey) (request : TerminalEventPurgeRequest) :
    EStateM EventError (SqliteEventDatabase ρ) TerminalEventPurgeResult := do
  attempt (validateEventStream stream)
  attempt (captureEventPurgeRequest request)
  transaction do
    let database ← get
    let rows := database.select stream
    let candidate ← attempt (purgeCandidate rows request)
    match (rows.take candidate.1).getLast? with
    | none => pure ()
    | some last =>
      set { database with toSqliteEvents := database.delete stream last.revision }
    let database ← get
    return { database.bounds stream with
      purgedEventCount := candidate.1
      purgedRunIds := candidate.2 }

/-! ## Closing an authority -/

/-- `readExisting` of `closeAuthority`: the row of the operation, or else that of the key. -/
def readExisting (database : SqliteEventDatabase ρ) (request : CloseRunAuthorityRequest) :
    Except EventError (Option RunAuthorityClosure) :=
  let existingOperation := database.closures.values.find? fun row =>
    row.request.operationId = request.operationId
  match existingOperation.or (database.closures.get? request.key) with
  | none => .ok none
  | some existing =>
    if existing.request.serialize ≠ request.serialize then .error .runAuthorityConflict
    else .ok (some (hydrateClosure existing))

section Close

variable (options : SqliteEventStoreOptions ρ)

/-- `closeAuthority` up to `now`. -/
def beginClose (request : CloseRunAuthorityRequest) :
    EStateM EventError (SqliteEventDatabase ρ) CloseProgress := do
  attempt (captureCloseRunAuthorityRequest request)
  let database ← get
  match ← attempt (database.readExisting request) with
  | some existing => return .answered existing
  | none =>
    if request.goalRetirement.isSome ∧ options.goalStore.isNone then
      throw (.type "Closing Goal authority requires a Goal store on the same SQLite authority.")
    else if request.workRetirement.isSome ∧ options.workStores.isNone then
      throw (.type
        "Closing work authority requires Schedule and Mailbox stores on the same SQLite authority.")
    else return .asksClock

/-- `retireAuthorityInTransaction` of the Goal store, where the request retires Goals. -/
def retireGoals (request : CloseRunAuthorityRequest) (others : ρ) : Except EventError ρ :=
  match request.goalRetirement, options.goalStore with
  | some retirement, some retire => retire retirement others
  | _, _ => .ok others

/-- `retireWork`. -/
def retireWork (request : CloseRunAuthorityRequest) (others : ρ) :
    Except EventError (Option RunAuthorityWorkRetirementResult × ρ) :=
  match request.workRetirement with
  | none => .ok (none, others)
  | some retirement =>
    match options.workStores with
    | none => .error (.type
        "Closing work authority requires Schedule and Mailbox stores on the same SQLite authority.")
    | some retire => (retire retirement others).map fun (result, others) => (some result, others)

/-- `closeAuthority` from `now` to the end.  The row is written with the result of the work
retirement, which the code adds to it later in the transaction. -/
def resumeClose (request : CloseRunAuthorityRequest) (closedAt : String) :
    EStateM EventError (SqliteEventDatabase ρ) CloseProgress := do
  attempt (assertEventTimestamp closedAt)
  transaction do
    let database ← get
    match ← attempt (database.readExisting request) with
    | some reentrant => return .answered reentrant
    | none => do
      let others ← attempt (retireGoals options request database.others)
      let (workResult, others) ← attempt (retireWork options request others)
      let row : ClosureRow := ⟨request, closedAt, workResult⟩
      set { database with closures := database.closures.set request.key row, others := others }
      return .answered (hydrateClosure row)

end Close

/-! ## What the methods do -/

/-- The tables after the admission of a run is recorded. -/
def withAdmission (database : SqliteEventDatabase ρ) (coordinate : RunCoordinate)
    (authority : RunAdmissionAuthority) : SqliteEventDatabase ρ :=
  { database with
    admissions := database.admissions.set
      (coordinate.sessionId, coordinate.actorId, coordinate.runId) authority }

/-- What the checks of `append` on the authority of a run let through. -/
def Fenced (coordinate : RunCoordinate) (database database' : SqliteEventDatabase ρ) :
    CanonicalEventData → Prop
  | .runQueued _ _ none => database.admissionOf coordinate = none ∧ database' = database
  | .runQueued _ _ (some authority) =>
    database.closures.has (coordinate.runKey.under authority) = false ∧
      ((database.admissionOf coordinate = some authority ∧ database' = database) ∨
        (database.admissionOf coordinate = none ∧
          database' = database.withAdmission coordinate authority))
  | .runStarted _ | .runResumed _ =>
    database.assertRunOpen coordinate = .ok () ∧ database' = database
  | _ => database' = database

theorem fence_ends (coordinate : RunCoordinate) (data : CanonicalEventData)
    (database : SqliteEventDatabase ρ) :
    Ends (fence coordinate data) database
      (fun _ database' => Fenced coordinate database database' data) (fun _ _ => True) := by
  cases data with
  | runQueued inputId inputFingerprint authority =>
    simp only [fence, recordAdmission, ends_bind, ends_get]
    split
    · trivial
    · rename_i hagrees
      cases authority with
      | none =>
        refine ⟨?_, rfl⟩
        by_contra hsome
        have hisSome := Option.isSome_iff_ne_none.2 hsome
        exact hagrees ⟨hisSome, hsome⟩
      | some authority =>
        simp only [ends_bind, ends_attempt]
        refine ⟨fun _ hopen => ?_, fun _ _ => trivial⟩
        have hclosed : database.closures.has (coordinate.runKey.under authority) = false := by
          unfold assertKeyOpen at hopen
          split at hopen
          · cases hopen
          · rename_i h
            exact Bool.eq_false_iff.2 h
        split
        · rename_i hnone
          exact ⟨hclosed, Or.inr ⟨Option.isNone_iff_eq_none.1 hnone, rfl⟩⟩
        · rename_i hsome
          refine ⟨hclosed, Or.inl ⟨?_, rfl⟩⟩
          by_contra hne
          exact hagrees ⟨Option.isSome_iff_ne_none.2 (by simpa using hsome), hne⟩
  | runStarted id =>
    simp only [fence, ends_bind, ends_get, ends_attempt]
    exact ⟨fun _ hopen => ⟨hopen, rfl⟩, fun _ _ => trivial⟩
  | runResumed id =>
    simp only [fence, ends_bind, ends_get, ends_attempt]
    exact ⟨fun _ hopen => ⟨hopen, rfl⟩, fun _ _ => trivial⟩
  | runSuspended id => exact rfl
  | runCompleted status => exact rfl
  | item kind audience body => exact rfl
  | other kind body => exact rfl

theorem insertEvent_ends (coordinate : RunCoordinate) (data : CanonicalEventData)
    (eventId occurredAt : String) (database : SqliteEventDatabase ρ) :
    Ends (insertEvent coordinate data eventId occurredAt) database
      (fun event database' => event.coordinate = coordinate ∧ event.data = data ∧
        ∃ h hmax, database' = { database with toSqliteEvents := database.push event h hmax })
      (fun _ _ => True) := by
  unfold insertEvent
  simp only [ends_bind, ends_get]
  split
  · rename_i hmax
    split
    · trivial
    · simp only [ends_bind, ends_set, ends_pure]
      exact ⟨rfl, rfl, rfl, hmax, trivial⟩
  · trivial

/-- `append` passes its checks and writes one event, or changes nothing. -/
theorem append_ends (schema : EventSchema) (stream : StreamKey) (expectedRevision : String)
    (coordinate : RunCoordinate) (data : CanonicalEventData) (host : AppendHost)
    (database : SqliteEventDatabase ρ) :
    Ends (append schema stream expectedRevision coordinate data host) database
      (fun event database' => coordinate.stream = stream ∧ event.coordinate = coordinate ∧
        event.data = data ∧ ∃ admitted, Fenced coordinate database admitted data ∧
          ∃ h hmax, database' = { admitted with toSqliteEvents := admitted.push event h hmax })
      (fun _ database' => database' = database) := by
  unfold append
  simp only [ends_bind, ends_attempt]
  refine ⟨fun _ hcoordinate => ?_, fun _ _ => trivial⟩
  refine ⟨fun _ _ => ?_, fun _ _ => trivial⟩
  refine ⟨fun eventId _ => ?_, fun _ _ => trivial⟩
  refine ⟨fun _ _ => ?_, fun _ _ => trivial⟩
  refine ⟨fun occurredAt _ => ?_, fun _ _ => trivial⟩
  refine ⟨fun _ _ => ?_, fun _ _ => trivial⟩
  simp only [ends_transaction, ends_bind, ends_get]
  split
  · trivial
  · rw [ends_bind]
    refine (fence_ends coordinate data database).mono (fun _ admitted hfenced => ?_)
      fun _ _ _ => trivial
    refine (insertEvent_ends coordinate data eventId occurredAt admitted).mono
      (fun event database' hinsert => ?_) fun _ _ _ => trivial
    obtain ⟨heventCoordinate, heventData, hwritten⟩ := hinsert
    exact ⟨(assertCoordinateInStream_eq_ok hcoordinate).2, heventCoordinate, heventData, admitted,
      hfenced, hwritten⟩

/-- `purgeTerminalRuns` deletes the oldest events of its stream, or changes nothing. -/
theorem purgeTerminalRuns_ends (stream : StreamKey) (request : TerminalEventPurgeRequest)
    (database : SqliteEventDatabase ρ) :
    Ends (purgeTerminalRuns stream request) database
      (fun _ database' => database' = database ∨ ∃ revision,
        database' = { database with toSqliteEvents := database.delete stream revision })
      (fun _ database' => database' = database) := by
  unfold purgeTerminalRuns
  simp only [ends_bind, ends_attempt]
  refine ⟨fun _ _ => ?_, fun _ _ => trivial⟩
  refine ⟨fun _ _ => ?_, fun _ _ => trivial⟩
  simp only [ends_transaction, ends_bind, ends_get, ends_attempt]
  refine ⟨fun candidate _ => ?_, fun _ _ => trivial⟩
  split
  · simp only [ends_pure, ends_bind, ends_get]
    exact Or.inl trivial
  · rename_i last _
    simp only [ends_set, ends_bind, ends_get, ends_pure]
    exact Or.inr ⟨last.revision, rfl⟩

/-- The part before `now` changes nothing: it finds the closure, or asks the clock. -/
theorem beginClose_ends (options : SqliteEventStoreOptions ρ) (request : CloseRunAuthorityRequest)
    (database : SqliteEventDatabase ρ) :
    Ends (beginClose options request) database
      (fun progress database' => database' = database ∧
        ((∃ closure, progress = .answered closure ∧
            database.readExisting request = .ok (some closure)) ∨
          (progress = .asksClock ∧ database.readExisting request = .ok none)))
      (fun _ database' => database' = database) := by
  unfold beginClose
  simp only [ends_bind, ends_attempt, ends_get]
  refine ⟨fun _ _ => ?_, fun _ _ => trivial⟩
  refine ⟨fun existing hexisting => ?_, fun _ _ => trivial⟩
  cases existing with
  | some closure => exact ⟨rfl, Or.inl ⟨closure, rfl, hexisting⟩⟩
  | none =>
    dsimp only
    split
    · exact rfl
    · split
      · exact rfl
      · exact ⟨rfl, Or.inr ⟨rfl, hexisting⟩⟩

/-- The tables with a closure. -/
def withClosure (database : SqliteEventDatabase ρ) (row : ClosureRow) (others : ρ) :
    SqliteEventDatabase ρ :=
  { database with closures := database.closures.set row.request.key row, others := others }

/-- The part after `now` finds the closure or writes it. -/
theorem resumeClose_ends (options : SqliteEventStoreOptions ρ) (request : CloseRunAuthorityRequest)
    (closedAt : String) (database : SqliteEventDatabase ρ) :
    Ends (resumeClose options request closedAt) database
      (fun progress database' =>
        (database' = database ∧ ∃ closure, progress = .answered closure ∧
          database.readExisting request = .ok (some closure)) ∨
        (database.readExisting request = .ok none ∧ ∃ row others, row.request = request ∧
          progress = .answered (hydrateClosure row) ∧ database' = database.withClosure row others))
      (fun _ database' => database' = database) := by
  unfold resumeClose
  simp only [ends_bind, ends_attempt]
  refine ⟨fun _ _ => ?_, fun _ _ => trivial⟩
  simp only [ends_transaction, ends_bind, ends_get, ends_attempt]
  refine ⟨fun existing hexisting => ?_, fun _ _ => trivial⟩
  cases existing with
  | some closure => exact Or.inl ⟨rfl, closure, rfl, hexisting⟩
  | none =>
    simp only [ends_bind, ends_attempt, ends_set, ends_pure]
    refine ⟨fun others _ => ?_, fun _ _ => trivial⟩
    refine ⟨fun retired _ => ?_, fun _ _ => trivial⟩
    exact Or.inr ⟨hexisting, ⟨request, closedAt, retired.1⟩, retired.2, rfl, rfl, rfl⟩

end SqliteEventDatabase

end OpenGameAgent
