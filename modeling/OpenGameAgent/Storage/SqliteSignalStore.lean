import OpenGameAgent.Extensions.SignalCalls
import OpenGameAgent.Library.Sql

/-!
# The SQLite signal store

`SqliteSignalStore` of `packages/storage-sqlite/src/sqlite-signal-store.ts`: a signal is a row
of `oga_game_signals` with rows for its subjects and causes, a wait a row of
`oga_signal_waits` with rows for its kinds and subjects.

The target columns with their check are a `SignalWaitTarget`, and a row is written with a
status that the status column takes.  A payload is the JSON value its text is.  Rows stand
in the order of their keys.  A write is one transaction, so its body is a function that
gives a new database or fails.
-/

namespace OpenGameAgent

/-! ## Tables -/

/-- A row of `oga_game_signals`. -/
structure SignalRow where
  signalKey : Nat
  signalId : String
  ownerId : String
  timelineId : String
  generation : String
  sessionId : Option String
  actorId : Option String
  kind : String
  payload : JsonValue
  signalTick : String
  recordedAt : String
  sourceFingerprint : String

/-- A row of `oga_signal_waits`. -/
structure SignalWaitRow where
  waitKey : Nat
  waitId : String
  ownerId : String
  timelineId : String
  generation : String
  sessionId : Option String
  actorId : Option String
  afterSignalKey : Option Int
  afterTick : Option String
  throughTick : Option String
  target : SignalWaitTarget
  status : SignalWaitStatus
  revision : String
  matchedSignalKey : Option Nat
  createdAt : String
  updatedAt : String
  sourceFingerprint : String

/-- A row of a table of identifiers. -/
structure IdentifierRow where
  key : Nat
  identifier : String
  deriving DecidableEq

/-- The tables, and the largest keys given so far (`sqlite_sequence`). -/
structure SqliteSignalDatabase where
  signals : List SignalRow
  subjects : List IdentifierRow
  causes : List IdentifierRow
  waits : List SignalWaitRow
  waitKinds : List IdentifierRow
  waitSubjects : List IdentifierRow
  lastSignalKey : Nat
  lastWaitKey : Nat

/-- What a call throws: an error of the store, of a constraint, of a table that is full, or of
a value or a statement that SQLite does not take. -/
inductive SqliteSignalError where
  | store (error : SignalError)
  | constraint
  | full
  | bind
  | unreadable
  deriving DecidableEq, Repr

/-- What a store is built with, and `createHash("sha256")`. -/
structure SqliteSignalContext where
  limits : SignalLimits
  sha256 : List UInt16 → String

/-- The largest `INTEGER`. -/
def maxSqliteInteger : Nat := 9223372036854775807

/-- The most parameters of a statement (`SQLITE_MAX_VARIABLE_NUMBER`). -/
def maxSqliteVariables : Nat := 32766

/-- How deep JSON may nest for `json_valid` (`JSON_MAX_DEPTH`). -/
def maxSqliteJsonNesting : Nat := 1000

mutual

/-- How many arrays and objects stand in one another. -/
def jsonNesting : JsonValue → Nat
  | .array items => 1 + itemsNesting items
  | .object fields => 1 + fieldsNesting fields
  | _ => 0

def itemsNesting : List JsonValue → Nat
  | [] => 0
  | item :: rest => max (jsonNesting item) (itemsNesting rest)

def fieldsNesting : List (List UInt16 × JsonValue) → Nat
  | [] => 0
  | (_, value) :: rest => max (jsonNesting value) (fieldsNesting rest)

end

/-- Can the key be bound to a parameter? -/
def bindsKey (key : Option Int) : Bool := key.all fun key => key ≤ (maxSqliteInteger : Int)

/-- The decimal comparison of the queries: `length(a) < length(b) OR (length(a) = length(b)
AND a < b)`. -/
def sqlTickLt (a b : Option String) : Truth :=
  (sqlCompare (fun x y => decide (x.length < y.length)) a b).or
    ((sqlCompare (fun x y => decide (x.length = y.length)) a b).and
      (sqlCompare (fun x y => decide (x < y)) a b))

/-- The same with `a <= b`. -/
def sqlTickLe (a b : Option String) : Truth :=
  (sqlCompare (fun x y => decide (x.length < y.length)) a b).or
    ((sqlCompare (fun x y => decide (x.length = y.length)) a b).and
      (sqlCompare (fun x y => decide (x ≤ y)) a b))

/-- `insertIdentifiers`, under the primary key of its table. -/
def insertIdentifiers (key : Nat) :
    List String → List IdentifierRow → Except SqliteSignalError (List IdentifierRow)
  | [], table => .ok table
  | value :: values, table =>
    if ⟨key, value⟩ ∈ table then .error .constraint
    else insertIdentifiers key values (table ++ [⟨key, value⟩])

/-- `readIdentifiers`. -/
def readIdentifiers (table : List IdentifierRow) (key : Nat) : List String :=
  ((table.filter fun row => row.key = key).map IdentifierRow.identifier).insertionSort (· ≤ ·)

namespace SqliteSignalDatabase

def empty : SqliteSignalDatabase where
  signals := []
  subjects := []
  causes := []
  waits := []
  waitKinds := []
  waitSubjects := []
  lastSignalKey := 0
  lastWaitKey := 0

/-! ## Queries -/

/-- `findSignalRow`. -/
def findSignalRow (database : SqliteSignalDatabase) (key : GameSignalKey) : Option SignalRow :=
  database.signals.find? fun row => row.ownerId = key.ownerId && row.timelineId = key.timelineId &&
    row.generation = key.generation && row.signalId = key.signalId

/-- `findSignalRowByKey`. -/
def findSignalRowByKey (database : SqliteSignalDatabase) (signalKey : Nat) : Option SignalRow :=
  database.signals.find? fun row => row.signalKey = signalKey

/-- `findWaitRow`. -/
def findWaitRow (database : SqliteSignalDatabase) (key : SignalWaitKey) : Option SignalWaitRow :=
  database.waits.find? fun row => row.ownerId = key.ownerId && row.timelineId = key.timelineId &&
    row.generation = key.generation && row.waitId = key.waitId

/-- `findWaitRowByKey`. -/
def findWaitRowByKey (database : SqliteSignalDatabase) (waitKey : Nat) : Option SignalWaitRow :=
  database.waits.find? fun row => row.waitKey = waitKey

/-- `findMatchedWaitRowsBySignal` without its limit. -/
def matchedWaitRows (database : SqliteSignalDatabase) (signalKey : Nat) : List SignalWaitRow :=
  selectRows database.waits (fun row => sqlEq row.matchedSignalKey (some signalKey))
    SignalWaitRow.waitKey

/-- The condition of `findMatchingWaitRows`. -/
def matchingWait (database : SqliteSignalDatabase) (signal : SignalRow) (wait : SignalWaitRow) :
    Truth :=
  (sqlEq (some wait.status) (some .waiting)).and <|
  (sqlEq (some wait.ownerId) (some signal.ownerId)).and <|
  (sqlEq (some wait.timelineId) (some signal.timelineId)).and <|
  (sqlEq (some wait.generation) (some signal.generation)).and <|
  ((sqlIsNull wait.sessionId).or (sqlEq wait.sessionId signal.sessionId)).and <|
  ((sqlIsNull wait.actorId).or (sqlEq wait.actorId signal.actorId)).and <|
  ((sqlIsNull wait.afterSignalKey).or
    (sqlCompare (fun x y => decide (x < y)) wait.afterSignalKey
      (some (signal.signalKey : Int)))).and <|
  ((sqlIsNull wait.afterTick).or (sqlTickLt wait.afterTick (some signal.signalTick))).and <|
  ((sqlIsNull wait.throughTick).or (sqlTickLe (some signal.signalTick) wait.throughTick)).and <|
  (sqlExists database.waitKinds fun kinds =>
    (sqlEq (some kinds.key) (some wait.waitKey)).and
      (sqlEq (some kinds.identifier) (some signal.kind))).and <|
  (Truth.not (sqlExists database.waitSubjects fun subjects =>
      sqlEq (some subjects.key) (some wait.waitKey))).or
    (sqlExists (database.waitSubjects.product database.subjects) fun joined =>
      (sqlEq (some joined.2.identifier) (some joined.1.identifier)).and <|
      (sqlEq (some joined.1.key) (some wait.waitKey)).and
        (sqlEq (some joined.2.key) (some signal.signalKey)))

/-- `findMatchingWaitRows`. -/
def findMatchingWaitRows (database : SqliteSignalDatabase) (signal : SignalRow) (limit : Nat) :
    List SignalWaitRow :=
  (selectRows database.waits (database.matchingWait signal) SignalWaitRow.waitKey).take limit

/-- The condition of `findFirstMatchingSignalRow`. -/
def matchingSignal (database : SqliteSignalDatabase) (wait : SignalWaitRow) (signal : SignalRow) :
    Truth :=
  (sqlEq (some signal.ownerId) (some wait.ownerId)).and <|
  (sqlEq (some signal.timelineId) (some wait.timelineId)).and <|
  (sqlEq (some signal.generation) (some wait.generation)).and <|
  ((sqlIsNull wait.sessionId).or (sqlEq signal.sessionId wait.sessionId)).and <|
  ((sqlIsNull wait.actorId).or (sqlEq signal.actorId wait.actorId)).and <|
  ((sqlIsNull wait.afterSignalKey).or
    (sqlCompare (fun x y => decide (x > y)) (some (signal.signalKey : Int))
      wait.afterSignalKey)).and <|
  ((sqlIsNull wait.afterTick).or (sqlTickLt wait.afterTick (some signal.signalTick))).and <|
  ((sqlIsNull wait.throughTick).or (sqlTickLe (some signal.signalTick) wait.throughTick)).and <|
  (sqlExists database.waitKinds fun kinds =>
    (sqlEq (some kinds.key) (some wait.waitKey)).and
      (sqlEq (some kinds.identifier) (some signal.kind))).and <|
  (Truth.not (sqlExists database.waitSubjects fun subjects =>
      sqlEq (some subjects.key) (some wait.waitKey))).or
    (sqlExists (database.waitSubjects.product database.subjects) fun joined =>
      (sqlEq (some joined.2.identifier) (some joined.1.identifier)).and <|
      (sqlEq (some joined.1.key) (some wait.waitKey)).and
        (sqlEq (some joined.2.key) (some signal.signalKey)))

/-- `findFirstMatchingSignalRow`. -/
def findFirstMatchingSignalRow (database : SqliteSignalDatabase) (wait : SignalWaitRow) :
    Option SignalRow :=
  (selectRows database.signals (database.matchingSignal wait) SignalRow.signalKey).head?

/-! ## Hydration -/

section Hydration

variable (ctx : SqliteSignalContext) (database : SqliteSignalDatabase)

/-- `hydrateSignal`. -/
def hydrateSignal (row : SignalRow) : Except SignalError GameSignalRecord := do
  demand (1 ≤ row.signalKey) (.validation "invalid_signal_record_key")
  let partition ← normalizeSignalPartition
    ⟨⟨row.ownerId, row.timelineId, row.generation⟩, row.sessionId, row.actorId⟩
  let normalized ← normalizeGameSignal
    { signalId := row.signalId
      partition := partition
      kind := row.kind
      payload := row.payload
      gameTime := ⟨partition.timelineId, partition.generation, row.signalTick⟩
      subjectIds := readIdentifiers database.subjects row.signalKey
      causeIds := readIdentifiers database.causes row.signalKey
      recordedAt := row.recordedAt } ctx.limits
  demand (ctx.sha256 (signalFingerprint normalized) = row.sourceFingerprint)
    (.validation "corrupt_signal_index")
  return { normalized with signalKey := row.signalKey }

/-- The wait of a matched row has a stored signal that it matches. -/
def checkMatch (wait : SignalWaitRecord) : Except SignalError Unit :=
  if wait.status = .matched then
    match wait.matchedSignalKey.bind database.findSignalRowByKey with
    | none => .error (.validation "corrupt_signal_wait_match")
    | some row => do
      let signal ← hydrateSignal ctx database row
      demand (sameSignalGeneration wait.partition.toScheduleGeneration
          signal.partition.toScheduleGeneration && signalWaitMatches wait.toSignalWaitDraft signal)
        (.validation "corrupt_signal_wait_match")
  else demand wait.matchedSignalKey.isNone (.validation "corrupt_signal_wait_match")

/-- `hydrateWait`. -/
def hydrateWait (row : SignalWaitRow) : Except SignalError SignalWaitRecord := do
  demand (1 ≤ row.waitKey) (.validation "invalid_signal_wait_key")
  let partition ← normalizeSignalPartition
    ⟨⟨row.ownerId, row.timelineId, row.generation⟩, row.sessionId, row.actorId⟩
  let subjects := readIdentifiers database.waitSubjects row.waitKey
  let normalized ← normalizeSignalWait
    { waitId := row.waitId
      partition := partition
      selector :=
        { kinds := readIdentifiers database.waitKinds row.waitKey
          subjectIdsAny := if subjects = [] then none else some subjects
          afterSignalKey := row.afterSignalKey
          afterTickExclusive := row.afterTick
          throughTickInclusive := row.throughTick }
      target := row.target
      recordedAt := row.createdAt } ctx.limits
  let revision ← validateSignalDecimal row.revision "wait_revision"
  demand (1 ≤ revision.value) (.validation "invalid_signal_wait_revision")
  validateSignalTimestamp row.updatedAt
  demand (¬ row.updatedAt < row.createdAt) (.validation "corrupt_signal_wait_chronology")
  demand (ctx.sha256 (signalWaitFingerprint normalized) = row.sourceFingerprint)
    (.validation "corrupt_signal_wait_index")
  let hydrated : SignalWaitRecord := { normalized with
    waitKey := row.waitKey
    status := row.status
    revision := revision
    matchedSignalKey := row.matchedSignalKey
    createdAt := row.createdAt
    updatedAt := row.updatedAt }
  checkMatch ctx database hydrated
  return hydrated

/-- `hydrateMatchedWaitIds`. -/
def hydrateMatchedWaitIds (signal : GameSignalRecord) (maximum : Nat) :
    Except SignalError (List String) := do
  let rows := (database.matchedWaitRows signal.signalKey).take (maximum + 1)
  demand (rows.length ≤ maximum) .waitFanout
  rows.mapM fun row => do
    let wait ← hydrateWait ctx database row
    demand (wait.matchedSignalKey = some signal.signalKey &&
      signalWaitMatches wait.toSignalWaitDraft signal) (.validation "corrupt_signal_wait_match")
    return wait.waitId

end Hydration

/-! ## Writes -/

/-- The row of a draft. -/
def signalRow (signal : GameSignalDraft Decimal) (signalKey : Nat) (sourceFingerprint : String) :
    SignalRow where
  signalKey := signalKey
  signalId := signal.signalId
  ownerId := signal.partition.ownerId
  timelineId := signal.partition.timelineId
  generation := signal.partition.generation
  sessionId := signal.partition.sessionId
  actorId := signal.partition.actorId
  kind := signal.kind
  payload := signal.payload
  signalTick := signal.gameTime.tick.text
  recordedAt := signal.recordedAt
  sourceFingerprint := sourceFingerprint

/-- `INSERT INTO oga_game_signals` and its identifiers. -/
def insertSignal (database : SqliteSignalDatabase) (signal : GameSignalDraft Decimal)
    (sourceFingerprint : String) : Except SqliteSignalError SqliteSignalDatabase := do
  demand (jsonNesting signal.payload ≤ maxSqliteJsonNesting) .constraint
  demand (database.findSignalRow signal.key).isNone .constraint
  demand (database.lastSignalKey < maxSqliteInteger) .full
  let signalKey := database.lastSignalKey + 1
  let subjects ← insertIdentifiers signalKey signal.subjectIds database.subjects
  let causes ← insertIdentifiers signalKey signal.causeIds database.causes
  return { database with
    signals := database.signals ++ [signalRow signal signalKey sourceFingerprint]
    subjects := subjects
    causes := causes
    lastSignalKey := signalKey }

/-- The row of a new wait. -/
def waitRow (wait : SignalWaitDraft Decimal) (waitKey : Nat) (sourceFingerprint : String) :
    SignalWaitRow where
  waitKey := waitKey
  waitId := wait.waitId
  ownerId := wait.partition.ownerId
  timelineId := wait.partition.timelineId
  generation := wait.partition.generation
  sessionId := wait.partition.sessionId
  actorId := wait.partition.actorId
  afterSignalKey := wait.selector.afterSignalKey
  afterTick := wait.selector.afterTickExclusive.map Decimal.text
  throughTick := wait.selector.throughTickInclusive.map Decimal.text
  target := wait.target
  status := .waiting
  revision := "1"
  matchedSignalKey := none
  createdAt := wait.recordedAt
  updatedAt := wait.recordedAt
  sourceFingerprint := sourceFingerprint

/-- `INSERT INTO oga_signal_waits` and its identifiers. -/
def insertWait (database : SqliteSignalDatabase) (wait : SignalWaitDraft Decimal)
    (sourceFingerprint : String) : Except SqliteSignalError SqliteSignalDatabase := do
  demand (bindsKey wait.selector.afterSignalKey) .bind
  demand (wait.selector.afterSignalKey.all (0 ≤ ·)) .constraint
  demand (database.findWaitRow wait.key).isNone .constraint
  demand (database.lastWaitKey < maxSqliteInteger) .full
  let waitKey := database.lastWaitKey + 1
  let kinds ← insertIdentifiers waitKey wait.selector.kinds database.waitKinds
  let subjects ← insertIdentifiers waitKey (wait.selector.subjectIdsAny.getD [])
    database.waitSubjects
  return { database with
    waits := database.waits ++ [waitRow wait waitKey sourceFingerprint]
    waitKinds := kinds
    waitSubjects := subjects
    lastWaitKey := waitKey }

/-- The checks of `oga_signal_waits` on a row. -/
def allowsWait (database : SqliteSignalDatabase) (row : SignalWaitRow) : Bool :=
  (row.status = .matched) = row.matchedSignalKey.isSome &&
    row.matchedSignalKey.all fun key => (database.findSignalRowByKey key).isSome

/-- `UPDATE oga_signal_waits … WHERE …` of one row. -/
def updateWait (database : SqliteSignalDatabase) (selected : SignalWaitRow → Bool)
    (change : SignalWaitRow → SignalWaitRow) : Except SqliteSignalError SqliteSignalDatabase := do
  demand ((database.waits.filter selected).all fun row => database.allowsWait (change row))
    .constraint
  demand ((database.waits.filter selected).length = 1) (.store .waitRevisionConflict)
  return { database with
    waits := database.waits.map fun row => if selected row then change row else row }

/-- The waiting row of a key and a revision. -/
def waitingAt (waitKey : Nat) (revision : String) (row : SignalWaitRow) : Bool :=
  row.waitKey = waitKey && row.status = .waiting && row.revision = revision

/-- `DELETE FROM oga_game_signals`, with the rows that go along. -/
def deleteSignal (database : SqliteSignalDatabase) (signalKey : Nat) :
    Except SqliteSignalError SqliteSignalDatabase := do
  demand (database.waits.all fun row => row.matchedSignalKey ≠ some signalKey) .constraint
  return { database with
    signals := database.signals.filter fun row => row.signalKey ≠ signalKey
    subjects := database.subjects.filter fun row => row.key ≠ signalKey
    causes := database.causes.filter fun row => row.key ≠ signalKey }

/-- `DELETE FROM oga_signal_waits`, with the rows that go along. -/
def deleteWait (database : SqliteSignalDatabase) (waitKey : Nat) : SqliteSignalDatabase :=
  { database with
    waits := database.waits.filter fun row => row.waitKey ≠ waitKey
    waitKinds := database.waitKinds.filter fun row => row.key ≠ waitKey
    waitSubjects := database.waitSubjects.filter fun row => row.key ≠ waitKey }

/-! ## Methods -/

/-- A check of `signal-validation.ts` or a hydration in a method. -/
def checked {α : Type} (x : Except SignalError α) : Except SqliteSignalError α :=
  x.mapError .store

/-- `authority.write`. -/
def write {α : Type} (body : SqliteSignalDatabase → Except SqliteSignalError (α × SqliteSignalDatabase)) :
    EStateM SqliteSignalError SqliteSignalDatabase α := do
  let (answer, database) ← attempt (body (← get))
  set database
  return answer

/-- `authority.snapshot`. -/
def snapshot {α : Type} (body : SqliteSignalDatabase → Except SqliteSignalError α) :
    EStateM SqliteSignalError SqliteSignalDatabase α := do
  attempt (body (← get))

section Methods

variable (ctx : SqliteSignalContext)

/-- The row after `record` matched it. -/
def matchedRow (signalKey : Nat) (revision updatedAt : String) (row : SignalWaitRow) :
    SignalWaitRow :=
  { row with
    status := .matched
    matchedSignalKey := some signalKey
    revision := revision
    updatedAt := updatedAt }

/-- `(BigInt(revision) + 1n).toString()` of a revision read from a row. -/
def nextRevision (revision : String) : Except SignalError String := do
  let revision ← validateSignalDecimal revision "wait_revision"
  return revision.next.text

/-- The loop of `record` and that of `expireWaits`: a waiting row is written with the next
revision and the later timestamp. -/
def rewriteRows (recordedAt : String) (change : String → String → SignalWaitRow → SignalWaitRow) :
    List SignalWaitRow → SqliteSignalDatabase → Except SqliteSignalError SqliteSignalDatabase
  | [], database => .ok database
  | row :: rest, database => do
    let _ ← checked (hydrateWait ctx database row)
    let revision ← checked (nextRevision row.revision)
    let updatedAt ← checked (laterSignalTimestamp row.updatedAt recordedAt)
    let database ← database.updateWait (waitingAt row.waitKey row.revision)
      (change revision updatedAt)
    rewriteRows recordedAt change rest database

/-- The transaction of `record`. -/
def recordBody (signal : GameSignalDraft Decimal) (maxMatches : Nat)
    (database : SqliteSignalDatabase) :
    Except SqliteSignalError (SignalRecordResult × SqliteSignalDatabase) :=
  let fingerprint := ctx.sha256 (signalFingerprint signal)
  match database.findSignalRow signal.key with
  | some existing => do
    demand (existing.sourceFingerprint = fingerprint) (.store .conflict)
    let hydrated ← checked (hydrateSignal ctx database existing)
    let matchedWaitIds ← checked (hydrateMatchedWaitIds ctx database hydrated maxMatches)
    demand (matchedWaitIds.length ≤ maxMatches) (.store .waitFanout)
    return (⟨hydrated, matchedWaitIds⟩, database)
  | none => do
    let database ← database.insertSignal signal fingerprint
    match database.findSignalRowByKey database.lastSignalKey with
    | none => .error .unreadable
    | some row => do
      let matching := database.findMatchingWaitRows row (maxMatches + 1)
      demand (matching.length ≤ maxMatches) (.store .waitFanout)
      let database ← rewriteRows ctx signal.recordedAt (matchedRow row.signalKey) matching database
      let hydrated ← checked (hydrateSignal ctx database row)
      return (⟨hydrated, matching.map SignalWaitRow.waitId⟩, database)

/-- `record`. -/
def record (input : GameSignalDraft String) (maxMatches : Nat) :
    EStateM SqliteSignalError SqliteSignalDatabase SignalRecordResult := do
  let signal ← attempt (checked (normalizeGameSignal input ctx.limits))
  attempt (checked (validateSignalPageLimit maxMatches ctx.limits.maxWaitMatchesPerSignal
    "invalid_signal_match_limit"))
  write (recordBody ctx signal maxMatches)

/-- `getSignal`. -/
def getSignal (key : GameSignalKey) :
    EStateM SqliteSignalError SqliteSignalDatabase (Option GameSignalRecord) := do
  attempt (checked (validateGameSignalKey key))
  snapshot fun database => checked ((database.findSignalRow key).mapM (hydrateSignal ctx database))

/-- The first rows of a selection, hydrated, with the key to go on behind. -/
def hydratePage {row α : Type} (hydrate : row → Except SignalError α) (key : α → Nat)
    (limit : Nat) (rows : List row) : Except SignalError (SignalRecordPage α) := do
  let records ← (rows.take limit).mapM hydrate
  return ⟨records, if rows.length > limit then records.getLast?.map key else none⟩

/-- `AND column IN (…)`, which is left out for an empty list. -/
def inFilter {α : Type} [DecidableEq α] (values : List α) (column : α) : Truth :=
  if values = [] then some true else some (values.contains column)

/-- The condition of `listSignals`. -/
def listedSignal (request : SignalListRequest) (kinds : List String) (row : SignalRow) : Truth :=
  (sqlEq (some row.ownerId) (some request.ownerId)).and <|
  (sqlEq (some row.timelineId) (some request.timelineId)).and <|
  (sqlEq (some row.generation) (some request.generation)).and <|
  ((sqlIsNull request.sessionId).or (sqlEq row.sessionId request.sessionId)).and <|
  ((sqlIsNull request.actorId).or (sqlEq row.actorId request.actorId)).and <|
  (sqlCompare (fun x y => decide (x > y)) (some (row.signalKey : Int))
    (some (request.afterSignalKey.getD 0))).and <|
  inFilter kinds row.kind

/-- `listSignals`. -/
def listSignals (request : SignalListRequest) :
    EStateM SqliteSignalError SqliteSignalDatabase (SignalRecordPage GameSignalRecord) := do
  let _ ← attempt (checked (normalizeSignalPartition request.toSchedulePartition))
  let kinds ← attempt (checked
    (normalizeSignalKindFilter request.kinds ctx.limits.maxSignalFilterKinds))
  attempt (checked (validateSignalCursor request.afterSignalKey))
  attempt (checked (validateSignalPageLimit request.limit ctx.limits.maxSignalPageSize
    "invalid_signal_page_limit"))
  snapshot fun database => do
    demand (9 + (kinds.getD []).length ≤ maxSqliteVariables) .bind
    demand (bindsKey request.afterSignalKey) .bind
    let rows := (selectRows database.signals (listedSignal request (kinds.getD []))
      SignalRow.signalKey).take (request.limit + 1)
    checked (hydratePage (hydrateSignal ctx database) GameSignalRecord.signalKey request.limit rows)

/-- The transaction of `registerWait`. -/
def registerWaitBody (wait : SignalWaitDraft Decimal) (maxMatches : Nat)
    (database : SqliteSignalDatabase) :
    Except SqliteSignalError (SignalWaitRecord × SqliteSignalDatabase) :=
  let fingerprint := ctx.sha256 (signalWaitFingerprint wait)
  match database.findWaitRow wait.key with
  | some existing => do
    demand (existing.sourceFingerprint = fingerprint) (.store .waitConflict)
    return (← checked (hydrateWait ctx database existing), database)
  | none => do
    let database ← database.insertWait wait fingerprint
    let waitKey := database.lastWaitKey
    match database.findWaitRowByKey waitKey with
    | none => .error .unreadable
    | some row => do
      let database ← match database.findFirstMatchingSignalRow row with
        | none => .ok database
        | some matchedSignal => do
          let hydrated ← checked (hydrateSignal ctx database matchedSignal)
          demand ((database.matchedWaitRows matchedSignal.signalKey).length < maxMatches)
            (.store .waitFanout)
          let updatedAt ← checked (laterSignalTimestamp wait.recordedAt hydrated.recordedAt)
          database.updateWait (fun row => row.waitKey = waitKey) fun row =>
            matchedRow matchedSignal.signalKey row.revision updatedAt row
      match database.findWaitRowByKey waitKey with
      | none => .error .unreadable
      | some stored => return (← checked (hydrateWait ctx database stored), database)

/-- `registerWait`. -/
def registerWait (input : SignalWaitDraft String) (maxMatches : Nat) :
    EStateM SqliteSignalError SqliteSignalDatabase SignalWaitRecord := do
  let wait ← attempt (checked (normalizeSignalWait input ctx.limits))
  attempt (checked (validateSignalPageLimit maxMatches ctx.limits.maxWaitMatchesPerSignal
    "invalid_signal_match_limit"))
  write (registerWaitBody ctx wait maxMatches)

/-- `getWait`. -/
def getWait (key : SignalWaitKey) :
    EStateM SqliteSignalError SqliteSignalDatabase (Option SignalWaitRecord) := do
  let _ ← attempt (checked (validateSignalWaitKey key))
  snapshot fun database => checked ((database.findWaitRow key).mapM (hydrateWait ctx database))

/-- The condition of `listWaits`. -/
def listedWait (request : SignalWaitListRequest) (statuses : List SignalWaitStatus)
    (row : SignalWaitRow) : Truth :=
  (sqlEq (some row.ownerId) (some request.ownerId)).and <|
  (sqlEq (some row.timelineId) (some request.timelineId)).and <|
  (sqlEq (some row.generation) (some request.generation)).and <|
  ((sqlIsNull request.sessionId).or (sqlEq row.sessionId request.sessionId)).and <|
  ((sqlIsNull request.actorId).or (sqlEq row.actorId request.actorId)).and <|
  (sqlCompare (fun x y => decide (x > y)) (some (row.waitKey : Int))
    (some (request.afterWaitKey.getD 0))).and <|
  inFilter statuses row.status

/-- `listWaits`. -/
def listWaits (request : SignalWaitListRequest) :
    EStateM SqliteSignalError SqliteSignalDatabase (SignalRecordPage SignalWaitRecord) := do
  let _ ← attempt (checked (normalizeSignalPartition request.toSchedulePartition))
  let statuses ← attempt (checked (normalizeSignalStatusFilter request.statuses))
  attempt (checked (validateSignalCursor request.afterWaitKey))
  attempt (checked (validateSignalPageLimit request.limit ctx.limits.maxWaitPageSize
    "invalid_signal_wait_page_limit"))
  snapshot fun database => do
    demand (bindsKey request.afterWaitKey) .bind
    let rows := (selectRows database.waits (listedWait request (statuses.getD []))
      SignalWaitRow.waitKey).take (request.limit + 1)
    checked (hydratePage (hydrateWait ctx database) SignalWaitRecord.waitKey request.limit rows)

/-- The row after its wait was closed. -/
def closedRow (status : SignalWaitStatus) (revision updatedAt : String) (row : SignalWaitRow) :
    SignalWaitRow :=
  { row with status := status, revision := revision, updatedAt := updatedAt }

/-- The transaction of `cancelWait`. -/
def cancelWaitBody (key : SignalWaitKey) (expectedRevision recordedAt : String)
    (database : SqliteSignalDatabase) :
    Except SqliteSignalError (SignalWaitRecord × SqliteSignalDatabase) :=
  match database.findWaitRow key with
  | none => .error (.store .waitNotFound)
  | some current => do
    demand (current.revision = expectedRevision) (.store .waitRevisionConflict)
    demand (current.status = .waiting) (.store .waitTerminal)
    let revision ← checked (nextRevision current.revision)
    let updatedAt ← checked (laterSignalTimestamp current.updatedAt recordedAt)
    let database ← database.updateWait (waitingAt current.waitKey expectedRevision)
      (closedRow .cancelled revision updatedAt)
    match database.findWaitRowByKey current.waitKey with
    | none => .error (.store .waitNotFound)
    | some updated => return (← checked (hydrateWait ctx database updated), database)

/-- `cancelWait`. -/
def cancelWait (key : SignalWaitKey) (expectedRevision recordedAt : String) :
    EStateM SqliteSignalError SqliteSignalDatabase SignalWaitRecord := do
  let _ ← attempt (checked (validateSignalWaitKey key))
  let _ ← attempt (checked (validateSignalDecimal expectedRevision "wait_revision"))
  attempt (checked (validateSignalTimestamp recordedAt))
  write (cancelWaitBody ctx key expectedRevision recordedAt)

/-- The condition that a row is of an owner, a timeline and a generation. -/
def inGeneration (partition : SignalGeneration) (ownerId timelineId generation : String) : Truth :=
  (sqlEq (some ownerId) (some partition.ownerId)).and <|
  (sqlEq (some timelineId) (some partition.timelineId)).and
    (sqlEq (some generation) (some partition.generation))

/-- The condition of `expireWaits`. -/
def expiringWait (partition : SignalGeneration) (throughTickInclusive : String)
    (row : SignalWaitRow) : Truth :=
  (inGeneration partition row.ownerId row.timelineId row.generation).and <|
  (sqlEq (some row.status) (some .waiting)).and <|
  (Truth.not (sqlIsNull row.throughTick)).and
    (sqlTickLe row.throughTick (some throughTickInclusive))

/-- `expireWaits`. -/
def expireWaits (partition : SignalGeneration) (throughTickInclusive recordedAt : String)
    (limit : Nat) : EStateM SqliteSignalError SqliteSignalDatabase (List Nat) := do
  let _ ← attempt (checked (validateExpireWaits ctx.limits partition throughTickInclusive
    recordedAt limit))
  write fun database => do
    let rows := (selectRows database.waits (expiringWait partition throughTickInclusive)
      SignalWaitRow.waitKey).take limit
    let database ← rewriteRows ctx recordedAt (closedRow .expired) rows database
    return (rows.map SignalWaitRow.waitKey, database)

/-- The condition of `purgeTerminalWaits`. -/
def purgeableWait (partition : SignalGeneration) (beforeRecordedAt : String)
    (row : SignalWaitRow) : Truth :=
  (inGeneration partition row.ownerId row.timelineId row.generation).and <|
  Truth.and (some (decide (row.status ∈ [.matched, .cancelled, .expired])))
    (sqlCompare (fun x y => decide (x < y)) (some row.updatedAt) (some beforeRecordedAt))

/-- `purgeTerminalWaits`. -/
def purgeTerminalWaits (partition : SignalGeneration) (beforeRecordedAt : String) (limit : Nat) :
    EStateM SqliteSignalError SqliteSignalDatabase (List Nat) := do
  let _ ← attempt (checked (validateSignalPurge ctx.limits partition beforeRecordedAt limit
    "invalid_signal_wait_purge_limit"))
  write fun database => do
    let keys := ((selectRows database.waits (purgeableWait partition beforeRecordedAt)
      SignalWaitRow.waitKey).take limit).map SignalWaitRow.waitKey
    return (keys, keys.foldl deleteWait database)

/-- The condition of `purgeSignals`. -/
def purgeableSignal (database : SqliteSignalDatabase) (partition : SignalGeneration)
    (beforeRecordedAt : String) (row : SignalRow) : Truth :=
  (inGeneration partition row.ownerId row.timelineId row.generation).and <|
  (sqlCompare (fun x y => decide (x < y)) (some row.recordedAt) (some beforeRecordedAt)).and
    (Truth.not (sqlExists database.waits fun wait =>
      sqlEq wait.matchedSignalKey (some row.signalKey)))

/-- The loop of `purgeSignals`. -/
def deleteSignals : List Nat → SqliteSignalDatabase → Except SqliteSignalError SqliteSignalDatabase
  | [], database => .ok database
  | key :: rest, database => do
    let database ← database.deleteSignal key
    deleteSignals rest database

/-- `purgeSignals`. -/
def purgeSignals (partition : SignalGeneration) (beforeRecordedAt : String) (limit : Nat) :
    EStateM SqliteSignalError SqliteSignalDatabase (List Nat) := do
  let _ ← attempt (checked (validateSignalPurge ctx.limits partition beforeRecordedAt limit
    "invalid_signal_purge_limit"))
  write fun database => do
    let keys := ((selectRows database.signals
      (database.purgeableSignal partition beforeRecordedAt) SignalRow.signalKey).take limit).map
        SignalRow.signalKey
    return (keys, ← deleteSignals keys database)

/-- One call and what it answers. -/
def call : SignalStoreCall → EStateM SqliteSignalError SqliteSignalDatabase SignalStoreAnswer
  | .record draft maxMatches => .recorded <$> record ctx draft.texts maxMatches
  | .getSignal key => .foundSignal <$> getSignal ctx key
  | .listSignals request => .signals <$> listSignals ctx request
  | .registerWait draft maxMatches => .wait <$> registerWait ctx draft.texts maxMatches
  | .getWait key => .foundWait <$> getWait ctx key
  | .listWaits request => .waits <$> listWaits ctx request
  | .cancelWait key expectedRevision recordedAt =>
    .wait <$> cancelWait ctx key expectedRevision.text recordedAt
  | .expireWaits partition throughTickInclusive recordedAt limit =>
    .keys <$> expireWaits ctx partition throughTickInclusive.text recordedAt limit
  | .purgeTerminalWaits partition beforeRecordedAt limit =>
    .keys <$> purgeTerminalWaits ctx partition beforeRecordedAt limit
  | .purgeSignals partition beforeRecordedAt limit =>
    .keys <$> purgeSignals ctx partition beforeRecordedAt limit

end Methods

end SqliteSignalDatabase

end OpenGameAgent
