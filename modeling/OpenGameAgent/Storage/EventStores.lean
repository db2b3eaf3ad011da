import OpenGameAgent.Runtime.EventStore
import OpenGameAgent.Storage.SqliteEventStore

/-!
# The two event stores

`eventStore` is the in-memory and the SQLite store as implementations of
`CanonicalEventStore`.
-/

namespace OpenGameAgent

/-! ## The in-memory store -/

namespace InMemoryEventStore

/-- The calls of the in-memory store. -/
def call (schema : EventSchema) (hasGoalBinding : Bool) :
    EventCall → EStateM EventError InMemoryEventStore EventAnswer
  | .append stream expectedRevision coordinate data host =>
    .appended <$> append schema stream expectedRevision coordinate data host
  | .purgeTerminalRuns stream request => .purged <$> purgeTerminalRuns stream request
  | .beginClose request => .progress <$> beginClose request
  | .resumeClose request clock => do
    let closedAt ← attempt clock
    .progress <$> resumeClose hasGoalBinding request closedAt
  | .commitClose request closedAt =>
    (EventAnswer.progress ∘ CloseProgress.answered) <$> commitClose request closedAt

/-- Recording an admission leaves the logs alone. -/
@[simp] theorem log_recordAdmission (store : InMemoryEventStore) (coordinate : RunCoordinate)
    (data : CanonicalEventData) :
    (store.recordAdmission coordinate data).log = store.log := by
  unfold recordAdmission
  split <;> rfl

theorem call_logged (schema : EventSchema) (hasGoalBinding : Bool) (eventCall : EventCall)
    (store : InMemoryEventStore) :
    Ends (call schema hasGoalBinding eventCall) store
      (fun answer store' => answer.Logs store.log store'.log)
      (fun _ store' => store'.log = store.log) := by
  cases eventCall with
  | append stream expectedRevision coordinate data host =>
    simp only [call, ends_map]
    refine (append_ends schema stream expectedRevision coordinate data host store).mono
      (fun event store' h => ?_) fun _ _ h => by rw [h]
    obtain ⟨hstream, hcoordinate, -, -, hrevision, rfl⟩ := h
    intro other
    have heq : event.stream = stream := by
      unfold CanonicalEvent.stream
      rw [hcoordinate, hstream]
    rw [log_recordAdmission, heq]
    exact store.log_push stream event hrevision other
  | purgeTerminalRuns stream request =>
    simp only [call, ends_map]
    refine (purgeTerminalRuns_ends stream request store).mono
      (fun result store' h => ?_) fun _ _ h => by rw [h]
    rcases h with rfl | ⟨count, rfl⟩
    · refine ⟨stream, 0, fun other => ?_⟩
      split
      · rename_i heq
        rw [← heq]
        rfl
      · rfl
    · exact ⟨stream, count, store.log_dropOldest stream count⟩
  | beginClose request =>
    simp only [call, ends_map]
    refine (beginClose_ends request store).mono (fun _ store' h => ?_) fun _ _ h => by rw [h]
    rw [h.1]
    rfl
  | resumeClose request clock =>
    simp only [call, ends_bind, ends_attempt, ends_map]
    refine ⟨fun closedAt _ => ?_, fun _ _ => trivial⟩
    refine (resumeClose_ends hasGoalBinding request closedAt store).mono
      (fun progress store' h => ?_) fun _ _ h => by rw [h]
    rcases h with ⟨rfl, -⟩ | ⟨-, ⟨-, rfl⟩ | ⟨-, rfl⟩⟩ <;> rfl
  | commitClose request closedAt =>
    simp only [call, ends_map]
    refine (commitClose_ends request closedAt store).mono (fun closure store' h => ?_)
      fun _ _ h => h.elim
    obtain ⟨-, rfl⟩ := h
    rfl

theorem readBounds_eq (store : InMemoryEventStore) (stream : StreamKey) :
    store.readBounds stream = (validateEventStream stream).map fun _ =>
      logBounds (store.log stream) := by
  have hfirst : (store.events stream).head?.map (fun event => toString event.revision) =
      (store.log stream).earliest.map toString := by
    rw [← (store.numbered_log stream).head?_eq, Option.map_map]
    rfl
  have hlast : ((store.revisions.get? stream).map toString).getD "0" =
      toString (store.log stream).head := by
    show _ = toString ((store.revisions.get? stream).getD 0)
    cases store.revisions.get? stream <;> rfl
  unfold readBounds
  rw [hfirst, hlast]
  cases validateEventStream stream <;> rfl

end InMemoryEventStore

/-! ## Pages -/

/-- The page both stores build from the events above a cursor. -/
theorem logPage_eq {log : RetainedLog CanonicalEvent}
    (h : RetainedLog.Numbered CanonicalEvent.revision log) (after : Nat) (afterRevision : String)
    (limit : Nat) :
    let candidates := (log.items.filter fun event => after < event.revision).take (limit + 1)
    (CanonicalEventPage.mk (candidates.take limit)
      (((candidates.take limit).getLast?.map fun event => toString event.revision).getD
        afterRevision) (decide (candidates.length > limit))) =
      logPage log after afterRevision limit := by
  intro candidates
  have hitems : candidates = (log.after after).take (limit + 1) := by
    rw [← h.filter_lt_eq_after]
  have htake : candidates.take limit = (log.after after).take limit := by
    rw [hitems, List.take_take, Nat.min_eq_left (Nat.le_succ limit)]
  have hmore : (candidates.length > limit) ↔ limit < (log.after after).length := by
    rw [hitems, List.length_take]
    omega
  unfold logPage
  rw [htake]
  congr 1
  exact decide_eq_decide.2 hmore

theorem limit_pos_of_ok {limit : Nat} (h : assertEventReadLimit limit = .ok ()) : 0 < limit := by
  unfold assertEventReadLimit at h
  split at h
  · rename_i hlimit
    exact hlimit.1
  · cases h

theorem InMemoryEventStore.read_eq (store : InMemoryEventStore) (stream : StreamKey)
    (request : EventReadRequest) :
    store.read stream request = do
      validateEventStream stream
      assertEventReadLimit request.limit
      let after ← parseRevision (request.afterRevision.getD "0")
      return logPage (store.log stream) after (request.afterRevision.getD "0") request.limit := by
  have hpage := fun after => logPage_eq (store.numbered_log stream) after
    (request.afterRevision.getD "0") request.limit
  unfold read
  simp only [← hpage]
  rfl

/-- The functions that read a revision agree on what a revision is. -/
theorem parseRevisionOr_ok {message other text : String} {n : Nat}
    (h : parseRevisionOr message text = .ok n) : parseRevisionOr other text = .ok n := by
  rw [parseRevisionOr_eq_ok h, parseRevisionOr_toString]

def inMemoryEventStore (schema : EventSchema) (hasGoalBinding : Bool) : CanonicalEventStore where
  State := InMemoryEventStore
  empty := .empty
  call := InMemoryEventStore.call schema hasGoalBinding
  read := InMemoryEventStore.read
  readBounds := InMemoryEventStore.readBounds
  logs store := store.log
  starts _ := rfl
  numbered store := store.numbered_log
  logged := InMemoryEventStore.call_logged schema hasGoalBinding
  readBounds_eq := InMemoryEventStore.readBounds_eq
  read_page := by
    intro store stream request page h
    rw [InMemoryEventStore.read_eq] at h
    simp only [bind_eq_ok, return_eq_ok] at h
    obtain ⟨_, _, _, hlimit, after, hafter, rfl⟩ := h
    exact ⟨limit_pos_of_ok hlimit, after, parseRevisionOr_ok hafter, rfl⟩
  read_succeeds := by
    intro store stream request cursor hstream hlimit hcursor _
    rw [InMemoryEventStore.read_eq, hstream, hlimit, InMemoryEventStore.parseRevision,
      parseRevisionOr_ok hcursor]
    exact ⟨_, rfl⟩

/-! ## The SQLite store -/

namespace SqliteEventDatabase

variable {ρ : Type}

/-- The calls of the SQLite store, whose `closeAuthority` ends in its second part. -/
def call (schema : EventSchema) (options : SqliteEventStoreOptions ρ) :
    EventCall → EStateM EventError (SqliteEventDatabase ρ) EventAnswer
  | .append stream expectedRevision coordinate data host =>
    .appended <$> append schema stream expectedRevision coordinate data host
  | .purgeTerminalRuns stream request => .purged <$> purgeTerminalRuns stream request
  | .beginClose request => .progress <$> beginClose options request
  | .resumeClose request clock => do
    let closedAt ← attempt clock
    .progress <$> resumeClose options request closedAt
  | .commitClose _ _ => throw .runAuthorityConflict

/-- What the checks on the authority let through leaves the events alone. -/
theorem Fenced.toSqliteEvents {coordinate : RunCoordinate} {database database' : SqliteEventDatabase ρ}
    {data : CanonicalEventData} (h : Fenced coordinate database database' data) :
    database'.toSqliteEvents = database.toSqliteEvents := by
  cases data with
  | runQueued inputId inputFingerprint authority =>
    cases authority with
    | none => rw [h.2]
    | some authority =>
      rcases h.2 with ⟨-, rfl⟩ | ⟨-, rfl⟩ <;> rfl
  | runStarted id => rw [h.2]
  | runResumed id => rw [h.2]
  | runSuspended id => rw [show database' = database from h]
  | runCompleted status => rw [show database' = database from h]
  | item kind audience body => rw [show database' = database from h]
  | other kind body => rw [show database' = database from h]

theorem call_logged (schema : EventSchema) (options : SqliteEventStoreOptions ρ)
    (eventCall : EventCall) (database : SqliteEventDatabase ρ) :
    Ends (call schema options eventCall) database
      (fun answer database' => answer.Logs database.log database'.log)
      (fun _ database' => database'.log = database.log) := by
  cases eventCall with
  | append stream expectedRevision coordinate data host =>
    simp only [call, ends_map]
    refine (append_ends schema stream expectedRevision coordinate data host database).mono
      (fun event database' h => ?_) fun _ _ h => by rw [h]
    obtain ⟨-, -, -, admitted, hfenced, hrevision, hmax, rfl⟩ := h
    intro other
    rw [← hfenced.toSqliteEvents]
    exact admitted.log_push event hrevision hmax other
  | purgeTerminalRuns stream request =>
    simp only [call, ends_map]
    refine (purgeTerminalRuns_ends stream request database).mono
      (fun result database' h => ?_) fun _ _ h => by rw [h]
    rcases h with rfl | ⟨revision, rfl⟩
    · refine ⟨stream, 0, fun other => ?_⟩
      split
      · rename_i heq
        rw [← heq]
        rfl
      · rfl
    · exact ⟨stream, _, database.log_delete stream revision⟩
  | beginClose request =>
    simp only [call, ends_map]
    refine (beginClose_ends options request database).mono (fun _ database' h => ?_)
      fun _ _ h => by rw [h]
    rw [h.1]
    rfl
  | resumeClose request clock =>
    simp only [call, ends_bind, ends_attempt, ends_map]
    refine ⟨fun closedAt _ => ?_, fun _ _ => trivial⟩
    refine (resumeClose_ends options request closedAt database).mono
      (fun progress database' h => ?_) fun _ _ h => by rw [h]
    rcases h with ⟨rfl, -⟩ | ⟨-, row, others, -, -, rfl⟩ <;> rfl
  | commitClose request closedAt => exact rfl

theorem readBounds_eq (database : SqliteEventDatabase ρ) (stream : StreamKey) :
    database.readBounds stream = (validateEventStream stream).map fun _ =>
      logBounds (database.log stream) := by
  have hfirst : (database.select stream).head?.map (fun event => toString event.revision) =
      (database.log stream).earliest.map toString := by
    rw [← (database.numbered_log stream).head?_eq, Option.map_map]
    rfl
  have hlast : ((database.heads.get? stream).map toString).getD "0" =
      toString (database.log stream).head := by
    show _ = toString ((database.heads.get? stream).getD 0)
    cases database.heads.get? stream <;> rfl
  unfold readBounds bounds
  rw [hfirst, hlast]
  cases validateEventStream stream <;> rfl

theorem read_eq (database : SqliteEventDatabase ρ) (stream : StreamKey)
    (request : EventReadRequest) :
    database.read stream request = do
      validateEventStream stream
      assertEventReadLimit request.limit
      let after ← parseRevision (request.afterRevision.getD "0")
      return logPage (database.log stream) after (request.afterRevision.getD "0") request.limit := by
  have hpage := fun after => logPage_eq (database.numbered_log stream) after
    (request.afterRevision.getD "0") request.limit
  unfold read
  simp only [← hpage]
  rfl

/-- A revision that is not beyond the 64-bit range is read. -/
theorem parseRevision_eq_ok {message text : String} {n : Nat} :
    parseRevision text = .ok n ↔ parseRevisionOr message text = .ok n ∧ n ≤ sqliteRevisionMax := by
  unfold parseRevision
  rw [bind_eq_ok]
  constructor
  · rintro ⟨parsed, hparsed, hrange⟩
    split at hrange
    · cases hrange
    · rename_i hle
      cases hrange
      exact ⟨parseRevisionOr_ok hparsed, not_lt.1 hle⟩
  · rintro ⟨hparsed, hle⟩
    refine ⟨n, parseRevisionOr_ok hparsed, ?_⟩
    rw [if_neg (not_lt.2 hle)]
    rfl

end SqliteEventDatabase

def sqliteEventStore {ρ : Type} (schema : EventSchema) (options : SqliteEventStoreOptions ρ)
    (others : ρ) : CanonicalEventStore where
  State := SqliteEventDatabase ρ
  empty := .empty others
  call := SqliteEventDatabase.call schema options
  read := SqliteEventDatabase.read
  readBounds := SqliteEventDatabase.readBounds
  logs database := database.log
  starts _ := rfl
  numbered database := database.numbered_log
  logged := SqliteEventDatabase.call_logged schema options
  readBounds_eq := SqliteEventDatabase.readBounds_eq
  read_page := by
    intro database stream request page h
    rw [SqliteEventDatabase.read_eq] at h
    simp only [bind_eq_ok, return_eq_ok] at h
    obtain ⟨_, _, _, hlimit, after, hafter, rfl⟩ := h
    exact ⟨limit_pos_of_ok hlimit, after, (SqliteEventDatabase.parseRevision_eq_ok.1 hafter).1, rfl⟩
  read_succeeds := by
    intro database stream request cursor hstream hlimit hcursor hhead
    have hparsed : SqliteEventDatabase.parseRevision (request.afterRevision.getD "0") = .ok cursor :=
      SqliteEventDatabase.parseRevision_eq_ok.2 ⟨hcursor, hhead.trans (database.bounded stream)⟩
    rw [SqliteEventDatabase.read_eq, hstream, hlimit, hparsed]
    exact ⟨_, rfl⟩

/-! ## Both -/

/-- The implementations of `CanonicalEventStore`, with what the host passed to them. -/
inductive EventStoreKind where
  | inMemory (hasGoalBinding : Bool)
  | sqlite (ρ : Type) (options : SqliteEventStoreOptions ρ) (others : ρ)

def eventStore (kind : EventStoreKind) (schema : EventSchema) : CanonicalEventStore :=
  match kind with
  | .inMemory hasGoalBinding => inMemoryEventStore schema hasGoalBinding
  | .sqlite _ options others => sqliteEventStore schema options others

end OpenGameAgent
