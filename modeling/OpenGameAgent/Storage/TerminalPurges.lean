import OpenGameAgent.Runtime.StoredRuns
import OpenGameAgent.Storage.EventStores

/-!
# Purging finished runs

`purgeTerminalRuns` of both event stores, over any events they may hold.

Both remove the longest prefix `purgeable` allows, unless a run of that prefix goes on behind
it; then both throw and change nothing.

* `purgedAnswer` — what a purge answers, read off the log of its stream.
* `Purges` — a store purges its log; `InMemoryEventStore.purges` and
  `SqliteEventDatabase.purges` say that both do.
* `purge_removes_finished_runs` — the purge of either store.
-/

namespace OpenGameAgent

/-! ## The log of a stream -/

/-- What `purgeTerminalRuns` answers on a log. -/
def purgedAnswer (log : RetainedLog CanonicalEvent) (request : TerminalEventPurgeRequest) :
    Except EventError TerminalEventPurgeResult :=
  match purgeCandidate log.items request with
  | .error e => .error e
  | .ok candidate => .ok { logBounds (log.drop candidate.1) with
      purgedEventCount := candidate.1
      purgedRunIds := candidate.2 }

/-- The log it leaves. -/
def purgedLog (log : RetainedLog CanonicalEvent) (request : TerminalEventPurgeRequest) :
    RetainedLog CanonicalEvent :=
  match purgeCandidate log.items request with
  | .error _ => log
  | .ok candidate => log.drop candidate.1

/-- The length of the prefix and its runs. -/
def purgedPrefix (log : RetainedLog CanonicalEvent) (request : TerminalEventPurgeRequest) :
    Nat × List String :=
  terminalPrefix (log.items.take request.limit) request

theorem any_goesOn_iff {events : List CanonicalEvent} {count : Nat} {runs : List String}
    (hruns : RunsOf runs (events.take count)) :
    (runs.any fun runId => (events.drop count).any fun event => event.run = runId) = true ↔
      GoesOn events count := by
  simp only [List.any_eq_true, decide_eq_true_eq, GoesOn]
  constructor
  · rintro ⟨runId, hrunId, later, hlater, rfl⟩
    obtain ⟨before, hbefore, hsame⟩ := (hruns.mem_iff _).1 hrunId
    exact ⟨before, hbefore, later, hlater, hsame.symm⟩
  · rintro ⟨before, hbefore, later, hlater, hsame⟩
    exact ⟨before.run, (hruns.mem_iff _).2 ⟨before, hbefore, rfl⟩, later, hlater, hsame⟩

theorem purgeCandidate_of_goesOn {log : RetainedLog CanonicalEvent}
    {request : TerminalEventPurgeRequest} (h : GoesOn log.items (purgedPrefix log request).1) :
    purgeCandidate log.items request =
      .error (.type "A canonical event run continues after its terminal event.") := by
  have hruns := (terminalPrefix_isGreatest request log.items).2
  exact if_pos ((any_goesOn_iff hruns).2 h)

theorem purgeCandidate_of_not_goesOn {log : RetainedLog CanonicalEvent}
    {request : TerminalEventPurgeRequest} (h : ¬ GoesOn log.items (purgedPrefix log request).1) :
    purgeCandidate log.items request = .ok (purgedPrefix log request) := by
  have hruns := (terminalPrefix_isGreatest request log.items).2
  exact if_neg fun hany => h ((any_goesOn_iff hruns).1 hany)

theorem purgeCandidate_eq_ok {events : List CanonicalEvent} {request : TerminalEventPurgeRequest}
    {candidate : Nat × List String} (h : purgeCandidate events request = .ok candidate) :
    candidate = terminalPrefix (events.take request.limit) request := by
  unfold purgeCandidate at h
  dsimp only at h
  split at h
  · cases h
  · exact (Except.ok.inj h).symm

theorem length_le_of_purgeCandidate {events : List CanonicalEvent}
    {request : TerminalEventPurgeRequest} {candidate : Nat × List String}
    (h : purgeCandidate events request = .ok candidate) : candidate.1 ≤ events.length := by
  rw [purgeCandidate_eq_ok h]
  exact (terminalPrefix_isGreatest request events).1.1.2.1

theorem drop_eq_self {log : RetainedLog CanonicalEvent} {count : Nat}
    (h : (log.items.take count).getLast? = none) : log.drop count = log := by
  have hnil : log.items.take count = [] := List.getLast?_eq_none_iff.1 h
  have hitems : log.items.drop count = log.items := by
    conv => rhs; rw [← List.take_append_drop count log.items, hnil, List.nil_append]
  obtain ⟨head, items, held⟩ := log
  simp only [RetainedLog.drop, RetainedLog.mk.injEq, true_and]
  exact hitems

/-- Appended items carry the number behind the head. -/
theorem revision_of_append {log : RetainedLog CanonicalEvent} {event : CanonicalEvent}
    (hlog : RetainedLog.Numbered CanonicalEvent.revision log)
    (h : RetainedLog.Numbered CanonicalEvent.revision (log.append event)) :
    event.revision = log.head + 1 := by
  have hnumbers : (log.items ++ [event]).map CanonicalEvent.revision =
      List.range' ((log.append event).dropped + 1) (log.items ++ [event]).length := h
  have hlength := log.dropped_add_length
  rw [RetainedLog.dropped_append, List.map_append, hlog, List.length_append,
    List.length_singleton, List.range'_concat, List.map_singleton] at hnumbers
  have hlast := (List.append_inj' hnumbers rfl).2
  rw [List.singleton_inj] at hlast
  omega

/-- A program purges the log of a stream: it answers what the log says and drops the prefix,
or throws and changes nothing. -/
def PurgesLog {σ : Type} (logs : σ → EventLogs) (stream : StreamKey)
    (request : TerminalEventPurgeRequest)
    (program : EStateM EventError σ TerminalEventPurgeResult) (state : σ) : Prop :=
  Ends program state
    (fun result state' =>
      purgeCandidate (logs state stream).items request =
          .ok (result.purgedEventCount, result.purgedRunIds) ∧
        result.toEventStreamBounds =
          logBounds ((logs state stream).drop result.purgedEventCount) ∧
        ∀ other, logs state' other = if stream = other then
          (logs state stream).drop result.purgedEventCount else logs state other)
    (fun e state' => purgeCandidate (logs state stream).items request = .error e ∧ state' = state)

/-! ## Both stores -/

namespace InMemoryEventStore

theorem bounds_eq {stream : StreamKey} (hstream : validateEventStream stream = .ok ())
    (store : InMemoryEventStore) :
    (⟨(store.events stream).head?.map fun event => toString event.revision,
      ((store.revisions.get? stream).map toString).getD "0"⟩ : EventStreamBounds) =
      logBounds (store.log stream) := by
  have h := readBounds_eq store stream
  unfold readBounds at h
  rw [hstream] at h
  exact Except.ok.inj h

theorem purgeTerminalRuns_purges {stream : StreamKey} {request : TerminalEventPurgeRequest}
    (hstream : validateEventStream stream = .ok ())
    (hrequest : captureEventPurgeRequest request = .ok ()) (store : InMemoryEventStore) :
    PurgesLog (fun store : InMemoryEventStore => store.log) stream request
      (purgeTerminalRuns stream request) store := by
  unfold PurgesLog purgeTerminalRuns
  rw [hstream, hrequest]
  simp only [ends_bind, ends_attempt, ends_get]
  refine ⟨fun _ _ => ⟨fun _ _ => ⟨fun candidate hcandidate => ?_, fun e he => ⟨he, trivial⟩⟩,
    by simp⟩, by simp⟩
  by_cases hany : candidate.1 > 0
  · rw [if_pos hany]
    simp only [ends_set, ends_bind, ends_get, ends_pure]
    have hlogs := store.log_dropOldest stream candidate.1
    refine ⟨hcandidate, ?_, hlogs⟩
    have hbounds := bounds_eq hstream { store with
      toEventStreams := store.dropOldest stream candidate.1 }
    refine hbounds.trans (congrArg logBounds ?_)
    exact (hlogs stream).trans (if_pos rfl)
  · rw [if_neg hany]
    simp only [ends_bind, ends_get, ends_pure]
    have hzero : candidate.1 = 0 := Nat.eq_zero_of_not_pos hany
    have hdrop : (store.log stream).drop candidate.1 = store.log stream :=
      drop_eq_self (by rw [hzero]; rfl)
    refine ⟨hcandidate, ?_, fun other => ?_⟩
    · rw [hdrop]
      exact bounds_eq hstream store
    · by_cases hother : stream = other
      · rw [if_pos hother, hdrop, hother]
      · rw [if_neg hother]

end InMemoryEventStore

namespace SqliteEventDatabase

variable {ρ : Type}

theorem bounds_eq (database : SqliteEventDatabase ρ) {stream : StreamKey}
    (hstream : validateEventStream stream = .ok ()) :
    database.bounds stream = logBounds (database.log stream) := by
  have h := readBounds_eq database stream
  unfold readBounds at h
  rw [hstream] at h
  exact Except.ok.inj h

/-- `readRun`: the authority is in its own table. -/
def readRun (database : SqliteEventDatabase ρ) (stream : StreamKey) (inputId : String) :
    Except EventError (Option StoredRunRecord) := do
  validateEventStream stream
  assertEventIdentifier inputId
  return storedRun (fun event => database.admissionOf event.coordinate)
    (database.select stream) inputId

/-- The last of the first rows of a stream carries their number. -/
theorem revision_getLast? {database : SqliteEventDatabase ρ} {stream : StreamKey} {count : Nat}
    {last : CanonicalEvent} (hcount : count ≤ (database.select stream).length)
    (hlast : ((database.select stream).take count).getLast? = some last) :
    last.revision = (database.log stream).dropped + count := by
  have hnumbered : (database.select stream).map CanonicalEvent.revision =
      List.range' ((database.log stream).dropped + 1) (database.select stream).length :=
    database.numbered_log stream
  have hnumbers : ((database.select stream).take count).map CanonicalEvent.revision =
      List.range' ((database.log stream).dropped + 1) count := by
    rw [List.map_take, hnumbered, List.take_range'_of_length_ge hcount]
  have hrevision := congrArg List.getLast? hnumbers
  rw [List.getLast?_map, hlast, Option.map_some] at hrevision
  cases count with
  | zero => cases hrevision
  | succ count =>
    rw [List.range'_concat, List.getLast?_concat] at hrevision
    have := Option.some.inj hrevision
    omega

theorem purgeTerminalRuns_purges {stream : StreamKey} {request : TerminalEventPurgeRequest}
    (hstream : validateEventStream stream = .ok ())
    (hrequest : captureEventPurgeRequest request = .ok ()) (database : SqliteEventDatabase ρ) :
    PurgesLog (fun database : SqliteEventDatabase ρ => database.log) stream request
      (purgeTerminalRuns stream request) database := by
  unfold PurgesLog purgeTerminalRuns
  rw [hstream, hrequest]
  simp only [ends_bind, ends_attempt, ends_transaction, ends_get]
  refine ⟨fun _ _ => ⟨fun _ _ => ⟨fun candidate hcandidate => ?_, fun e he => ⟨he, trivial⟩⟩,
    by simp⟩, by simp⟩
  have hcount := length_le_of_purgeCandidate hcandidate
  cases hlast : ((database.select stream).take candidate.1).getLast? with
  | none =>
    simp only [ends_pure, ends_bind, ends_get]
    have hdrop : (database.log stream).drop candidate.1 = database.log stream :=
      drop_eq_self hlast
    refine ⟨hcandidate, ?_, fun other => ?_⟩
    · rw [hdrop]
      exact database.bounds_eq hstream
    · by_cases hother : stream = other
      · rw [if_pos hother, hdrop, hother]
      · rw [if_neg hother]
  | some last =>
    simp only [ends_set, ends_bind, ends_get, ends_pure]
    have hlogs : ∀ other, (database.delete stream last.revision).log other =
        if stream = other then (database.log stream).drop candidate.1
        else database.log other := by
      intro other
      have hcut : last.revision - (database.log stream).dropped = candidate.1 := by
        rw [revision_getLast? hcount hlast, Nat.add_sub_cancel_left]
      rw [database.log_delete stream last.revision other, hcut]
    refine ⟨hcandidate, ?_, hlogs⟩
    refine (bounds_eq _ hstream).trans (congrArg logBounds ?_)
    exact (hlogs stream).trans (if_pos rfl)

theorem admissions_purgeTerminalRuns (stream : StreamKey) (request : TerminalEventPurgeRequest)
    (database : SqliteEventDatabase ρ) :
    Ends (purgeTerminalRuns stream request) database
      (fun _ database' => database'.admissions = database.admissions) (fun _ _ => True) := by
  refine (purgeTerminalRuns_ends stream request database).mono (fun _ database' h => ?_)
    fun _ _ _ => trivial
  rcases h with rfl | ⟨revision, rfl⟩ <;> rfl

end SqliteEventDatabase

/-! ## Purges and reads of either store -/

/-- `readRun` of a store. -/
def readRun (kind : EventStoreKind) (schema : EventSchema) :
    (eventStore kind schema).State → StreamKey → String →
      Except EventError (Option StoredRunRecord) :=
  match kind with
  | .inMemory _ => InMemoryEventStore.readRun
  | .sqlite _ _ _ => SqliteEventDatabase.readRun

section Kinds

variable {kind : EventStoreKind} {schema : EventSchema} {stream : StreamKey}
  {request : TerminalEventPurgeRequest}

/-- The purge of either store, as a call. -/
theorem purge_ends (hstream : validateEventStream stream = .ok ())
    (hrequest : captureEventPurgeRequest request = .ok ()) (state : (eventStore kind schema).State) :
    Ends ((eventStore kind schema).call (.purgeTerminalRuns stream request)) state
      (fun answer state' => ∃ result, answer = .purged result ∧
        purgeCandidate ((eventStore kind schema).logs state stream).items request =
          .ok (result.purgedEventCount, result.purgedRunIds) ∧
        result.toEventStreamBounds = logBounds
          (((eventStore kind schema).logs state stream).drop result.purgedEventCount) ∧
        ∀ other, (eventStore kind schema).logs state' other = if stream = other then
          ((eventStore kind schema).logs state stream).drop result.purgedEventCount
          else (eventStore kind schema).logs state other)
      (fun e state' =>
        purgeCandidate ((eventStore kind schema).logs state stream).items request = .error e ∧
          state' = state) := by
  cases kind with
  | inMemory hasGoalBinding =>
    exact ends_map.2 ((InMemoryEventStore.purgeTerminalRuns_purges hstream hrequest state).mono
      (fun result _ h => ⟨result, rfl, h⟩) fun _ _ h => h)
  | sqlite ρ options others =>
    exact ends_map.2 ((SqliteEventDatabase.purgeTerminalRuns_purges hstream hrequest state).mono
      (fun result _ h => ⟨result, rfl, h⟩) fun _ _ h => h)

/-- What a purge leaves of the records of runs: a record does not depend on the events before a
cut that no run crosses, as long as its run begins behind the cut. -/
theorem purge_readRun {count : Nat} (state : (eventStore kind schema).State)
    (hcut : ¬ GoesOn ((eventStore kind schema).logs state stream).items count) :
    Ends ((eventStore kind schema).call (.purgeTerminalRuns stream request)) state
      (fun _ state' =>
        (∀ other, (eventStore kind schema).logs state' other = if stream = other then
          ((eventStore kind schema).logs state stream).drop count
          else (eventStore kind schema).logs state other) →
        ∀ other inputId, (other = stream →
            ∀ event ∈ ((eventStore kind schema).logs state stream).items.take count,
              event.admits inputId = false) →
          readRun kind schema state' other inputId = readRun kind schema state other inputId)
      (fun _ _ => True) := by
  cases kind with
  | inMemory hasGoalBinding =>
    refine ends_map.2 (ends_self.mono (fun _ state' _ => ?_) fun _ _ _ => trivial)
    intro hlogs other inputId hinput
    exact congrArg (fun answer => do
      validateEventStream other
      assertEventIdentifier inputId
      return answer) (storedRun_cut hcut hlogs other inputId hinput)
  | sqlite ρ options others =>
    refine ends_map.2 ((SqliteEventDatabase.admissions_purgeTerminalRuns stream request
      state).mono (fun _ state' hadmissions => ?_) fun _ _ _ => trivial)
    intro hlogs other inputId hinput
    have hauthority : (fun event : CanonicalEvent => state'.admissionOf event.coordinate) =
        fun event => state.admissionOf event.coordinate := by
      unfold SqliteEventDatabase.admissionOf
      rw [hadmissions]
    refine (congrArg (fun authorityOf => do
      validateEventStream other
      assertEventIdentifier inputId
      return storedRun authorityOf (state'.select other) inputId) hauthority).trans ?_
    exact congrArg (fun answer => do
      validateEventStream other
      assertEventIdentifier inputId
      return answer) (storedRun_cut hcut hlogs other inputId hinput)

/-- What either store answers, and the log it leaves, are functions of the log and the request. -/
theorem purge_answer (hstream : validateEventStream stream = .ok ())
    (hrequest : captureEventPurgeRequest request = .ok ()) (state : (eventStore kind schema).State) :
    ((eventStore kind schema).answer state (.purgeTerminalRuns stream request)).1 =
        (purgedAnswer ((eventStore kind schema).logs state stream) request).map .purged ∧
      (eventStore kind schema).logs
          ((eventStore kind schema).answer state (.purgeTerminalRuns stream request)).2 stream =
        purgedLog ((eventStore kind schema).logs state stream) request := by
  obtain ⟨hok, herror⟩ := (purge_ends hstream hrequest state).respond
  unfold CanonicalEventStore.answer purgedAnswer purgedLog
  cases hanswer : (respond ((eventStore kind schema).call (.purgeTerminalRuns stream request))
      state).1 with
  | error e =>
    obtain ⟨hcandidate, hstate⟩ := herror e hanswer
    rw [hcandidate, hstate]
    exact ⟨rfl, rfl⟩
  | ok answer =>
    obtain ⟨result, rfl, hcandidate, hbounds, hlogs⟩ := hok answer hanswer
    rw [hcandidate, hlogs stream, if_pos rfl]
    refine ⟨?_, rfl⟩
    show _ = Except.ok (EventAnswer.purged _)
    rw [← hbounds]

/-- What a purge leaves when it removes the first events of a stream. -/
structure Removed (kind : EventStoreKind) (schema : EventSchema) (stream : StreamKey) (count : Nat)
    (runs : List String) (state state' : (eventStore kind schema).State) : Prop where
  logs : ∀ other, (eventStore kind schema).logs state' other = if stream = other then
    ((eventStore kind schema).logs state stream).drop count
    else (eventStore kind schema).logs state other
  /-- No event of a removed run is left. -/
  gone : ∀ event ∈ ((eventStore kind schema).logs state' stream).items, event.run ∉ runs
  head : ∀ other, ((eventStore kind schema).logs state' other).head =
    ((eventStore kind schema).logs state other).head
  /-- The records of the inputs whose `run.queued` is not removed are the same. -/
  reads : ∀ other inputId, (other = stream →
      ∀ event ∈ ((eventStore kind schema).logs state stream).items.take count,
        event.admits inputId = false) →
    readRun kind schema state' other inputId = readRun kind schema state other inputId
  /-- The next event of a stream carries the revision behind its head. -/
  continues : ∀ call event, ((eventStore kind schema).answer state' call).1 = .ok (.appended event) →
    event.revision = ((eventStore kind schema).logs state event.stream).head + 1

theorem removed_of_logs {count : Nat} {runs : List String}
    {state state' : (eventStore kind schema).State}
    (hruns : RunsOf runs (((eventStore kind schema).logs state stream).items.take count))
    (hcut : ¬ GoesOn ((eventStore kind schema).logs state stream).items count)
    (hlogs : ∀ other, (eventStore kind schema).logs state' other = if stream = other then
      ((eventStore kind schema).logs state stream).drop count
      else (eventStore kind schema).logs state other)
    (hreads : ∀ other inputId, (other = stream →
        ∀ event ∈ ((eventStore kind schema).logs state stream).items.take count,
          event.admits inputId = false) →
      readRun kind schema state' other inputId = readRun kind schema state other inputId) :
    Removed kind schema stream count runs state state' where
  logs := hlogs
  gone := by
    intro event hevent hrun
    rw [hlogs stream, if_pos rfl] at hevent
    obtain ⟨before, hbefore, hsame⟩ := (hruns.mem_iff _).1 hrun
    exact hcut ⟨before, hbefore, event, hevent, hsame.symm⟩
  head := by
    intro other
    rw [hlogs other]
    by_cases hother : stream = other
    · rw [if_pos hother, RetainedLog.head_drop, hother]
    · rw [if_neg hother]
  reads := hreads
  continues := by
    intro call event happended
    have hlogged := ((eventStore kind schema).logged call state').respond.1 _ happended
    have hevent := hlogged event.stream
    rw [if_pos rfl] at hevent
    have hnumbered := (eventStore kind schema).numbered
      (respond ((eventStore kind schema).call call) state').2 event.stream
    rw [hevent] at hnumbered
    rw [revision_of_append ((eventStore kind schema).numbered state' event.stream) hnumbered,
      hlogs event.stream]
    by_cases hother : stream = event.stream
    · rw [if_pos hother, RetainedLog.head_drop, hother]
    · rw [if_neg hother]

/-- A purge of either store removes the longest prefix of finished runs, unless a run of it goes
on: then it throws and changes nothing.  Both stores do the same on the same events. -/
theorem purge_removes_finished_runs (kind : EventStoreKind) (schema : EventSchema)
    (stream : StreamKey) (request : TerminalEventPurgeRequest)
    (hstream : validateEventStream stream = .ok ())
    (hrequest : captureEventPurgeRequest request = .ok ())
    (state : (eventStore kind schema).State) :
    (∃ count runs,
      IsGreatest (purgeable request ((eventStore kind schema).logs state stream).items) count ∧
      RunsOf runs (((eventStore kind schema).logs state stream).items.take count) ∧
      (GoesOn ((eventStore kind schema).logs state stream).items count →
        (eventStore kind schema).answer state (.purgeTerminalRuns stream request) =
          (.error (.type "A canonical event run continues after its terminal event."), state)) ∧
      (¬ GoesOn ((eventStore kind schema).logs state stream).items count →
        ∃ result state', (eventStore kind schema).answer state (.purgeTerminalRuns stream request) =
            (.ok (.purged result), state') ∧
          result.purgedEventCount = count ∧ result.purgedRunIds = runs ∧
          Removed kind schema stream count runs state state')) ∧
    ∀ (kind' : EventStoreKind) (state' : (eventStore kind' schema).State),
      (eventStore kind' schema).logs state' stream = (eventStore kind schema).logs state stream →
      ((eventStore kind' schema).answer state' (.purgeTerminalRuns stream request)).1 =
          ((eventStore kind schema).answer state (.purgeTerminalRuns stream request)).1 ∧
        (eventStore kind' schema).logs
            ((eventStore kind' schema).answer state' (.purgeTerminalRuns stream request)).2 stream =
          (eventStore kind schema).logs
            ((eventStore kind schema).answer state (.purgeTerminalRuns stream request)).2 stream := by
  constructor
  · obtain ⟨hgreatest, hruns⟩ :=
      terminalPrefix_isGreatest request ((eventStore kind schema).logs state stream).items
    refine ⟨_, _, hgreatest, hruns, fun hgoes => ?_, fun hcut => ?_⟩
    · obtain ⟨hok, herror⟩ := (purge_ends hstream hrequest state).respond
      have hcandidate := purgeCandidate_of_goesOn hgoes
      cases hanswer : (respond ((eventStore kind schema).call (.purgeTerminalRuns stream request))
          state).1 with
      | error e =>
        obtain ⟨he, hstate⟩ := herror e hanswer
        rw [hcandidate, Except.error.injEq] at he
        rw [← he] at hanswer
        exact Prod.ext hanswer hstate
      | ok answer =>
        obtain ⟨result, -, hresult, -⟩ := hok answer hanswer
        rw [hcandidate] at hresult
        cases hresult
    · obtain ⟨hok, herror⟩ := ((purge_ends hstream hrequest state).and
        (purge_readRun state hcut)).respond
      have hcandidate := purgeCandidate_of_not_goesOn hcut
      cases hanswer : (respond ((eventStore kind schema).call (.purgeTerminalRuns stream request))
          state).1 with
      | error e =>
        obtain ⟨⟨he, -⟩, -⟩ := herror e hanswer
        rw [hcandidate] at he
        cases he
      | ok answer =>
        obtain ⟨⟨result, rfl, hresult, -, hlogs⟩, hreads⟩ := hok answer hanswer
        rw [hcandidate, Except.ok.injEq] at hresult
        have hcount : (purgedPrefix ((eventStore kind schema).logs state stream) request).1 =
            result.purgedEventCount := congrArg Prod.fst hresult
        have hrunIds : (purgedPrefix ((eventStore kind schema).logs state stream) request).2 =
            result.purgedRunIds := congrArg Prod.snd hresult
        rw [← hcount] at hlogs
        exact ⟨result, _, Prod.ext hanswer rfl, hcount.symm, hrunIds.symm,
          removed_of_logs hruns hcut hlogs (hreads hlogs)⟩
  · intro kind' state' hsame
    obtain ⟨hanswer, hlog⟩ := purge_answer hstream hrequest state
    obtain ⟨hanswer', hlog'⟩ := @purge_answer kind' schema stream request hstream hrequest state'
    rw [hanswer, hanswer', hlog, hlog', hsame]
    exact ⟨rfl, rfl⟩

end Kinds

/-! A run of two events, and the same run with a third event behind its end. -/

/-- A schema that accepts every body. -/
def anyBody : EventSchema := ⟨fun _ _ _ => true, fun _ _ => true⟩

/-- The `index`th event of the run. -/
def runEvent (expectedRevision eventId : String) (data : CanonicalEventData) : EventCall :=
  .append ⟨"s", "a"⟩ expectedRevision ⟨"s", "a", "r", 0⟩ data
    ⟨.ok eventId, .ok "2024-01-01T00:00:00.000Z"⟩

def finishedRun : List EventCall :=
  [runEvent "empty" "e1" (.runStarted "i"), runEvent "1" "e2" (.runCompleted .completed)]

def continuedRun : List EventCall := finishedRun ++ [runEvent "2" "e3" (.runStarted "i")]

/-- Both events of the run, if they are old enough. -/
def purgeOfTwo : TerminalEventPurgeRequest := ⟨"2025-01-01T00:00:00.000Z", 2, [], 0, 0⟩

abbrev inMemoryKind : EventStoreKind := .inMemory false

theorem purgeOfTwo_valid : validateEventStream ⟨"s", "a"⟩ = .ok () ∧
    captureEventPurgeRequest purgeOfTwo = .ok () := by
  decide +kernel

theorem finished_run_is_purged :
    ∃ count runs,
      IsGreatest (purgeable purgeOfTwo ((eventStore inMemoryKind anyBody).logAfter ⟨"s", "a"⟩
        finishedRun).items) count ∧
      RunsOf runs (((eventStore inMemoryKind anyBody).logAfter ⟨"s", "a"⟩
        finishedRun).items.take count) := by
  obtain ⟨⟨count, runs, hgreatest, hruns, -⟩, -⟩ := purge_removes_finished_runs inMemoryKind anyBody
    ⟨"s", "a"⟩ purgeOfTwo purgeOfTwo_valid.1 purgeOfTwo_valid.2
    ((eventStore inMemoryKind anyBody).run finishedRun)
  exact ⟨count, runs, hgreatest, hruns⟩

/-- Behind two events that finish a run comes a third of the same run: the two stay. -/
theorem continued_run_is_kept :
    ¬ ∀ (kind : EventStoreKind) (schema : EventSchema) (stream : StreamKey)
      (request : TerminalEventPurgeRequest) (calls : List EventCall),
      validateEventStream stream = .ok () → captureEventPurgeRequest request = .ok () →
      ∃ count, IsGreatest (purgeable request
          ((eventStore kind schema).logAfter stream calls).items) count ∧
        (eventStore kind schema).logAfter stream
            (calls ++ [.purgeTerminalRuns stream request]) =
          ((eventStore kind schema).logAfter stream calls).drop count := by
  intro h
  obtain ⟨count, hgreatest, hlog⟩ := h inMemoryKind anyBody ⟨"s", "a"⟩ purgeOfTwo continuedRun
    purgeOfTwo_valid.1 purgeOfTwo_valid.2
  have hevents : ((eventStore inMemoryKind anyBody).logAfter ⟨"s", "a"⟩ continuedRun).items.map
        (fun event => (event.run, event.isTerminal, event.occurredAt)) =
      [("r", false, "2024-01-01T00:00:00.000Z"), ("r", true, "2024-01-01T00:00:00.000Z"),
        ("r", false, "2024-01-01T00:00:00.000Z")] ∧
      ((eventStore inMemoryKind anyBody).logAfter ⟨"s", "a"⟩
        (continuedRun ++ [.purgeTerminalRuns ⟨"s", "a"⟩ purgeOfTwo])).items.length = 3 ∧
      "2024-01-01T00:00:00.000Z" < "2025-01-01T00:00:00.000Z" := by
    decide +kernel
  obtain ⟨hevents, hkept, hold⟩ := hevents
  rw [hlog] at hkept
  generalize (eventStore inMemoryKind anyBody).logAfter ⟨"s", "a"⟩ continuedRun = log at *
  simp only [List.map_eq_cons_iff, Prod.mk.injEq, List.map_eq_nil_iff] at hevents
  obtain ⟨first, _, hitems, ⟨hrun, hopen, htime⟩, second, _, rfl, ⟨hrun', hends, htime'⟩,
    third, _, rfl, ⟨hrun'', -, -⟩, rfl⟩ := hevents
  have htwo : 2 ∈ purgeable purgeOfTwo log.items := by
    rw [hitems]
    refine ⟨Nat.le_refl 2, by simp, ?_⟩
    refine ⟨⟨by simp [purgeOfTwo], ?_⟩, ?_⟩
    · intro event hevent _
      have hsame : event.occurredAt = "2024-01-01T00:00:00.000Z" := by
        rcases List.mem_pair.1 hevent with rfl | rfl
        · exact htime
        · exact htime'
      rw [hsame]
      exact hold
    · simp [hends, hrun, hrun']
  have hfew := hgreatest.2 htwo
  have hlength : (log.drop count).items.length = 3 - count := by
    show (log.items.drop count).length = _
    simp [hitems]
  omega

end OpenGameAgent
