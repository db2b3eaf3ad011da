import Mathlib.Data.List.Induction
import OpenGameAgent.Runtime.InMemoryEventStore

/-!
# The interface of an event store

`CanonicalEventStore` of `packages/protocol/src/event-store.ts`, as far as the order of
events is concerned: every stream is a log that forgets its oldest items, a call appends
to a log, drops from one or leaves them alone, and what is read is read off a log.

* `CanonicalEventStore.run` — the state after some calls; `appended` collects the events
  they appended to a stream.
* `CanonicalEventStore.keeps_run` — in every run, a stream holds the end of what was
  appended to it.
-/

namespace OpenGameAgent

/-- The calls of a store.  A call of `closeAuthority` is made of its parts. -/
inductive EventCall where
  | append (stream : StreamKey) (expectedRevision : String) (coordinate : RunCoordinate)
      (data : CanonicalEventData) (host : AppendHost)
  | purgeTerminalRuns (stream : StreamKey) (request : TerminalEventPurgeRequest)
  | beginClose (request : CloseRunAuthorityRequest)
  | resumeClose (request : CloseRunAuthorityRequest) (clock : Except EventError String)
  | commitClose (request : CloseRunAuthorityRequest) (closedAt : String)

inductive EventAnswer where
  | appended (event : CanonicalEvent)
  | purged (result : TerminalEventPurgeResult)
  | progress (progress : CloseProgress)

/-- The logs of all streams. -/
abbrev EventLogs := StreamKey → RetainedLog CanonicalEvent

/-- What an answer says happened to the logs. -/
def EventAnswer.Logs (answer : EventAnswer) (logs logs' : EventLogs) : Prop :=
  match answer with
  | .appended event =>
    ∀ stream, logs' stream =
      if event.stream = stream then (logs event.stream).append event else logs stream
  | .purged _ =>
    ∃ purged count, ∀ stream, logs' stream =
      if purged = stream then (logs purged).drop count else logs stream
  | .progress _ => logs' = logs

/-- The bounds of a log. -/
def logBounds (log : RetainedLog CanonicalEvent) : EventStreamBounds where
  earliestRevision := log.earliest.map toString
  latestRevision := toString log.head

/-- The page of a log after a cursor. -/
def logPage (log : RetainedLog CanonicalEvent) (cursor : Nat) (afterRevision : String)
    (limit : Nat) : CanonicalEventPage where
  events := (log.after cursor).take limit
  cursor := (((log.after cursor).take limit).getLast?.map fun event =>
    toString event.revision).getD afterRevision
  hasMore := decide (limit < (log.after cursor).length)

/-- An implementation of the interface `CanonicalEventStore`. -/
structure CanonicalEventStore where
  State : Type
  empty : State
  call : EventCall → EStateM EventError State EventAnswer
  read : State → StreamKey → EventReadRequest → Except EventError CanonicalEventPage
  readBounds : State → StreamKey → Except EventError EventStreamBounds
  logs : State → EventLogs
  starts : ∀ stream, logs empty stream = .empty
  numbered : ∀ state stream, RetainedLog.Numbered CanonicalEvent.revision (logs state stream)
  logged : ∀ call' state, Ends (call call') state
    (fun answer state' => answer.Logs (logs state) (logs state'))
    (fun _ state' => logs state' = logs state)
  readBounds_eq : ∀ state stream, readBounds state stream =
    (validateEventStream stream).map fun _ => logBounds (logs state stream)
  read_page : ∀ {state stream request page}, read state stream request = .ok page →
    0 < request.limit ∧ ∃ cursor, parseEventRevision (request.afterRevision.getD "0") = .ok cursor ∧
      page = logPage (logs state stream) cursor (request.afterRevision.getD "0") request.limit
  read_succeeds : ∀ {state stream request cursor}, validateEventStream stream = .ok () →
    assertEventReadLimit request.limit = .ok () →
    parseEventRevision (request.afterRevision.getD "0") = .ok cursor →
    cursor ≤ (logs state stream).head → ∃ page, read state stream request = .ok page

namespace CanonicalEventStore

variable (store : CanonicalEventStore)

/-- One call: the answer and the state after it. -/
def answer (state : store.State) (call : EventCall) : Except EventError EventAnswer × store.State :=
  respond (store.call call) state

/-- The state after some calls on an empty store. -/
def run (calls : List EventCall) : store.State := (history store.answer store.empty calls).2

/-- What the store answered to the calls, in order. -/
def outcomes (calls : List EventCall) : List (EventCall × Except EventError EventAnswer) :=
  (history store.answer store.empty calls).1

/-- The event an answer appended to a stream. -/
def appendedTo (stream : StreamKey) :
    EventCall × Except EventError EventAnswer → Option CanonicalEvent
  | (_, .ok (.appended event)) => if event.stream = stream then some event else none
  | _ => none

/-- The events that some calls appended to a stream, in order. -/
def appended (stream : StreamKey) (calls : List EventCall) : List CanonicalEvent :=
  (store.outcomes calls).filterMap (appendedTo stream)

/-- The log of a stream after some calls. -/
def logAfter (stream : StreamKey) (calls : List EventCall) : RetainedLog CanonicalEvent :=
  store.logs (store.run calls) stream

theorem run_concat (calls : List EventCall) (call : EventCall) :
    store.run (calls ++ [call]) = (store.answer (store.run calls) call).2 := by
  unfold run
  rw [history_concat]

theorem appended_concat (stream : StreamKey) (calls : List EventCall) (call : EventCall) :
    store.appended stream (calls ++ [call]) = store.appended stream calls ++
      (appendedTo stream (call, (store.answer (store.run calls) call).1)).toList := by
  unfold appended outcomes run
  rw [history_concat, List.filterMap_append, List.filterMap_cons, List.filterMap_nil]
  cases appendedTo stream (call, _) <;> rfl

/-- A call appends to the log of a stream what its answer says, or drops from it. -/
theorem logAfter_concat (stream : StreamKey) (calls : List EventCall) (call : EventCall) :
    (∃ event, appendedTo stream (call, (store.answer (store.run calls) call).1) = some event ∧
      store.logAfter stream (calls ++ [call]) = (store.logAfter stream calls).append event) ∨
    (appendedTo stream (call, (store.answer (store.run calls) call).1) = none ∧
      ∃ count, store.logAfter stream (calls ++ [call]) =
        (store.logAfter stream calls).drop count) := by
  have hdrop : ∀ log : RetainedLog CanonicalEvent, log = log.drop 0 := fun log => rfl
  unfold logAfter
  rw [run_concat]
  have hlogged := (store.logged call (store.run calls)).respond
  unfold answer
  generalize hrespond : respond (store.call call) (store.run calls) = outcome at hlogged ⊢
  obtain ⟨answer, state'⟩ := outcome
  cases answer with
  | error e =>
    refine Or.inr ⟨rfl, 0, ?_⟩
    show store.logs state' stream = _
    rw [hlogged.2 e rfl]
    rfl
  | ok answer =>
    have hlogs := hlogged.1 answer rfl
    cases answer with
    | progress progress =>
      refine Or.inr ⟨rfl, 0, ?_⟩
      show store.logs state' stream = _
      rw [show store.logs state' = store.logs (store.run calls) from hlogs]
      rfl
    | appended event =>
      have hstream := hlogs stream
      by_cases heq : event.stream = stream
      · refine Or.inl ⟨event, if_pos heq, ?_⟩
        rw [if_pos heq, heq] at hstream
        exact hstream
      · refine Or.inr ⟨if_neg heq, 0, ?_⟩
        rw [if_neg heq] at hstream
        exact hstream
    | purged result =>
      obtain ⟨purged, count, hpurged⟩ := hlogs
      have hstream := hpurged stream
      by_cases heq : purged = stream
      · refine Or.inr ⟨rfl, count, ?_⟩
        rw [if_pos heq, heq] at hstream
        exact hstream
      · refine Or.inr ⟨rfl, 0, ?_⟩
        rw [if_neg heq] at hstream
        exact hstream

/-- In every run, a stream holds the end of what was appended to it. -/
theorem keeps_run (stream : StreamKey) (calls : List EventCall) :
    RetainedLog.Keeps (store.appended stream calls) (store.logAfter stream calls) := by
  induction calls using List.reverseRecOn with
  | nil =>
    show RetainedLog.Keeps [] (store.logs store.empty stream)
    rw [store.starts]
    exact RetainedLog.keeps_empty
  | append_singleton calls call ih =>
    rw [appended_concat]
    rcases store.logAfter_concat stream calls call with ⟨event, hevent, hlog⟩ | ⟨hnone, count, hlog⟩
    · rw [hevent, hlog]
      exact ih.append event
    · rw [hnone, hlog, Option.toList_none, List.append_nil]
      exact ih.drop count

/-- A stream only moves on. -/
theorem later_run (stream : StreamKey) (calls more : List EventCall) :
    RetainedLog.Later (store.logAfter stream calls) (store.logAfter stream (calls ++ more)) := by
  induction more using List.reverseRecOn with
  | nil =>
    rw [List.append_nil]
    exact .refl _
  | append_singleton more call ih =>
    rw [← List.append_assoc]
    refine ih.trans ?_
    rcases store.logAfter_concat stream (calls ++ more) call with ⟨event, -, hlog⟩ | ⟨-, count, hlog⟩
    · rw [hlog]
      exact RetainedLog.later_append _ event
    · rw [hlog]
      exact RetainedLog.later_drop _ count

/-- What was appended stays appended. -/
theorem appended_prefix (stream : StreamKey) (calls more : List EventCall) :
    store.appended stream calls <+: store.appended stream (calls ++ more) := by
  unfold appended outcomes
  rw [history_append, List.filterMap_append]
  exact List.prefix_append ..

end CanonicalEventStore

end OpenGameAgent
