import OpenGameAgent.Protocol.UnicodeText
import OpenGameAgent.Runtime.TerminalPrefix

/-!
# Reading a run

`readRun` of the event stores (`packages/runtime/src/in-memory-event-store.ts` and
`packages/storage-sqlite/src/sqlite-event-store.ts`): what the events of a stream say about
the run that an input began.  The stores differ in where they find the authority that
admitted the run.

* `GoesOn` — a run has an event on both sides of a cut.
* `storedRun_drop` — a cut that no run crosses changes the answer for the inputs behind it
  not at all.
-/

namespace OpenGameAgent

/-! ## The text of an item -/

/-- The units of a string member, where there is one. -/
def JsonValue.memberUnits (key : String) (value : JsonValue) : Option (List UInt16) :=
  match value.member key with
  | some (.string units) => some units
  | _ => none

/-- The text of a part, if it is a text part. -/
def partText (part : JsonValue) : List UInt16 :=
  if part.memberUnits "type" = some (utf16 "text") then (part.memberUnits "text").getD [] else []

/-- `canonicalAssistantText`, in code units. -/
def canonicalAssistantText (item : JsonValue) : Option (List UInt16) :=
  if item.memberUnits "itemType" ≠ some (utf16 "message") ∨
      item.memberUnits "role" ≠ some (utf16 "assistant") then none
  else
    let text := match item.member "content" with
      | some (.array parts) => parts.flatMap partText
      | _ => []
    if text.any fun u => !isTrimmedUnit u then some text else none

/-- The text of an `item.completed`; its body holds the item. -/
def CanonicalEvent.assistantText (event : CanonicalEvent) : Option (List UInt16) :=
  match event.data with
  | .item .completed _ body => (body.member "item").bind canonicalAssistantText
  | _ => none

/-! ## The record of a run -/

/-- `status` of a stored run, with what comes with it. -/
inductive StoredRunStatus where
  | completed (finalOutput : Option (List UInt16))
  | aborted
  | failed
  | deferred (operationId : String)
  | running
  deriving DecidableEq, Repr

structure StoredRunRecord where
  admissionAuthority : Option RunAdmissionAuthority
  inputId : String
  inputFingerprint : String
  eventCursor : String
  initialCoordinate : RunCoordinate
  latestCoordinate : RunCoordinate
  status : StoredRunStatus
  deriving DecidableEq, Repr

/-- The input an event admits, its fingerprint and the authority the event names. -/
def CanonicalEvent.admission (event : CanonicalEvent) :
    Option (String × String × Option RunAdmissionAuthority) :=
  match event.data with
  | .runQueued inputId inputFingerprint authority => some (inputId, inputFingerprint, authority)
  | _ => none

/-- The authority the event names. -/
def CanonicalEvent.namedAuthority (event : CanonicalEvent) : Option RunAdmissionAuthority :=
  event.admission.bind fun admission => admission.2.2

/-- The event is the `run.queued` of an input. -/
def CanonicalEvent.admits (inputId : String) (event : CanonicalEvent) : Bool :=
  event.admission.any fun admission => admission.1 = inputId

def CanonicalEvent.runStatus (event : CanonicalEvent) : Option RunStatus :=
  match event.data with
  | .runCompleted status => some status
  | _ => none

/-- What `run.suspended` and `run.resumed` say: the operation a run waits for, or none. -/
def CanonicalEvent.deferredLifecycle (event : CanonicalEvent) : Option (Option String) :=
  match event.data with
  | .runSuspended operationId => some (some operationId)
  | .runResumed _ => some none
  | _ => none

/-- The status of a run by its events: its last end decides, then its last suspension. -/
def storedRunStatus (runEvents : List CanonicalEvent) : StoredRunStatus :=
  match runEvents.reverse.findSome? CanonicalEvent.runStatus with
  | some .completed => .completed (runEvents.reverse.findSome? CanonicalEvent.assistantText)
  | some .aborted => .aborted
  | some .failed => .failed
  | none =>
    match runEvents.reverse.findSome? CanonicalEvent.deferredLifecycle with
    | some (some operationId) => .deferred operationId
    | _ => .running

/-- `readRun` on the events of a stream; `authorityOf` finds the authority that admitted the
run of an event. -/
def storedRun (authorityOf : CanonicalEvent → Option RunAdmissionAuthority)
    (events : List CanonicalEvent) (inputId : String) : Option StoredRunRecord := do
  let admission ← events.find? (CanonicalEvent.admits inputId)
  let (_, inputFingerprint, _) ← admission.admission
  let runEvents := events.filter fun event => event.run = admission.run
  let latest := runEvents.getLast?.getD admission
  return {
    admissionAuthority := authorityOf admission
    inputId := inputId
    inputFingerprint := inputFingerprint
    eventCursor := toString (admission.revision - 1)
    initialCoordinate := admission.coordinate
    latestCoordinate := latest.coordinate
    status := storedRunStatus runEvents }

/-- `readRun` of the in-memory store: the authority is in the event. -/
def InMemoryEventStore.readRun (store : InMemoryEventStore) (stream : StreamKey)
    (inputId : String) : Except EventError (Option StoredRunRecord) := do
  validateEventStream stream
  assertEventIdentifier inputId
  return storedRun CanonicalEvent.namedAuthority (store.events stream) inputId

/-! ## Cuts -/

/-- A run has an event before and an event after the cut. -/
def GoesOn (events : List CanonicalEvent) (count : Nat) : Prop :=
  ∃ before ∈ events.take count, ∃ later ∈ events.drop count, later.run = before.run

/-- An input whose run begins behind a cut that no run crosses has the same record when the
events before the cut are gone. -/
theorem storedRun_drop {authorityOf : CanonicalEvent → Option RunAdmissionAuthority}
    {events : List CanonicalEvent} {count : Nat} {inputId : String} (hcut : ¬ GoesOn events count)
    (hinput : ∀ event ∈ events.take count, event.admits inputId = false) :
    storedRun authorityOf (events.drop count) inputId = storedRun authorityOf events inputId := by
  have hfind : events.find? (CanonicalEvent.admits inputId) =
      (events.drop count).find? (CanonicalEvent.admits inputId) := by
    conv => lhs; rw [← List.take_append_drop count events]
    rw [List.find?_append, List.find?_eq_none.2, Option.none_or]
    intro event hevent
    rw [hinput event hevent]
    exact Bool.false_ne_true
  unfold storedRun
  rw [hfind]
  cases hadmission : (events.drop count).find? (CanonicalEvent.admits inputId) with
  | none => rfl
  | some admission =>
    have hruns : (events.filter fun event => event.run = admission.run) =
        (events.drop count).filter fun event => event.run = admission.run := by
      conv => lhs; rw [← List.take_append_drop count events]
      rw [List.filter_append, List.filter_eq_nil_iff.2, List.nil_append]
      intro event hevent hsame
      have hrun : event.run = admission.run := of_decide_eq_true hsame
      exact hcut ⟨event, hevent, admission, List.mem_of_find?_eq_some hadmission, hrun.symm⟩
    simp only [Option.bind_eq_bind, Option.bind_some, hruns]

/-- The records of all streams, when one stream is cut. -/
theorem storedRun_cut {authorityOf : CanonicalEvent → Option RunAdmissionAuthority}
    {logs logs' : StreamKey → RetainedLog CanonicalEvent} {stream : StreamKey} {count : Nat}
    (hcut : ¬ GoesOn (logs stream).items count)
    (hlogs : ∀ other, logs' other = if stream = other then (logs stream).drop count else logs other)
    (other : StreamKey) (inputId : String)
    (hinput : other = stream → ∀ event ∈ (logs stream).items.take count,
      event.admits inputId = false) :
    storedRun authorityOf (logs' other).items inputId =
      storedRun authorityOf (logs other).items inputId := by
  rw [hlogs other]
  by_cases hother : stream = other
  · subst hother
    rw [if_pos rfl]
    exact storedRun_drop hcut (hinput rfl)
  · rw [if_neg hother]

end OpenGameAgent
