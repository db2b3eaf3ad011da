import OpenGameAgent.Library.Decimal
import OpenGameAgent.Library.Run
import OpenGameAgent.Protocol.Timestamp
import OpenGameAgent.Protocol.Transcript

/-!
# Canonical events

The events of `packages/protocol/src/schema.ts` and the requests and pages of
`packages/protocol/src/event-store.ts`.

The stores read the events that begin, resume and end a run; of every other event they
use the audience and keep the body as it is.  The schema of those bodies is the parameter
`EventSchema`.

* `parseRevision_toString` — a revision is read back from its text.
-/

namespace OpenGameAgent

/-! ## Errors -/

/-- The errors the event stores throw; `type` and `range` carry their text, and `host` is
an error of a function the host passed in. -/
inductive EventError where
  | invalidIdentifier
  | invalidTimestamp
  | invalidEventData
  | invalidStreamCoordinate
  | wrongExpectedRevision (expected actual : String)
  | runAuthorityClosed
  | runAuthorityConflict
  | revisionExhausted
  | constraint
  | actorNotRegistered
  | host (message : String)
  | type (message : String)
  | range (message : String)
  deriving DecidableEq, Repr

/-! ## Events -/

inductive Audience where
  | internal | owner | everyone
  | recipient (recipientIds : List String)
  deriving DecidableEq, Repr

/-- The events about an item. -/
inductive ItemEventKind where
  | started | delta | updated | completed
  deriving DecidableEq, Repr

/-- The events that neither begin nor end a run and are about no item. -/
inductive OtherEventKind where
  | turnStarted | turnCompleted | controlAccepted | toolRepeatDetected | runMetrics
  deriving DecidableEq, Repr

/-- `CanonicalEventData`. -/
inductive CanonicalEventData where
  | runQueued (inputId inputFingerprint : String) (admissionAuthority : Option RunAdmissionAuthority)
  | runStarted (inputId : String)
  | runResumed (operationId : String)
  | runSuspended (operationId : String)
  | runCompleted (status : RunStatus)
  | item (kind : ItemEventKind) (audience : Audience) (body : JsonValue)
  | other (kind : OtherEventKind) (body : JsonValue)

/-- What the schema asks of the bodies that no store reads. -/
structure EventSchema where
  item : ItemEventKind → Audience → JsonValue → Bool
  other : OtherEventKind → JsonValue → Bool

/-- `assertCanonicalEventData`. -/
def assertCanonicalEventData (schema : EventSchema) (data : CanonicalEventData) :
    Except EventError Unit :=
  let valid : Bool := match data with
    | .runQueued inputId inputFingerprint admissionAuthority =>
      isOpaqueIdentifier inputId && isSha256 inputFingerprint &&
        admissionAuthority.all fun authority => isOpaqueIdentifier authority.scope
    | .runStarted id | .runResumed id | .runSuspended id => isOpaqueIdentifier id
    | .runCompleted _ => true
    | .item kind audience body => schema.item kind audience body
    | .other kind body => schema.other kind body
  if valid then .ok () else .error .invalidEventData

/-- `eventAudience`. -/
def eventAudience : CanonicalEventData → Audience
  | .item _ audience _ => audience
  | _ => .owner

structure CanonicalEvent where
  eventId : String
  sequence : Nat
  revision : Nat
  occurredAt : String
  coordinate : RunCoordinate
  audience : Audience
  data : CanonicalEventData

def RunCoordinate.stream (coordinate : RunCoordinate) : StreamKey :=
  ⟨coordinate.sessionId, coordinate.actorId⟩

def CanonicalEvent.stream (event : CanonicalEvent) : StreamKey := event.coordinate.stream

/-! ## Checks -/

def assertEventIdentifier (value : String) : Except EventError Unit :=
  if isOpaqueIdentifier value then .ok () else .error .invalidIdentifier

def assertEventTimestamp (value : String) : Except EventError Unit :=
  if isCanonicalTimestamp value then .ok () else .error .invalidTimestamp

/-- `assertEventStreamCoordinate`, with the error of the event stores. -/
def assertCoordinateInStream (stream : StreamKey) (coordinate : RunCoordinate) :
    Except EventError Unit :=
  if isOpaqueIdentifier stream.sessionId && isOpaqueIdentifier stream.actorId &&
      coordinate.valid && stream = coordinate.stream then .ok ()
  else .error .invalidStreamCoordinate

theorem assertCoordinateInStream_eq_ok {stream : StreamKey} {coordinate : RunCoordinate}
    (h : assertCoordinateInStream stream coordinate = .ok ()) :
    coordinate.valid = true ∧ coordinate.stream = stream := by
  unfold assertCoordinateInStream at h
  split at h
  · rename_i hvalid
    simp only [Bool.and_eq_true, decide_eq_true_eq] at hvalid
    exact ⟨hvalid.1.2, hvalid.2.symm⟩
  · cases h

/-- `validateStream`. -/
def validateEventStream (stream : StreamKey) : Except EventError Unit := do
  assertEventIdentifier stream.sessionId
  assertEventIdentifier stream.actorId

/-- `assertEventReadLimit`. -/
def assertEventReadLimit (limit : Nat) : Except EventError Unit :=
  if 0 < limit ∧ limit < maxSafeInteger then .ok ()
  else .error (.type "Event page limit must be a positive safe integer with room for lookahead.")

/-- The three functions that read a revision differ in the text of their error. -/
def parseRevisionOr (message revision : String) : Except EventError Nat :=
  if areDecimalDigits revision.toList then .ok (Nat.ofDigitChars 10 revision.toList 0)
  else .error (.type message)

/-- `parseEventRevision` of the protocol. -/
def parseEventRevision (revision : String) : Except EventError Nat :=
  parseRevisionOr "Event revision must be a non-negative canonical decimal string." revision

/-- A revision is read back from its text. -/
@[simp] theorem parseRevisionOr_toString (message : String) (n : Nat) :
    parseRevisionOr message (toString n) = .ok n := by
  have hdigits := (Decimal.ofNat n).isDecimal
  have hvalue := Decimal.value_ofNat n
  have htext : (Decimal.ofNat n).text = toString n := rfl
  rw [Decimal.value, htext] at hvalue
  rw [htext] at hdigits
  rw [parseRevisionOr, if_pos hdigits, hvalue]

@[simp] theorem parseEventRevision_toString (n : Nat) :
    parseEventRevision (toString n) = .ok n := parseRevisionOr_toString _ n

/-- What reads as a revision is the text of the number. -/
theorem parseRevisionOr_eq_ok {message text : String} {n : Nat}
    (h : parseRevisionOr message text = .ok n) : text = toString n := by
  unfold parseRevisionOr at h
  split at h
  · rename_i hdigits
    have hvalue : (Decimal.mk text hdigits).value = n := by
      cases h
      rfl
    have hofNat := (Decimal.mk text hdigits).ofNat_value
    rw [hvalue] at hofNat
    exact congrArg Decimal.text hofNat.symm
  · cases h

/-! ## Requests and answers -/

structure EventReadRequest where
  afterRevision : Option String
  limit : Nat
  deriving DecidableEq, Repr

structure CanonicalEventPage where
  events : List CanonicalEvent
  cursor : String
  hasMore : Bool

structure EventStreamBounds where
  earliestRevision : Option String
  latestRevision : String
  deriving DecidableEq, Repr

structure TerminalEventPurgeRequest where
  beforeOccurredAt : String
  limit : Nat
  retainRunIds : List String
  retainMaxCount : Nat
  retainMaxBytes : Nat
  deriving DecidableEq, Repr

structure TerminalEventPurgeResult extends EventStreamBounds where
  purgedEventCount : Nat
  purgedRunIds : List String
  deriving DecidableEq, Repr

/-- `ExpectedRevision`: `"empty"` or the text of a revision. -/
def expectedRevisionOf : Option Nat → String
  | none => "empty"
  | some revision => toString revision

/-- `capturePurgeRequest`, with `captureRetainedIdentifiers`. -/
def captureEventPurgeRequest (request : TerminalEventPurgeRequest) : Except EventError Unit := do
  assertEventTimestamp request.beforeOccurredAt
  assertEventReadLimit request.limit
  if request.retainRunIds.length > request.retainMaxCount then
    .error (.range "retainRunIds exceeds retainBudget.maxCount.")
  else if (request.retainRunIds.map fun value => utf8Length (utf16 value)).sum >
      request.retainMaxBytes then
    .error (.range "retainRunIds exceeds retainBudget.maxBytes.")
  else if ¬ request.retainRunIds.Nodup then
    .error (.type "retainRunIds must be unique.")
  else if ¬ request.retainRunIds.all isOpaqueIdentifier then .error .invalidIdentifier
  else return ()

end OpenGameAgent
