import OpenGameAgent.Library.Coroutine
import OpenGameAgent.Media.MediaChanges

/-!
# The media job service

`MediaJobService` of `packages/media/src/media-job-service.ts` over one store that all its
calls share, `InMemoryMediaJobStore` of `in-memory-media-job-store.ts`.

A method waits for its store, for a place among the calls of its adapter, for its provider
and for the publisher of resources.  Each of these is an effect, and so is a look at a signal
or at the clock; the store answers its own effects, all others are answered as the
surroundings like.  The clock that a callback of `modify` reads is read right before it.
-/

namespace OpenGameAgent

/-! ## What the service waits for -/

inductive MediaIdKind where
  | attempt | submission | bundle
  deriving DecidableEq, Repr

/-- What a provider answers a cancellation with; what the service does not know is malformed. -/
inductive MediaCancelResult where
  | settled (observation : Option RawObservation)
  | answered (answer : CancellationAnswer)
  | malformed

/-- `MediaProviderOperationContext`, without its signal. -/
structure MediaProviderOperation where
  jobId : String
  attemptId : String
  submissionKey : String
  deriving DecidableEq, Repr

inductive MediaEffect where
  /-- `signal.aborted`. -/
  | aborted
  | now
  | newId (kind : MediaIdKind)
  /-- `reserve` of the admission group of an adapter. -/
  | reserve (adapterId : String)
  /-- `await reservation.ready`. -/
  | ready
  | create (job : StoredMediaJob)
  | read (jobId : String)
  /-- `store.modify`, with the clock that its callback reads. -/
  | modify (jobId : String) (change : MediaChange) (now : Except MediaJobError String)
  | startProvider (adapterId : String) (request : MediaGenerationRequest)
      (operation : MediaProviderOperation)
  | readProvider (adapterId : String) (handle : JsonValue) (operation : MediaProviderOperation)
  | cancelProvider (adapterId : String) (handle : JsonValue) (operation : MediaProviderOperation)
  | publish (resource : MediaProviderResource) (maxBytes : Int)

/-- What an effect is answered with; `modify` says with the job whether it has written it. -/
abbrev MediaAnswer : MediaEffect → Type
  | .aborted => Bool
  | .now | .newId _ => Except MediaJobError String
  | .reserve _ | .create _ => Except MediaJobError Unit
  | .ready => Unit
  | .read _ => Option StoredMediaJob
  | .modify _ _ _ => Except MediaJobError (StoredMediaJob × Bool)
  | .startProvider _ _ _ | .readProvider _ _ _ => Except MediaJobError (Option RawObservation)
  | .cancelProvider _ _ _ => Except MediaJobError MediaCancelResult
  | .publish _ _ => Except MediaJobError (Option RawReference)

/-- The options of a service that its methods read. -/
structure MediaJobServiceOptions where
  adapters : List MediaGenerationAdapter
  limits : MediaJobLimits

/-! ## The store -/

structure MediaJobStore where
  jobs : OrderedMap String StoredMediaJob

def MediaJobStore.empty : MediaJobStore := ⟨.empty⟩

section Store

variable (options : MediaJobServiceOptions) (store : MediaJobStore)

/-- `create`. -/
def createMediaJob (job : StoredMediaJob) : Except MediaJobError MediaJobStore := do
  captureStoredMediaJob options.limits job
  demand (store.jobs.get? job.jobId).isNone .conflict
  return ⟨store.jobs.set job.jobId job⟩

/-- `modify`: the job, and the one that is written if the callback has changed it. -/
def modifyMediaJob (jobId : String) (change : MediaChange) (now : Except MediaJobError String) :
    Except MediaJobError (StoredMediaJob × Option StoredMediaJob) :=
  match store.jobs.get? jobId with
  | none => .error .notFound
  | some stored => do
    match ← applyMediaChange options.limits options.adapters now stored change with
    | none => return (stored, none)
    | some changed => do
      let next := { changed with revision := stored.revision + 1 }
      captureStoredMediaJob options.limits next
      demand (next.jobId = stored.jobId && next.adapterId = stored.adapterId) .conflict
      return (next, some next)

/-- How the store answers an effect; what is not asked of it is answered as proposed. -/
def MediaJobStore.perform : (e : MediaEffect) → MediaAnswer e → MediaAnswer e × MediaJobStore
  | .create job, _ =>
    match createMediaJob options store job with
    | .ok store => (.ok (), store)
    | .error error => (.error error, store)
  | .read jobId, _ => (store.jobs.get? jobId, store)
  | .modify jobId change now, _ =>
    match modifyMediaJob options store jobId change now with
    | .ok (stored, none) => (.ok (stored, false), store)
    | .ok (next, some _) => (.ok (next, true), ⟨store.jobs.set jobId next⟩)
    | .error error => (.error error, store)
  | _, answer => (answer, store)

end Store

/-! ## The methods -/

abbrev MediaTask := Task MediaEffect MediaAnswer Unit MediaJobError

namespace MediaTask

/-- `await`. -/
def awaiting (e : MediaEffect) : MediaTask (MediaAnswer e) := Task.perform e

/-- `signal.throwIfAborted()`. -/
def throwIfAborted : MediaTask Unit := do
  if ← awaiting .aborted then throw .aborted

/-- `timestamp`, with what it throws. -/
def clock : MediaTask (Except MediaJobError String) := do
  let now ← awaiting .now
  return now.bind fun now => do
    demand (isCanonicalTimestamp now) .host
    return now

/-- `store.modify`. -/
def modifyJob (jobId : String) (change : MediaChange) : MediaTask (StoredMediaJob × Bool) := do
  let now ← clock
  Task.ofExcept (← awaiting (.modify jobId change now))

/-- `store.modify`, where only the job is used. -/
def changeJob (jobId : String) (change : MediaChange) : MediaTask StoredMediaJob := do
  let (changed, _) ← modifyJob jobId change
  return changed

/-- What a call does behind an update of the store: it throws if it has been aborted. -/
def answering (changed : StoredMediaJob) : MediaTask StoredMediaJob := do
  MediaTask.throwIfAborted
  return changed

end MediaTask

open MediaTask

section Methods

variable (options : MediaJobServiceOptions)

/-- `generatedId`. -/
def generatedId (kind : MediaIdKind) : MediaTask String := do
  let id ← Task.ofExcept (← awaiting (.newId kind))
  Task.ofExcept (mediaIdentifier options.limits.maxIdentifierBytes id)
  return id

/-- `required`. -/
def requiredJob (jobId : String) : MediaTask StoredMediaJob := do
  match (← awaiting (.read jobId) : Option StoredMediaJob) with
  | none => throw .notFound
  | some job => do
    let _ ← Task.ofExcept (providerFor options.adapters job.adapterId)
    return job

/-- `operationContext`. -/
def operationContext (job : StoredMediaJob) (attempt : StoredMediaAttempt) :
    MediaProviderOperation :=
  ⟨job.jobId, attempt.attemptId, attempt.submissionKey⟩

/-! ### Observations -/

/-- What a completed provider has answered with. -/
structure MediaCompletion where
  status : CompletionStatus
  failures : List MediaChildFailure
  handle : Option JsonValue

section Observation

variable (jobId attemptId : String) (completion : MediaCompletion)

/-- `recordOutputFailure`. -/
def recordOutputFailureOf (published : List GeneratedResourceRef) (ordinal : JsInteger)
    (failure : MediaFailureKind) : MediaTask StoredMediaJob :=
  changeJob jobId (.recordOutputFailure attemptId failure completion.status
    (freezeOutputSettlements published (completion.failures ++ [⟨ordinal, failure⟩]))
    completion.handle)

/-- `error instanceof MediaJobCapacityError ? "capacity" : "resource"`. -/
def MediaJobError.outputFailure : MediaJobError → MediaFailureKind
  | .capacity _ => .capacity
  | _ => .resource

/-- The loop of `publishBundle`; it ends with the references of all resources, or with the
job behind the first output that fails. -/
def publishResources (published : List GeneratedResourceRef) (totalBytes : Int) :
    List MediaProviderResource → MediaTask (StoredMediaJob ⊕ List GeneratedResourceRef)
  | [] => return .inr published
  | resource :: rest => do
    let remaining := (options.limits.maxBundleBytes : Int) - totalBytes
    if resource.declaredBytes.any (remaining < ·.value) then
      let changed ←
        recordOutputFailureOf jobId attemptId completion published resource.ordinal .capacity
      MediaTask.throwIfAborted
      return .inl changed
    else
      let maxBytes := min (options.limits.maxResourceBytes : Int) remaining
      match (← awaiting (.publish resource maxBytes) :
          Except MediaJobError (Option RawReference)) with
      | .error error =>
        if ← awaiting .aborted then
          let _ ← changeJob jobId (.recordSettling attemptId completion.status
            (freezeOutputSettlements published completion.failures) completion.handle)
          throw .aborted
        else
          return .inl (← recordOutputFailureOf jobId attemptId completion published
            resource.ordinal error.outputFailure)
      | .ok reference =>
        match captureResourceReference options.limits reference resource maxBytes with
        | .error error =>
          let changed ← recordOutputFailureOf jobId attemptId completion published
            resource.ordinal error.outputFailure
          MediaTask.throwIfAborted
          return .inl changed
        | .ok captured =>
          publishResources (published ++ [captured])
            (totalBytes + captured.byteLength.value) rest

/-- `publishBundle`. -/
def publishBundleOf (resources : List MediaProviderResource) : MediaTask StoredMediaJob := do
  let bundleId ← generatedId options .bundle
  match ← publishResources options jobId attemptId completion [] 0 resources with
  | .inl changed => return changed
  | .inr published =>
    changeJob jobId (.publishBundle attemptId bundleId completion.status
      (freezeOutputSettlements published completion.failures) completion.handle)

/-- The failure of an attempt whose observation cannot be captured. -/
def MediaJobError.observationFailure : MediaJobError → MediaFailureKind
  | .capacity _ | .jsonLimit => .capacity
  | _ => .malformed

/-- `applyObservation`. -/
def applyObservation (value : Option RawObservation) : MediaTask StoredMediaJob :=
  match captureObservation options.limits value with
  | .error error => changeJob jobId (.markFailed attemptId error.observationFailure none)
  | .ok (.pending handle) => changeJob jobId (.observePending attemptId handle)
  | .ok (.failed failure handle) => changeJob jobId (.markFailed attemptId failure handle)
  | .ok (.cancelled handle) => changeJob jobId (.observeCancelled attemptId handle)
  | .ok (.completed status resources failures handle) =>
    publishBundleOf options jobId attemptId ⟨status, failures, handle⟩ resources

end Observation

/-! ### Starting an attempt -/

/-- `reservation ?? this.reserveStart(…)`. -/
def reserveStart (adapterId : String) (reserved : Bool) : MediaTask Unit :=
  if reserved then pure ()
  else do Task.ofExcept (← awaiting (.reserve adapterId))

/-- The claim of `startAttempt`, and whether the call has got it. -/
def claimAttempt (jobId attemptId : String) : MediaTask (StoredMediaJob × Bool) := do
  let aborted ← awaiting .aborted
  let (current, wrote) ← modifyJob jobId (.claimStart attemptId aborted)
  return (current, wrote && !aborted)

/-- What `startAttempt` does with its claim when it has been aborted. -/
def giveUpClaim (jobId attemptId : String) (claimed : Bool) : MediaTask Unit :=
  if claimed then do
    let _ ← changeJob jobId (.abandonStart attemptId)
  else pure ()

/-- `startAttempt` behind its claim. -/
def startClaimed (jobId attemptId : String) (current : StoredMediaJob) :
    MediaTask StoredMediaJob := do
  let _ ← Task.ofExcept (providerFor options.adapters current.adapterId)
  let attempt ← Task.ofExcept (current.selectAttempt (some attemptId))
  match (← awaiting (.startProvider current.adapterId current.request
      (operationContext current attempt)) : Except MediaJobError (Option RawObservation)) with
  | .error _ => answering (← changeJob jobId (.markUnknown attemptId))
  | .ok observation => answering (← applyObservation options jobId attemptId observation)

/-- `startAttempt`; `reserved` says whether the call holds a reservation already. -/
def startAttempt (jobId attemptId : String) (reserved : Bool) : MediaTask StoredMediaJob := do
  let before ← requiredJob options jobId
  reserveStart before.adapterId reserved
  awaiting .ready
  let (current, claimed) ← claimAttempt jobId attemptId
  if ← awaiting .aborted then
    giveUpClaim jobId attemptId claimed
    throw .aborted
  else if claimed then startClaimed options jobId attemptId current
  else return current

/-- What a call asks a service to generate; a kind is none if it is not one of `MEDIA_KINDS`. -/
structure MediaJobDraft where
  jobId : String
  kind : Option MediaKind
  input : RawJson

/-- `captureDraft`. -/
def captureDraft (draft : MediaJobDraft) : Except MediaJobError MediaGenerationRequest :=
  match draft.kind with
  | none => .error .invalidJob
  | some kind => do
    mediaIdentifier options.limits.maxIdentifierBytes draft.jobId
    let input ← captureJson options.limits options.limits.maxRequestBytes draft.input
    return ⟨kind, input⟩

/-- `submit`. -/
def submitJob (adapterId : String) (draft : MediaJobDraft) : MediaTask StoredMediaJob := do
  Task.ofExcept (mediaIdentifier options.limits.maxAdapterIdBytes adapterId)
  let _ ← Task.ofExcept (providerFor options.adapters adapterId)
  let request ← Task.ofExcept (captureDraft options draft)
  MediaTask.throwIfAborted
  let recordedAt ← Task.ofExcept (← clock)
  let attemptId ← generatedId options .attempt
  let submissionKey ← generatedId options .submission
  let attempt := newAttempt 0 recordedAt attemptId submissionKey
  Task.ofExcept (← awaiting (.reserve adapterId))
  Task.ofExcept (← awaiting (.create
    { jobId := draft.jobId
      adapterId := adapterId
      request := request
      revision := 1
      createdAt := recordedAt
      updatedAt := recordedAt
      currentAttemptId := attempt.attemptId
      attempts := [attempt]
      bundles := [] }))
  startAttempt options draft.jobId attempt.attemptId true

/-! ### Controls -/

structure MediaJobControl where
  jobId : String
  attemptId : Option String
  expectedRevision : Option String

/-- `captureControl`. -/
def captureControl (control : MediaJobControl) : Except MediaJobError Unit := do
  mediaIdentifier options.limits.maxIdentifierBytes control.jobId
  control.attemptId.forM (mediaIdentifier options.limits.maxIdentifierBytes)

/-- `withProviderAdmission` up to the call of the provider. -/
def providerAdmission (adapterId : String) : MediaTask Unit := do
  Task.ofExcept (← awaiting (.reserve adapterId))
  awaiting .ready
  MediaTask.throwIfAborted

/-- `reconcile`. -/
def reconcileJob (control : MediaJobControl) : MediaTask StoredMediaJob := do
  Task.ofExcept (captureControl options control)
  MediaTask.throwIfAborted
  let current ← requiredJob options control.jobId
  MediaTask.throwIfAborted
  let adapter ← Task.ofExcept (providerFor options.adapters current.adapterId)
  Task.ofExcept (current.assertExpected control.expectedRevision)
  let attempt ← Task.ofExcept (current.selectAttempt control.attemptId)
  if attempt.status.terminal then return current
  else if attempt.status = .queued then startAttempt options current.jobId attempt.attemptId false
  else if attempt.status = .submitting ∧ attempt.providerHandle = none then
    answering (← changeJob current.jobId (.recoverInterruptedSubmission attempt.attemptId))
  else
    match attempt.providerHandle with
    | none => throw .controlUnsupported
    | some handle =>
      if !adapter.reads then throw .controlUnsupported
      else
        providerAdmission current.adapterId
        match (← awaiting (.readProvider current.adapterId handle
            (operationContext current attempt)) :
            Except MediaJobError (Option RawObservation)) with
        | .error _ => answering (← changeJob current.jobId (.markUnknown attempt.attemptId))
        | .ok observation =>
          answering
            (← applyObservation options current.jobId attempt.attemptId observation)

/-- `cancel`. -/
def cancelJob (control : MediaJobControl) : MediaTask StoredMediaJob := do
  Task.ofExcept (captureControl options control)
  MediaTask.throwIfAborted
  let marked ← changeJob control.jobId (.requestCancel control.expectedRevision control.attemptId)
  let adapter ← Task.ofExcept (providerFor options.adapters marked.adapterId)
  let attempt ← Task.ofExcept (marked.selectAttempt control.attemptId)
  MediaTask.throwIfAborted
  if attempt.status.terminal then return marked
  else if attempt.status = .settling then return marked
  else
    match attempt.providerHandle with
    | none => return marked
    | some handle =>
      let record (answer : CancellationAnswer) :=
        changeJob marked.jobId (.recordCancellation attempt.attemptId answer)
      if !adapter.cancels then answering (← record .unsupported)
      else
        providerAdmission marked.adapterId
        match (← awaiting (.cancelProvider marked.adapterId handle
            (operationContext marked attempt)) :
            Except MediaJobError MediaCancelResult) with
        | .error _ => answering (← record .unknown)
        | .ok (.settled observation) =>
          answering (← applyObservation options marked.jobId attempt.attemptId observation)
        | .ok (.answered answer) => answering (← record answer)
        | .ok .malformed => answering (← record .unknown)

/-- `restart`. -/
def restartJob (jobId : String) (expectedRevision : Option String) :
    MediaTask StoredMediaJob := do
  Task.ofExcept (mediaIdentifier options.limits.maxIdentifierBytes jobId)
  MediaTask.throwIfAborted
  let before ← requiredJob options jobId
  Task.ofExcept (assertRestartable options.limits options.adapters before expectedRevision)
  let attemptId ← generatedId options .attempt
  let submissionKey ← generatedId options .submission
  Task.ofExcept (← awaiting (.reserve before.adapterId))
  let restarted ← changeJob jobId (.addAttempt expectedRevision attemptId submissionKey)
  startAttempt options jobId restarted.currentAttemptId true

end Methods

/-- The calls on a service that change its jobs. -/
inductive MediaMethod where
  | submit (adapterId : String) (draft : MediaJobDraft)
  | reconcile (control : MediaJobControl)
  | cancel (control : MediaJobControl)
  | restart (jobId : String) (expectedRevision : Option String)

/-- What a call runs. -/
def MediaMethod.body (options : MediaJobServiceOptions) :
    MediaMethod → Coroutine MediaEffect MediaAnswer Unit
  | .submit adapterId draft => (submitJob options adapterId draft).start ()
  | .reconcile control => (reconcileJob options control).start ()
  | .cancel control => (cancelJob options control).start ()
  | .restart jobId expectedRevision => (restartJob options jobId expectedRevision).start ()

/-- What the calls share: the store, and behind it the calls of `start` that providers have got. -/
structure SharedMedia where
  store : MediaJobStore
  starts : List MediaProviderOperation

def SharedMedia.empty : SharedMedia := ⟨.empty, []⟩

/-- The call of `start` that an effect is. -/
def startedBy : MediaEffect → List MediaProviderOperation
  | .startProvider _ _ operation => [operation]
  | _ => []

/-- Any number of calls on services over one store; all services have the same options. -/
def mediaService (options : MediaJobServiceOptions) : Machine MediaEffect MediaAnswer where
  State := SharedMedia
  Caller := Unit
  Method := MediaMethod
  body _ method := method.body options
  perform shared _ e answer :=
    let (answer, store) := shared.store.perform options e answer
    (answer, ⟨store, shared.starts ++ startedBy e⟩)

end OpenGameAgent
