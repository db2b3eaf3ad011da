import OpenGameAgent.Media.MediaJobs

/-!
# What the media service writes

The callbacks that `MediaJobService` of `packages/media/src/media-job-service.ts` hands to
`store.modify`, as changes of a stored job, and what the service captures of the answers of
its providers before it makes one of them.

A change answers with none where the callback returns the job it was given, which the store
then does not write.
-/

namespace OpenGameAgent

/-! ## Answers of a provider -/

/-- What `normalizeJsonValueWithin` is given: a JSON value or something else, of which `limited`
says whether it exceeds a budget before it shows that it is no JSON value. -/
inductive RawJson where
  | json (value : JsonValue)
  | other (limited : Bool)

/-- What a provider passes as a resource; `bytes` says whether its bytes can be read, and a
member that is not of its type is none. -/
structure RawMediaResource where
  ordinal : Option JsInteger
  kind : Option MediaKind
  mediaType : Option String
  bytes : Bool
  knownByteLength : Option JsInteger
  declaredBytes : Option (Option JsInteger)
  deriving DecidableEq, Repr

structure RawChildFailure where
  ordinal : Option JsInteger
  failure : Option MediaFailureKind
  deriving DecidableEq, Repr

inductive ObservationStatus where
  | pending | succeeded | partiallySucceeded | failed | cancelled
  deriving DecidableEq, Repr

/-- What a provider answers, before any of it is checked.  A member is none where it is
absent or not of its type. -/
structure RawObservation where
  status : Option ObservationStatus
  handle : Option RawJson
  resources : Option (List RawMediaResource)
  failures : Option (List RawChildFailure)
  failure : Option MediaFailureKind

/-- What is kept of a resource; its bytes go to the publisher alone. -/
structure MediaProviderResource where
  ordinal : JsInteger
  kind : MediaKind
  mediaType : String
  declaredBytes : Option JsInteger
  deriving DecidableEq, Repr

/-- `CapturedProviderObservation`. -/
inductive CapturedProviderObservation where
  | pending (handle : JsonValue)
  | failed (failure : MediaFailureKind) (handle : Option JsonValue)
  | cancelled (handle : Option JsonValue)
  | completed (status : CompletionStatus) (resources : List MediaProviderResource)
      (failures : List MediaChildFailure) (handle : Option JsonValue)

section Capture

variable (limits : MediaJobLimits)

/-- `captureProviderResource`. -/
def captureProviderResource (resource : RawMediaResource) :
    Except MediaJobError MediaProviderResource := do
  demand (resource.bytes && resource.knownByteLength.all (·.safe)) (.validation "invalid_resource")
  let declaredBytes := resource.declaredBytes.or (resource.knownByteLength.map some)
  match resource.ordinal, resource.kind, resource.mediaType with
  | some ordinal, some kind, some mediaType =>
    demand (ordinal.safe && !mediaType.isEmpty && declaredBytes.all fun declared =>
      resource.knownByteLength.all fun known => declared.any (·.value = known.value))
      (.validation "invalid_resource")
    demand (ordinal.value < limits.maxOutputsPerAttempt) (.capacity "outputs")
    demand (utf8Length (utf16 mediaType) ≤ limits.maxMediaTypeBytes) (.capacity "resource")
    demand (declaredBytes.all fun declared => declared.any (·.safe))
      (.validation "invalid_resource")
    demand (declaredBytes.all fun declared => declared.all fun bytes =>
      bytes.value ≤ (limits.maxResourceBytes : Int)) (.capacity "resource")
    return ⟨ordinal, kind, mediaType, declaredBytes.join⟩
  | _, _, _ => throw (.validation "invalid_resource")

/-- `captureChildFailure`. -/
def captureChildFailure (failure : RawChildFailure) : Except MediaJobError MediaChildFailure :=
  match failure.ordinal, failure.failure with
  | some ordinal, some kind => do
    demand ordinal.safe (.validation "invalid_provider_result")
    demand (ordinal.value < limits.maxOutputsPerAttempt) (.capacity "outputs")
    return ⟨ordinal, kind⟩
  | _, _ => throw (.validation "invalid_provider_result")

/-- `normalizeJsonValueWithin`, with the depth that the service allows. -/
def captureJson (maxBytes : Nat) : RawJson → Except MediaJobError JsonValue
  | .json value => do
    mediaJson limits maxBytes value
    return value
  | .other limited => throw (if limited then .jsonLimit else .invalidJsonValue)

/-- The part of `captureObservation` about a provider that has completed. -/
def captureCompletion (candidate : RawObservation) (status : CompletionStatus)
    (handle : Option JsonValue) : Except MediaJobError CapturedProviderObservation :=
  match candidate.resources with
  | none => throw (.validation "invalid_provider_result")
  | some rawResources => do
    demand (!(status = .partiallySucceeded && candidate.failures.isNone))
      (.validation "invalid_provider_result")
    let rawFailures := if status = .partiallySucceeded then candidate.failures.getD [] else []
    demand (!(rawResources.isEmpty || status = .partiallySucceeded && rawFailures.isEmpty))
      (.validation "invalid_provider_result")
    demand (rawResources.length + rawFailures.length ≤ limits.maxOutputsPerAttempt)
      (.capacity "outputs")
    let resources ← rawResources.mapM (captureProviderResource limits)
    let failures ← rawFailures.mapM (captureChildFailure limits)
    demand (resources.map (·.ordinal.value) ++ failures.map (·.ordinal.value)).Nodup
      (.validation "invalid_provider_result")
    return .completed status
      (resources.insertionSort fun left right => left.ordinal.value ≤ right.ordinal.value)
      (failures.insertionSort fun left right => left.ordinal.value ≤ right.ordinal.value) handle

/-- `captureObservation`; none is a value that is no object. -/
def captureObservation (value : Option RawObservation) :
    Except MediaJobError CapturedProviderObservation :=
  match value with
  | none => throw (.validation "invalid_provider_result")
  | some candidate => do
    let handle ← candidate.handle.mapM (captureJson limits limits.maxProviderHandleBytes)
    match candidate.status with
    | some .pending =>
      match handle with
      | none => throw (.validation "invalid_provider_result")
      | some handle => return .pending handle
    | some .failed =>
      match candidate.failure with
      | none => throw (.validation "invalid_provider_result")
      | some failure => return .failed failure handle
    | some .cancelled => return .cancelled handle
    | some .succeeded => captureCompletion limits candidate .succeeded handle
    | some .partiallySucceeded => captureCompletion limits candidate .partiallySucceeded handle
    | none => throw (.validation "invalid_provider_result")

/-- What a publisher answers with, before any of it is checked. -/
structure RawReference where
  resourceId : Option String
  kind : Option MediaKind
  mediaType : Option String
  byteLength : Option JsInteger
  sha256 : Option String
  ordinal : Option JsInteger
  deriving DecidableEq, Repr

/-- `captureResourceReference`. -/
def captureResourceReference (value : Option RawReference) (resource : MediaProviderResource)
    (maxBytes : Int) : Except MediaJobError GeneratedResourceRef :=
  match value with
  | none => throw (.validation "invalid_resource")
  | some reference =>
    match reference.sha256, reference.byteLength, reference.ordinal with
    | some sha256, some byteLength, some ordinal => do
      demand (isSha256 sha256 && reference.resourceId = some sha256 &&
        reference.kind = some resource.kind && reference.mediaType = some resource.mediaType &&
        ordinal.value = resource.ordinal.value && byteLength.safe &&
        resource.declaredBytes.all fun declared => byteLength.value = declared.value)
        (.validation "invalid_resource")
      demand (byteLength.value ≤ maxBytes)
        (.capacity (if maxBytes < limits.maxResourceBytes then "bundle" else "resource"))
      return ⟨sha256, resource.kind, resource.mediaType, byteLength, sha256, ordinal⟩
    | _, _, _ => throw (.validation "invalid_resource")

end Capture

/-! ## Attempts and their outputs -/

namespace StoredMediaJob

/-- `replaceAttempt`. -/
def replaceAttempt (job : StoredMediaJob) (attemptId : String) (attempt : StoredMediaAttempt) :
    StoredMediaJob :=
  { job with
    attempts := job.attempts.map fun candidate =>
      if candidate.attemptId = attemptId then attempt else candidate
    updatedAt := attempt.updatedAt }

/-- `selectAttempt`; the identifiers that the service passes on have been checked. -/
def selectAttempt (job : StoredMediaJob) (attemptId : Option String) :
    Except MediaJobError StoredMediaAttempt :=
  let selectedId := attemptId.getD job.currentAttemptId
  match job.attempts.find? fun candidate => candidate.attemptId = selectedId with
  | none => .error .notFound
  | some attempt => .ok attempt

/-- `assertExpected`. -/
def assertExpected (job : StoredMediaJob) (expectedRevision : Option String) :
    Except MediaJobError Unit :=
  demand (expectedRevision.all (toString job.revision = ·)) .conflict

end StoredMediaJob

/-- `clearAttemptOutcome`. -/
def StoredMediaAttempt.clearAttemptOutcome (attempt : StoredMediaAttempt) : StoredMediaAttempt :=
  { attempt with outputSettlements := [], settlingStatus := none, bundleId := none, failure := none }

/-- `freezeOutputSettlements`. -/
def freezeOutputSettlements (resources : List GeneratedResourceRef)
    (failures : List MediaChildFailure) : List StoredMediaOutputSettlement :=
  (resources.map (fun resource => StoredMediaOutputSettlement.published resource.ordinal resource) ++
    failures.map fun failure =>
      StoredMediaOutputSettlement.failed failure.ordinal failure.failure).insertionSort
      fun left right => left.ordinal.value ≤ right.ordinal.value

/-- `sameOutputSettlement`. -/
def sameOutputSettlement : StoredMediaOutputSettlement → StoredMediaOutputSettlement → Bool
  | .failed ordinal failure, .failed ordinal' failure' =>
    ordinal.value = ordinal'.value && failure = failure'
  | .published ordinal resource, .published ordinal' resource' =>
    ordinal.value = ordinal'.value && resource.resourceId = resource'.resourceId &&
      resource.kind = resource'.kind && resource.mediaType = resource'.mediaType &&
      resource.byteLength.value = resource'.byteLength.value &&
      resource.sha256 = resource'.sha256 && resource.ordinal.value = resource'.ordinal.value
  | _, _ => false

/-- The settlements that `mergeOutputSettlements` adds one by one. -/
def mergeSettlement (merged : List StoredMediaOutputSettlement)
    (settlement : StoredMediaOutputSettlement) :
    Except MediaJobError (List StoredMediaOutputSettlement) :=
  match merged.find? fun prior => prior.ordinal.value = settlement.ordinal.value with
  | none => .ok (merged ++ [settlement])
  | some prior => if sameOutputSettlement prior settlement then .ok merged else .error .conflict

/-- `mergeOutputSettlements`. -/
def mergeOutputSettlements (existing incoming : List StoredMediaOutputSettlement) :
    Except MediaJobError (List StoredMediaOutputSettlement) := do
  let merged ← incoming.foldlM mergeSettlement existing
  return merged.insertionSort fun left right => left.ordinal.value ≤ right.ordinal.value

/-- `exceedsBundleBytes`. -/
def exceedsBundleBytes (settlements : List StoredMediaOutputSettlement) (maxBytes : Nat) : Bool :=
  maxBytes < resourceBytes (settlements.filterMap (·.resource))

/-- `bundleDisposition`. -/
def bundleDisposition (status : CompletionStatus) (disposition : MediaJobDisposition) :
    BundleDisposition :=
  if disposition = .abandoned then .late
  else if status = .partiallySucceeded then .incomplete
  else .complete

def CompletionStatus.status : CompletionStatus → MediaJobStatus
  | .succeeded => .succeeded
  | .partiallySucceeded => .partiallySucceeded

/-! ## Changes -/

/-- The answers of a provider to a cancellation that are stored. -/
inductive CancellationAnswer where
  | unsupported | unknown | rejected | confirmed
  deriving DecidableEq, Repr

def CancellationAnswer.cancellation : CancellationAnswer → MediaCancellation
  | .unsupported => .unsupported
  | .unknown => .unknown
  | .rejected => .rejected
  | .confirmed => .confirmed

/-- The callbacks of the service, with the variables they close over. -/
inductive MediaChange where
  /-- The callback of `cancel`. -/
  | requestCancel (expectedRevision attemptId : Option String)
  /-- The first callback of `startAttempt`, with what it reads from the signal. -/
  | claimStart (attemptId : String) (aborted : Bool)
  /-- The second callback of `startAttempt`. -/
  | abandonStart (attemptId : String)
  /-- The callbacks of `applyObservation`. -/
  | observePending (attemptId : String) (handle : JsonValue)
  | observeCancelled (attemptId : String) (handle : Option JsonValue)
  | publishBundle (attemptId bundleId : String) (status : CompletionStatus)
      (settlements : List StoredMediaOutputSettlement) (handle : Option JsonValue)
  | recordSettling (attemptId : String) (status : CompletionStatus)
      (settlements : List StoredMediaOutputSettlement) (handle : Option JsonValue)
  | markUnknown (attemptId : String)
  | recoverInterruptedSubmission (attemptId : String)
  | markFailed (attemptId : String) (failure : MediaFailureKind) (handle : Option JsonValue)
  | recordOutputFailure (attemptId : String) (failure : MediaFailureKind)
      (status : CompletionStatus) (settlements : List StoredMediaOutputSettlement)
      (handle : Option JsonValue)
  | recordCancellation (attemptId : String) (cancellation : CancellationAnswer)
  /-- The callback of `restart`. -/
  | addAttempt (expectedRevision : Option String) (attemptId submissionKey : String)

/-- What a service keeps of a registered provider: which of its two further methods it has. -/
structure MediaGenerationAdapter where
  adapterId : String
  reads : Bool
  cancels : Bool
  deriving DecidableEq, Repr

/-- `providerFor`. -/
def providerFor (adapters : List MediaGenerationAdapter) (adapterId : String) :
    Except MediaJobError MediaGenerationAdapter :=
  match adapters.find? fun adapter => adapter.adapterId = adapterId with
  | none => .error .adapterUnavailable
  | some adapter => .ok adapter

section Changes

variable (limits : MediaJobLimits) (adapters : List MediaGenerationAdapter) (now : Except MediaJobError String) (current : StoredMediaJob)

/-- The callback writes an attempt at the time it reads; `change` is the attempt but for that
time. -/
def writeAttempt (attempt change : StoredMediaAttempt) :
    Except MediaJobError (Option StoredMediaJob) := do
  let updatedAt ← now
  return some (current.replaceAttempt attempt.attemptId { change with updatedAt := updatedAt })

/-- `{ ...attempt, ...(handle === undefined ? {} : { providerHandle: handle }) }`. -/
def StoredMediaAttempt.withHandle (attempt : StoredMediaAttempt) (handle : Option JsonValue) :
    StoredMediaAttempt :=
  { attempt with providerHandle := handle.or attempt.providerHandle }

/-- The callback of `cancel`. -/
def requestCancel (expectedRevision attemptId : Option String) :
    Except MediaJobError (Option StoredMediaJob) := do
  let _ ← providerFor adapters current.adapterId
  current.assertExpected expectedRevision
  let attempt ← current.selectAttempt attemptId
  if attempt.status.terminal then return none
  else
    let status := match attempt.status with
      | .queued => .cancelled
      | .pending => .cancelRequested
      | status => status
    writeAttempt now current attempt
      { attempt with status := status, disposition := .abandoned, cancellation := .requested }

/-- An attempt that is given up before its provider has been called. -/
def StoredMediaAttempt.unstarted (attempt : StoredMediaAttempt) : StoredMediaAttempt :=
  { attempt with status := .cancelled, disposition := .abandoned, cancellation := .requested }

/-- The first callback of `startAttempt`. -/
def claimStart (attemptId : String) (aborted : Bool) :
    Except MediaJobError (Option StoredMediaJob) := do
  let attempt ← current.selectAttempt (some attemptId)
  if attempt.status ≠ .queued then return none
  else if aborted then writeAttempt now current attempt attempt.unstarted
  else writeAttempt now current attempt { attempt with status := .submitting }

/-- The second callback of `startAttempt`. -/
def abandonStart (attemptId : String) : Except MediaJobError (Option StoredMediaJob) := do
  let attempt ← current.selectAttempt (some attemptId)
  if attempt.status ≠ .submitting ∨ attempt.providerHandle.isSome then return none
  else writeAttempt now current attempt attempt.unstarted

/-- `TERMINAL.has(attempt.status) || attempt.status === "settling"`. -/
def StoredMediaAttempt.settled (attempt : StoredMediaAttempt) : Bool :=
  attempt.status.terminal || attempt.status = .settling

/-- The callback of `applyObservation` for a pending provider. -/
def observePending (attemptId : String) (handle : JsonValue) :
    Except MediaJobError (Option StoredMediaJob) := do
  let attempt ← current.selectAttempt (some attemptId)
  if attempt.settled then return none
  else
    writeAttempt now current attempt
      { attempt.clearAttemptOutcome with
        status := if attempt.disposition = .abandoned then .cancelRequested else .pending
        providerHandle := some handle }

/-- The callback of `applyObservation` for a provider that has cancelled. -/
def observeCancelled (attemptId : String) (handle : Option JsonValue) :
    Except MediaJobError (Option StoredMediaJob) := do
  let attempt ← current.selectAttempt (some attemptId)
  if attempt.settled then return none
  else
    writeAttempt now current attempt
      ({ attempt.clearAttemptOutcome with
        status := .cancelled, cancellation := .confirmed }.withHandle handle)

/-- An attempt whose outputs are settled but cannot be stored. -/
def StoredMediaAttempt.overCapacity (attempt : StoredMediaAttempt)
    (outputSettlements : List StoredMediaOutputSettlement) (handle : Option JsonValue) :
    StoredMediaAttempt :=
  { attempt.clearAttemptOutcome with
    status := .failed
    failure := some .capacity
    outputSettlements := outputSettlements }.withHandle handle

/-- The bundle that `publishBundle` makes of settled outputs. -/
def settledBundle (attempt : StoredMediaAttempt) (bundleId : String) (status : CompletionStatus)
    (outputSettlements : List StoredMediaOutputSettlement) : ResultBundle where
  bundleId := bundleId
  jobId := current.jobId
  attemptId := attempt.attemptId
  disposition := bundleDisposition status attempt.disposition
  resources := outputSettlements.filterMap (·.resource)
  failures := outputSettlements.filterMap (·.failure)

/-- The callback of `publishBundle`. -/
def publishBundle (attemptId bundleId : String) (status : CompletionStatus)
    (settlements : List StoredMediaOutputSettlement) (handle : Option JsonValue) :
    Except MediaJobError (Option StoredMediaJob) := do
  let attempt ← current.selectAttempt (some attemptId)
  if attempt.status.terminal ∨
      attempt.status = .settling ∧ attempt.settlingStatus ≠ some status then return none
  else
    demand (!(current.bundles.any (·.bundleId = bundleId))) .conflict
    let outputSettlements ← mergeOutputSettlements attempt.outputSettlements settlements
    let updatedAt ← now
    let bundle := settledBundle current attempt bundleId status outputSettlements
    let failed := attempt.overCapacity outputSettlements handle
    if exceedsBundleBytes outputSettlements limits.maxBundleBytes then
      writeAttempt (.ok updatedAt) current attempt failed
    else
      match bundle.admitted limits with
      | .error .jsonLimit => writeAttempt (.ok updatedAt) current attempt failed
      | .error error => throw error
      | .ok () =>
        let published := current.replaceAttempt attempt.attemptId
          ({ attempt.clearAttemptOutcome with
            status := status.status
            bundleId := some bundleId
            outputSettlements := outputSettlements
            updatedAt := updatedAt }.withHandle handle)
        return some { published with bundles := current.bundles ++ [bundle] }

/-- The callback of `recordSettling`. -/
def recordSettling (attemptId : String) (status : CompletionStatus)
    (settlements : List StoredMediaOutputSettlement) (handle : Option JsonValue) :
    Except MediaJobError (Option StoredMediaJob) := do
  let attempt ← current.selectAttempt (some attemptId)
  if attempt.status.terminal ∨
      attempt.status = .settling ∧ attempt.settlingStatus ≠ some status then return none
  else
    let outputSettlements ← mergeOutputSettlements attempt.outputSettlements settlements
    if exceedsBundleBytes outputSettlements limits.maxBundleBytes then
      writeAttempt now current attempt (attempt.overCapacity outputSettlements handle)
    else
      writeAttempt now current attempt
        ({ attempt.clearAttemptOutcome with
          status := .settling
          settlingStatus := some status
          outputSettlements := outputSettlements }.withHandle handle)

/-- The callback of `markUnknown`. -/
def markUnknown (attemptId : String) : Except MediaJobError (Option StoredMediaJob) := do
  let attempt ← current.selectAttempt (some attemptId)
  if attempt.settled then return none
  else
    writeAttempt now current attempt
      { attempt.clearAttemptOutcome with status := .outcomeUnknown, failure := some .unknown }

/-- The callback of `recoverInterruptedSubmission`. -/
def recoverInterruptedSubmission (attemptId : String) :
    Except MediaJobError (Option StoredMediaJob) := do
  let attempt ← current.selectAttempt (some attemptId)
  if attempt.status ≠ .submitting ∨ attempt.providerHandle.isSome then return none
  else
    writeAttempt now current attempt
      { attempt.clearAttemptOutcome with status := .outcomeUnknown, failure := some .unknown }

/-- The callback of `markFailed`. -/
def markFailed (attemptId : String) (failure : MediaFailureKind) (handle : Option JsonValue) :
    Except MediaJobError (Option StoredMediaJob) := do
  let attempt ← current.selectAttempt (some attemptId)
  if attempt.settled then return none
  else
    writeAttempt now current attempt
      ({ attempt.clearAttemptOutcome with
        status := .failed, failure := some failure }.withHandle handle)

/-- The callback of `recordOutputFailure`. -/
def recordOutputFailure (attemptId : String) (failure : MediaFailureKind)
    (status : CompletionStatus) (settlements : List StoredMediaOutputSettlement)
    (handle : Option JsonValue) : Except MediaJobError (Option StoredMediaJob) := do
  let attempt ← current.selectAttempt (some attemptId)
  if attempt.status.terminal ∨
      attempt.status = .settling ∧ attempt.settlingStatus ≠ some status then return none
  else
    let outputSettlements ← mergeOutputSettlements attempt.outputSettlements settlements
    let exceeded := exceedsBundleBytes outputSettlements limits.maxBundleBytes
    writeAttempt now current attempt
      ({ attempt.clearAttemptOutcome with
        status := .failed
        failure := some (if exceeded then .capacity else failure)
        outputSettlements := outputSettlements }.withHandle handle)

/-- The callback of `recordCancellation`. -/
def recordCancellation (attemptId : String) (answer : CancellationAnswer) :
    Except MediaJobError (Option StoredMediaJob) := do
  let attempt ← current.selectAttempt (some attemptId)
  let status := if answer = .confirmed ∧ ¬ attempt.settled then .cancelled else attempt.status
  if attempt.cancellation = answer.cancellation ∧ attempt.status = status then return none
  else
    let base := if status = .cancelled then attempt.clearAttemptOutcome else attempt
    writeAttempt now current attempt
      { base with status := status, cancellation := answer.cancellation }

/-- `newAttempt`. -/
def newAttempt (ordinal : Nat) (recordedAt attemptId submissionKey : String) :
    StoredMediaAttempt where
  attemptId := attemptId
  ordinal := ordinal
  submissionKey := submissionKey
  status := .queued
  disposition := .active
  cancellation := .notRequested
  startedAt := recordedAt
  updatedAt := recordedAt
  providerHandle := none
  settlingStatus := none
  outputSettlements := []
  bundleId := none
  failure := none

/-- `assertRestartable`. -/
def assertRestartable (expectedRevision : Option String) : Except MediaJobError Unit := do
  let _ ← providerFor adapters current.adapterId
  current.assertExpected expectedRevision
  let active ← current.selectAttempt none
  demand (active.status.terminal || active.disposition = .abandoned) .conflict
  demand (current.attempts.length < limits.maxAttemptsPerJob) (.capacity "attempts")

/-- The callback of `restart`. -/
def addAttempt (expectedRevision : Option String) (attemptId submissionKey : String) :
    Except MediaJobError (Option StoredMediaJob) := do
  assertRestartable limits adapters current expectedRevision
  demand (!(current.attempts.any fun candidate =>
    candidate.attemptId = attemptId || candidate.submissionKey = submissionKey)) .conflict
  let recordedAt ← now
  let attempt := newAttempt current.attempts.length recordedAt attemptId submissionKey
  return some { current with
    currentAttemptId := attempt.attemptId
    attempts := current.attempts ++ [attempt]
    updatedAt := attempt.startedAt }

/-- A callback on the stored job. -/
def applyMediaChange : MediaChange → Except MediaJobError (Option StoredMediaJob)
  | .requestCancel expectedRevision attemptId =>
    requestCancel adapters now current expectedRevision attemptId
  | .claimStart attemptId aborted => claimStart now current attemptId aborted
  | .abandonStart attemptId => abandonStart now current attemptId
  | .observePending attemptId handle => observePending now current attemptId handle
  | .observeCancelled attemptId handle => observeCancelled now current attemptId handle
  | .publishBundle attemptId bundleId status settlements handle =>
    publishBundle limits now current attemptId bundleId status settlements handle
  | .recordSettling attemptId status settlements handle =>
    recordSettling limits now current attemptId status settlements handle
  | .markUnknown attemptId => markUnknown now current attemptId
  | .recoverInterruptedSubmission attemptId => recoverInterruptedSubmission now current attemptId
  | .markFailed attemptId failure handle => markFailed now current attemptId failure handle
  | .recordOutputFailure attemptId failure status settlements handle =>
    recordOutputFailure limits now current attemptId failure status settlements handle
  | .recordCancellation attemptId answer => recordCancellation now current attemptId answer
  | .addAttempt expectedRevision attemptId submissionKey =>
    addAttempt limits adapters now current expectedRevision attemptId submissionKey

end Changes

end OpenGameAgent
