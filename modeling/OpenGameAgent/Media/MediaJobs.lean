import Mathlib.Algebra.Ring.Int.Defs
import Mathlib.Data.List.Sort
import OpenGameAgent.Library.OrderedMap
import OpenGameAgent.Library.Run
import OpenGameAgent.Protocol.Json
import OpenGameAgent.Protocol.Timestamp

/-!
# Media jobs

The stored records of `packages/media/src/types.ts` and the checks that
`captureStoredMediaJob` of `stored-media-job.ts` makes of them.

A revision is a canonical decimal, so it is a natural number; a timestamp stays the text it is.
Ordinals and byte lengths that come from a provider or a publisher are numbers of JavaScript,
where −0 is an integer that no JSON value is.  A JSON value is within a budget when its depth and
its canonical bytes are.
-/

namespace OpenGameAgent

/-! ## Records -/

/-- A number without a fraction. -/
inductive JsInteger where
  | integer (n : Int)
  | negativeZero
  deriving DecidableEq, Repr

namespace JsInteger

/-- What comparisons see of a number: −0 equals 0. -/
def value : JsInteger → Int
  | integer n => n
  | negativeZero => 0

/-- `normalizeJsonValue` refuses −0. -/
def plain (number : JsInteger) : Bool := number ≠ negativeZero

/-- `Number.isSafeInteger(number) && number >= 0`. -/
def safe (number : JsInteger) : Bool := 0 ≤ number.value && number.value ≤ maxSafeInteger

end JsInteger

inductive MediaKind where
  | image | video | audio | file
  deriving DecidableEq, Repr

def MediaKind.text : MediaKind → String
  | .image => "image"
  | .video => "video"
  | .audio => "audio"
  | .file => "file"

inductive MediaJobStatus where
  | queued | submitting | pending | cancelRequested | settling | outcomeUnknown | succeeded
  | partiallySucceeded | failed | cancelled
  deriving DecidableEq, Repr

/-- `TERMINAL`. -/
def MediaJobStatus.terminal : MediaJobStatus → Bool
  | .succeeded | .partiallySucceeded | .failed | .cancelled => true
  | _ => false

inductive MediaJobDisposition where
  | active | abandoned
  deriving DecidableEq, Repr

inductive MediaCancellation where
  | notRequested | requested | unsupported | unknown | rejected | confirmed
  deriving DecidableEq, Repr

inductive MediaFailureKind where
  | authentication | permission | transport | provider | malformed | capacity | resource | unknown
  deriving DecidableEq, Repr

def MediaFailureKind.text : MediaFailureKind → String
  | .authentication => "authentication"
  | .permission => "permission"
  | .transport => "transport"
  | .provider => "provider"
  | .malformed => "malformed"
  | .capacity => "capacity"
  | .resource => "resource"
  | .unknown => "unknown"

/-- `MediaJobLimits`, as `captureMediaJobLimits` has captured them. -/
structure MediaJobLimits where
  maxIdentifierBytes : Nat
  maxAdapterIdBytes : Nat
  maxRequestBytes : Nat
  maxJsonDepth : Nat
  maxProviderHandleBytes : Nat
  maxAttemptsPerJob : Nat
  maxOutputsPerAttempt : Nat
  maxResourceBytes : Nat
  maxBundleBytes : Nat
  maxManifestBytes : Nat
  maxMediaTypeBytes : Nat

structure MediaGenerationRequest where
  kind : MediaKind
  input : JsonValue
  deriving DecidableEq

structure MediaChildFailure where
  ordinal : JsInteger
  failure : MediaFailureKind
  deriving DecidableEq, Repr

structure GeneratedResourceRef where
  resourceId : String
  kind : MediaKind
  mediaType : String
  byteLength : JsInteger
  sha256 : String
  ordinal : JsInteger
  deriving DecidableEq, Repr

inductive BundleDisposition where
  | complete | incomplete | late
  deriving DecidableEq, Repr

def BundleDisposition.text : BundleDisposition → String
  | .complete => "complete"
  | .incomplete => "partial"
  | .late => "late"

structure ResultBundle where
  bundleId : String
  jobId : String
  attemptId : String
  disposition : BundleDisposition
  resources : List GeneratedResourceRef
  failures : List MediaChildFailure
  deriving DecidableEq, Repr

inductive StoredMediaOutputSettlement where
  | published (ordinal : JsInteger) (resource : GeneratedResourceRef)
  | failed (ordinal : JsInteger) (failure : MediaFailureKind)
  deriving DecidableEq, Repr

namespace StoredMediaOutputSettlement

def ordinal : StoredMediaOutputSettlement → JsInteger
  | .published ordinal _ | .failed ordinal _ => ordinal

def resource : StoredMediaOutputSettlement → Option GeneratedResourceRef
  | .published _ resource => some resource
  | .failed _ _ => none

def failure : StoredMediaOutputSettlement → Option MediaChildFailure
  | .published _ _ => none
  | .failed ordinal failure => some ⟨ordinal, failure⟩

/-- All numbers of a settlement are JSON values. -/
def plain : StoredMediaOutputSettlement → Bool
  | .published ordinal resource =>
    ordinal.plain && resource.byteLength.plain && resource.ordinal.plain
  | .failed ordinal _ => ordinal.plain

end StoredMediaOutputSettlement

/-- The statuses of a provider that has completed. -/
inductive CompletionStatus where
  | succeeded | partiallySucceeded
  deriving DecidableEq, Repr

structure StoredMediaAttempt where
  attemptId : String
  ordinal : Nat
  submissionKey : String
  status : MediaJobStatus
  disposition : MediaJobDisposition
  cancellation : MediaCancellation
  startedAt : String
  updatedAt : String
  providerHandle : Option JsonValue
  settlingStatus : Option CompletionStatus
  outputSettlements : List StoredMediaOutputSettlement
  bundleId : Option String
  failure : Option MediaFailureKind
  deriving DecidableEq

structure StoredMediaJob where
  jobId : String
  adapterId : String
  request : MediaGenerationRequest
  revision : Nat
  createdAt : String
  updatedAt : String
  currentAttemptId : String
  attempts : List StoredMediaAttempt
  bundles : List ResultBundle
  deriving DecidableEq

/-! ## Errors -/

/-- The errors of the media code; `host` is what a host callback throws, `aborted` the
reason of a signal. -/
inductive MediaJobError where
  | validation (code : String)
  | capacity (code : String)
  | jsonLimit
  | invalidJsonValue
  | conflict
  | notFound
  | controlUnsupported
  | adapterUnavailable
  | host
  | aborted
  deriving DecidableEq, Repr

def MediaJobError.invalidJob : MediaJobError := .validation "invalid_job"

/-! ## Checks -/

/-- `identifier`. -/
def mediaIdentifier (maxBytes : Nat) (value : String) : Except MediaJobError Unit := do
  demand (isOpaqueIdentifier value) .invalidJob
  demand (utf8Length (utf16 value) ≤ maxBytes) (.capacity "identifier")

/-- `timestamp`. -/
def mediaTimestamp (value : String) : Except MediaJobError Unit :=
  demand (isCanonicalTimestamp value) .invalidJob

/-- `normalizeJsonValueWithin`, on a value that is JSON already. -/
def mediaJson (limits : MediaJobLimits) (maxBytes : Nat) (value : JsonValue) :
    Except MediaJobError Unit :=
  demand (jsonDepth value ≤ limits.maxJsonDepth && jsonBytes value ≤ maxBytes) .jsonLimit

/-- `outputOrdinal`. -/
def outputOrdinal (limits : MediaJobLimits) (ordinal : JsInteger) : Except MediaJobError Unit := do
  demand ordinal.safe .invalidJob
  demand (ordinal.value < limits.maxOutputsPerAttempt) (.capacity "outputs")

/-- `captureResource`. -/
def captureResource (limits : MediaJobLimits) (resource : GeneratedResourceRef) :
    Except MediaJobError Unit := do
  demand (isSha256 resource.sha256 && resource.resourceId = resource.sha256 &&
    !resource.mediaType.isEmpty && resource.byteLength.safe) .invalidJob
  demand (utf8Length (utf16 resource.mediaType) ≤ limits.maxMediaTypeBytes) (.capacity "resource")
  demand (resource.byteLength.value ≤ limits.maxResourceBytes) (.capacity "resource")
  outputOrdinal limits resource.ordinal

/-- `captureSettlement`. -/
def captureSettlement (limits : MediaJobLimits) :
    StoredMediaOutputSettlement → Except MediaJobError Unit
  | .published ordinal resource => do
    outputOrdinal limits ordinal
    captureResource limits resource
  | .failed ordinal _ => outputOrdinal limits ordinal

/-- `assertStrictOrdinals`. -/
def strictOrdinals (ordinals : List JsInteger) : Bool :=
  ordinals.Pairwise (·.value < ·.value)

/-- What `assertAttemptState` asks of the disposition and the cancellation of an attempt. -/
def StoredMediaAttempt.cancellationFits (attempt : StoredMediaAttempt) : Bool :=
  !(attempt.disposition = .abandoned && attempt.cancellation = .notRequested) &&
    !(attempt.disposition = .active && attempt.cancellation ≠ .notRequested &&
      !(attempt.status = .cancelled && attempt.cancellation = .confirmed)) &&
    !(attempt.status = .pending && attempt.disposition ≠ .active) &&
    !(attempt.status = .queued &&
      (attempt.disposition ≠ .active || attempt.providerHandle.isSome)) &&
    !(attempt.status = .cancelRequested &&
      (attempt.disposition ≠ .abandoned || attempt.cancellation = .confirmed)) &&
    !(attempt.status = .submitting && attempt.disposition = .abandoned &&
      attempt.cancellation ≠ .requested) &&
    !(attempt.status = .submitting && attempt.providerHandle.isSome)

/-- What `assertAttemptState` asks of the outcome of an attempt. -/
def StoredMediaAttempt.outcomeFits (attempt : StoredMediaAttempt) : Bool :=
  let published := attempt.outputSettlements.any fun settlement => settlement.resource.isSome
  let failed := attempt.outputSettlements.any fun settlement => settlement.failure.isSome
  match attempt.status with
  | .settling =>
    attempt.bundleId.isNone && attempt.failure.isNone &&
      match attempt.settlingStatus with
      | none => false
      | some .succeeded => !failed
      | some .partiallySucceeded => failed
  | .succeeded =>
    attempt.settlingStatus.isNone && attempt.bundleId.isSome && attempt.failure.isNone &&
      !attempt.outputSettlements.isEmpty && !failed
  | .partiallySucceeded =>
    attempt.settlingStatus.isNone && attempt.bundleId.isSome && attempt.failure.isNone &&
      published && failed
  | .failed => attempt.settlingStatus.isNone && attempt.bundleId.isNone && attempt.failure.isSome
  | .outcomeUnknown =>
    attempt.settlingStatus.isNone && attempt.bundleId.isNone &&
      attempt.failure = some .unknown && attempt.outputSettlements.isEmpty
  | .pending | .cancelRequested =>
    attempt.settlingStatus.isNone && attempt.bundleId.isNone && attempt.failure.isNone &&
      attempt.outputSettlements.isEmpty && attempt.providerHandle.isSome
  | _ =>
    attempt.settlingStatus.isNone && attempt.bundleId.isNone && attempt.failure.isNone &&
      attempt.outputSettlements.isEmpty

/-- `captureAttempt`, on an attempt and the ordinal that it should have. -/
def captureAttempt (limits : MediaJobLimits) (attempt : StoredMediaAttempt) (ordinal : Nat) :
    Except MediaJobError Unit := do
  mediaIdentifier limits.maxIdentifierBytes attempt.attemptId
  mediaIdentifier limits.maxIdentifierBytes attempt.submissionKey
  demand (attempt.ordinal = ordinal) .invalidJob
  mediaTimestamp attempt.startedAt
  mediaTimestamp attempt.updatedAt
  attempt.providerHandle.forM (mediaJson limits limits.maxProviderHandleBytes)
  attempt.bundleId.forM (mediaIdentifier limits.maxIdentifierBytes)
  demand (attempt.outputSettlements.length ≤ limits.maxOutputsPerAttempt) (.capacity "outputs")
  attempt.outputSettlements.forM (captureSettlement limits)
  demand (strictOrdinals (attempt.outputSettlements.map (·.ordinal))) .invalidJob
  demand (attempt.cancellationFits && attempt.outcomeFits) .invalidJob

/-- A failure of a bundle as JSON. -/
def MediaChildFailure.toJson (failure : MediaChildFailure) : JsonValue :=
  .record [("ordinal", some (.int failure.ordinal.value)),
    ("failure", some (.text failure.failure.text))]

def GeneratedResourceRef.toJson (resource : GeneratedResourceRef) : JsonValue :=
  .record [("resourceId", some (.text resource.resourceId)),
    ("kind", some (.text resource.kind.text)), ("mediaType", some (.text resource.mediaType)),
    ("byteLength", some (.int resource.byteLength.value)),
    ("sha256", some (.text resource.sha256)), ("ordinal", some (.int resource.ordinal.value))]

/-- A bundle as the JSON that a manifest budget measures. -/
def ResultBundle.toJson (bundle : ResultBundle) : JsonValue :=
  .record [("bundleId", some (.text bundle.bundleId)), ("jobId", some (.text bundle.jobId)),
    ("attemptId", some (.text bundle.attemptId)),
    ("disposition", some (.text bundle.disposition.text)),
    ("resources", some (.array (bundle.resources.map GeneratedResourceRef.toJson))),
    ("failures", some (.array (bundle.failures.map MediaChildFailure.toJson)))]

/-- All numbers of a bundle are JSON values. -/
def ResultBundle.plain (bundle : ResultBundle) : Bool :=
  bundle.resources.all (fun resource => resource.byteLength.plain && resource.ordinal.plain) &&
    bundle.failures.all fun failure => failure.ordinal.plain

/-- `canonicalizeJsonValueWithin` of a bundle, with the manifest budget.  Here −0 shows before any
budget runs out; a job that keeps such a number is refused in either case. -/
def ResultBundle.admitted (limits : MediaJobLimits) (bundle : ResultBundle) :
    Except MediaJobError Unit := do
  demand bundle.plain .invalidJsonValue
  mediaJson limits limits.maxManifestBytes bundle.toJson

/-- The bytes of some resources in all. -/
def resourceBytes (resources : List GeneratedResourceRef) : Int :=
  (resources.map (·.byteLength.value)).sum

/-- `captureBundle`. -/
def captureBundle (limits : MediaJobLimits) (jobId : String) (bundle : ResultBundle) :
    Except MediaJobError Unit := do
  mediaIdentifier limits.maxIdentifierBytes bundle.bundleId
  demand (bundle.jobId = jobId) .invalidJob
  mediaIdentifier limits.maxIdentifierBytes bundle.attemptId
  demand (bundle.resources.length + bundle.failures.length ≤ limits.maxOutputsPerAttempt)
    (.capacity "outputs")
  bundle.resources.forM (captureResource limits)
  bundle.failures.forM fun failure => outputOrdinal limits failure.ordinal
  demand (strictOrdinals (bundle.resources.map (·.ordinal))) .invalidJob
  demand (strictOrdinals (bundle.failures.map (·.ordinal))) .invalidJob
  demand (bundle.resources.map (·.ordinal.value) ++ bundle.failures.map (·.ordinal.value)).Nodup
    .invalidJob
  demand (resourceBytes bundle.resources ≤ limits.maxBundleBytes) (.capacity "bundle")
  bundle.admitted limits

/-- The disposition that the bundle of an attempt should have. -/
def StoredMediaAttempt.expectedDisposition (attempt : StoredMediaAttempt) :
    Option BundleDisposition :=
  if attempt.disposition = .abandoned then some .late
  else if attempt.status = .succeeded then some .complete
  else if attempt.status = .partiallySucceeded then some .incomplete
  else none

/-- A bundle is the bundle of one of the attempts, with what that attempt has settled. -/
def linksAttempt (attempts : List StoredMediaAttempt) (bundle : ResultBundle) : Bool :=
  (attempts.find? fun attempt => attempt.attemptId = bundle.attemptId).any fun attempt =>
    attempt.bundleId = some bundle.bundleId &&
      attempt.expectedDisposition = some bundle.disposition &&
      bundle.resources = attempt.outputSettlements.filterMap (·.resource) &&
      bundle.failures = attempt.outputSettlements.filterMap (·.failure)

/-- `assertBundleLinks`. -/
def assertBundleLinks (attempts : List StoredMediaAttempt) (bundles : List ResultBundle) :
    Except MediaJobError Unit := do
  demand (bundles.all (linksAttempt attempts) &&
    (bundles.map (·.attemptId)).Nodup) .invalidJob
  demand (attempts.all fun attempt =>
    attempt.bundleId.isSome = (bundles.map (·.attemptId)).contains attempt.attemptId) .invalidJob

/-- All numbers of a job are JSON values. -/
def StoredMediaJob.plain (job : StoredMediaJob) : Bool :=
  job.attempts.all (fun attempt => attempt.outputSettlements.all (·.plain)) &&
    job.bundles.all (·.plain)

/-- `captureStoredMediaJob`. -/
def captureStoredMediaJob (limits : MediaJobLimits) (job : StoredMediaJob) :
    Except MediaJobError Unit := do
  demand job.plain .invalidJob
  mediaIdentifier limits.maxIdentifierBytes job.jobId
  mediaIdentifier limits.maxAdapterIdBytes job.adapterId
  mediaJson limits limits.maxRequestBytes job.request.input
  demand (0 < job.revision) .invalidJob
  mediaTimestamp job.createdAt
  mediaTimestamp job.updatedAt
  mediaIdentifier limits.maxIdentifierBytes job.currentAttemptId
  demand (!job.attempts.isEmpty) .invalidJob
  demand (job.attempts.length ≤ limits.maxAttemptsPerJob) (.capacity "attempts")
  job.attempts.zipIdx.forM fun attempt => captureAttempt limits attempt.1 attempt.2
  demand (job.attempts.map (·.attemptId)).Nodup .invalidJob
  demand (job.attempts.map (·.submissionKey)).Nodup .invalidJob
  demand (job.attempts.getLast?.map (·.attemptId) = some job.currentAttemptId) .invalidJob
  demand (job.attempts.dropLast.all fun attempt =>
    attempt.status.terminal || attempt.disposition = .abandoned) .invalidJob
  demand (job.bundles.length ≤ limits.maxAttemptsPerJob) (.capacity "attempts")
  job.bundles.forM (captureBundle limits job.jobId)
  demand (job.bundles.map (·.bundleId)).Nodup .invalidJob
  assertBundleLinks job.attempts job.bundles

end OpenGameAgent
